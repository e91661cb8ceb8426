/-
Which archives end a scan. An archive that cannot be read is a failure of its entry, and a member
that cannot be read is one of the member; a walk survives both. Three things are troubles of another
kind: a record without a name, behind which no more is given, and, when its content is needed, a
member of an archive in memory that starts where no memory is, or one whose LZMA data are refused.
-/
import JndiScan.Container
import JndiScan.Proofs.Walk.DepthLimit
import JndiScan.Proofs.Walk.Steps
import JndiScan.Proofs.Zip.Member

namespace JndiScan.Decoding

open Walk (Yields bareClassOctets content_ofPath)
open Zip (Record Source)

/-! ## Pulling to the end -/

/-- In every session of the host the work raises the trouble, and leaves the host as it is. -/
def Throws (host : Host) (scratch : List Text) (work : Work α) (trouble : Trouble) : Prop :=
  ∀ s, At host scratch s → ∃ s', work s = .error trouble s' ∧ At host scratch s'

/-- What pulling from a position comes to, whatever is read in between: these entries, and then the
end or a trouble. -/
inductive Enumerates (D : Decoding) (host : Host) (scratch : List Text) :
    Position → List Entry → Option Trouble → Prop
  | ended {p : Position} :
    Yields (At host scratch) (At host scratch) (D.pull p) none →
    Enumerates D host scratch p [] none
  | raised {p : Position} {trouble : Trouble} :
    Throws host scratch (D.pull p) trouble → Enumerates D host scratch p [] (some trouble)
  | next {p next : Position} {x : Entry} {xs : List Entry} {last : Option Trouble} :
    Yields (At host scratch) (At host scratch) (D.pull p) (some (x, next)) →
    Enumerates D host scratch next xs last → Enumerates D host scratch p (x :: xs) last

/-- What may be raised while a position is pulled from to the end and the contents of its entries
are needed. -/
inductive Raises (D : Decoding) (host : Host) (scratch : List Text) (p : Position) :
    Trouble → Prop
  | pulling {xs : List Entry} {trouble : Trouble} :
    Enumerates D host scratch p xs (some trouble) → Raises D host scratch p trouble
  | reading {xs : List Entry} {last : Option Trouble} {x : Entry} {trouble : Trouble} :
    Enumerates D host scratch p xs last → x ∈ xs → Throws host scratch x.need trouble →
    Raises D host scratch p trouble

section Pulling

variable {D : Decoding} {host : Host} {scratch : List Text} {p p' : Position}
variable {xs ys : List Entry} {last last' : Option Trouble} {trouble : Trouble}

theorem Throws.not_yields {work : Work α} {x : α} (h : Throws host scratch work trouble)
    (hx : Yields (At host scratch) (At host scratch) work x) : False := by
  obtain ⟨_, herror, -⟩ := h ⟨host, scratch, []⟩ ⟨rfl, rfl⟩
  obtain ⟨_, hok, -⟩ := hx ⟨host, scratch, []⟩ ⟨rfl, rfl⟩
  cases herror.symm.trans hok

theorem Throws.unique {work : Work α} {trouble' : Trouble} (h : Throws host scratch work trouble)
    (h' : Throws host scratch work trouble') : trouble = trouble' := by
  obtain ⟨_, herror, -⟩ := h ⟨host, scratch, []⟩ ⟨rfl, rfl⟩
  obtain ⟨_, herror', -⟩ := h' ⟨host, scratch, []⟩ ⟨rfl, rfl⟩
  cases herror.symm.trans herror'
  rfl

theorem unique_of_yields {work : Work α} {x y : α}
    (h : Yields (At host scratch) (At host scratch) work x)
    (h' : Yields (At host scratch) (At host scratch) work y) : x = y := by
  obtain ⟨_, hok, -⟩ := h ⟨host, scratch, []⟩ ⟨rfl, rfl⟩
  obtain ⟨_, hok', -⟩ := h' ⟨host, scratch, []⟩ ⟨rfl, rfl⟩
  cases hok.symm.trans hok'
  rfl

theorem Enumerates.unique (h : Enumerates D host scratch p xs last)
    (h' : Enumerates D host scratch p ys last') : xs = ys ∧ last = last' := by
  induction h generalizing ys with
  | ended hpull =>
    cases h' with
    | ended => exact ⟨rfl, rfl⟩
    | raised hraised => exact (hraised.not_yields hpull).elim
    | next hnext _ => cases unique_of_yields hpull hnext
  | raised hraised =>
    cases h' with
    | ended hpull => exact (hraised.not_yields hpull).elim
    | raised hraised' => exact ⟨rfl, congrArg some (hraised.unique hraised')⟩
    | next hnext _ => exact (hraised.not_yields hnext).elim
  | next hnext _ ih =>
    cases h' with
    | ended hpull => cases unique_of_yields hnext hpull
    | raised hraised => exact (hraised.not_yields hnext).elim
    | next hnext' hrest =>
      cases unique_of_yields hnext hnext'
      obtain ⟨rfl, rfl⟩ := ih hrest
      exact ⟨rfl, rfl⟩

/-- What may be raised, once it is known what the pulling comes to. -/
theorem raises_iff (h : Enumerates D host scratch p xs last) :
    Raises D host scratch p trouble ↔
      last = some trouble ∨ ∃ x ∈ xs, Throws host scratch x.need trouble := by
  constructor
  · intro hraises
    cases hraises with
    | pulling hp => exact .inl (h.unique hp).2
    | reading hp hx hneed => exact .inr ⟨_, (h.unique hp).1 ▸ hx, hneed⟩
  · rintro (rfl | ⟨x, hx, hneed⟩)
    · exact .pulling h
    · exact .reading h hx hneed

/-- Where the first pull raises something, nothing else may be raised. -/
theorem raises_iff_of_raised {raised : Trouble}
    (h : Enumerates D host scratch p [] (some raised)) :
    Raises D host scratch p trouble ↔ trouble = raised := by
  rw [raises_iff h, Option.some_inj, eq_comm]
  simp

/-- Positions that are pulled from alike come to the same. -/
theorem Enumerates.of_pull
    (hpull : ∀ s, At host scratch s → ∃ s₁, At host scratch s₁ ∧ D.pull p s = D.pull p' s₁)
    (h : Enumerates D host scratch p' xs last) : Enumerates D host scratch p xs last := by
  have hyields : ∀ {x}, Yields (At host scratch) (At host scratch) (D.pull p') x →
      Yields (At host scratch) (At host scratch) (D.pull p) x := by
    intro x hx s hs
    obtain ⟨s₁, hs₁, heq⟩ := hpull s hs
    exact heq ▸ hx s₁ hs₁
  cases h with
  | ended hp => exact .ended (hyields hp)
  | raised hp =>
    refine .raised fun s hs => ?_
    obtain ⟨s₁, hs₁, heq⟩ := hpull s hs
    exact heq ▸ hp s₁ hs₁
  | next hp hrest => exact .next (hyields hp) hrest

end Pulling

/-! ## The members of an archive -/

/-- Is an entry given for the record? That of a member with the name that counts is. -/
def isGiven (only : Option Text) (r : Record) : Bool :=
  r.isDirectory? = some false && only.all (· = r.name)

/-- The records that entries are given for: none behind a record without a name. -/
def given (only : Option Text) (records : List Record) : List Record :=
  (records.takeWhile fun r => !r.name.isEmpty).filter (isGiven only)

/-- What the records end with: a record without a name is the last that is come to. -/
def lastOf (records : List Record) : Option Trouble :=
  if records.any (·.name.isEmpty) then some (.aborted .emptyName) else none

section Members

variable {D : Decoding} {host : Host} {scratch : List Text} {source : Source} {place : Provenance}
variable {only : Option Text} {r : Record} {records : List Record}

theorem pullMember_of_unnamed (h : r.name.isEmpty = true) :
    pullMember D source place only (r :: records) = throw (.aborted .emptyName) := by
  have hdirectory : r.isDirectory? = none := by
    rw [Record.isDirectory?, List.isEmpty_iff.1 h]
    rfl
  rw [pullMember, hdirectory]

theorem pullMember_of_named (h : r.name.isEmpty = false) :
    pullMember D source place only (r :: records) =
      if isGiven only r then
        pure (some (memberEntry D source place r, .archive source place only records))
      else pullMember D source place only records := by
  obtain ⟨isDirectory, hdirectory⟩ : ∃ b, r.isDirectory? = some b :=
    Option.isSome_iff_exists.1 (by simpa [Record.isDirectory?] using h)
  rw [pullMember, hdirectory, isGiven, hdirectory]
  cases isDirectory with
  | true => rfl
  | false => simp

theorem given_cons_of_unnamed (h : r.name.isEmpty = true) : given only (r :: records) = [] := by
  simp [given, h]

theorem given_cons_of_named (h : r.name.isEmpty = false) :
    given only (r :: records) =
      if isGiven only r then r :: given only records else given only records := by
  simp [given, h, List.filter_cons]

theorem lastOf_cons_of_unnamed (h : r.name.isEmpty = true) :
    lastOf (r :: records) = some (.aborted .emptyName) := by
  simp [lastOf, h]

theorem lastOf_cons_of_named (h : r.name.isEmpty = false) :
    lastOf (r :: records) = lastOf records := by
  simp [lastOf, h]

theorem lastOf_eq_some_iff {trouble : Trouble} :
    lastOf records = some trouble ↔
      trouble = .aborted .emptyName ∧ ∃ r ∈ records, r.name = [] := by
  rw [lastOf]
  cases hunnamed : records.any (·.name.isEmpty) with
  | true =>
    have hmem : ∃ r ∈ records, r.name = [] := by simpa using hunnamed
    rw [if_pos rfl, Option.some_inj, eq_comm, and_iff_left hmem]
  | false =>
    have hall : ∀ r ∈ records, r.name ≠ [] := by simpa using hunnamed
    simpa using fun _ => hall

/-- An archive gives its members one by one, up to a record without a name. -/
theorem enumerates_archive (D : Decoding) (host : Host) (scratch : List Text) (source : Source)
    (place : Provenance) (only : Option Text) (records : List Record) :
    Enumerates D host scratch (.archive source place only records)
      ((given only records).map (memberEntry D source place)) (lastOf records) := by
  induction records with
  | nil => exact .ended fun s hs => ⟨s, rfl, hs⟩
  | cons r records ih =>
    cases hname : r.name.isEmpty with
    | true =>
      rw [given_cons_of_unnamed hname, lastOf_cons_of_unnamed hname]
      exact .raised fun s hs => ⟨s, congrFun (pullMember_of_unnamed hname) s, hs⟩
    | false =>
      have hpull : D.pull (.archive source place only (r :: records)) = _ :=
        pullMember_of_named hname
      rw [given_cons_of_named hname, lastOf_cons_of_named hname]
      cases hgiven : isGiven only r with
      | true =>
        rw [hgiven] at hpull
        exact .next (fun s hs => ⟨s, congrFun hpull s, hs⟩) ih
      | false =>
        rw [hgiven] at hpull
        have halike : ∀ s, D.pull (.archive source place only (r :: records)) s =
            D.pull (.archive source place only records) s := congrFun hpull
        exact ih.of_pull fun s hs => ⟨s, hs, halike s⟩

/-! ## Needing a member -/

theorem throws_need_iff {x : Entry} {trouble : Trouble} :
    Throws host scratch x.need trouble ↔
      ∃ fault, x.content host = .error fault ∧ trouble = .ofOpening x.place fault := by
  have hneed : ∀ s, At host scratch s → x.need s = match x.content host with
      | .ok bytes => .ok bytes { s with opened := x.place :: s.opened }
      | .error fault =>
        .error (.ofOpening x.place fault) { s with opened := x.place :: s.opened } := by
    rintro s ⟨rfl, -⟩
    rw [Entry.need, Entry.read]
    cases x.content s.host <;> rfl
  cases hcontent : x.content host with
  | ok bytes =>
    simp only [hcontent] at hneed
    refine ⟨fun h => (h.not_yields fun s hs => ⟨_, hneed s hs, hs⟩).elim, ?_⟩
    rintro ⟨fault, hfault, -⟩
    cases hfault
  | error fault =>
    simp only [hcontent] at hneed
    have hthrows : Throws host scratch x.need (.ofOpening x.place fault) :=
      fun s hs => ⟨_, hneed s hs, hs⟩
    refine ⟨fun h => ⟨fault, rfl, h.unique hthrows⟩, ?_⟩
    rintro ⟨_, hfault, rfl⟩
    cases hfault
    exact hthrows

/-- The fault that a member ends a scan with when it cannot be read, if it ends it. -/
def fatal? (medium : Zip.Medium) : Zip.Fault → Option Fault
  | .positionTooLarge => if medium = .memory then some .memberBeyondMemory else none
  | .lzma wording => some (.lzma wording)
  | _ => none

/-- A member that cannot be read is a failure of its own, unless that ends the scan. -/
theorem ofOpening_ofMember (place : Provenance) (medium : Zip.Medium) (fault : Zip.Fault) :
    Trouble.ofOpening place (.ofMember place medium fault) =
      match fatal? medium fault with
      | some ending => .aborted ending
      | none => .ofReason place (.corruptMember fault) := by
  cases medium with
  | file => cases fault <;> rfl
  | memory => cases fault <;> rfl

theorem throws_need_memberEntry_iff {trouble : Trouble} :
    Throws host scratch (memberEntry D source place r).need trouble ↔
      ∃ fault, Zip.readMember D.codecs source r = .error fault ∧
        trouble = match fatal? source.medium fault with
          | some ending => .aborted ending
          | none => .ofReason (place.child r.name) (.corruptMember fault) := by
  rw [throws_need_iff]
  have hcontent : (memberEntry D source place r).content host =
      (Zip.readMember D.codecs source r).mapError
        (.ofMember (place.child r.name) source.medium) := rfl
  rw [hcontent]
  constructor
  · rintro ⟨fault, hfault, rfl⟩
    obtain ⟨cause, hcause, rfl⟩ := Host.mapError_eq_error_iff.1 hfault
    exact ⟨cause, hcause, ofOpening_ofMember ..⟩
  · rintro ⟨fault, hfault, rfl⟩
    exact ⟨_, Host.mapError_eq_error_iff.2 ⟨fault, hfault, rfl⟩, (ofOpening_ofMember ..).symm⟩

/-- What a member may end a scan with: in memory it starts where no memory is, or the decompressor
refuses the LZMA data that follow its header. -/
inductive EndedBy (codecs : Zip.Codecs) (source : Source) (r : Record) : Fault → Prop
  | beyondMemory : source.medium = .memory → Zip.isCounted r.offset = false →
    EndedBy codecs source r .memberBeyondMemory
  | lzma {following : Bytes} {wording : Text} : r.method = 14 →
    Zip.skipHeader source r = .ok following →
    Zip.Refuses codecs (following.take r.compressedSize) wording →
    EndedBy codecs source r (.lzma wording)

/-- A member is unreadable in a way that ends a scan exactly when it starts where no memory is or
its LZMA data are refused. -/
theorem endedBy_iff_readMember {codecs : Zip.Codecs} {ending : Fault} :
    EndedBy codecs source r ending ↔ ∃ fault, Zip.readMember codecs source r = .error fault ∧
      fatal? source.medium fault = some ending := by
  constructor
  · rintro (⟨hmemory, hoffset⟩ | ⟨hmethod, hheader, hrefuses⟩)
    · exact ⟨_, Zip.readMember_eq_positionTooLarge_iff.2 hoffset, if_pos hmemory⟩
    · exact ⟨_, Zip.readMember_eq_lzma_iff.2 ⟨hmethod, _, hheader, hrefuses⟩, rfl⟩
  · rintro ⟨fault, hfault, hfatal⟩
    unfold fatal? at hfatal
    split at hfatal
    · split at hfatal
      · next hmemory =>
        cases hfatal
        exact .beyondMemory hmemory (Zip.readMember_eq_positionTooLarge_iff.1 hfault)
      · cases hfatal
    · cases hfatal
      obtain ⟨hmethod, following, hheader, hrefuses⟩ := Zip.readMember_eq_lzma_iff.1 hfault
      exact .lzma hmethod hheader hrefuses
    · cases hfatal

/-- Which members end a scan when they are needed. -/
theorem aborts_need_memberEntry_iff {fault : Fault} :
    Throws host scratch (memberEntry D source place r).need (.aborted fault) ↔
      EndedBy D.codecs source r fault := by
  rw [throws_need_memberEntry_iff, endedBy_iff_readMember]
  constructor
  · rintro ⟨cause, hcause, heq⟩
    split at heq
    · next ending hfatal =>
      cases heq
      exact ⟨cause, hcause, hfatal⟩
    · cases heq
  · rintro ⟨cause, hcause, hfatal⟩
    exact ⟨cause, hcause, by rw [hfatal]⟩

end Members

/-! ## Opening an archive -/

/-- The size of the entry, if it is known, is within the limit. -/
def Within (n : Int) (e : Entry) : Prop :=
  ∀ size, e.size = some size → size ≤ n

section Archives

variable {D : Decoding} {host : Host} {scratch : List Text} {e : Entry} {bytes : Bytes} {n : Int}
variable {only : Option Text}

theorem checkSize_of_within (h : Within n e) : e.checkSize (.atMost n) = pure () := by
  unfold Entry.checkSize
  cases hsize : e.size with
  | none => rfl
  | some size => exact if_neg (Int.not_lt.2 (h size hsize))

theorem checkSize_of_exceeded {size : Int} (hsize : e.size = some size) (h : n < size) :
    e.checkSize (.atMost n) = throw (.ofReason e.place (.oversize size n)) := by
  unfold Entry.checkSize
  rw [hsize]
  exact if_pos h

/-- The first pull from an archive that is too large reads nothing. -/
theorem pull_archiveStart_of_exceeded (hlimit : D.maxEntrySize = .atMost n) {size : Int}
    (hsize : e.size = some size) (h : n < size) (only : Option Text) (s : Session) :
    D.pull (.archiveStart e only) s =
      .error (.ofReason e.place (.oversize size n)) s := by
  show (e.checkSize D.maxEntrySize >>= fun _ => _) s = _
  rw [hlimit, checkSize_of_exceeded hsize h]
  rfl

/-- An archive whose size exceeds the limit is never opened. -/
theorem enumerates_archiveStart_of_exceeded (hlimit : D.maxEntrySize = .atMost n) {size : Int}
    (hsize : e.size = some size) (h : n < size) :
    Enumerates D host scratch (.archiveStart e only) []
      (some (.ofReason e.place (.oversize size n))) :=
  .raised fun s hs => ⟨s, pull_archiveStart_of_exceeded hlimit hsize h only s, hs⟩

/-- The first pull reads the directory. -/
theorem pull_archiveStart (hlimit : D.maxEntrySize = .atMost n) (hsize : Within n e)
    (hcontent : e.content host = .ok bytes) {s : Session} (hs : At host scratch s) :
    D.pull (.archiveStart e only) s =
      match Zip.directory ⟨bytes, e.medium⟩ with
      | .ok records => D.pull (.archive ⟨bytes, e.medium⟩ e.place only records)
          { s with opened := e.place :: s.opened }
      | .error fault => .error (.ofReason e.place (.invalidArchive fault))
          { s with opened := e.place :: s.opened } := by
  have hneed : e.need s = .ok bytes { s with opened := e.place :: s.opened } := by
    rw [Entry.need, Entry.read, hs.1, hcontent]
  show (e.checkSize D.maxEntrySize >>= fun _ => e.need >>= fun bytes => _) s = _
  rw [hlimit, checkSize_of_within hsize, pure_bind, work_bind_apply, hneed]
  simp only
  cases Zip.directory ⟨bytes, e.medium⟩ <;> rfl

/-- A directory that cannot be read is a failure of the archive. -/
theorem enumerates_archiveStart_of_error (hlimit : D.maxEntrySize = .atMost n)
    (hsize : Within n e) (hcontent : e.content host = .ok bytes) {fault : Zip.Fault}
    (hdirectory : Zip.directory ⟨bytes, e.medium⟩ = .error fault) :
    Enumerates D host scratch (.archiveStart e only) []
      (some (.ofReason e.place (.invalidArchive fault))) := by
  refine .raised fun s hs => ⟨{ s with opened := e.place :: s.opened }, ?_, hs⟩
  rw [pull_archiveStart hlimit hsize hcontent hs, hdirectory]

/-- An archive whose directory can be read gives its members. -/
theorem enumerates_archiveStart_of_ok (hlimit : D.maxEntrySize = .atMost n)
    (hsize : Within n e) (hcontent : e.content host = .ok bytes) {records : List Record}
    (hdirectory : Zip.directory ⟨bytes, e.medium⟩ = .ok records) :
    Enumerates D host scratch (.archiveStart e only)
      ((given only records).map (memberEntry D ⟨bytes, e.medium⟩ e.place)) (lastOf records) := by
  refine (enumerates_archive ..).of_pull fun s hs =>
    ⟨{ s with opened := e.place :: s.opened }, hs, ?_⟩
  rw [pull_archiveStart hlimit hsize hcontent hs, hdirectory]

/-- What the records of an archive may end a scan with. -/
inductive Breaks (codecs : Zip.Codecs) (source : Source) (only : Option Text)
    (records : List Record) : Fault → Prop
  | unnamed {r : Record} : r ∈ records → r.name = [] →
    Breaks codecs source only records .emptyName
  | member {r : Record} {fault : Fault} : r ∈ given only records →
    EndedBy codecs source r fault → Breaks codecs source only records fault

theorem aborts_archiveStart_iff (hlimit : D.maxEntrySize = .atMost n)
    (hsize : Within n e) (hcontent : e.content host = .ok bytes) {records : List Record}
    (hdirectory : Zip.directory ⟨bytes, e.medium⟩ = .ok records) {fault : Fault} :
    Raises D host scratch (.archiveStart e only) (.aborted fault) ↔
      Breaks D.codecs ⟨bytes, e.medium⟩ only records fault := by
  rw [raises_iff (enumerates_archiveStart_of_ok hlimit hsize hcontent hdirectory),
    lastOf_eq_some_iff]
  simp only [List.mem_map, exists_exists_and_eq_and]
  constructor
  · rintro (⟨heq, r, hr, hname⟩ | ⟨r, hr, hthrows⟩)
    · cases heq
      exact .unnamed hr hname
    · exact .member hr (aborts_need_memberEntry_iff.1 hthrows)
  · rintro (⟨hr, hname⟩ | ⟨hr, hended⟩)
    · exact .inl ⟨rfl, _, hr, hname⟩
    · exact .inr ⟨_, hr, aborts_need_memberEntry_iff.2 hended⟩

/-- The failures of an archive: its own, and those of its members. -/
inductive FailsAs (n : Int) (place : Provenance) : Failure → Prop
  | oversize {size : Int} : n < size → FailsAs n place (.entry place (.oversize size n))
  | invalid (fault : Zip.Fault) : FailsAs n place (.entry place (.invalidArchive fault))
  | corrupt (name : Text) (fault : Zip.Fault) :
    FailsAs n place (.entry (place.child name) (.corruptMember fault))

theorem fails_archiveStart (hlimit : D.maxEntrySize = .atMost n)
    (hsize : Within n e) (hcontent : e.content host = .ok bytes) {records : List Record}
    (hdirectory : Zip.directory ⟨bytes, e.medium⟩ = .ok records) {failure : Failure}
    (h : Raises D host scratch (.archiveStart e only) (.failed failure)) :
    FailsAs n e.place failure := by
  rw [raises_iff (enumerates_archiveStart_of_ok hlimit hsize hcontent hdirectory),
    lastOf_eq_some_iff] at h
  simp only [List.mem_map, exists_exists_and_eq_and] at h
  obtain ⟨heq, -⟩ | ⟨r, -, hthrows⟩ := h
  · cases heq
  · obtain ⟨fault, -, heq⟩ := throws_need_memberEntry_iff.1 hthrows
    split at heq
    · cases heq
    · cases heq
      exact .corrupt r.name fault

/-- Opening an archive, pulling all of its entries and reading them always comes to an end. What is
raised on the way is a failure that tells the archive or a member of it, unless the directory holds
a record without a name, or a member that is given starts where no memory is or holds LZMA data that
the decompressor refuses. -/
theorem archive_aborts_iff (hlimit : D.maxEntrySize = .atMost n)
    (hcontent : e.content host = .ok bytes) (scratch : List Text) (only : Option Text) :
    (∀ s, D.enter (.archive e only) s = .ok (.archiveStart e only) s) ∧
      (∃ xs last, Enumerates D host scratch (.archiveStart e only) xs last) ∧
      (∀ failure, Raises D host scratch (.archiveStart e only) (.failed failure) →
        FailsAs n e.place failure) ∧
      ∀ fault, Raises D host scratch (.archiveStart e only) (.aborted fault) ↔
        Within n e ∧ ∃ records, Zip.directory ⟨bytes, e.medium⟩ = .ok records ∧
          Breaks D.codecs ⟨bytes, e.medium⟩ only records fault := by
  refine ⟨fun s => rfl, ?_⟩
  by_cases hsize : Within n e
  · cases hdirectory : Zip.directory ⟨bytes, e.medium⟩ with
    | ok records =>
      refine ⟨⟨_, _, enumerates_archiveStart_of_ok hlimit hsize hcontent hdirectory⟩,
        fun failure => fails_archiveStart hlimit hsize hcontent hdirectory, fun fault => ?_⟩
      rw [aborts_archiveStart_iff hlimit hsize hcontent hdirectory]
      exact ⟨fun h => ⟨hsize, records, rfl, h⟩, fun ⟨_, _, heq, h⟩ => by cases heq; exact h⟩
    | error cause =>
      have hcomes : Enumerates D host scratch (.archiveStart e only) [] _ :=
        enumerates_archiveStart_of_error hlimit hsize hcontent hdirectory
      refine ⟨⟨_, _, hcomes⟩, fun failure h => ?_, fun fault => ?_⟩
      · cases (raises_iff_of_raised hcomes).1 h
        exact .invalid cause
      · rw [raises_iff_of_raised hcomes]
        simp [Trouble.ofReason]
  · obtain ⟨size, hknown, hgreater⟩ : ∃ size, e.size = some size ∧ n < size := by
      simpa [Within] using hsize
    have hcomes : Enumerates D host scratch (.archiveStart e only) [] _ :=
      enumerates_archiveStart_of_exceeded hlimit hknown hgreater
    refine ⟨⟨_, _, hcomes⟩, fun failure h => ?_, fun fault => ?_⟩
    · cases (raises_iff_of_raised hcomes).1 h
      exact .oversize hgreater
    · rw [raises_iff_of_raised hcomes]
      simp [hsize, Trouble.ofReason]

end Archives

/-- An archive with a directory of one record: a class that starts where no memory is. -/
def farArchive : Bytes := [
  80, 75, 1, 2, 20, 3, 20, 0, 0, 0, 0, 0, 0, 0, 33, 0, 0, 0, 0, 0, 0, 0, 0, 0, 0, 0, 0, 0, 7, 0,
  12, 0, 0, 0, 0, 0, 0, 0, 0, 0, 0, 0, 255, 255, 255, 255, 65, 46, 99, 108, 97, 115, 115, 1, 0, 8,
  0, 0, 0, 0, 0, 0, 0, 0, 128, 80, 75, 5, 6, 0, 0, 0, 0, 1, 0, 1, 0, 65, 0, 0, 0, 0, 0, 0, 0, 0, 0]

/-- The directory record of the class. -/
def farRecord : Record where
  fullName := "A.class"
  versionNeeded := 20
  flags := 0
  method := 0
  crc := 0
  compressedSize := 0
  size := 0
  externalAttributes := 0
  offset := 0x8000000000000000
  bound := 0

/-- The archive as a member of another one, in memory. -/
def farJar : Entry where
  name := "inner.jar"
  place := { root := "/a.jar", segments := ["inner.jar"] }
  payload := .given (.ok farArchive)
  size := some 87

/-- Only the start of its class ends a scan. -/
theorem archive_aborts_iff_farJar :
    let D : Decoding := { maxEntrySize := .atMost 100 }
    let host : Host := { root := .directory [] }
    D.maxEntrySize = .atMost 100 ∧ farJar.content host = .ok farArchive ∧
      ∀ fault, Raises D host [] (.archiveStart farJar none) (.aborted fault) ↔
        fault = .memberBeyondMemory := by
  intro D host
  have hlimit : D.maxEntrySize = .atMost 100 := rfl
  have hcontent : farJar.content host = .ok farArchive := rfl
  refine ⟨hlimit, hcontent, fun fault => ?_⟩
  have hdirectory : Zip.directory ⟨farArchive, farJar.medium⟩ = .ok [farRecord] := by
    decide +kernel
  have hgiven : given none [farRecord] = [farRecord] := by decide +kernel
  obtain ⟨-, -, -, hiff⟩ := archive_aborts_iff hlimit hcontent [] none
  rw [hiff, hdirectory]
  constructor
  · rintro ⟨-, records, heq, hbreaks⟩
    cases heq
    cases hbreaks with
    | unnamed hr hname => cases List.mem_singleton.1 hr; cases hname
    | member hr hended =>
      rw [hgiven, List.mem_singleton] at hr
      cases hended with
      | beyondMemory => rfl
      | lzma hmethod => cases hr; cases hmethod
  · rintro rfl
    have hwithin : Within 100 farJar := fun size hsize => by cases hsize; decide
    have hmem : farRecord ∈ given none [farRecord] := by rw [hgiven]; exact List.mem_singleton_self _
    exact ⟨hwithin, _, rfl, .member hmem (.beyondMemory rfl (by decide))⟩

/-- An archive with a directory of one record: a member without a name. -/
def unnamedArchive : Bytes := [
  80, 75, 1, 2, 20, 3, 20, 0, 0, 0, 0, 0, 0, 0, 33, 0, 0, 0, 0, 0, 0, 0, 0, 0, 0, 0, 0, 0, 0, 0,
  0, 0, 0, 0, 0, 0, 0, 0, 0, 0, 0, 0, 0, 0, 0, 0, 80, 75, 5, 6, 0, 0, 0, 0, 1, 0, 1, 0, 46, 0, 0,
  0, 0, 0, 0, 0, 0, 0]

/-- The directory record of the member. -/
def unnamedRecord : Record :=
  { farRecord with fullName := [], offset := 0 }

/-- A host with the archive and a class file. -/
def unnamedBesideClass : Session where
  host :=
    { root := .directory [("a.jar", .file unnamedArchive), ("C.class", .file bareClassOctets)] }
  scratch := ["conversion"]

/-- A member without a name ends the walk: nothing is told of its archive, and the class file behind
it is not met. -/
theorem aborted_unnamedMember :
    let D : Decoding := { maxEntrySize := Walk.defaultEntrySize }
    (∃ s', D.pull (.archiveStart (.ofPath "/a.jar") none) unnamedBesideClass =
        .error (.aborted .emptyName) s') ∧
      let r := Walk.occurrences D.decoder {} none
        { world := unnamedBesideClass, tally := { console := { verbose := false } }
          roots := [.entry (.ofPath "/a.jar"), .entry (.ofPath "/C.class")] }
      r.fault = some .emptyName ∧ r.value = [] ∧ r.tally.entriesSeen = 1 ∧
        r.tally.diagnostics = #[] := by
  intro D
  have hname : Host.Usable ["a.jar"] := by decide
  have hcontent : (Entry.ofPath "/a.jar").content unnamedBesideClass.host = .ok unnamedArchive :=
    content_ofPath (Host.read_of_at? hname rfl)
  have hdirectory : Zip.directory ⟨unnamedArchive, .file⟩ = .ok [unnamedRecord] := by
    decide +kernel
  have hwithin : Within 536870912 (.ofPath "/a.jar") := fun size hsize => by cases hsize
  have hpull : Throws unnamedBesideClass.host unnamedBesideClass.scratch
      (D.pull (.archiveStart (.ofPath "/a.jar") none)) (.aborted .emptyName) := by
    have hcomes : Enumerates D unnamedBesideClass.host unnamedBesideClass.scratch
        (.archiveStart (.ofPath "/a.jar") none) [] (some (.aborted .emptyName)) :=
      enumerates_archiveStart_of_ok rfl hwithin hcontent hdirectory
    cases hcomes with
    | raised hraised => exact hraised
  obtain ⟨s', hstart, -⟩ := hpull unnamedBesideClass ⟨rfl, rfl⟩
  refine ⟨⟨s', hstart⟩, ?_⟩
  -- The archive is opened in a first step, and asked for its members in a second one.
  rw [Walk.occurrences_eq_step]
  obtain ⟨st, hopened, hworld, hframes, hseen, hdiagnostics⟩ :
      ∃ st, Walk.step D.decoder {}
          { world := unnamedBesideClass, tally := { console := { verbose := false } }
            roots := [.entry (.ofPath "/a.jar"), .entry (.ofPath "/C.class")] } = .continues st ∧
        st.world = unnamedBesideClass ∧
        st.frames = [(.archiveStart (.ofPath "/a.jar") none, 1)] ∧
        st.tally.entriesSeen = 1 ∧ st.tally.diagnostics = #[] :=
    ⟨_, rfl, rfl, rfl, rfl, rfl⟩
  have hpull : D.decoder.pull (.archiveStart (.ofPath "/a.jar") none) st.world = .error _ _ :=
    hworld ▸ hstart
  have hbudget : st.tally.entriesSeen ≤ ({} : Walk.Limits).budget := by
    rw [hseen]
    decide
  obtain ⟨hfault, hvalue, htally⟩ := Walk.occurrences_of_pull_aborted hframes hbudget hpull
  simp only [hopened, Walk.Next.occurrences]
  exact ⟨hfault, hvalue, htally ▸ hseen, htally ▸ hdiagnostics⟩

end JndiScan.Decoding

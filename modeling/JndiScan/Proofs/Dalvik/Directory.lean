/-
The directory of a conversion. It is made where nothing stood, below a directory that is there, and
a conversion writes nothing outside of it and no links into it. So when it is removed, the host is
what it was before, however far the conversion came.
-/
import JndiScan.Dalvik.Conversion
import JndiScan.EntryKind
import JndiScan.Proofs.Files.Host
import JndiScan.Proofs.Wildcard

namespace JndiScan.Dalvik

open JndiScan.Path (Plain)
open Host (NoLink bind_eq_ok_iff)

/-- A place where a conversion can make its directory: nothing stands there, and the directory above
does. -/
structure Free (host : Host) (scratch : List Text) : Prop where
  ne_nil : scratch ≠ []
  plain : ∀ n ∈ scratch, Plain n
  above : ∃ entries, host.root.at? scratch.dropLast = some (.directory entries)
  absent : host.root.at? scratch = none

/-- The host with a directory of a conversion in it, which holds no links. -/
structure During (before : Host) (scratch : List Text) (host : Host) : Prop where
  free : Free before scratch
  held : ∃ entries, FileTree.LinkFree (.directory entries) ∧
    host = before.put (.directory entries) scratch

variable {before host host' : Host} {scratch way : List Text}

theorem Free.at?_put (h : Free before scratch) (new : FileTree) :
    (before.put new scratch).root.at? scratch = some new := by
  obtain ⟨entries, habove⟩ := h.above
  exact FileTree.at?_put h.ne_nil habove new

theorem Free.during (h : Free before scratch) :
    During before scratch (before.put (.directory []) scratch) :=
  ⟨h, [], FileTree.linkFree_directory_nil, rfl⟩

namespace During

theorem exists_at? (h : During before scratch host) :
    ∃ entries, FileTree.LinkFree (.directory entries) ∧
      host.root.at? scratch = some (.directory entries) := by
  obtain ⟨entries, hfree, rfl⟩ := h.held
  exact ⟨entries, hfree, h.free.at?_put _⟩

theorem nesting_eq (h : During before scratch host) : host.nesting = before.nesting := by
  obtain ⟨entries, -, rfl⟩ := h.held
  rfl

/-- No link is met on the way to anything in the directory. -/
theorem noLink (h : During before scratch host) (inside : List Text) :
    NoLink host [] (scratch ++ inside) := by
  obtain ⟨entries, hfree, hat⟩ := h.exists_at?
  intro way hway target
  rw [List.nil_append]
  rcases List.prefix_or_prefix_of_prefix hway (List.prefix_append scratch inside) with hup | hdown
  · obtain ⟨rest, rfl⟩ := hup
    by_cases hrest : rest = []
    · rw [hrest, List.append_nil] at hat
      rw [hat]
      exact fun heq => by cases heq
    · obtain ⟨_, hd⟩ := FileTree.at?_of_append hrest hat
      rw [hd]
      exact fun heq => by cases heq
  · obtain ⟨rest, rfl⟩ := hdown
    rw [FileTree.at?_append, hat]
    exact hfree rest target

theorem put (h : During before scratch host) {new : FileTree} (hnew : FileTree.LinkFree new)
    {inside : List Text} (hinside : inside ≠ []) :
    During before scratch (host.put new (scratch ++ inside)) := by
  obtain ⟨entries, hfree, rfl⟩ := h.held
  obtain ⟨entries', heq⟩ := FileTree.put_directory hinside new entries
  refine ⟨h.free, entries', heq ▸ hfree.put hnew inside, ?_⟩
  have hroot : FileTree.put new (scratch ++ inside) (before.put (.directory entries) scratch).root =
      FileTree.put (.directory entries') scratch before.root := by
    rw [FileTree.put_append (h.free.at?_put _), heq]
    exact FileTree.put_put scratch _ _ _
  rw [Host.put, hroot]
  rfl

/-- The host is what it was when the directory is removed. -/
theorem remove (h : During before scratch host) : host.remove scratch = before := by
  obtain ⟨entries, -, rfl⟩ := h.held
  have hroot : FileTree.remove scratch (before.put (.directory entries) scratch).root =
      before.root :=
    FileTree.remove_put h.free.ne_nil h.free.absent _
  rw [Host.remove, hroot]
  rfl

/-- A directory made on the way to something in the directory of the conversion was there, or it is
put below that one. -/
theorem makeDirectory_cases (h : During before scratch host) {inside : List Text}
    (hplain : ∀ n ∈ scratch ++ inside, Plain n) (hbegins : way <+: scratch ++ inside)
    (hmake : host.makeDirectory (Path.ofNames way) = .ok host') :
    host' = host ∨ ∃ rest, rest ≠ [] ∧ rest <+: inside ∧
      host' = host.put (.directory []) (scratch ++ rest) := by
  have hway : NoLink host [] way := fun up hup => h.noLink inside up (hup.trans hbegins)
  rcases Host.makeDirectory_eq_ok (fun n hn => hplain n (hbegins.subset hn)) hway hmake with
    ⟨rfl, -⟩ | ⟨-, rfl, -, habsent⟩
  · exact .inl rfl
  · obtain ⟨entries, -, hat⟩ := h.exists_at?
    rcases List.prefix_or_prefix_of_prefix hbegins (List.prefix_append scratch inside) with
      ⟨rest, rfl⟩ | ⟨rest, rfl⟩
    · -- What is above the directory of the conversion is there.
      rw [FileTree.at?_append, habsent] at hat
      cases hat
    · refine .inr ⟨rest, ?_, (List.prefix_append_right_inj scratch).1 hbegins, rfl⟩
      rintro rfl
      rw [List.append_nil, hat] at habsent
      cases habsent

theorem makeDirectory (h : During before scratch host) {inside : List Text}
    (hplain : ∀ n ∈ scratch ++ inside, Plain n) (hbegins : way <+: scratch ++ inside)
    (hmake : host.makeDirectory (Path.ofNames way) = .ok host') :
    During before scratch host' := by
  obtain rfl | ⟨rest, hrest, -, rfl⟩ := h.makeDirectory_cases hplain hbegins hmake
  · exact h
  · exact h.put FileTree.linkFree_directory_nil hrest

/-- A file stays as it is when a directory is made on the way to something in the directory of the
conversion. -/
theorem at?_makeDirectory (h : During before scratch host) {inside : List Text}
    (hplain : ∀ n ∈ scratch ++ inside, Plain n) (hbegins : way <+: scratch ++ inside)
    (hmake : host.makeDirectory (Path.ofNames way) = .ok host') {place : List Text}
    {content : Bytes} (hfile : host.root.at? place = some (.file content)) :
    host'.root.at? place = some (.file content) := by
  have hway : NoLink host [] way := fun up hup => h.noLink inside up (hup.trans hbegins)
  rcases Host.makeDirectory_eq_ok (fun n hn => hplain n (hbegins.subset hn)) hway hmake with
    ⟨rfl, -⟩ | ⟨-, rfl, habove, habsent⟩
  · exact hfile
  · refine FileTree.at?_put_of_file habove (.inl habsent) hfile ?_ _
    intro hkey
    rw [FileTree.at?_congr hkey, habsent] at hfile
    cases hfile

/-- No link but those that stood before stands in the host. -/
theorem at?_link (h : During before scratch host) {place : List Text} {target : Text}
    (hlink : host.root.at? place = some (.link target)) :
    before.root.at? place = some (.link target) := by
  obtain ⟨entries, hfree, rfl⟩ := h.held
  have hat := h.free.at?_put (.directory entries)
  by_cases hdown : Path.key scratch <+: Path.key place
  · obtain ⟨p, q, rfl, hkey⟩ := FileTree.exists_of_key_prefix hdown
    rw [FileTree.at?_append, FileTree.at?_congr hkey, hat] at hlink
    exact absurd hlink (hfree q target)
  · by_cases hup : Path.key place <+: Path.key scratch
    · -- Above the directory of the conversion there are directories.
      obtain ⟨p, q, rfl, hkey⟩ := FileTree.exists_of_key_prefix hup
      have hq : q ≠ [] := by
        rintro rfl
        rw [List.append_nil, hkey] at hdown
        exact hdown List.prefix_rfl
      obtain ⟨_, hd⟩ := FileTree.at?_of_append hq hat
      rw [FileTree.at?_congr hkey] at hd
      cases hlink.symm.trans hd
    · exact (FileTree.at?_put_of_apart hdown hup _ _).symm.trans hlink

theorem targetNames (h : During before scratch host) {P : Text → Prop}
    (hP : before.TargetNames P) : host.TargetNames P :=
  fun place target hlink => hP place target (h.at?_link hlink)

end During

namespace Conversion

/-- The file of a class has its place below the directory of the conversion. -/
theorem placeOf_eq_ok {d : ClassDefinition} {place : List Text}
    (h : placeOf scratch d host = .ok place) :
    host.resolve (Path.below (Path.ofNames scratch) (fileName d)) = .ok place ∧
      ∃ inside, inside ≠ [] ∧ place = scratch ++ inside := by
  obtain ⟨found, hresolve, h⟩ := bind_eq_ok_iff.1 h
  split at h
  · next hin =>
    cases h
    rw [Bool.and_eq_true, decide_eq_true_eq, List.isPrefixOf_iff_prefix] at hin
    obtain ⟨⟨inside, rfl⟩, hlt⟩ := hin
    refine ⟨Host.mapError_eq_ok_iff.1 hresolve, inside, ?_, rfl⟩
    rintro rfl
    simp at hlt
  · cases h

/-- The directories above something in the directory of the conversion are made below it. -/
theorem preserves_makeDirectories {inside : List Text}
    (hplain : ∀ n ∈ scratch ++ inside, Plain n) :
    Preserves (During before scratch) (Host.makeDirectories (scratch ++ inside).dropLast) :=
  Host.preserves_makeDirectories fun _ hns _ _ h hmake =>
    h.makeDirectory hplain (hns.trans (List.dropLast_prefix _)) hmake

/-- What writing a class does: the directories above its file are made, and then the file. -/
structure Written (scratch : List Text) (host : Host) (d : ClassDefinition) (inside : List Text)
    (octets : Bytes) (between host' : Host) : Prop where
  ne_nil : inside ≠ []
  plain : ∀ n ∈ scratch ++ inside, Plain n
  resolved : host.resolve (Path.below (Path.ofNames scratch) (fileName d)) = .ok (scratch ++ inside)
  directories : Host.makeDirectories (scratch ++ inside).dropLast host = .ok () between
  content : ClassFile.write d = .ok octets
  file : between.write (Path.ofNames (scratch ++ inside)) octets = .ok host'

variable {d : ClassDefinition} {ds : List ClassDefinition}

theorem exists_written (hfree : Free before scratch)
    (h : writeClass scratch d host = .ok () host') :
    ∃ inside octets between, Written scratch host d inside octets between host' := by
  obtain ⟨place, host₁, hasked, h⟩ := work_bind_eq_ok_iff.1 h
  obtain ⟨hplace, rfl⟩ := Host.ask_eq_ok_iff.1 hasked
  obtain ⟨⟨⟩, between, hbetween, h⟩ := work_bind_eq_ok_iff.1 h
  obtain ⟨octets, host₂, hwritten, h⟩ := work_bind_eq_ok_iff.1 h
  obtain ⟨hoctets, rfl⟩ := Host.ask_eq_ok_iff.1 hwritten
  obtain ⟨hresolve, inside, hinside, rfl⟩ := placeOf_eq_ok hplace
  refine ⟨inside, octets, between, hinside, ?_, hresolve, adaptExcept_eq_ok_iff.1 hbetween,
    Host.mapError_eq_ok_iff.1 hoctets, Host.change_eq_ok_iff.1 (adaptExcept_eq_ok_iff.1 h)⟩
  exact Host.plain_of_resolve (Path.isAbsolute_below hfree.ne_nil hfree.plain _) hresolve

namespace Written

variable {inside : List Text} {octets : Bytes} {between : Host}

theorem between_during (hw : Written scratch host d inside octets between host')
    (h : During before scratch host) : During before scratch between := by
  have hkept : During before scratch
      (stateOf (Host.makeDirectories (scratch ++ inside).dropLast host)) :=
    preserves_makeDirectories hw.plain host h
  rwa [hw.directories] at hkept

/-- The file of the class is put where nothing stands, or an old file. -/
theorem put (hw : Written scratch host d inside octets between host')
    (h : During before scratch host) :
    Host.Usable (scratch ++ inside) ∧
      host' = between.put (.file octets) (scratch ++ inside) ∧
      (∃ entries, between.root.at? (scratch ++ inside).dropLast = some (.directory entries)) ∧
      (between.root.at? (scratch ++ inside) = none ∨
        ∃ old, between.root.at? (scratch ++ inside) = some (.file old)) :=
  Host.write_eq_ok (by simp [hw.ne_nil]) hw.plain ((hw.between_during h).noLink inside) hw.file

end Written

theorem writeClass_eq_ok {place : List Text} {between : Host} {octets : Bytes}
    (hplace : placeOf scratch d host = .ok place)
    (hmake : Host.makeDirectories place.dropLast host = .ok () between)
    (hoctets : ClassFile.write d = .ok octets)
    (hwrite : between.write (Path.ofNames place) octets = .ok host') :
    writeClass scratch d host = .ok () host' :=
  work_bind_eq_ok_iff.2 ⟨place, host, Host.ask_eq_ok_iff.2 ⟨hplace, rfl⟩,
    work_bind_eq_ok_iff.2 ⟨(), between, adaptExcept_eq_ok_iff.2 hmake,
      work_bind_eq_ok_iff.2 ⟨octets, between,
        Host.ask_eq_ok_iff.2 ⟨Host.mapError_eq_ok_iff.2 hoctets, rfl⟩,
        adaptExcept_eq_ok_iff.2 (Host.change_eq_ok_iff.2 hwrite)⟩⟩⟩

/-- Whether a class is written or not, the directory of the conversion stays one without links. -/
theorem preserves_writeClass (d : ClassDefinition) :
    Preserves (During before scratch) (writeClass scratch d) := by
  refine (Host.preserves_ask _).bind fun place host _ h hask => ?_
  obtain ⟨hplace, -⟩ := Host.ask_eq_ok_iff.1 hask
  obtain ⟨hresolve, inside, hinside, rfl⟩ := placeOf_eq_ok hplace
  have hplain := Host.plain_of_resolve
    (Path.isAbsolute_below h.free.ne_nil h.free.plain _) hresolve
  refine ((preserves_makeDirectories hplain).adaptExcept _).bind fun _ _ _ _ _ => ?_
  refine (Host.preserves_ask _).bind fun octets _ _ _ _ => Preserves.adaptExcept ?_ _
  refine Host.preserves_change fun host host' h hwrite => ?_
  obtain ⟨-, rfl, -, -⟩ :=
    Host.write_eq_ok (by simp [hinside]) hplain (h.noLink inside) hwrite
  exact h.put (FileTree.linkFree_file octets) hinside

theorem preserves_writeClasses (ds : List ClassDefinition) :
    Preserves (During before scratch) (writeClasses scratch ds) := by
  induction ds with
  | nil => exact .pure ()
  | cons d ds ih => exact (preserves_writeClass d).bind fun _ _ _ _ _ => ih

theorem writeClass_during (h : During before scratch host)
    (hwrite : writeClass scratch d host = .ok () host') : During before scratch host' := by
  have hkept := preserves_writeClass d host h
  rwa [hwrite] at hkept

theorem writeClasses_during (h : During before scratch host)
    (hwrite : writeClasses scratch ds host = .ok () host') : During before scratch host' := by
  have hkept := preserves_writeClasses ds host h
  rwa [hwrite] at hkept

theorem writeClasses_append (scratch : List Text) (ds es : List ClassDefinition) :
    writeClasses scratch (ds ++ es) =
      writeClasses scratch ds >>= fun _ => writeClasses scratch es := by
  induction ds with
  | nil => rfl
  | cons d ds ih =>
    rw [List.cons_append, writeClasses, writeClasses, ih, bind_assoc]

/-- When all classes are written, a class is written between those before it and those behind it. -/
theorem exists_of_writeClasses_append {earlier later : List ClassDefinition}
    (h : writeClasses scratch (earlier ++ d :: later) host = .ok () host') : ∃ first second,
    writeClasses scratch earlier host = .ok () first ∧
      writeClass scratch d first = .ok () second ∧
      writeClasses scratch later second = .ok () host' := by
  rw [writeClasses_append] at h
  obtain ⟨⟨⟩, first, hfirst, h⟩ := work_bind_eq_ok_iff.1 h
  obtain ⟨⟨⟩, second, hsecond, hrest⟩ := work_bind_eq_ok_iff.1 h
  exact ⟨first, second, hfirst, hsecond, hrest⟩

/-! ## The files of classes -/

/-- The file of a class is told to be one by its name. -/
theorem ofName_fileName (d : ClassDefinition) : EntryKind.ofName (fileName d) = .classFile := by
  have hmatch : (fileName d).matchesPattern "**.class" = true :=
    (Wildcard.matchesPattern_ending_iff (by decide) (by decide)).2 ⟨d.name, rfl⟩
  rw [EntryKind.ofName, if_pos hmatch]

theorem mem_names {found : Text} : found ∈ names ds ↔ ∃ d ∈ ds, fileName d = found := by
  rw [names, Text.sortBy, List.mem_mergeSort, List.mem_map]

/-! ## Whole conversions -/

variable {s : Session}

/-- The classes that an entry holds, by its content in a host. -/
def contained (readClasses : ClassReader) (e : Entry) (host : Host) :
    Except Reason (List ClassDefinition) :=
  match e.content host with
  | .error fault => .error (.payloadUnread fault)
  | .ok bytes =>
    match readClasses bytes with
    | .error fault => .error (.payloadInvalid fault)
    | .ok classes => .ok (classes.map RawClass.toDefinition)

theorem contained_eq_ok {readClasses : ClassReader} {e : Entry}
    (h : contained readClasses e host = .ok ds) :
    ∃ bytes cs, readClasses bytes = .ok cs ∧ ds = cs.map RawClass.toDefinition := by
  unfold contained at h
  split at h
  · cases h
  · next bytes _ =>
    split at h
    · cases h
    · next cs hread =>
      cases h
      exact ⟨bytes, cs, hread, rfl⟩

theorem definitions_eq (readClasses : ClassReader) (e : Entry) (s : Session) :
    definitions readClasses e s =
      match contained readClasses e s.host with
      | .error reason => .error (.ofReason e.place reason) { s with opened := e.place :: s.opened }
      | .ok ds => .ok ds { s with opened := e.place :: s.opened } := by
  unfold definitions contained Entry.read
  cases e.content s.host with
  | error fault => rfl
  | ok bytes => cases hclasses : readClasses bytes <;> simp only [hclasses]

/-- What a conversion comes to before its directory is removed: the names of the files or a trouble,
and the host with what was written by then. -/
def converted (readClasses : ClassReader) (e : Entry) (host : Host) (scratch : List Text) :
    EStateM.Result Trouble Host (List Text) :=
  let begun := host.put (.directory []) scratch
  match contained readClasses e begun with
  | .error reason => .error (.ofReason e.place reason) begun
  | .ok ds =>
    match writeClasses scratch ds begun with
    | .error fault host => .error (.ofClass e.place fault) host
    | .ok _ host => .ok (names ds) host

/-- The session of a conversion that came to a host. -/
def reached (s : Session) (e : Entry) (host : Host) : Session :=
  { s with host, opened := e.place :: s.opened }

/-- A conversion that goes well leaves its directory behind, for as long as its files are read. One
that fails removes it. -/
theorem start_eq (readClasses : ClassReader) (e : Entry) (s : Session) :
    start readClasses e s =
      match converted readClasses e s.host s.scratch with
      | .error trouble host =>
        .error (troubleAfter trouble (reached s e host)) (remove (reached s e host))
      | .ok found host => .ok found (reached s e host) := by
  unfold start converted
  simp only [definitions_eq]
  cases contained readClasses e (s.host.put (.directory []) s.scratch) with
  | error reason => rfl
  | ok ds =>
    simp only
    cases writeClasses s.scratch ds (s.host.put (.directory []) s.scratch) <;> rfl

theorem start_of_converted {readClasses : ClassReader} {e : Entry} {found : List Text}
    (h : converted readClasses e s.host s.scratch = .ok found host) :
    start readClasses e s = .ok found (reached s e host) := by
  rw [start_eq, h]

theorem start_of_converted_error {readClasses : ClassReader} {e : Entry} {trouble : Trouble}
    (h : converted readClasses e s.host s.scratch = .error trouble host) :
    start readClasses e s =
      .error (troubleAfter trouble (reached s e host)) (remove (reached s e host)) := by
  rw [start_eq, h]

theorem converted_of_written {readClasses : ClassReader} {e : Entry} {ds : List ClassDefinition}
    (hcontained : contained readClasses e (before.put (.directory []) scratch) = .ok ds)
    (hwrite : writeClasses scratch ds (before.put (.directory []) scratch) = .ok () host) :
    converted readClasses e before scratch = .ok (names ds) host := by
  unfold converted
  simp only [hcontained, hwrite]

theorem converted_of_unwritten {readClasses : ClassReader} {e : Entry} {ds : List ClassDefinition}
    {failure : ClassFault}
    (hcontained : contained readClasses e (before.put (.directory []) scratch) = .ok ds)
    (hwrite : writeClasses scratch ds (before.put (.directory []) scratch) = .error failure host) :
    converted readClasses e before scratch = .error (.ofClass e.place failure) host := by
  unfold converted
  simp only [hcontained, hwrite]

theorem converted_eq_ok {readClasses : ClassReader} {e : Entry} {found : List Text}
    (h : converted readClasses e before scratch = .ok found host) :
    ∃ ds, contained readClasses e (before.put (.directory []) scratch) = .ok ds ∧
      writeClasses scratch ds (before.put (.directory []) scratch) = .ok () host ∧
      found = names ds := by
  unfold converted at h
  cases hds : contained readClasses e (before.put (.directory []) scratch) with
  | error reason => simp only [hds] at h; cases h
  | ok ds =>
    cases hwrite : writeClasses scratch ds (before.put (.directory []) scratch) with
    | error fault _ => simp only [hds, hwrite] at h; cases h
    | ok _ written =>
      simp only [hds, hwrite] at h
      cases h
      exact ⟨ds, rfl, hwrite, rfl⟩

/-- Whatever a conversion comes to, its directory stands then, and holds no links. -/
theorem during_converted (hfree : Free before scratch) (readClasses : ClassReader) (e : Entry) :
    During before scratch (stateOf (converted readClasses e before scratch)) := by
  unfold converted
  cases hds : contained readClasses e (before.put (.directory []) scratch) with
  | error reason =>
    simp only [hds]
    exact hfree.during
  | ok ds =>
    have hkept := preserves_writeClasses ds _ hfree.during
    simp only [hds]
    cases hwrite : writeClasses scratch ds (before.put (.directory []) scratch) <;>
      rw [hwrite] at hkept <;> exact hkept

/-! ## Removing the directory -/

theorem removeFault?_eq_none_iff : removeFault? s = none ↔ s.host.canRemove s.scratch = true := by
  rw [removeFault?]
  cases s.host.canRemove s.scratch <;> simp

theorem removeFault?_eq_some_iff {fault : JndiScan.Fault} :
    removeFault? s = some fault ↔
      s.host.canRemove s.scratch = false ∧ fault = .path (.tooDeep .removing) := by
  rw [removeFault?]
  cases s.host.canRemove s.scratch <;> simp [eq_comm]

/-- What is left of a host once the directory of a conversion was to be removed, with the fault that
this raised: the host is what it was, or else the directory stands, in which others are nested too
deep. -/
inductive Cleared (before : Host) (scratch : List Text) : Option JndiScan.Fault → Host → Prop
  | gone : Cleared before scratch none before
  | stays {entries : List (Text × FileTree)} :
    before.nesting.removing < (FileTree.directory entries).depth →
    Cleared before scratch (some (.path (.tooDeep .removing)))
      (before.put (.directory entries) scratch)

theorem Cleared.eq_before (h : Cleared before scratch none host) : host = before := by
  cases h
  rfl

/-- A host with the directory is not what it was. -/
theorem Cleared.eq_none {raised : Option JndiScan.Fault} (h : Cleared before scratch raised host)
    (hfree : Free before scratch) (hsame : host = before) : raised = none := by
  cases h with
  | gone => rfl
  | @stays entries =>
    have hat := hfree.at?_put (.directory entries)
    rw [hsame, hfree.absent] at hat
    cases hat

theorem troubleAfter_of_none (h : removeFault? s = none) (trouble : Trouble) :
    troubleAfter trouble s = trouble := by
  rw [troubleAfter, h]
  rfl

theorem troubleAfter_of_some {fault : JndiScan.Fault} (h : removeFault? s = some fault)
    (trouble : Trouble) : troubleAfter trouble s = .aborted fault := by
  rw [troubleAfter, h]
  rfl

/-- A trouble is left as it is when removing the directory raises nothing, and else lost. -/
theorem troubleAfter_eq_failed_iff {trouble : Trouble} {failure : Failure} :
    troubleAfter trouble s = .failed failure ↔
      trouble = .failed failure ∧ removeFault? s = none := by
  unfold troubleAfter
  cases removeFault? s <;> simp

/-- Removing the directory of a conversion leaves the host as it was, or gives up. -/
theorem cleared_remove (h : During before scratch s.host) (hscratch : s.scratch = scratch) :
    Cleared before scratch (removeFault? s) (remove s).host ∧ (remove s).scratch = scratch := by
  subst hscratch
  obtain ⟨entries, -, hheld⟩ := h.held
  have hat : s.host.root.at? s.scratch = some (.directory entries) := by
    rw [hheld]
    exact h.free.at?_put _
  have hcan : s.host.canRemove s.scratch =
      decide ((FileTree.directory entries).depth ≤ before.nesting.removing) := by
    rw [Host.canRemove, hat, h.nesting_eq]
    rfl
  unfold remove removeFault?
  by_cases hdepth : (FileTree.directory entries).depth ≤ before.nesting.removing
  · rw [hcan, if_pos (decide_eq_true hdepth), if_pos (decide_eq_true hdepth)]
    exact ⟨h.remove ▸ .gone, rfl⟩
  · rw [hcan, if_neg (by simpa using hdepth), if_neg (by simpa using hdepth)]
    exact ⟨hheld ▸ .stays (Nat.lt_of_not_le hdepth), rfl⟩

end Conversion

end JndiScan.Dalvik

/-
Which classes end a scan. A conversion that fails is told as one failure of its file, and the walk
goes on; the names and the definitions of some classes are troubles of another kind, which no walk
survives. These are the names that make no path, get lost among links or have too many segments, and
the definitions whose constants, interfaces or members cannot be counted. A scan also ends where
directories are nested too deep for the conversion to be removed; else the host is left as it was.
-/
import JndiScan.Proofs.ClassFile.Limits
import JndiScan.Proofs.Dalvik.Deep

namespace JndiScan

namespace Dalvik.Conversion

open Host (NoLink bind_eq_error_iff mapError_eq_error_iff)
open Walk (Limits State)

variable {before host host' : Host} {scratch : List Text} {d : ClassDefinition}
variable {ds : List ClassDefinition} {fault : JndiScan.Fault} {failure : ClassFault}

/-! ## One class -/

/-- What a class does that ends a scan. Its name may make no path; or its file has a place, but the
directories that are missing above it are too many, or what there is to write cannot be counted. -/
inductive Breaks (scratch : List Text) (host : Host) (d : ClassDefinition) : JndiScan.Fault → Prop
  | name {fault : PathFault} :
    host.resolve (Path.below (Path.ofNames scratch) (fileName d)) = .error fault →
      Breaks scratch host d (.path fault)
  | depth {place : List Text} {between : Host} :
    placeOf scratch d host = .ok place →
      Host.makeDirectories place.dropLast host = .error (.tooDeep .making) between →
      Breaks scratch host d (.path (.tooDeep .making))
  | counts {place : List Text} {between : Host} :
    placeOf scratch d host = .ok place →
      Host.makeDirectories place.dropLast host = .ok () between →
      ClassFile.write d = .error .overflow → Breaks scratch host d .overflow

/-- What is no error of the system ends a scan. -/
theorem ofClass_path {fault : PathFault} (h : ¬ fault.IsSystem) (place : Provenance) :
    Trouble.ofClass place (.path fault) = .aborted (.path fault) := by
  cases fault with
  | file error => exact absurd ⟨error, rfl⟩ h
  | _ => rfl

/-- An error of the system is a failure of the file. -/
theorem ofClass_system {fault : PathFault} (h : fault.IsSystem) (place : Provenance) :
    Trouble.ofClass place (.path fault) = .ofReason place (.classNotWritten (.path fault)) := by
  obtain ⟨error, rfl⟩ := h
  rfl

theorem placeOf_eq_error (h : placeOf scratch d host = .error failure) :
    (∃ fault, host.resolve (Path.below (Path.ofNames scratch) (fileName d)) = .error fault ∧
      failure = .path fault) ∨ failure = .outside d.name := by
  rcases bind_eq_error_iff.1 h with h | ⟨place, -, h⟩
  · obtain ⟨fault, hresolve, rfl⟩ := mapError_eq_error_iff.1 h
    exact .inl ⟨fault, hresolve, rfl⟩
  · split at h
    · cases h
    · cases h
      exact .inr rfl

/-- The failure of a class is one of the file, or the class breaks the scan. -/
theorem ofClass_of_writeClass (h : writeClass scratch d host = .error failure host')
    (place : Provenance) :
    Trouble.ofClass place failure = .ofReason place (.classNotWritten failure) ∨
      ∃ fault, Trouble.ofClass place failure = .aborted fault ∧ Breaks scratch host d fault := by
  rcases work_bind_eq_error_iff.1 h with h | ⟨found, host₁, hasked, h⟩
  · rcases placeOf_eq_error (Host.ask_eq_error_iff.1 h).1 with ⟨fault, hresolve, rfl⟩ | rfl
    · exact .inr ⟨_, ofClass_path (Host.not_isSystem_of_resolve hresolve) place, .name hresolve⟩
    · exact .inl rfl
  -- Once the file has a place, its path is one, and the system answers.
  obtain ⟨hplace, rfl⟩ := Host.ask_eq_ok_iff.1 hasked
  have hchecked := Host.check_of_resolve (placeOf_eq_ok hplace).1
  rcases work_bind_eq_error_iff.1 h with h | ⟨⟨⟩, between, hbetween, h⟩
  · obtain ⟨fault, hmake, rfl⟩ := adaptExcept_eq_error_iff.1 h
    rcases Host.isSystem_or_tooDeep_of_makeDirectories
      (fun n hn => hchecked n (List.mem_of_mem_dropLast hn)) hmake with hsystem | rfl
    · exact .inl (ofClass_system hsystem place)
    · exact .inr ⟨_, rfl, .depth hplace hmake⟩
  rcases work_bind_eq_error_iff.1 h with h | ⟨octets, host₂, hasked, h⟩
  · obtain ⟨error, hwrite, rfl⟩ := mapError_eq_error_iff.1 (Host.ask_eq_error_iff.1 h).1
    cases error with
    | constantTooLong t => exact .inl rfl
    | overflow => exact .inr ⟨_, rfl, .counts hplace (adaptExcept_eq_ok_iff.1 hbetween) hwrite⟩
  · obtain ⟨fault, hwrite, rfl⟩ := adaptExcept_eq_error_iff.1 h
    exact .inl (ofClass_system (Host.isSystem_of_write (Path.check_ofNames_iff.2 hchecked)
      (Host.change_eq_error_iff.1 hwrite).1) place)

/-- A class that breaks the scan is not written. -/
theorem Breaks.writeClass (h : Breaks scratch host d fault) (place : Provenance) :
    ∃ failure after, writeClass scratch d host = .error failure after ∧
      Trouble.ofClass place failure = .aborted fault := by
  cases h with
  | @name fault hresolve =>
    refine ⟨.path fault, host, ?_, ofClass_path (Host.not_isSystem_of_resolve hresolve) place⟩
    exact work_bind_eq_error_iff.2 (.inl (Host.ask_eq_error_iff.2 ⟨bind_eq_error_iff.2
      (.inl (mapError_eq_error_iff.2 ⟨fault, hresolve, rfl⟩)), rfl⟩))
  | @depth found between hplace hmake =>
    refine ⟨.path (.tooDeep .making), between, ?_, rfl⟩
    exact work_bind_eq_error_iff.2 (.inr ⟨found, host, Host.ask_eq_ok_iff.2 ⟨hplace, rfl⟩,
      work_bind_eq_error_iff.2 (.inl (adaptExcept_eq_error_iff.2 ⟨_, hmake, rfl⟩))⟩)
  | @counts found between hplace hbetween hwrite =>
    refine ⟨.unwritable .overflow, between, ?_, rfl⟩
    refine work_bind_eq_error_iff.2
      (.inr ⟨found, host, Host.ask_eq_ok_iff.2 ⟨hplace, rfl⟩, ?_⟩)
    refine work_bind_eq_error_iff.2
      (.inr ⟨(), between, adaptExcept_eq_ok_iff.2 hbetween, ?_⟩)
    exact work_bind_eq_error_iff.2 (.inl (Host.ask_eq_error_iff.2
      ⟨mapError_eq_error_iff.2 ⟨_, hwrite, rfl⟩, rfl⟩))

/-- Without links, the file of a class has a place exactly when its name makes a path. -/
theorem exists_resolve_iff (h : During before scratch host)
    (hscratch : Path.check (Path.ofNames scratch) = .ok ()) (hdot : .ofChar '.' ∉ d.name)
    (hclear : Clear before d) :
    (∃ place, host.resolve (Path.below (Path.ofNames scratch) (fileName d)) = .ok place) ↔
      Path.check (fileName d) = .ok () := by
  rw [Host.resolve_eq_ok_iff (Path.isAbsolute_below h.free.ne_nil h.free.plain _)
    (names_below h.free hdot) (wayTo_ne_nil hdot) (plain_wayTo h.free hdot)
    (noLink_wayTo h hclear)]
  rw [Path.check_iff_names, names_below h.free hdot, Path.check_iff_names, wayTo]
  split
  · rfl
  · rw [List.forall_mem_append]
    exact and_iff_right (Path.check_ofNames_iff.1 hscratch)

/-- A class whose name makes a path, has not too many segments, and leads through no link, and that
can be counted. -/
structure Sound (before : Host) (d : ClassDefinition) : Prop where
  noDot : .ofChar '.' ∉ d.name
  clear : Clear before d
  checked : Path.check (fileName d) = .ok ()
  making : (segments d).length ≤ before.nesting.making
  removing : (segments d).length ≤ before.nesting.removing
  fits : ClassFile.Fits d

/-- Such a class breaks no scan. -/
theorem Sound.not_breaks (hd : Sound before d) (h : During before scratch host)
    (hscratch : Path.check (Path.ofNames scratch) = .ok ()) : ¬ Breaks scratch host d fault := by
  intro hbreaks
  cases hbreaks with
  | name hresolve =>
    obtain ⟨place, hplace⟩ :=
      (exists_resolve_iff h hscratch hd.noDot hd.clear).2 hd.checked
    cases hplace.symm.trans hresolve
  | depth hplace hmake =>
    obtain ⟨-, inside, hinside, rfl⟩ := placeOf_eq_ok hplace
    have hnarrow : Narrow before before.nesting.making d := ⟨hd.noDot, hd.clear, hd.making⟩
    have hlength := hnarrow.length_inside_le h hplace
    have hpos := List.length_pos_iff.2 hinside
    obtain ⟨entries, -, hat⟩ := h.exists_at?
    rw [List.dropLast_append_of_ne_nil hinside] at hmake
    refine Host.makeMissing_ne_tooDeep h.free.ne_nil h.free.plain ⟨entries, hat⟩ ?_ .making _ hmake
    rw [h.nesting_eq, List.length_dropLast]
    omega
  | counts _ _ hwrite =>
    rcases ClassFile.write_of_fits hd.fits with ⟨octets, heq⟩ | ⟨t, -, -, heq⟩
    · cases heq.symm.trans hwrite
    · cases heq.symm.trans hwrite

/-! ## Whole files -/

/-- Classes are written up to the first that is not. -/
theorem writeClasses_eq_error_iff :
    writeClasses scratch ds host = .error failure host' ↔ ∃ earlier d later between,
      ds = earlier ++ d :: later ∧ writeClasses scratch earlier host = .ok () between ∧
        writeClass scratch d between = .error failure host' := by
  constructor
  · intro h
    induction ds generalizing host with
    | nil => cases h
    | cons d ds ih =>
      rcases work_bind_eq_error_iff.1 h with h | ⟨⟨⟩, between, hfirst, h⟩
      · exact ⟨[], d, ds, host, rfl, rfl, h⟩
      · obtain ⟨earlier, d', later, after, rfl, hearlier, hd'⟩ := ih h
        exact ⟨d :: earlier, d', later, after, rfl,
          work_bind_eq_ok_iff.2 ⟨(), between, hfirst, hearlier⟩, hd'⟩
  · rintro ⟨earlier, d, later, between, rfl, hearlier, hd⟩
    rw [writeClasses_append]
    refine work_bind_eq_error_iff.2 (.inr ⟨(), between, hearlier, ?_⟩)
    exact work_bind_eq_error_iff.2 (.inl hd)

/-- How a fault comes of a file. Its conversion comes to a class that breaks the scan, and what was
written by then can be removed. Or no class file is given of it, whatever the reason, and what was
written is nested too deep to be removed. -/
inductive Interrupted (readClasses : ClassReader) (e : Entry) (before : Host)
    (scratch : List Text) : JndiScan.Fault → Prop
  | broken {earlier later : List ClassDefinition} {d : ClassDefinition} {host : Host}
      {fault : JndiScan.Fault} :
    contained readClasses e (before.put (.directory []) scratch) = .ok (earlier ++ d :: later) →
      writeClasses scratch earlier (before.put (.directory []) scratch) = .ok () host →
      Breaks scratch host d fault →
      (stateOf (writeClass scratch d host)).canRemove scratch = true →
      Interrupted readClasses e before scratch fault
  | stuck :
    (∀ found host, converted readClasses e before scratch = .ok found host → found = []) →
      (stateOf (converted readClasses e before scratch)).canRemove scratch = false →
      Interrupted readClasses e before scratch (.path (.tooDeep .removing))

section Converted

variable {readClasses : ClassReader} {e : Entry}

/-- A conversion that comes to nothing is a failure of its file, or it comes to a class that breaks
the scan. -/
theorem converted_eq_error {trouble : Trouble}
    (h : converted readClasses e before scratch = .error trouble host') :
    (∃ reason, trouble = .ofReason e.place reason ∧ reason.isConversion = true) ∨
      ∃ fault earlier d later host, trouble = .aborted fault ∧
        contained readClasses e (before.put (.directory []) scratch) =
          .ok (earlier ++ d :: later) ∧
        writeClasses scratch earlier (before.put (.directory []) scratch) = .ok () host ∧
        Breaks scratch host d fault ∧ stateOf (writeClass scratch d host) = host' := by
  unfold converted at h
  cases hcontained : contained readClasses e (before.put (.directory []) scratch) with
  | error reason =>
    simp only [hcontained] at h
    cases h
    refine .inl ⟨reason, rfl, ?_⟩
    unfold contained at hcontained
    split at hcontained
    · cases hcontained
      rfl
    · split at hcontained
      · cases hcontained
        rfl
      · cases hcontained
  | ok ds =>
    cases hwrite : writeClasses scratch ds (before.put (.directory []) scratch) with
    | ok _ host => simp only [hcontained, hwrite] at h; cases h
    | error failure host =>
      simp only [hcontained, hwrite] at h
      cases h
      obtain ⟨earlier, d, later, host, rfl, hearlier, hd⟩ := writeClasses_eq_error_iff.1 hwrite
      rcases ofClass_of_writeClass hd e.place with heq | ⟨fault, heq, hbreaks⟩
      · exact .inl ⟨_, heq, rfl⟩
      · exact .inr ⟨fault, earlier, d, later, host, heq, rfl, hearlier, hbreaks, by rw [hd]; rfl⟩

/-- A conversion that comes to a class that breaks the scan ends there. -/
theorem Breaks.converted {earlier later : List ClassDefinition}
    (hcontained : contained readClasses e (before.put (.directory []) scratch) =
      .ok (earlier ++ d :: later))
    (hearlier : writeClasses scratch earlier (before.put (.directory []) scratch) = .ok () host)
    (hbreaks : Breaks scratch host d fault) :
    converted readClasses e before scratch =
      .error (.aborted fault) (stateOf (Conversion.writeClass scratch d host)) := by
  obtain ⟨failure, after, hd, heq⟩ := hbreaks.writeClass e.place
  have hwrite : writeClasses scratch (earlier ++ d :: later)
      (before.put (.directory []) scratch) = .error failure after :=
    writeClasses_eq_error_iff.2 ⟨earlier, d, later, host, rfl, hearlier, hd⟩
  rw [converted_of_unwritten hcontained hwrite, heq, hd, stateOf]

/-- A class whose name has more segments than there are calls to make directories ends its
conversion. -/
theorem interrupted_deepName {n : Nat} (hfree : Free before scratch) (h : Host.Usable scratch)
    (hpath : Path.octetLength (Path.ofNames scratch) + 2 * n + 8 ≤ Path.maxPath)
    (hn : before.nesting.making < n) (hremoving : 0 < before.nesting.removing)
    (hcontained : contained readClasses e (before.put (.directory []) scratch) =
      .ok (bare (deepName n) :: ds)) :
    Interrupted readClasses e before scratch (.path (.tooDeep .making)) := by
  obtain ⟨place, hplace, hmake⟩ := makeDirectories_deepName hfree h hpath hn
  have hwrite : writeClass scratch (bare (deepName n)) (before.put (.directory []) scratch) =
      .error (.path (.tooDeep .making)) (before.put (.directory []) scratch) :=
    work_bind_eq_error_iff.2 (.inr ⟨place, _, Host.ask_eq_ok_iff.2 ⟨hplace, rfl⟩,
      work_bind_eq_error_iff.2 (.inl (adaptExcept_eq_error_iff.2 ⟨_, hmake, rfl⟩))⟩)
  have hcontained' : contained readClasses e (before.put (.directory []) scratch) =
      .ok ([] ++ bare (deepName n) :: ds) := hcontained
  refine .broken hcontained' rfl (.depth hplace hmake) ?_
  rw [hwrite]
  exact (Nests.begun hfree Nat.one_pos).canRemove hremoving

/-- Classes that are sound leave a directory that can be removed. -/
theorem canRemove_converted (hfree : Free before scratch) (hremoving : 0 < before.nesting.removing)
    (hcontained : contained readClasses e (before.put (.directory []) scratch) = .ok ds)
    (hds : ∀ d ∈ ds, Sound before d) :
    (stateOf (converted readClasses e before scratch)).canRemove scratch = true := by
  refine (nests_converted hfree hremoving fun ds' hds' d hd => ?_).canRemove (Nat.le_refl _)
  cases hcontained.symm.trans hds'
  exact ⟨(hds d hd).noDot, (hds d hd).clear, (hds d hd).removing⟩

/-- They interrupt no conversion. -/
theorem not_interrupted (hfree : Free before scratch)
    (hscratch : Path.check (Path.ofNames scratch) = .ok ())
    (hremoving : 0 < before.nesting.removing)
    (hcontained : contained readClasses e (before.put (.directory []) scratch) = .ok ds)
    (hds : ∀ d ∈ ds, Sound before d) : ¬ Interrupted readClasses e before scratch fault := by
  have hcan := canRemove_converted hfree hremoving hcontained hds
  intro hinterrupted
  cases hinterrupted with
  | stuck _ hcannot => rw [hcan] at hcannot; cases hcannot
  | broken hcontained' hearlier hbreaks =>
    cases hcontained.symm.trans hcontained'
    exact (hds _ (List.mem_append_right _ (List.mem_cons_self ..))).not_breaks
      (writeClasses_during hfree.during hearlier) hscratch hbreaks

end Converted

/-! ## Conversions in walks -/

section Pulled

variable {D : Decoding} {s s' : Session} {e : Entry} {trouble : Trouble}

/-- The entries of a conversion that went well are there, but the directory may not go after them. -/
theorem pull_converted_cases (D : Decoding) (place : Provenance) (left : List Text)
    (s : Session) :
    (∃ x s', D.pull (.converted place left) s = .ok x s') ∨
      left = [] ∧ ∃ fault, removeFault? s = some fault ∧
        D.pull (.converted place left) s = .error (.aborted fault) (remove s) := by
  cases left with
  | nil =>
    cases hgoes : removeFault? s with
    | none => exact .inl ⟨_, _, Decoding.pull_converted_nil D place hgoes⟩
    | some fault =>
      exact .inr ⟨rfl, fault, rfl, Decoding.pull_converted_nil_of_some D place hgoes⟩
  | cons name left => exact .inl ⟨_, _, rfl⟩

/-- A Dalvik file gives nothing when its conversion comes to nothing, or to no class file and to a
directory that cannot be removed. -/
theorem pull_eq_error_iff :
    D.pull (.dalvikStart e) s = .error trouble s' ↔
      ∃ host, s' = remove (reached s e host) ∧
        ((∃ before, converted D.readDalvik e s.host s.scratch = .error before host ∧
            trouble = troubleAfter before (reached s e host)) ∨
          converted D.readDalvik e s.host s.scratch = .ok [] host ∧
            ∃ fault, removeFault? (reached s e host) = some fault ∧ trouble = .aborted fault) := by
  cases hconverted : converted D.readDalvik e s.host s.scratch with
  | error before host =>
    rw [Decoding.pull_dalvikStart_of_error (start_of_converted_error hconverted)]
    simp only [EStateM.Result.error.injEq, reduceCtorEq, false_and, or_false]
    constructor
    · rintro ⟨rfl, rfl⟩
      exact ⟨host, rfl, before, ⟨rfl, rfl⟩, rfl⟩
    · rintro ⟨_, rfl, _, ⟨rfl, rfl⟩, rfl⟩
      exact ⟨rfl, rfl⟩
  | ok found host =>
    rw [Decoding.pull_dalvikStart (start_of_converted hconverted)]
    simp only [EStateM.Result.ok.injEq, reduceCtorEq, false_and, exists_false, false_or]
    rcases pull_converted_cases D e.place found (reached s e host) with
      ⟨x, s₁, hpull⟩ | ⟨rfl, fault, hgoes, hpull⟩
    · rw [hpull]
      constructor
      · exact fun heq => by cases heq
      · rintro ⟨_, rfl, ⟨rfl, rfl⟩, fault, hgoes, rfl⟩
        rw [Decoding.pull_converted_nil_of_some D e.place hgoes] at hpull
        cases hpull
    · rw [hpull]
      constructor
      · intro heq
        cases heq
        exact ⟨host, rfl, ⟨rfl, rfl⟩, fault, hgoes, rfl⟩
      · rintro ⟨_, rfl, ⟨-, rfl⟩, fault', hgoes', rfl⟩
        cases hgoes.symm.trans hgoes'
        rfl

/-- Whatever a conversion fails with, a fault takes the place of it where its directory cannot be
removed. -/
theorem pull_of_stuck (hconverted : converted D.readDalvik e s.host s.scratch = .error trouble host)
    (hcannot : host.canRemove s.scratch = false) :
    D.pull (.dalvikStart e) s =
      .error (.aborted (.path (.tooDeep .removing))) (reached s e host) := by
  have hgoes : removeFault? (reached s e host) = some (.path (.tooDeep .removing)) :=
    removeFault?_eq_some_iff.2 ⟨hcannot, rfl⟩
  have hstays : remove (reached s e host) = reached s e host :=
    if_neg (by simp [reached, hcannot])
  exact pull_eq_error_iff.2
    ⟨host, hstays.symm, .inl ⟨trouble, hconverted, (troubleAfter_of_some hgoes trouble).symm⟩⟩

/-- What a Dalvik file raises instead of its first entry. -/
theorem trouble_of_pull (hpull : D.pull (.dalvikStart e) s = .error trouble s') :
    (∃ reason, trouble = .ofReason e.place reason ∧ reason.isConversion = true) ∨
      ∃ fault, trouble = .aborted fault ∧
        Interrupted D.readDalvik e s.host s.scratch fault := by
  obtain ⟨host, rfl, ⟨before, hconverted, rfl⟩ | ⟨hconverted, fault, hgoes, rfl⟩⟩ :=
    pull_eq_error_iff.1 hpull
  · have hnone : ∀ found host, converted D.readDalvik e s.host s.scratch = .ok found host →
        found = [] := fun _ _ heq => by cases hconverted.symm.trans heq
    cases hgoes : removeFault? (reached s e host) with
    | none =>
      have hcan : host.canRemove s.scratch = true := removeFault?_eq_none_iff.1 hgoes
      rw [troubleAfter_of_none hgoes]
      rcases converted_eq_error hconverted with
        hfailed | ⟨fault, earlier, d, later, _, rfl, hcontained, hearlier, hbreaks, rfl⟩
      · exact .inl hfailed
      · exact .inr ⟨fault, rfl, .broken hcontained hearlier hbreaks hcan⟩
    | some fault =>
      obtain ⟨hcannot, rfl⟩ := removeFault?_eq_some_iff.1 hgoes
      refine .inr ⟨_, troubleAfter_of_some hgoes before, .stuck hnone ?_⟩
      rw [hconverted]
      exact hcannot
  · obtain ⟨hcannot, rfl⟩ := removeFault?_eq_some_iff.1 hgoes
    refine .inr ⟨_, rfl, .stuck (fun found host' heq => ?_) ?_⟩
    · cases hconverted.symm.trans heq
      rfl
    · rw [hconverted]
      exact hcannot

theorem Interrupted.pull (h : Interrupted D.readDalvik e s.host s.scratch fault) :
    ∃ s', D.pull (.dalvikStart e) s = .error (.aborted fault) s' := by
  cases h with
  | broken hcontained hearlier hbreaks hcan =>
    have hconverted := hbreaks.converted hcontained hearlier
    refine ⟨_, pull_eq_error_iff.2 ⟨_, rfl, .inl ⟨_, hconverted, ?_⟩⟩⟩
    rw [troubleAfter_of_none (removeFault?_eq_none_iff.2 hcan)]
  | stuck hnone hcannot =>
    cases hconverted : converted D.readDalvik e s.host s.scratch with
    | error before host =>
      rw [hconverted] at hcannot
      exact ⟨_, pull_of_stuck hconverted hcannot⟩
    | ok found host =>
      rw [hconverted] at hcannot
      obtain rfl := hnone found host hconverted
      exact ⟨_, pull_eq_error_iff.2 ⟨host, rfl, .inr ⟨hconverted, _,
        removeFault?_eq_some_iff.2 ⟨hcannot, rfl⟩, rfl⟩⟩⟩

/-- Where a Dalvik file raises something, its directory was to be removed before. -/
theorem cleared_of_pull (hfree : Free s.host s.scratch)
    (hpull : D.pull (.dalvikStart e) s = .error trouble s') :
    s'.scratch = s.scratch ∧ (s'.host = s.host ∨
      trouble = .aborted (.path (.tooDeep .removing)) ∧
        Cleared s.host s.scratch (some (.path (.tooDeep .removing))) s'.host) := by
  have hduring := during_converted hfree D.readDalvik e
  obtain ⟨host, rfl, hcases⟩ := pull_eq_error_iff.1 hpull
  have hhost : stateOf (converted D.readDalvik e s.host s.scratch) = host := by
    rcases hcases with ⟨_, hconverted, -⟩ | ⟨hconverted, -⟩ <;> rw [hconverted] <;> rfl
  obtain ⟨hcleared, hscratch⟩ := cleared_remove (s := reached s e host) (hhost ▸ hduring) rfl
  refine ⟨hscratch, ?_⟩
  cases hgoes : removeFault? (reached s e host) with
  | none =>
    rw [hgoes] at hcleared
    exact .inl hcleared.eq_before
  | some fault =>
    obtain ⟨-, rfl⟩ := removeFault?_eq_some_iff.1 hgoes
    rw [hgoes] at hcleared
    refine .inr ⟨?_, hcleared⟩
    rcases hcases with ⟨before, -, rfl⟩ | ⟨-, fault, hgoes', rfl⟩
    · exact troubleAfter_of_some hgoes before
    · cases hgoes.symm.trans hgoes'
      rfl

end Pulled

/-- Which conversions a walk survives. Of a Dalvik file its first entry may be refused, and after its
last one its directory may stay; in between nothing is refused. When the first entry is refused the
host is as it was, unless the directory stays. Either the conversion fails, which costs the walk one
diagnostic and the file; or it is interrupted, which ends the walk. It is not, and the directory goes,
when the classes have names that make a path, have not too many segments and lead through no link, and
can be counted. -/
theorem aborts_iff_interrupted {D : Decoding} {s : Session} {e : Entry}
    (hfree : Free s.host s.scratch) :
    (∀ place left w, (∃ x w', D.pull (.converted place left) w = .ok x w') ∨
      left = [] ∧ ∃ fault, removeFault? w = some fault ∧
        D.pull (.converted place left) w = .error (.aborted fault) (remove w)) ∧
      (∀ trouble s', D.pull (.dalvikStart e) s = .error trouble s' →
        ((∃ reason, trouble = .ofReason e.place reason ∧ reason.isConversion = true) ∨
          ∃ fault, trouble = .aborted fault) ∧ s'.scratch = s.scratch ∧
        (s'.host = s.host ∨ trouble = .aborted (.path (.tooDeep .removing)) ∧
          Cleared s.host s.scratch (some (.path (.tooDeep .removing))) s'.host)) ∧
      (∀ fault, (∃ s', D.pull (.dalvikStart e) s = .error (.aborted fault) s') ↔
        Interrupted D.readDalvik e s.host s.scratch fault) ∧
      (∀ ds, contained D.readDalvik e (s.host.put (.directory []) s.scratch) = .ok ds →
        Path.check (Path.ofNames s.scratch) = .ok () → 0 < s.host.nesting.removing →
        (∀ d ∈ ds, Sound s.host d) →
        (∀ fault, ¬ Interrupted D.readDalvik e s.host s.scratch fault) ∧
          ∀ given s₁, start D.readDalvik e s = .ok given s₁ → removeFault? s₁ = none) ∧
      ∀ (l : Limits) (st : State Session Entry Position) (depth : Nat)
        (frames : List (Position × Nat)), st.world = s →
        st.frames = (.dalvikStart e, depth) :: frames → st.tally.entriesSeen ≤ l.budget →
        (∀ failure s', D.pull (.dalvikStart e) s = .error (.failed failure) s' →
          Walk.step D.decoder l st = .continues
            { st with world := s', frames, tally := st.tally.addFailure e.place.text failure }) ∧
        ∀ fault s', D.pull (.dalvikStart e) s = .error (.aborted fault) s' →
          Walk.step D.decoder l st = Walk.abort D.decoder fault { st with world := s', frames } := by
  refine ⟨pull_converted_cases D, fun trouble s' hpull => ⟨?_, cleared_of_pull hfree hpull⟩,
    ?_, ?_, ?_⟩
  · rcases trouble_of_pull hpull with hfailed | ⟨fault, heq, -⟩
    · exact .inl hfailed
    · exact .inr ⟨fault, heq⟩
  · intro fault
    refine ⟨?_, Interrupted.pull⟩
    rintro ⟨s', hpull⟩
    rcases trouble_of_pull hpull with ⟨reason, heq, -⟩ | ⟨_, heq, hinterrupted⟩
    · cases heq
    · cases heq
      exact hinterrupted
  · intro ds hcontained hscratch hremoving hds
    refine ⟨fun fault => not_interrupted hfree hscratch hremoving hcontained hds, ?_⟩
    intro given s₁ hstart
    have hcan := canRemove_converted hfree hremoving hcontained hds
    rw [start_eq] at hstart
    cases hconverted : converted D.readDalvik e s.host s.scratch with
    | error before host => rw [hconverted] at hstart; cases hstart
    | ok found host =>
      rw [hconverted] at hstart hcan
      cases hstart
      exact removeFault?_eq_none_iff.2 hcan
  · rintro l st depth frames rfl hf hb
    have hstep := Walk.step_of_pull (d := D.decoder) hf hb
    refine ⟨fun failure s' hpull => ?_, fun fault s' hpull => ?_⟩
    · rw [hstep]
      simp only [show D.decoder.pull (.dalvikStart e) st.world = _ from hpull]
      rcases trouble_of_pull hpull with ⟨reason, heq, -⟩ | ⟨_, heq, -⟩
      · cases heq
        rfl
      · cases heq
    · rw [hstep]
      simp only [show D.decoder.pull (.dalvikStart e) st.world = _ from hpull]

/-! ## Two conversions in an empty host -/

theorem sound_bare {name : Text} (hdot : .ofChar '.' ∉ name) (hslash : Path.slash ∉ name)
    (hcheck : Path.check (fileName (bare name)) = .ok ()) (hmaking : 0 < before.nesting.making)
    (hremoving : 0 < before.nesting.removing) : Sound before (bare name) where
  noDot := hdot
  clear habsolute := by
    rw [isAbsolute_fileName hslash] at habsolute
    cases habsolute
  checked := hcheck
  making := by rwa [segments_eq hslash]
  removing := by rwa [segments_eq hslash]
  fits :=
    { constants := by simp [bare, ClassDefinition.texts, ClassDefinition.classNames]
      interfaces := by simp [bare]
      fields := by simp [bare, ClassDefinition.fields]
      methods := by simp [bare, ClassDefinition.methods] }

/-- A file with a class that is sound is converted, or fails. -/
theorem aborts_iff_interrupted_bare :
    let cs := [.ofDefinition (bare "A")]
    Free emptyHost.host emptyHost.scratch ∧
      Path.check (Path.ofNames emptyHost.scratch) = .ok () ∧ Sound emptyHost.host (bare "A") ∧
      ¬ ∃ fault s', (decodingOf cs).pull (.dalvikStart dalvikFile) emptyHost =
        .error (.aborted fault) s' := by
  intro cs
  have hsound : Sound emptyHost.host (bare "A") :=
    sound_bare (by decide) (by decide) (by decide +kernel) (by decide) (by decide)
  have hscratch : Path.check (Path.ofNames emptyHost.scratch) = .ok () := usable_emptyHost.checked
  have hcontained : contained (decodingOf cs).readDalvik dalvikFile
      (emptyHost.host.put (.directory []) emptyHost.scratch) = .ok [bare "A"] := by
    show Except.ok [(RawClass.ofDefinition (bare "A")).toDefinition] = _
    rw [RawClass.toDefinition_of_renders (RawClass.renders_ofDefinition _)
      (exact_bare (by decide) (by decide))]
  obtain ⟨-, -, hiff, hall, -⟩ := aborts_iff_interrupted (D := decodingOf cs) (e := dalvikFile)
    free_emptyHost
  refine ⟨free_emptyHost, hscratch, hsound, ?_⟩
  rintro ⟨fault, s', hpull⟩
  exact (hall _ hcontained hscratch (by decide) (List.forall_mem_singleton.2 hsound)).1 fault
    ((hiff fault).1 ⟨s', hpull⟩)

/-- A class whose name is a NUL ends the walk before anything behind its file is met. -/
theorem aborted_nullName :
    let D := decodingOf [.ofDefinition (bare [.ofNat 0])]
    (∃ s', D.pull (.dalvikStart dalvikFile) emptyHost =
        .error (.aborted (.path .embeddedNull)) s') ∧
      let r := Walk.occurrences D.decoder {} none
        { world := emptyHost, tally := { console := { verbose := false } }
          roots := [.entry dalvikFile, .entry (Entry.ofPath "/A.class")] }
      r.fault = some (.path .embeddedNull) ∧ r.value = [] ∧ r.tally.entriesSeen = 1 ∧
        r.tally.diagnostics = #[] := by
  intro D
  have hconverted : converted D.readDalvik dalvikFile emptyHost.host emptyHost.scratch =
      .error (.aborted (.path .embeddedNull))
        (emptyHost.host.put (.directory []) emptyHost.scratch) := rfl
  let begun := emptyHost.host.put (.directory []) emptyHost.scratch
  have hgoes : removeFault? (reached emptyHost dalvikFile begun) = none :=
    removeFault?_eq_none_iff.2 ((Nests.begun free_emptyHost Nat.one_pos).canRemove (by decide))
  have hpull : D.pull (.dalvikStart dalvikFile) emptyHost =
      .error (.aborted (.path .embeddedNull)) (remove (reached emptyHost dalvikFile begun)) := by
    refine pull_eq_error_iff.2 ⟨_, rfl, .inl ⟨_, hconverted, ?_⟩⟩
    rw [troubleAfter, hgoes]
    rfl
  refine ⟨⟨_, hpull⟩, ?_⟩
  -- The file is opened in a first step, and asked for its classes in a second one.
  rw [Walk.occurrences_eq_step]
  obtain ⟨st, hopened, hworld, hframes, hseen, hdiagnostics⟩ :
      ∃ st, Walk.step D.decoder {}
          { world := emptyHost, tally := { console := { verbose := false } }
            roots := [.entry dalvikFile, .entry (Entry.ofPath "/A.class")] } = .continues st ∧
        st.world = emptyHost ∧ st.frames = [(.dalvikStart dalvikFile, 1)] ∧
        st.tally.entriesSeen = 1 ∧ st.tally.diagnostics = #[] :=
    ⟨_, rfl, rfl, rfl, rfl, rfl⟩
  have hpull : D.decoder.pull (.dalvikStart dalvikFile) st.world = .error _ _ := hworld ▸ hpull
  have hstep := Walk.step_of_pull (d := D.decoder) (l := {}) hframes (by rw [hseen]; decide)
  simp only [hpull] at hstep
  simp only [hopened, Walk.Next.occurrences]
  rw [Walk.occurrences_eq_step, hstep]
  exact ⟨rfl, rfl, hseen, hdiagnostics⟩

end Dalvik.Conversion

end JndiScan

/-
What a conversion leaves in its directory. The file of each class has its own place there, told by
the name of the class, as long as the file system tells the names of the classes apart; so when all
classes are written, each file holds what was written of its class.
-/
import JndiScan.Proofs.Dalvik.ClassPath
import JndiScan.Proofs.Dalvik.Directory

namespace JndiScan.Dalvik

variable {before host host' : Host} {scratch : List Text}
variable {d e : ClassDefinition} {ds : List ClassDefinition}

/-- The name of the directory of a conversion is new to a class: neither the class nor a link tells
it. -/
structure Unmentioned (before : Host) (scratch : List Text) (d : ClassDefinition) : Prop where
  segments : ∀ n ∈ Conversion.segments d, scratch.getLast? ≠ some n
  links : before.TargetNames fun n => scratch.getLast? ≠ some n

namespace Conversion

/-! ## Where the name of a class leads -/

/-- The place that the name of a class tells. -/
def wayTo (scratch : List Text) (d : ClassDefinition) : List Text :=
  if Path.isAbsolute (fileName d) then segments d else scratch ++ segments d

/-- The name of a class leads through no link if it starts at the root. -/
def Clear (before : Host) (d : ClassDefinition) : Prop :=
  Path.isAbsolute (fileName d) = true → Host.NoLink before [] (segments d)

theorem below_segments (hfree : Free before scratch) (hdot : .ofChar '.' ∉ d.name)
    (hrelative : Path.isAbsolute (fileName d) = false) :
    Path.below (Path.ofNames scratch) (fileName d) = Path.ofNames (scratch ++ segments d) :=
  Path.below_ofNames hfree.ne_nil hfree.plain hrelative (segments_ne_nil hdot)

theorem wayTo_ne_nil (hdot : .ofChar '.' ∉ d.name) : wayTo scratch d ≠ [] := by
  rw [wayTo]
  split
  · exact segments_ne_nil hdot
  · exact List.append_ne_nil_of_right_ne_nil _ (segments_ne_nil hdot)

theorem plain_wayTo (hfree : Free before scratch) (hdot : .ofChar '.' ∉ d.name) :
    ∀ n ∈ wayTo scratch d, Path.Plain n := by
  rw [wayTo]
  split
  · exact plain_segments hdot
  · exact List.forall_mem_append.2 ⟨hfree.plain, plain_segments hdot⟩

theorem names_below (hfree : Free before scratch) (hdot : .ofChar '.' ∉ d.name) :
    Path.names (Path.below (Path.ofNames scratch) (fileName d)) = wayTo scratch d := by
  rw [wayTo]
  split
  · next habsolute => rw [Path.below, if_pos habsolute, Path.names_shown, segments]
  · next hrelative =>
    rw [below_segments hfree hdot (by simpa using hrelative), Path.names_ofNames]
    exact List.forall_mem_append.2 ⟨hfree.plain, plain_segments hdot⟩

theorem noLink_wayTo (h : During before scratch host) (hclear : Clear before d) :
    Host.NoLink host [] (wayTo scratch d) := by
  rw [wayTo]
  split
  · next habsolute =>
    exact fun way hway target hat => hclear habsolute way hway target (h.at?_link hat)
  · exact h.noLink (segments d)

/-- A class whose name leads through no link has its file at the place that the name tells. -/
theorem eq_wayTo_of_resolve (h : During before scratch host) (hdot : .ofChar '.' ∉ d.name)
    (hclear : Clear before d) {place : List Text}
    (hresolve : host.resolve (Path.below (Path.ofNames scratch) (fileName d)) = .ok place) :
    place = wayTo scratch d :=
  Host.resolve_of_noLink (Path.isAbsolute_below h.free.ne_nil h.free.plain _)
    (names_below h.free hdot) (plain_wayTo h.free hdot) (noLink_wayTo h hclear) hresolve

/-! ## The files of classes -/

/-- The file of a class stands in the host, and is read by the name of the class. -/
def Held (scratch : List Text) (host : Host) (d : ClassDefinition) : Prop :=
  Path.isAbsolute (fileName d) = false ∧ ∃ octets, ClassFile.write d = .ok octets ∧
    Host.Usable (scratch ++ segments d) ∧
    host.root.at? (scratch ++ segments d) = some (.file octets)

section Written

variable {inside : List Text} {octets : Bytes} {between : Host}

/-- A name from the root on leads out of the directory, since it does not tell the name of the
directory. -/
theorem Written.isAbsolute_eq_false (hw : Written scratch host d inside octets between host')
    (h : During before scratch host)
    (hnew : Path.isAbsolute (fileName d) = true → Unmentioned before scratch d) :
    Path.isAbsolute (fileName d) = false := by
  rw [Bool.eq_false_iff]
  intro habsolute
  obtain ⟨hclass, hlinks⟩ := hnew habsolute
  have hresolved := hw.resolved
  rw [Path.below, habsolute, if_pos rfl] at hresolved
  have hout : ∀ n ∈ scratch ++ inside, scratch.getLast? ≠ some n := by
    refine Host.resolve_all (h.targetNames hlinks) (Path.isAbsolute_shown habsolute) ?_ hresolved
    intro n hn _
    rw [Path.names_shown] at hn
    exact hclass n hn
  have hmem : scratch.getLast h.free.ne_nil ∈ scratch ++ inside :=
    List.mem_append_left _ (List.getLast_mem _)
  exact absurd (List.getLast?_eq_some_getLast h.free.ne_nil) (hout _ hmem)

/-- A class whose name has no dots has its file at the place that its name tells. -/
theorem Written.inside_eq (hw : Written scratch host d inside octets between host')
    (h : During before scratch host) (hdot : .ofChar '.' ∉ d.name)
    (hrelative : Path.isAbsolute (fileName d) = false) : inside = segments d := by
  have hclear : Clear before d := fun habsolute => by
    rw [hrelative] at habsolute
    cases habsolute
  have hplace := eq_wayTo_of_resolve h hdot hclear hw.resolved
  rw [wayTo, if_neg (by rw [hrelative]; exact Bool.false_ne_true)] at hplace
  exact List.append_cancel_left hplace

/-- Other files stay as they are when a class is written. -/
theorem Written.at?_of_file (hw : Written scratch host d inside octets between host')
    (h : During before scratch host) {place : List Text} {content : Bytes}
    (hfile : host.root.at? place = some (.file content))
    (hne : Path.key place ≠ Path.key (scratch ++ inside)) :
    host'.root.at? place = some (.file content) := by
  have hbetween : During before scratch between ∧
      between.root.at? place = some (.file content) := by
    have hkept : Preserves
        (fun host => During before scratch host ∧ host.root.at? place = some (.file content))
        (Host.makeDirectories (scratch ++ inside).dropLast) := by
      refine Host.preserves_makeDirectories fun way hway _ _ ⟨hduring, hfile⟩ hmake => ?_
      have hway := hway.trans (List.dropLast_prefix _)
      exact ⟨hduring.makeDirectory hw.plain hway hmake,
        hduring.at?_makeDirectory hw.plain hway hmake hfile⟩
    have hmade := hkept host ⟨h, hfile⟩
    rwa [hw.directories] at hmade
  obtain ⟨-, rfl, habove, hold⟩ := hw.put h
  exact FileTree.at?_put_of_file habove hold hbetween.2 hne _

end Written

theorem held_of_writeClass (h : During before scratch host) (hdot : .ofChar '.' ∉ d.name)
    (hnew : Path.isAbsolute (fileName d) = true → Unmentioned before scratch d)
    (hwrite : writeClass scratch d host = .ok () host') : Held scratch host' d := by
  obtain ⟨inside, octets, between, hw⟩ := exists_written h.free hwrite
  have hrelative := hw.isAbsolute_eq_false h hnew
  obtain rfl := hw.inside_eq h hdot hrelative
  obtain ⟨husable, rfl, ⟨entries, habove⟩, -⟩ := hw.put h
  refine ⟨hrelative, octets, hw.content, husable, ?_⟩
  exact FileTree.at?_put husable.ne_nil habove (.file octets)

theorem Held.writeClass (hheld : Held scratch host e) (h : During before scratch host)
    (hdot : .ofChar '.' ∉ d.name)
    (hnew : Path.isAbsolute (fileName d) = true → Unmentioned before scratch d)
    (hne : Path.key (segments e) ≠ Path.key (segments d))
    (hwrite : Conversion.writeClass scratch d host = .ok () host') : Held scratch host' e := by
  obtain ⟨hrelative, octets, hoctets, husable, hfile⟩ := hheld
  obtain ⟨inside, _, between, hw⟩ := exists_written h.free hwrite
  obtain rfl := hw.inside_eq h hdot (hw.isAbsolute_eq_false h hnew)
  refine ⟨hrelative, octets, hoctets, husable, hw.at?_of_file h hfile ?_⟩
  rw [Path.key_append, Path.key_append]
  exact fun heq => hne (List.append_cancel_left heq)

/-- A class has its file at the place that its name tells. -/
structure Placed (before : Host) (scratch : List Text) (d : ClassDefinition) : Prop where
  noDot : .ofChar '.' ∉ d.name
  unmentioned : Path.isAbsolute (fileName d) = true → Unmentioned before scratch d

/-- Classes that are written later leave the file of a class as it is, unless it is theirs too. -/
theorem Held.writeClasses (hheld : Held scratch host e) (h : During before scratch host)
    (hplaced : ∀ d ∈ ds, Placed before scratch d)
    (hne : ∀ d ∈ ds, Path.key (segments d) ≠ Path.key (segments e))
    (hwrite : Conversion.writeClasses scratch ds host = .ok () host') : Held scratch host' e := by
  induction ds generalizing host with
  | nil =>
    cases hwrite
    exact hheld
  | cons d ds ih =>
    obtain ⟨⟨⟩, between, hfirst, hrest⟩ := work_bind_eq_ok_iff.1 hwrite
    have hd := hplaced d (List.mem_cons_self ..)
    refine ih ?_ (writeClass_during h hfirst) (fun d hd => hplaced d (List.mem_cons_of_mem _ hd))
      (fun d hd => hne d (List.mem_cons_of_mem _ hd)) hrest
    exact hheld.writeClass h hd.noDot hd.unmentioned (hne d (List.mem_cons_self ..)).symm hfirst

/-- The file of a class is written by no class after it. -/
def LastOfFile (ds : List ClassDefinition) (d : ClassDefinition) : Prop :=
  ∃ earlier later, ds = earlier ++ d :: later ∧
    ∀ e ∈ later, Path.key (segments e) ≠ Path.key (segments d)

theorem LastOfFile.mem (h : LastOfFile ds d) : d ∈ ds := by
  obtain ⟨earlier, later, rfl, -⟩ := h
  exact List.mem_append_right _ (List.mem_cons_self ..)

/-- Of the classes with one file there is a last one. -/
theorem exists_lastOfFile (hd : d ∈ ds) :
    ∃ e, LastOfFile ds e ∧ Path.key (segments e) = Path.key (segments d) := by
  induction ds generalizing d with
  | nil => cases hd
  | cons c ds ih =>
    by_cases hlater : ∃ d' ∈ ds, Path.key (segments d') = Path.key (segments d)
    · obtain ⟨d', hmem, hkey⟩ := hlater
      obtain ⟨e, ⟨earlier, later, rfl, hne⟩, heq⟩ := ih hmem
      exact ⟨e, ⟨c :: earlier, later, rfl, hne⟩, heq.trans hkey⟩
    · obtain rfl : d = c := (List.mem_cons.1 hd).resolve_right fun hmem => hlater ⟨d, hmem, rfl⟩
      exact ⟨d, ⟨[], ds, rfl, fun e he heq => hlater ⟨e, he, heq⟩⟩, rfl⟩

/-- A file has one last class. -/
theorem LastOfFile.unique (hd : LastOfFile ds d) (he : LastOfFile ds e)
    (hkey : Path.key (segments d) = Path.key (segments e)) : d = e := by
  obtain ⟨earlier, later, rfl, hlater⟩ := hd
  obtain ⟨earlier', later', heq, hlater'⟩ := he
  rcases List.append_eq_append_iff.1 heq with ⟨gap, rfl, hgap⟩ | ⟨gap, rfl, hgap⟩
  · cases gap with
    | nil => exact (List.cons.inj hgap).1
    | cons _ gap =>
      have hmem : e ∈ later := by
        rw [(List.cons.inj hgap).2]
        exact List.mem_append_right _ (List.mem_cons_self ..)
      exact absurd hkey.symm (hlater e hmem)
  · cases gap with
    | nil => exact (List.cons.inj hgap).1.symm
    | cons _ gap =>
      have hmem : d ∈ later' := by
        rw [(List.cons.inj hgap).2]
        exact List.mem_append_right _ (List.mem_cons_self ..)
      exact absurd hkey (hlater' d hmem)

theorem lastOfFile_of_nodup (hdistinct : (ds.map fun d => Path.key (segments d)).Nodup)
    (hd : d ∈ ds) : LastOfFile ds d := by
  obtain ⟨earlier, later, rfl⟩ := List.append_of_mem hd
  refine ⟨earlier, later, rfl, fun e he heq => ?_⟩
  rw [List.map_append, List.map_cons] at hdistinct
  have hout := (List.nodup_cons.1 (List.nodup_append.1 hdistinct).2.1).1
  exact hout (List.mem_map.2 ⟨e, he, heq⟩)

/-- When all classes are written, each file holds what was written of the last of its classes. -/
theorem held_of_writeClasses (h : During before scratch host)
    (hplaced : ∀ d ∈ ds, Placed before scratch d)
    (hwrite : writeClasses scratch ds host = .ok () host') (hlast : LastOfFile ds d) :
    Held scratch host' d := by
  obtain ⟨earlier, later, rfl, hne⟩ := hlast
  have hmem : ∀ e ∈ later, e ∈ earlier ++ d :: later := fun e he =>
    List.mem_append_right _ (List.mem_cons_of_mem _ he)
  obtain ⟨first, second, hfirst, hsecond, hrest⟩ := exists_of_writeClasses_append hwrite
  have hd := hplaced d (List.mem_append_right _ (List.mem_cons_self ..))
  have hduring := writeClasses_during h hfirst
  exact (held_of_writeClass hduring hd.noDot hd.unmentioned hsecond).writeClasses
    (writeClass_during hduring hsecond) (fun e he => hplaced e (hmem e he)) hne hrest

/-- Every class stood in its file once it was written. -/
theorem exists_held (h : During before scratch host) (hplaced : ∀ d ∈ ds, Placed before scratch d)
    (hwrite : writeClasses scratch ds host = .ok () host') (hd : d ∈ ds) :
    ∃ then', Held scratch then' d := by
  obtain ⟨earlier, later, rfl⟩ := List.append_of_mem hd
  obtain ⟨first, second, hfirst, hsecond, -⟩ := exists_of_writeClasses_append hwrite
  exact ⟨second, held_of_writeClass (writeClasses_during h hfirst) (hplaced d hd).noDot
    (hplaced d hd).unmentioned hsecond⟩

/-- What a conversion leaves behind that goes well: the files of its classes, by their names. -/
structure Leaves (s s₁ : Session) (ds : List ClassDefinition) : Prop where
  during : During s.host s.scratch s₁.host
  scratch : s₁.scratch = s.scratch
  held : ∀ d, LastOfFile ds d → Held s.scratch s₁.host d
  once : ∀ d ∈ ds, ∃ then', Held s.scratch then' d

theorem leaves_of_start {s s₁ : Session} {readClasses : ClassReader} {e : Entry}
    {given : List Text} (hfree : Free s.host s.scratch)
    (hcontained : contained readClasses e (s.host.put (.directory []) s.scratch) = .ok ds)
    (hplaced : ∀ d ∈ ds, Placed s.host s.scratch d) (hstart : start readClasses e s = .ok given s₁) :
    given = names ds ∧ Leaves s s₁ ds := by
  rw [start_eq] at hstart
  cases hconverted : converted readClasses e s.host s.scratch with
  | error trouble host =>
    rw [hconverted] at hstart
    cases hstart
  | ok found host =>
    rw [hconverted] at hstart
    cases hstart
    obtain ⟨ds', hds', hwrite, hgiven⟩ := converted_eq_ok hconverted
    cases hcontained.symm.trans hds'
    exact ⟨hgiven, writeClasses_during hfree.during hwrite, rfl,
      fun d hlast => held_of_writeClasses hfree.during hplaced hwrite hlast,
      fun d hd => exists_held hfree.during hplaced hwrite hd⟩

end Conversion

end JndiScan.Dalvik

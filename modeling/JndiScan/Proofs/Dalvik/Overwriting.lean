/-
What becomes of the classes of a Dalvik file. A conversion gives one entry for each class, but the
entries of classes with one file are read alike: as the class that was written last. So a class is
found again exactly when it is the last one of its file, and no class is lost exactly when classes
that share a file are the same class. Classes share a file when their names do, and also when these
differ in no more than empty segments.
-/
import JndiScan.Proofs.Dalvik.Transparency

namespace JndiScan.Dalvik.Conversion

variable {D : Decoding} {s s₁ : Session} {e : Entry} {cs : List RawClass}
variable {d : ClassDefinition} {ds : List ClassDefinition} {given : List Text}

/-- A Dalvik file in a session: its classes have names, and the directory for its conversion is new
to them. -/
structure Holding (D : Decoding) (s : Session) (e : Entry) (cs : List RawClass) : Prop where
  free : Free s.host s.scratch
  content : ∃ bytes, e.content (s.host.put (.directory []) s.scratch) = .ok bytes ∧
    D.readDalvik bytes = .ok cs
  named : ∀ c ∈ cs, c.toDefinition.name ≠ []
  unmentioned : ∀ c ∈ cs, Path.isAbsolute (fileName c.toDefinition) = true →
    Unmentioned s.host s.scratch c.toDefinition

/-- An entry, in the session in which it is given, is read as a definition. -/
def ReadAs (x : Entry × Session) (d : ClassDefinition) : Prop :=
  ∃ bytes, x.1.content x.2.host = .ok bytes ∧ ClassFile.read bytes = .ok d

theorem ReadAs.unique {x : Entry × Session} {d d' : ClassDefinition} (h : ReadAs x d)
    (h' : ReadAs x d') : d = d' := by
  obtain ⟨bytes, hbytes, hd⟩ := h
  obtain ⟨bytes', hbytes', hd'⟩ := h'
  cases hbytes.symm.trans hbytes'
  cases hd.symm.trans hd'
  rfl

/-! ## One class -/

/-- The entry of a class is read as the last class of its file. -/
theorem Leaves.readAs (h : Leaves s s₁ ds) (hexact : ∀ d ∈ ds, d.Exact) (place : Provenance)
    (hd : d ∈ ds) {last : ClassDefinition} (hlast : LastOfFile ds last)
    (hkey : Path.key (segments last) = Path.key (segments d)) :
    ReadAs (entry s.scratch place (fileName d), s₁) last := by
  obtain ⟨then', hrelative, -, -, husable, -⟩ := h.once d hd
  obtain ⟨-, octets, hoctets, -, hfile⟩ := h.held last hlast
  have hplace : Path.key (s.scratch ++ segments d) = Path.key (s.scratch ++ segments last) := by
    rw [Path.key_append, Path.key_append, hkey]
  rw [← FileTree.at?_congr hplace] at hfile
  have hbelow := below_segments h.during.free (hexact d hd).name hrelative
  exact ⟨octets, content_entry place ⟨rfl, h.scratch⟩ hbelow husable hfile,
    ClassFile.read_of_write_exact (hexact last hlast.mem) hoctets⟩

/-- Among the entries of all classes, those of one file are read as its last class. -/
theorem Leaves.exists_readAs_iff (h : Leaves s s₁ ds) (hexact : ∀ d ∈ ds, d.Exact)
    (place : Provenance) :
    (∃ c ∈ ds, ReadAs (entry s.scratch place (fileName c), s₁) d) ↔ LastOfFile ds d := by
  constructor
  · rintro ⟨c, hc, hread⟩
    obtain ⟨last, hlast, hkey⟩ := exists_lastOfFile hc
    rwa [hread.unique (h.readAs hexact place hc hlast hkey)]
  · exact fun hlast => ⟨d, hlast.mem, h.readAs hexact place hlast.mem hlast rfl⟩

/-- Every class is the last of its file when classes that share a file are the same. -/
theorem forall_lastOfFile_iff :
    (∀ d ∈ ds, LastOfFile ds d) ↔
      ∀ c ∈ ds, ∀ d ∈ ds, Path.key (segments c) = Path.key (segments d) → c = d := by
  constructor
  · exact fun hall c hc d hd hkey => (hall c hc).unique (hall d hd) hkey
  · intro hsame d hd
    obtain ⟨last, hlast, hkey⟩ := exists_lastOfFile hd
    rwa [← hsame last hlast.mem d hd hkey]

/-! ## Whole files -/

theorem Holding.contained_eq (h : Holding D s e cs) :
    contained D.readDalvik e (s.host.put (.directory []) s.scratch) =
      .ok (cs.map RawClass.toDefinition) := by
  obtain ⟨bytes, hbytes, hclasses⟩ := h.content
  rw [contained, hbytes]
  simp only [hclasses]

theorem Holding.exact (h : Holding D s e cs) : ∀ d ∈ cs.map RawClass.toDefinition, d.Exact := by
  intro d hd
  obtain ⟨c, hc, rfl⟩ := List.mem_map.1 hd
  exact c.exact_toDefinition (h.named c hc)

theorem Holding.leaves (h : Holding D s e cs) (hstart : start D.readDalvik e s = .ok given s₁) :
    given = names (cs.map RawClass.toDefinition) ∧ Leaves s s₁ (cs.map RawClass.toDefinition) := by
  refine leaves_of_start h.free h.contained_eq (fun d hd => ⟨(h.exact d hd).name, ?_⟩) hstart
  obtain ⟨c, hc, rfl⟩ := List.mem_map.1 hd
  exact h.unmentioned c hc

/-- The entries of a Dalvik file, one for each class, of which those of one file are read alike. -/
theorem Holding.pulls (h : Holding D s e cs) (hstart : start D.readDalvik e s = .ok given s₁)
    (hgoes : removeFault? s₁ = none) :
    ∃ entries s', Pulls D s (.dalvikStart e) entries s' ∧ At s.host s.scratch s' ∧
      entries.map (fun x => x.1.name) = (inOrder (cs.map RawClass.toDefinition)).map fileName ∧
      ∀ d, (∃ x ∈ entries, ReadAs x d) ↔ LastOfFile (cs.map RawClass.toDefinition) d := by
  obtain ⟨rfl, hleaves⟩ := h.leaves hstart
  have hat : At s₁.host s.scratch s₁ := ⟨rfl, hleaves.scratch⟩
  refine ⟨_, _, (pulls_converted D hgoes e.place _).of_pull (Decoding.pull_dalvikStart hstart),
    Decoding.at_remove hleaves.during hat hgoes, ?_, fun d => ?_⟩
  · rw [List.map_map, names_eq_map]
    exact List.map_id _
  · rw [← hleaves.exists_readAs_iff h.exact e.place, names_eq_map, List.map_map, hleaves.scratch]
    simp only [List.mem_map, (inOrder_perm _).mem_iff, Function.comp_apply]
    constructor
    · rintro ⟨_, ⟨c, hc, rfl⟩, hread⟩
      exact ⟨c, hc, hread⟩
    · rintro ⟨c, hc, hread⟩
      exact ⟨_, ⟨c, hc, rfl⟩, hread⟩

/-- Which classes of a Dalvik file are found. When the file is converted without a failure, and the
directory of the conversion can be removed, there is an entry for each class, by its name, and the
definitions that are read are those of the classes that are the last of their files. So every class
is found exactly when classes that share a file are the same definition. -/
theorem found_iff_lastOfFile {D : Decoding} {s s₁ : Session} {e : Entry} {cs : List RawClass}
    {given : List Text} (h : Holding D s e cs)
    (hstart : start D.readDalvik e s = .ok given s₁) (hgoes : removeFault? s₁ = none) :
    ∃ entries s', Pulls D s (.dalvikStart e) entries s' ∧ At s.host s.scratch s' ∧
      entries.map (fun x => x.1.name) = (inOrder (cs.map RawClass.toDefinition)).map fileName ∧
      (∀ d, (∃ x ∈ entries, ReadAs x d) ↔ LastOfFile (cs.map RawClass.toDefinition) d) ∧
      ((∀ c ∈ cs, ∃ x ∈ entries, ReadAs x c.toDefinition) ↔
        ∀ c ∈ cs, ∀ c' ∈ cs, Path.key (segments c.toDefinition) =
          Path.key (segments c'.toDefinition) → c.toDefinition = c'.toDefinition) := by
  obtain ⟨entries, s', hpulls, hat, hnames, hread⟩ := h.pulls hstart hgoes
  refine ⟨entries, s', hpulls, hat, hnames, hread, ?_⟩
  have hall := @forall_lastOfFile_iff (cs.map RawClass.toDefinition)
  simp only [List.forall_mem_map] at hall
  simp only [hread]
  exact hall

/-- Empty segments of a name do not show in its file. -/
example : segments (bare "a//B") = segments (bare "a/B") := by decide

/-! ## Three classes of two names in an empty host -/

theorem holding_emptyHost (hds : cs.map RawClass.toDefinition = ds)
    (hnamed : ∀ d ∈ ds, d.name ≠ []) (hslash : ∀ d ∈ ds, Path.slash ∉ d.name) :
    Holding (decodingOf cs) emptyHost dalvikFile cs where
  free := free_emptyHost
  content := ⟨[], rfl, rfl⟩
  named c hc := hnamed _ (hds ▸ List.mem_map_of_mem hc)
  unmentioned c hc habsolute := by
    rw [isAbsolute_fileName (hslash _ (hds ▸ List.mem_map_of_mem hc))] at habsolute
    cases habsolute

/-- Renderings of two classes of one name, and of another class. -/
def sameName : List RawClass := [.ofDefinition (bare "A"), guardedRendering, .ofDefinition (bare "Z")]

theorem toDefinition_sameName :
    sameName.map RawClass.toDefinition = [bare "A", guarded, bare "Z"] := by
  refine map_toDefinition_of_renders (.cons (RawClass.renders_ofDefinition _)
    (.cons renders_guarded (.cons (RawClass.renders_ofDefinition _) .nil))) ?_
  simp only [List.forall_mem_cons]
  exact ⟨exact_bare (by decide) (by decide), exact_guarded, exact_bare (by decide) (by decide),
    List.forall_mem_nil _⟩

theorem holding_sameName : Holding (decodingOf sameName) emptyHost dalvikFile sameName :=
  holding_emptyHost toDefinition_sameName (by decide) (by decide)

theorem exists_start_sameName :
    ∃ given s₁, start (decodingOf sameName).readDalvik dalvikFile emptyHost = .ok given s₁ ∧
      removeFault? s₁ = none := by
  have hcontained := holding_sameName.contained_eq
  rw [toDefinition_sameName] at hcontained
  have hflat : ∀ d ∈ [bare "A", guarded, bare "Z"], ∃ name, Flat emptyHost.scratch name d := by
    simp only [List.forall_mem_cons]
    refine ⟨⟨_, flat_emptyHost ?_ ?_ ?_ ?_ (exists_write_bare ?_)⟩,
      ⟨_, flat_emptyHost ?_ ?_ ?_ ?_ exists_write_guarded⟩,
      ⟨_, flat_emptyHost ?_ ?_ ?_ ?_ (exists_write_bare ?_)⟩, List.forall_mem_nil _⟩
    all_goals decide +kernel
  exact ⟨_, exists_start_flat free_emptyHost (by decide) (by decide) hcontained hflat⟩

theorem lastOfFile_sameName :
    LastOfFile [bare "A", guarded, bare "Z"] guarded ∧
      LastOfFile [bare "A", guarded, bare "Z"] (bare "Z") ∧
      ¬ LastOfFile [bare "A", guarded, bare "Z"] (bare "A") := by
  have hguarded : LastOfFile [bare "A", guarded, bare "Z"] guarded :=
    ⟨[bare "A"], [bare "Z"], rfl, by decide +kernel⟩
  refine ⟨hguarded, ⟨[bare "A", guarded], [], rfl, List.forall_mem_nil _⟩, fun hbare => ?_⟩
  exact absurd (hbare.unique hguarded (by decide)) (by decide)

/-- Of two classes of one name the second is found, and the other class is found too. -/
theorem found_sameName :
    Holding (decodingOf sameName) emptyHost dalvikFile sameName ∧
      ∃ given s₁, start (decodingOf sameName).readDalvik dalvikFile emptyHost = .ok given s₁ ∧
        removeFault? s₁ = none ∧
        ∃ entries s', Pulls (decodingOf sameName) emptyHost (.dalvikStart dalvikFile) entries s' ∧
          entries.length = sameName.length ∧
          (∃ x ∈ entries, ReadAs x guarded) ∧ (∃ x ∈ entries, ReadAs x (bare "Z")) ∧
          ¬ ∃ x ∈ entries, ReadAs x (bare "A") := by
  obtain ⟨given, s₁, hstart, hgoes⟩ := exists_start_sameName
  obtain ⟨entries, s', hpulls, -, hnames, hread, -⟩ :=
    found_iff_lastOfFile holding_sameName hstart hgoes
  rw [toDefinition_sameName] at hnames hread
  obtain ⟨hguarded, hother, hbare⟩ := lastOfFile_sameName
  have hlength := congrArg List.length hnames
  rw [List.length_map, List.length_map, (inOrder_perm _).length_eq] at hlength
  exact ⟨holding_sameName, given, s₁, hstart, hgoes, entries, s', hpulls, hlength,
    (hread _).2 hguarded,
    (hread _).2 hother, fun hfound => hbare ((hread _).1 hfound)⟩

/-- The first of two classes of one name is lost, though nothing fails. -/
theorem lost_sameName :
    Holding (decodingOf sameName) emptyHost dalvikFile sameName ∧
      ∃ given s₁, start (decodingOf sameName).readDalvik dalvikFile emptyHost = .ok given s₁ ∧
        removeFault? s₁ = none ∧
        ¬ ∃ entries s', Pulls (decodingOf sameName) emptyHost (.dalvikStart dalvikFile) entries s' ∧
          ∀ c ∈ sameName, ∃ x ∈ entries, ReadAs x c.toDefinition := by
  obtain ⟨given, s₁, hstart, hgoes⟩ := exists_start_sameName
  refine ⟨holding_sameName, given, s₁, hstart, hgoes, ?_⟩
  rintro ⟨entries, s', hpulls, hfound⟩
  obtain ⟨entries', _, hpulls', -, -, hread⟩ := holding_sameName.pulls hstart hgoes
  obtain ⟨rfl, -⟩ := hpulls.unique hpulls'
  rw [toDefinition_sameName] at hread
  have hfirst : bare "A" ∈ sameName.map RawClass.toDefinition := by
    rw [toDefinition_sameName]
    exact List.mem_cons_self ..
  obtain ⟨c, hc, heq⟩ := List.mem_map.1 hfirst
  exact lastOfFile_sameName.2.2 ((hread _).1 (heq ▸ hfound c hc))

end JndiScan.Dalvik.Conversion

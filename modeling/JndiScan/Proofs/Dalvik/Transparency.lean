/-
Conversion as a reader of class files sees it. A Dalvik file whose classes render definitions gives
these definitions, each as the class file of its own name, in the order of the names, and leaves the
host as it was. So a walk finds in it what it would find in the class files of the definitions. The
classes must have names that the file system tells apart: a name is a list of names of entries
there, and each of these is its octets.
-/
import JndiScan.Proofs.Check.Places
import JndiScan.Proofs.Dalvik.Entries
import JndiScan.Proofs.Dalvik.Flat
import JndiScan.Proofs.Walk.DepthLimit

namespace JndiScan.Dalvik.Conversion

open Walk (Unfolds UnfoldsAll)

variable {D : Decoding} {s : Session} {ds : List ClassDefinition}

/-- A Dalvik file in a session: its classes render definitions whose names the file system tells
apart, and the directory for its conversion is new. -/
structure Rendered (D : Decoding) (s : Session) (e : Entry) (cs : List RawClass)
    (ds : List ClassDefinition) : Prop where
  free : Free s.host s.scratch
  unmentioned : ∀ d ∈ ds, Path.isAbsolute (fileName d) = true → Unmentioned s.host s.scratch d
  content : ∃ bytes, e.content (s.host.put (.directory []) s.scratch) = .ok bytes ∧
    D.readDalvik bytes = .ok cs
  renders : List.Forall₂ RawClass.Renders cs ds
  exact : ∀ d ∈ ds, d.Exact
  distinct : (ds.map fun d => Path.key (Path.names d.name)).Nodup

namespace Rendered

variable {e : Entry} {cs : List RawClass}

theorem nodup_of_names (h : Rendered D s e cs ds) {f : ClassDefinition → β}
    (hf : ∀ c ∈ ds, ∀ d ∈ ds, f c = f d →
      Path.key (Path.names c.name) = Path.key (Path.names d.name)) :
    (ds.map f).Nodup := by
  have hdistinct := h.distinct
  rw [List.Nodup, List.pairwise_map] at hdistinct ⊢
  exact hdistinct.imp_of_mem fun hc hd hne heq => hne (hf _ hc _ hd heq)

theorem nodup_fileName (h : Rendered D s e cs ds) : (ds.map fileName).Nodup :=
  h.nodup_of_names fun _ _ _ _ heq => by rw [List.append_cancel_right heq]

theorem nodup_segments (h : Rendered D s e cs ds) :
    (ds.map fun d => Path.key (segments d)).Nodup :=
  h.nodup_of_names fun c hc d hd =>
    key_names_of_key_segments (h.exact c hc).name (h.exact d hd).name

theorem contained_eq (h : Rendered D s e cs ds) :
    contained D.readDalvik e (s.host.put (.directory []) s.scratch) = .ok ds := by
  obtain ⟨bytes, hbytes, hclasses⟩ := h.content
  rw [contained, hbytes]
  simp only [hclasses, map_toDefinition_of_renders h.renders h.exact]

/-- A conversion that ends well gives the names in order, and leaves the file of every class. -/
theorem start_eq_ok (h : Rendered D s e cs ds) {given : List Text} {s₁ : Session}
    (hstart : start D.readDalvik e s = .ok given s₁) :
    given = (inOrder ds).map fileName ∧ During s.host s.scratch s₁.host ∧
      At s₁.host s.scratch s₁ ∧ ∀ d ∈ inOrder ds, d.Exact ∧ Held s.scratch s₁.host d := by
  obtain ⟨rfl, hleaves⟩ := leaves_of_start h.free h.contained_eq
    (fun d hd => ⟨(h.exact d hd).name, h.unmentioned d hd⟩) hstart
  refine ⟨names_eq_map ds, hleaves.during, ⟨rfl, hleaves.scratch⟩, fun d hd => ?_⟩
  have hmem : d ∈ ds := (inOrder_perm ds).subset hd
  exact ⟨h.exact d hmem, hleaves.held d (lastOfFile_of_nodup h.nodup_segments hmem)⟩

/-- The entries of a Dalvik file are the class files of the definitions, in the order of their
names. -/
theorem pulls (h : Rendered D s e cs ds) {given : List Text} {s₁ : Session}
    (hstart : start D.readDalvik e s = .ok given s₁) (hgoes : removeFault? s₁ = none) :
    ∃ entries s', Pulls D s (.dalvikStart e) entries s' ∧ At s.host s.scratch s' ∧
      List.Forall₂ (Gives D e.place) (inOrder ds) entries := by
  obtain ⟨rfl, hduring, hat, hheld⟩ := h.start_eq_ok hstart
  refine ⟨_, remove s₁,
    (pulls_converted D hgoes e.place _).of_pull (Decoding.pull_dalvikStart hstart),
    Decoding.at_remove hduring hat hgoes, ?_⟩
  rw [List.map_map, List.forall₂_map_right_iff, List.forall₂_same]
  intro d hd
  exact gives_entry (hheld d hd).1 (hheld d hd).2 h.free hat

/-- A Dalvik file unfolds to the classes of the definitions, in the order of their names. -/
theorem unfolds (h : Rendered D s e cs ds) {given : List Text} {s₁ : Session}
    (hstart : start D.readDalvik e s = .ok given s₁) (hgoes : removeFault? s₁ = none)
    (hkind : EntryKind.ofName e.name = .dalvik)
    (hsize : e.checkSize D.maxEntrySize s = .ok () s) :
    ∃ s', Unfolds D.decoder s e
      (.node .dalvik e.place (leaves ((inOrder ds).map (occurrenceOf e.place)))) s' := by
  obtain ⟨rfl, hduring, hat, hheld⟩ := h.start_eq_ok hstart
  obtain ⟨s', hdelivers, -⟩ := delivers_converted (D := D) hduring hat hgoes hheld e.place
  have hdecode : D.decoder.decode e s = .ok (.container .dalvik e.place (.dalvik e)) s := by
    show D.decode e s = _
    rw [Decoding.decode_of_kind hkind]
    rfl
  have henter : D.decoder.enter (.dalvik e) s = .ok (.dalvikStart e) s := by
    show (e.checkSize D.maxEntrySize >>= fun _ => _) s = _
    rw [work_bind_apply, hsize]
    rfl
  have hpull : D.decoder.pull (.converted e.place ((inOrder ds).map fileName)) s₁ =
      D.decoder.pull (.dalvikStart e) s := (Decoding.pull_dalvikStart hstart).symm
  exact ⟨s', .node hdecode henter (hdelivers.of_pull hpull)⟩

end Rendered

/-- Conversion changes nothing. When a Dalvik file whose classes render definitions is converted
without a failure, and its directory can be removed, it gives one entry for each class, in the order
of the names of the class files; each is told to be a class file and is read as the definition that
was rendered. So a walk through the Dalvik file finds what a walk through class files of the
definitions finds. The pool holds the same classes, and a check says the same; places apart, unless
they are the same too. -/
theorem conversion_transparent {D : Decoding} {s s₁ : Session} {e : Entry} {cs : List RawClass}
    {ds : List ClassDefinition} {given : List Text} (h : Rendered D s e cs ds)
    (hstart : start D.readDalvik e s = .ok given s₁) (hgoes : removeFault? s₁ = none) :
    (inOrder ds).Perm ds ∧
      ((inOrder ds).map fileName).Pairwise (fun a b => compare a b = .lt) ∧
      (∃ entries s', Pulls D s (.dalvikStart e) entries s' ∧ At s.host s.scratch s' ∧
        List.Forall₂ (Gives D e.place) (inOrder ds) entries) ∧
      (EntryKind.ofName e.name = .dalvik → e.checkSize D.maxEntrySize s = .ok () s →
        ∀ (tally : Walk.Tally) (m n : Int), 1 ≤ m.toNat →
          tally.entriesSeen + (ds.length + 1) ≤ n.toNat →
          let l : Walk.Limits := { maxDepth := .atMost m, maxEntries := .atMost n }
          let inFile := Walk.occurrences D.decoder l none { world := s, tally, roots := [.entry e] }
          inFile.value = (inOrder ds).map (occurrenceOf e.place) ∧
          ∀ (files : List Entry) (w w' : Session) (os : List Occurrence),
            os.map (·.definition) = inOrder ds →
            UnfoldsAll D.decoder w files (os.map .leaf) w' →
            let beside :=
              Walk.occurrences D.decoder l none { world := w, tally, roots := files.map .entry }
            (Pool.ofOccurrences inFile.value).classes = (Pool.ofOccurrences beside.value).classes ∧
              (∀ signature, ((Pool.ofOccurrences inFile.value).check signature).findings =
                ((Pool.ofOccurrences beside.value).check signature).findings) ∧
              (os.map (·.place) = (inOrder ds).map (fun d => e.place.child (fileName d) true) →
                Pool.ofOccurrences inFile.value = Pool.ofOccurrences beside.value)) := by
  refine ⟨inOrder_perm ds, ?_, h.pulls hstart hgoes, ?_⟩
  · rw [← names_eq_map]
    exact names_pairwise h.nodup_fileName
  · intro hkind hsize tally m n hm hn l inFile
    -- Either walk reaches no limit, so it finds what the traversal of its entries holds.
    obtain ⟨s', hunfolds⟩ := h.unfolds hstart hgoes hkind hsize
    have hcount : (inOrder ds).length = ds.length := (inOrder_perm ds).length_eq
    have hvalue : inFile.value = (inOrder ds).map (occurrenceOf e.place) := by
      refine (Walk.value_of_unfoldsAll (UnfoldsAll.cons hunfolds .nil) tally ?_ ?_).trans ?_
      · intro t ht
        rw [List.mem_singleton.1 ht, Walk.Tree.height, height_leaves]
        exact hm
      · simpa [Walk.Tree.size, size_leaves, hcount] using hn
      · rw [List.flatMap_singleton, Walk.Tree.trace]
        exact trace_leaves _
    refine ⟨hvalue, ?_⟩
    intro files w w' os hos hfiles beside
    have hbeside : beside.value = os := by
      refine (Walk.value_of_unfoldsAll hfiles tally ?_ ?_).trans (trace_map_leaf _)
      · intro t ht
        obtain ⟨o, -, rfl⟩ := List.mem_map.1 ht
        exact Nat.zero_le _
      · have hlength : os.length = (inOrder ds).length := by rw [← hos, List.length_map]
        rw [size_map_leaf]
        omega
    have hdefinitions : ((inOrder ds).map (occurrenceOf e.place)).map (·.definition) =
        os.map (·.definition) := by
      rw [hos, List.map_map]
      exact List.map_id _
    rw [hvalue, hbeside]
    refine ⟨Pool.classes_congr hdefinitions, Pool.findings_ofOccurrences_congr hdefinitions, ?_⟩
    intro hplaces
    congr 1
    refine Occurrence.eq_of_map_eq hdefinitions ?_
    rw [hplaces, List.map_map]
    rfl

/-! ## Two conversions in an empty host -/

/-- A session in a host that holds nothing. -/
def emptyHost : Session where
  host := { root := .directory [] }
  scratch := ["conversion"]

/-- A Dalvik file. -/
def dalvikFile : Entry where
  name := "classes.dex"
  place := { root := "/classes.dex" }
  payload := .given (.ok [])

/-- Decoding where Dalvik files hold certain classes. -/
def decodingOf (cs : List RawClass) : Decoding where
  maxEntrySize := Walk.defaultEntrySize
  readDalvik _ := .ok cs

theorem free_emptyHost : Free emptyHost.host emptyHost.scratch where
  ne_nil := List.cons_ne_nil _ []
  plain := by decide
  above := ⟨_, rfl⟩
  absent := by decide +kernel

theorem usable_emptyHost : Host.Usable emptyHost.scratch := by decide

/-- A class with a name and nothing else. -/
def bare (name : Text) : ClassDefinition where
  name
  superName := none

theorem exact_bare {name : Text} (hne : name ≠ []) (hdot : .ofChar '.' ∉ name) :
    (bare name).Exact where
  ne_nil := hne
  name := hdot
  superName _ h := by cases h
  interfaces _ h := absurd h List.not_mem_nil
  flags := show Access.IsShort 1 from ⟨by decide, by decide⟩
  members _ h := absurd h List.not_mem_nil
  fieldsFirst := rfl

theorem exists_write_bare {name : Text} (h : (ClassFile.constantOctets name).length ≤ 0xFFFF) :
    ∃ octets, ClassFile.write (bare name) = .ok octets := by
  have hfits : ¬ 0xFFFF < (ClassFile.constantOctets name).length := Nat.not_lt.2 h
  simp +decide [bare, hfits, ClassFile.write, ClassFile.writeClass, ClassDefinition.fields,
    ClassDefinition.methods, ClassFile.superNumber, ClassFile.classNumber, ClassFile.textNumber,
    ClassFile.eachFrom, ClassFile.writeMembers, ClassFile.field16, ClassFile.pure_apply,
    ↓ClassFile.bind_apply, ClassFile.get_apply, ClassFile.modifyGet_apply, ↓ClassFile.liftM_apply]

/-- A class with a constructor. -/
def guarded : ClassDefinition where
  name := "A"
  superName := some "Z"
  members := [⟨MemberKind.constructorName, "(II)V", 2, .constructor⟩]

/-- A rendering of this class, with blanks in the descriptor and more bits in the flags. -/
def guardedRendering : RawClass where
  name := "LA;"
  superName := "LZ;"
  accessFlags := 0x10001
  interfaces := .names []
  fields := []
  methods := [⟨MemberKind.constructorName, "( I I)V", 0x30002⟩]

theorem renders_guarded : guardedRendering.Renders guarded where
  name := by decide
  superName := by decide
  interfaces := rfl
  flags := ⟨1, rfl⟩
  fields := .nil
  methods := .cons
    { name := rfl
      descriptor := .keep _ (.blank rfl (.keep _ (.blank rfl (.keep _ (.keep _ (.keep _ .nil))))))
      flags := ⟨3, rfl⟩ } .nil

theorem exact_guarded : guarded.Exact where
  ne_nil := by decide
  name := by decide
  superName n h := by
    cases h
    decide
  interfaces _ h := absurd h List.not_mem_nil
  flags := show Access.IsShort 1 from ⟨by decide, by decide⟩
  members m h := by
    cases List.mem_singleton.1 h
    have hdescriptor : ("(II)V" : Text).all (fun c => !Text.isBlank c) = true := by decide
    exact ⟨fun c hc => by simpa using List.all_eq_true.1 hdescriptor c hc,
      ⟨by decide, by decide⟩, .inr (by decide)⟩
  fieldsFirst := by decide

theorem exists_write_guarded : ∃ octets, ClassFile.write guarded = .ok octets := by
  have hname : ClassFile.constantOctets "A" = [65] := by decide
  have hsuper : ClassFile.constantOctets "Z" = [90] := by decide
  have hinit : ClassFile.constantOctets MemberKind.constructorName =
      [60, 105, 110, 105, 116, 62] := by decide
  have hdescriptor : ClassFile.constantOctets "(II)V" = [40, 73, 73, 41, 86] := by decide
  simp +decide [guarded, hname, hsuper, hinit, hdescriptor, ClassFile.write, ClassFile.writeClass,
    ClassDefinition.fields, ClassDefinition.methods, ClassFile.superNumber, ClassFile.classNumber,
    ClassFile.textNumber, ClassFile.eachFrom, ClassFile.writeMembers, ClassFile.writeMember,
    ClassFile.field16, ClassFile.pure_apply, ↓ClassFile.bind_apply, ClassFile.get_apply,
    ClassFile.modifyGet_apply, ↓ClassFile.liftM_apply]

theorem usable_emptyHost_concat {name : Text} (h : Path.Plain name)
    (hcheck : Path.check name = .ok ()) (hlength : Path.octetLength name ≤ Path.maxName) :
    Host.Usable (emptyHost.scratch ++ [name]) :=
  usable_emptyHost.concat h hcheck hlength
    ((Nat.add_le_add_left hlength _).trans (by decide +kernel))

theorem flat_emptyHost {d : ClassDefinition} (hdot : .ofChar '.' ∉ d.name)
    (hslash : Path.slash ∉ d.name) (hcheck : Path.check (fileName d) = .ok ())
    (hlength : Path.octetLength (fileName d) ≤ Path.maxName)
    (hwritable : ∃ octets, ClassFile.write d = .ok octets) :
    Flat emptyHost.scratch (fileName d) d :=
  flat_of_noSlash free_emptyHost hdot hslash
    (usable_emptyHost_concat (plain_fileName hslash) hcheck hlength) hwritable

theorem rendered_emptyHost {cs : List RawClass} {ds : List ClassDefinition}
    (hrenders : List.Forall₂ RawClass.Renders cs ds) (hexact : ∀ d ∈ ds, d.Exact)
    (hslash : ∀ d ∈ ds, Path.slash ∉ d.name)
    (hdistinct : (ds.map fun d => Path.key (Path.names d.name)).Nodup) :
    Rendered (decodingOf cs) emptyHost dalvikFile cs ds where
  free := free_emptyHost
  unmentioned d hd habsolute := by
    rw [isAbsolute_fileName (hslash d hd)] at habsolute
    cases habsolute
  content := ⟨[], rfl, rfl⟩
  renders := hrenders
  exact := hexact
  distinct := hdistinct

/-- A file of two classes that are not in order. -/
theorem rendered_twoClasses :
    Rendered (decodingOf [.ofDefinition (bare "Z"), guardedRendering]) emptyHost dalvikFile
      [.ofDefinition (bare "Z"), guardedRendering] [bare "Z", guarded] := by
  have hexact : ∀ d ∈ [bare "Z", guarded], d.Exact := by
    intro d hd
    rcases List.mem_pair.1 hd with rfl | rfl
    · exact exact_bare (by decide) (by decide)
    · exact exact_guarded
  exact rendered_emptyHost (.cons (RawClass.renders_ofDefinition _) (.cons renders_guarded .nil))
    hexact (by decide +kernel) (by decide +kernel)

theorem exists_start_twoClasses :
    ∃ given s₁, start (decodingOf [.ofDefinition (bare "Z"), guardedRendering]).readDalvik
      dalvikFile emptyHost = .ok given s₁ ∧ removeFault? s₁ = none := by
  have hflat : ∀ d ∈ [bare "Z", guarded], ∃ name, Flat emptyHost.scratch name d := by
    intro d hd
    rcases List.mem_pair.1 hd with rfl | rfl
    · exact ⟨_, flat_emptyHost (by decide) (by decide) (by decide +kernel) (by decide +kernel)
        (exists_write_bare (by decide +kernel))⟩
    · exact ⟨_, flat_emptyHost (by decide) (by decide) (by decide +kernel) (by decide +kernel)
        exists_write_guarded⟩
  obtain ⟨s₁, hstart, hgoes⟩ := exists_start_flat rendered_twoClasses.free (by decide) (by decide)
    rendered_twoClasses.contained_eq hflat
  exact ⟨_, s₁, hstart, hgoes⟩

/-- A file of two classes is converted, though it does not hold them in order. -/
theorem conversion_transparent_twoClasses :
    let cs := [.ofDefinition (bare "Z"), guardedRendering]
    let ds := [bare "Z", guarded]
    Rendered (decodingOf cs) emptyHost dalvikFile cs ds ∧
      ∃ given s₁, start (decodingOf cs).readDalvik dalvikFile emptyHost = .ok given s₁ ∧
        removeFault? s₁ = none ∧
        ∃ entries s', Pulls (decodingOf cs) emptyHost (.dalvikStart dalvikFile) entries s' ∧
          At emptyHost.host emptyHost.scratch s' ∧
          List.Forall₂ (Gives (decodingOf cs) dalvikFile.place) (inOrder ds) entries := by
  intro cs ds
  obtain ⟨given, s₁, hstart, hgoes⟩ := exists_start_twoClasses
  exact ⟨rendered_twoClasses, given, s₁, hstart, hgoes,
    (conversion_transparent rendered_twoClasses hstart hgoes).2.2.1⟩

/-! ## Two classes with one file -/

/-- When two classes have one file, the class file of the first is read as the second. -/
theorem not_gives_of_oneFile {e : Entry} {c d : ClassDefinition} {name name' : Text}
    (hfree : Free s.host s.scratch) (hmaking : 0 < s.host.nesting.making)
    (hremoving : 0 < s.host.nesting.removing)
    (hcontained : contained D.readDalvik e (s.host.put (.directory []) s.scratch) = .ok [c, d])
    (hexact : d.Exact) (hc : Flat s.scratch name c) (hd : Flat s.scratch name' d)
    (hkey : Path.key [name] = Path.key [name']) (hne : c ≠ d) :
    ∃ given s₁, start D.readDalvik e s = .ok given s₁ ∧
      ¬ ∃ entries s', Pulls D s (.dalvikStart e) entries s' ∧
        List.Forall₂ (Gives D e.place) (inOrder [c, d]) entries := by
  obtain ⟨octets, hoctets⟩ := hd.writable
  obtain ⟨after, hwrite, hnests, hfile⟩ := writeClasses_oneFile (.begun hfree Nat.one_pos)
    (holdsFiles_start hfree) hmaking hc hd hkey hoctets
  let s₁ : Session := reached s e after
  have hstart : start D.readDalvik e s = .ok (names [c, d]) s₁ :=
    start_of_converted (converted_of_written hcontained hwrite)
  have hgoes : removeFault? s₁ = none := if_pos (hnests.canRemove hremoving)
  refine ⟨_, s₁, hstart, ?_⟩
  rintro ⟨entries, s', hpulls, hgives⟩
  -- The entries are those of the names, so one of them is that of the first class.
  have hgiven := (pulls_converted D hgoes e.place (names [c, d])).of_pull
    (Decoding.pull_dalvikStart hstart)
  obtain ⟨rfl, -⟩ := hpulls.unique hgiven
  rw [names_eq_map, List.map_map, List.forall₂_map_right_iff, List.forall₂_same] at hgives
  obtain ⟨-, -, -, s₂, hread⟩ := hgives c ((inOrder_perm _).mem_iff.2 (List.mem_cons_self ..))
  have hdecode := decode_entry D e.place (show At after s.scratch s₁ from ⟨rfl, rfl⟩) hc.below
    hc.usable hfile (ClassFile.read_of_write_exact hexact hoctets)
  have hsame := hdecode.symm.trans hread
  injection hsame with hfound
  injection hfound with hoccurrence
  injection hoccurrence with hdefinition
  exact hne hdefinition.symm

/-- Two classes with names of different texts are converted in an empty host, but the entries that
are given are not read as the classes. -/
structure Confused (name name' : Text) : Prop where
  exact : (bare name).Exact ∧ (bare name').Exact
  renders : List.Forall₂ RawClass.Renders ([bare name, bare name'].map .ofDefinition)
    [bare name, bare name']
  distinct : Path.names name ≠ Path.names name'
  converted :
    let ds := [bare name, bare name']
    let D := decodingOf (ds.map .ofDefinition)
    ∃ given s₁, start D.readDalvik dalvikFile emptyHost = .ok given s₁ ∧
      ¬ ∃ entries s', Pulls D emptyHost (.dalvikStart dalvikFile) entries s' ∧
        List.Forall₂ (Gives D dalvikFile.place) (inOrder ds) entries

theorem confused_of_oneFile {name name' file file' : Text}
    (hexact : (bare name).Exact) (hexact' : (bare name').Exact)
    (hdistinct : Path.names name ≠ Path.names name')
    (hfirst : Flat emptyHost.scratch file (bare name))
    (hsecond : Flat emptyHost.scratch file' (bare name')) (hkey : Path.key [file] = Path.key [file']) :
    Confused name name' where
  exact := ⟨hexact, hexact'⟩
  renders := renders_map_ofDefinition _
  distinct := hdistinct
  converted := by
    intro ds D
    have hcontained : contained D.readDalvik dalvikFile
        (emptyHost.host.put (.directory []) emptyHost.scratch) = .ok ds := by
      show Except.ok ((ds.map .ofDefinition).map RawClass.toDefinition) = Except.ok ds
      rw [map_toDefinition_of_renders (renders_map_ofDefinition ds) fun d hd =>
        (List.mem_pair.1 hd).elim (fun heq => heq ▸ hexact) fun heq => heq ▸ hexact']
    have hne : bare name ≠ bare name' := fun heq =>
      hdistinct (congrArg (Path.names ·.name) heq)
    exact not_gives_of_oneFile free_emptyHost (by decide) (by decide) hcontained hexact' hfirst
      hsecond hkey hne

/-- A name of one letter that takes two octets. -/
def accent : Text := [.ofNat 0xE9]

/-- The same octets, each told by a half of a surrogate pair. -/
def accentOctets : Text := [.ofNat 0xDCC3, .ofNat 0xDCA9]

/-- Names of different texts are not enough: their octets may be the same, or one of them may lead
into the directory of the conversion from the root on. -/
theorem confused_oneFile : Confused accent accentOctets ∧ Confused "/conversion/A" "A" := by
  have hoctets : ∀ name ∈ [accent, accentOctets],
      Flat emptyHost.scratch (fileName (bare name)) (bare name) := by
    intro name hname
    rcases List.mem_pair.1 hname with rfl | rfl
    all_goals
      exact flat_emptyHost (by decide) (by decide) (by decide +kernel) (by decide +kernel)
        (exists_write_bare (by decide +kernel))
  have husable : Host.Usable (emptyHost.scratch ++ [("A.class" : Text)]) :=
    usable_emptyHost_concat (by decide) rfl (by decide +kernel)
  have hrooted : ∀ name ∈ [("/conversion/A" : Text), "A"],
      Flat emptyHost.scratch "A.class" (bare name) := by
    intro name hname
    rcases List.mem_pair.1 hname with rfl | rfl
    all_goals exact ⟨by decide +kernel, husable, exists_write_bare (by decide +kernel)⟩
  constructor
  · exact confused_of_oneFile (exact_bare (by decide) (by decide))
      (exact_bare (by decide) (by decide)) (by decide +kernel) (hoctets _ (by simp))
      (hoctets _ (by simp)) (by decide +kernel)
  · exact confused_of_oneFile (exact_bare (by decide) (by decide))
      (exact_bare (by decide) (by decide)) (by decide +kernel) (hrooted _ (by simp))
      (hrooted _ (by simp)) rfl

end JndiScan.Dalvik.Conversion

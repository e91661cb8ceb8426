/-
The limit of depth on walks through files. Such a walk finds the classes that lie no deeper than the
limit allows, among those that a walk without the limit finds; it hands the entries down to the
limit to the decoder and opens the containers above it. Each container at the limit leaves one fatal
diagnostic, and the result is incomplete when there is one. At every moment the containers on the
stack lie one inside the other, as deep as their frames say.
-/
import JndiScan.Proofs.Walk.Decoding
import JndiScan.Proofs.Walk.Depth

namespace JndiScan.Walk

open Dalvik (Free)

variable {world entry container position : Type}

/-- The walk that reaches no limit finds the classes of the whole traversal. -/
theorem value_of_unfoldsAll {d : Decoder world entry container position} {w w' : world}
    {es : List entry} {ts : List Tree} (h : UnfoldsAll d w es ts w') (tally : Tally) {m n : Int}
    (hm : ∀ t ∈ ts, t.height ≤ m.toNat)
    (hn : tally.entriesSeen + (ts.map Tree.size).sum ≤ n.toNat) :
    (occurrences d { maxDepth := .atMost m, maxEntries := .atMost n } none
      { world := w, tally, roots := es.map .entry }).value =
        (ts.flatMap Tree.trace).filterMap Event.occurrence? := by
  rw [occurrences, fold_of_unfoldsAll (l := { maxDepth := .atMost m, maxEntries := .atMost n })
    (s := { world := w, tally, roots := es.map .entry }) h rfl hm rfl rfl rfl hn]
  simp [replay_collect]

/-- A walk through files with a limit of depth, beside one that reaches no limit. Its other limit is
not reached by the entries down to the limit of depth. -/
theorem occurrences_withinDepth (D : Decoding) {session session' : Session}
    (hfree : Free session.host session.scratch) {paths : List Text} {ts : List Tree}
    (h : UnfoldsAll D.decoder session (paths.map .ofPath) ts session') (tally : Tally)
    {m n M N : Int}
    (hn : tally.entriesSeen + ((ts.flatMap Tree.places).filter (·.depth ≤ m.toNat)).length ≤
      n.toNat)
    (hM : ∀ t ∈ ts, t.height ≤ M.toNat)
    (hN : tally.entriesSeen + (ts.map Tree.size).sum ≤ N.toNat) :
    let start : State Session Entry Position :=
      { world := session, tally, roots := (paths.map Entry.ofPath).map .entry }
    let l : Limits := { maxDepth := .atMost m, maxEntries := .atMost n }
    let r := occurrences D.decoder l none start
    let whole := occurrences D.decoder { maxDepth := .atMost M, maxEntries := .atMost N } none start
    let refused := (ts.flatMap Tree.containers).filter (·.depth = m.toNat)
    r.fault = none ∧ r.value = whole.value.filter (·.place.depth ≤ m.toNat) ∧
      (∀ s, Reaches D.decoder l start s →
        ∃ k ≤ m.toNat, s.frames.map Prod.snd = (List.range' 1 k).reverse ∧
          ∀ p depth, (p, depth) ∈ s.frames → ∀ w e p' w',
            D.decoder.pull p w = .ok (some (e, p')) w' → e.place.depth = depth) ∧
      (handed (callsFrom D.decoder l start)).map Entry.place =
        (ts.flatMap Tree.places).filter (·.depth ≤ m.toNat) ∧
      (entered (callsFrom D.decoder l start)).map Decoding.placeOfContainer =
        (ts.flatMap Tree.containers).filter (·.depth < m.toNat) ∧
      (∃ kept, r.tally.diagnostics.toList = tally.diagnostics.toList ++ kept ∧
        kept.filter (·.fatal) = refused.map (depthDiagnostic m)) ∧
      r.tally.incomplete = (tally.incomplete || !refused.isEmpty) := by
  intro start l r whole refused
  have hroots : ∀ e ∈ paths.map Entry.ofPath, e.place.depth = 0 := by
    intro e he
    obtain ⟨path, -, rfl⟩ := List.mem_map.1 he
    rfl
  have hlies : ∀ t ∈ ts, t.LiesAt 0 := D.nesting.liesAt_of_unfoldsAll h hroots
  have hat : At session.host session.scratch session := ⟨rfl, rfl⟩
  obtain ⟨hfault, hvalue, hhanded, hentered, hkept, hincomplete⟩ :=
    occurrences_of_isAll D.nesting (D.isAll_of_unfoldsAll hfree h hat) hlies hat tally hn
  have hstart : Nested D.nesting m.toNat start := by
    refine ⟨.nil, Nat.zero_le _, fun e he => hroots e ?_⟩
    obtain ⟨_, hmem, heq⟩ := List.mem_map.1 he
    cases heq
    exact hmem
  refine ⟨hfault, ?_, ?_, hhanded, hentered, hkept, hincomplete⟩
  · rw [hvalue, ← value_of_unfoldsAll h tally hM hN]
  · intro s hs
    have hl : ∀ n : Int, l.maxDepth = .atMost n → n.toNat = m.toNat := by
      intro n hn
      cases hn
      rfl
    have hnested : Nested D.nesting m.toNat s := hstart.of_reaches hl hs
    exact ⟨s.frames.length, hnested.height_le, hnested.stacked.depths,
      fun p depth hmem w e p' w' hpull => hnested.stacked.depth_of_pull hmem hpull⟩

/-! ## A jar that is not opened -/

/-- An archive that holds an empty text. -/
def textJarOctets : Bytes :=
  [80, 75, 3, 4, 20, 0, 0, 0, 0, 0, 0, 0, 33, 0, 0, 0, 0, 0, 0, 0, 0, 0, 0, 0, 0, 0, 5, 0, 0, 0,
   120, 46, 116, 120, 116, 80, 75, 1, 2, 20, 3, 20, 0, 0, 0, 0, 0, 0, 0, 33, 0, 0, 0, 0, 0, 0, 0,
   0, 0, 0, 0, 0, 0, 5, 0, 0, 0, 0, 0, 0, 0, 0, 0, 0, 0, 128, 1, 0, 0, 0, 0, 120, 46, 116, 120,
   116, 80, 75, 5, 6, 0, 0, 0, 0, 1, 0, 1, 0, 51, 0, 0, 0, 35, 0, 0, 0, 0, 0]

/-- The class file of `C`. -/
def bareClassOctets : Bytes :=
  [202, 254, 186, 190, 0, 0, 0, 52, 0, 3, 1, 0, 1, 67, 7, 0, 1, 0, 1, 0, 2, 0, 0, 0, 0, 0, 0, 0,
   0, 0, 0]

/-- A host with the archive and the class file. -/
def jarBesideClass : Session where
  host :=
    { root := .directory [("a.jar", .file textJarOctets), ("C.class", .file bareClassOctets)] }
  scratch := ["conversion"]

/-- The paths of both. -/
def jarBesideClassPaths : List Text := ["/a.jar", "/C.class"]

/-- The class of the class file. -/
def bareClass : Occurrence where
  definition := { name := "C", superName := none }
  place := { root := "/C.class" }

/-- What the files unfold to. -/
def jarBesideClassTrees : List Tree :=
  [.node .archive { root := "/a.jar" }
    (.more (.other { root := "/a.jar", segments := ["x.txt"] }) .done), .leaf bareClass]

/-- The directory record of the text. -/
def textRecord : Zip.Record where
  fullName := "x.txt"
  versionNeeded := 20
  flags := 0
  method := 0
  crc := 0
  compressedSize := 0
  size := 0
  externalAttributes := 25165824
  offset := 0
  bound := 35

theorem content_ofPath {path : Text} {bytes : Bytes} {host : Host}
    (h : host.read path = .ok bytes) : (Entry.ofPath path).content host = .ok bytes := by
  rw [Entry.content, Entry.ofPath]
  simp only [h]
  rfl

theorem need_ofPath {path : Text} {bytes : Bytes} {s : Session}
    (h : s.host.read path = .ok bytes) : (Entry.ofPath path).need s =
      .ok bytes { s with opened := { root := path } :: s.opened } := by
  rw [Entry.need, Entry.read, content_ofPath h]
  rfl

theorem unfoldsAll_jarBesideClass (D : Decoding) : ∃ session',
    UnfoldsAll D.decoder jarBesideClass (jarBesideClassPaths.map .ofPath) jarBesideClassTrees
      session' := by
  have hjarName : Host.Usable ["a.jar"] := by decide
  have hjar : jarBesideClass.host.read "/a.jar" = .ok textJarOctets :=
    Host.read_of_at? hjarName rfl
  have hclassName : Host.Usable ["C.class"] := by decide
  have hclass : jarBesideClass.host.read "/C.class" = .ok bareClassOctets :=
    Host.read_of_at? hclassName rfl
  have hdirectory : Zip.directory { bytes := textJarOctets, medium := .file } =
      .ok [textRecord] := by
    decide +kernel
  have hread : ClassFile.read bareClassOctets = .ok bareClass.definition := by decide +kernel
  have hjarKind : EntryKind.ofName (Entry.ofPath "/a.jar").name = .archive := by decide +kernel
  have hclassKind : EntryKind.ofName (Entry.ofPath "/C.class").name = .classFile := by
    decide +kernel
  have htextKind : EntryKind.ofName "x.txt" = .unknown := by decide +kernel
  let source : Zip.Source := { bytes := textJarOctets, medium := .file }
  let text : Entry := D.memberEntry source { root := "/a.jar" } textRecord
  let between : Session := { jarBesideClass with opened := [{ root := "/a.jar" }] }
  have htext : Unfolds D.decoder between text (.other text.place) between := by
    refine .other (?_ : D.decode text between = .ok (.unrecognized "x.txt") between)
    rw [Decoding.decode_of_kind (show EntryKind.ofName text.name = .unknown from htextKind)]
    rfl
  have hpull : D.decoder.pull (.archiveStart (Entry.ofPath "/a.jar") none) jarBesideClass =
      .ok (some (text, .archive source { root := "/a.jar" } none [])) between := by
    show ((Entry.ofPath "/a.jar").need >>= fun bytes => _) jarBesideClass = _
    rw [work_bind_apply, need_ofPath hjar]
    simp only [show (Entry.ofPath "/a.jar").medium = .file from rfl, hdirectory]
    rfl
  have hopened : Unfolds D.decoder jarBesideClass (.ofPath "/a.jar")
      (.node .archive { root := "/a.jar" }
        (.more (.other { root := "/a.jar", segments := ["x.txt"] }) .done)) between := by
    have hleft : D.decoder.pull (.archive source { root := "/a.jar" } none []) between =
      .ok none between := rfl
    have hentered : D.decoder.enter (.archive (.ofPath "/a.jar") none) jarBesideClass =
      .ok (.archiveStart (.ofPath "/a.jar") none) jarBesideClass := rfl
    refine .node ?_ hentered (.more hpull htext (.done hleft))
    show D.decode (.ofPath "/a.jar") jarBesideClass = _
    rw [Decoding.decode_of_kind hjarKind]
    rfl
  have hfound : Unfolds D.decoder between (.ofPath "/C.class") (.leaf bareClass)
      { between with opened := { root := "/C.class" } :: between.opened } :=
    .leaf (Decoding.decode_of_read hclassKind rfl (need_ofPath (s := between) hclass) hread)
  exact ⟨_, .cons hopened (.cons hfound .nil)⟩

theorem free_jarBesideClass : Free jarBesideClass.host jarBesideClass.scratch where
  ne_nil := List.cons_ne_nil _ []
  plain := by decide
  above := ⟨_, rfl⟩
  absent := by decide +kernel

/-- With a limit of zero the archive is refused, and the class beside it is found. -/
theorem occurrences_withinDepth_jarBesideClass :
    let D : Decoding := { maxEntrySize := defaultEntrySize }
    Free jarBesideClass.host jarBesideClass.scratch ∧
      (∃ session', UnfoldsAll D.decoder jarBesideClass (jarBesideClassPaths.map .ofPath)
        jarBesideClassTrees session') ∧
      0 + ((jarBesideClassTrees.flatMap Tree.places).filter (·.depth ≤ (0 : Int).toNat)).length ≤
        (2 : Int).toNat ∧
      (∀ t ∈ jarBesideClassTrees, t.height ≤ (1 : Int).toNat) ∧
      0 + (jarBesideClassTrees.map Tree.size).sum ≤ (3 : Int).toNat ∧
      let r := occurrences D.decoder { maxDepth := .atMost 0, maxEntries := .atMost 2 } none
        { world := jarBesideClass, tally := { console := { verbose := false } }
          roots := (jarBesideClassPaths.map Entry.ofPath).map .entry }
      r.fault = none ∧ r.value = [bareClass] ∧
        r.tally.diagnostics.toList.filter (·.fatal) = [depthDiagnostic 0 { root := "/a.jar" }] ∧
        r.tally.incomplete = true := by
  intro D
  have hn : 0 + ((jarBesideClassTrees.flatMap Tree.places).filter
      (·.depth ≤ (0 : Int).toNat)).length ≤ (2 : Int).toNat := by decide
  have hM : ∀ t ∈ jarBesideClassTrees, t.height ≤ (1 : Int).toNat := by decide
  have hN : 0 + (jarBesideClassTrees.map Tree.size).sum ≤ (3 : Int).toNat := by decide
  obtain ⟨session', hunfolds⟩ := unfoldsAll_jarBesideClass D
  obtain ⟨hfault, hvalue, -, -, -, ⟨kept, hdiagnostics, hkept⟩, hincomplete⟩ :=
    occurrences_withinDepth D free_jarBesideClass hunfolds { console := { verbose := false } } hn hM
      hN
  refine ⟨free_jarBesideClass, ⟨session', hunfolds⟩, hn, hM, hN, hfault, ?_, ?_, hincomplete⟩
  · rw [hvalue, value_of_unfoldsAll hunfolds _ hM hN]
    rfl
  · rw [hdiagnostics]
    exact hkept

end JndiScan.Walk

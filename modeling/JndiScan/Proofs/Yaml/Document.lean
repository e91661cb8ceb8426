/-
Documents up to the end. Reading a document keeps what waits after the tokens, and makes sure at
last that no token is left; so there is a document only when nothing waits.
-/
import JndiScan.Proofs.Yaml.Token
import JndiScan.Yaml.Document

namespace JndiScan.Yaml.Document

open Waiting (waiting)

instance : Waiting State := ⟨State.endFault⟩

variable {s s' : State} {fuel : Nat}

theorem keeps_malformed {α : Type} : Keeps (malformed : Reader α) := keeps_throw nofun

theorem keeps_peek : Keeps peek := fun s => KeepsAt.get_bind <| by
  split
  · exact keeps_pure _ s
  · split
    · next hfault => exact fun _ _ => hfault
    · exact keeps_pure _ s

/-- No token is next only where nothing waits. -/
theorem waiting_of_peek (h : peek s = .ok none s') : waiting s = none := by
  obtain ⟨_, _, hget, hread⟩ := work_bind_eq_ok_iff.1 h
  cases hget
  cases htokens : s.tokens with
  | cons t ts =>
    rw [htokens] at hread
    cases hread
  | nil =>
    rw [htokens] at hread
    cases hfault : s.endFault with
    | some fault =>
      simp only [hfault] at hread
      cases hread
    | none => exact hfault

theorem keeps_pass : Keeps pass := keeps_modify fun _ => rfl

theorem keeps_passIf (t : Token) : Keeps (passIf t) :=
  keeps_peek.bind fun _ => Keeps.ite (keeps_pass.bind fun _ => keeps_pure _) (keeps_pure _)

theorem keeps_require (t : Token) : Keeps (require t) :=
  (keeps_passIf t).bind fun _ => keeps_malformed.ite (keeps_pure _)

theorem keeps_isNext (ts : List Token) : Keeps (isNext ts) := keeps_peek.bind fun _ => by
  split <;> exact keeps_pure _

theorem keeps_newNode (kind : Tag) (content : Content) : Keeps (newNode kind content) :=
  fun _ => rfl

theorem keeps_nothing : Keeps nothing := keeps_newNode _ _

/-! ## Before a node -/

theorem keeps_directives (version : Bool) (handles : List (Text × Text)) (fuel : Nat) :
    Keeps (directives version handles fuel) := by
  induction fuel generalizing version handles with
  | zero => exact keeps_malformed
  | succ fuel ih =>
    refine keeps_peek.bind fun _ => ?_
    split
    · next d =>
      refine keeps_pass.bind fun _ => ?_
      cases d with
      | version major => exact keeps_malformed.ite (ih _ _)
      | tagHandle handle expansion => exact keeps_malformed.ite (ih _ _)
      | other => exact ih _ _
    · exact keeps_modify fun _ => rfl

theorem keeps_tagOf (handle : Option Text) (suffix : Text) : Keeps (tagOf handle suffix) := by
  cases handle with
  | none => exact keeps_pure _
  | some h =>
    refine keeps_get.bind fun _ => ?_
    split
    · exact keeps_pure _
    · exact keeps_malformed

theorem keeps_nameHere : Keeps nameHere := keeps_peek.bind fun _ => by
  split
  · exact keeps_pass.bind fun _ => keeps_pure _
  · exact keeps_pure _

theorem keeps_tagHere : Keeps tagHere := keeps_peek.bind fun _ => by
  split
  · exact keeps_pass.bind fun _ => keeps_pure _
  · exact keeps_pure _

theorem keeps_properties : Keeps properties := by
  refine keeps_nameHere.bind fun _ => keeps_tagHere.bind fun tag => ?_
  cases tag with
  | none =>
    exact Keeps.ite (keeps_nameHere.bind fun _ => keeps_pure _)
      ((keeps_pure _).bind fun _ => keeps_pure _)
  | some t =>
    exact Keeps.ite
      (keeps_nameHere.bind fun _ => (keeps_tagOf _ _).bind fun _ => keeps_pure _)
      ((keeps_pure _).bind fun _ => (keeps_tagOf _ _).bind fun _ => keeps_pure _)

theorem keeps_named (name : Text) : Keeps (named name) := by
  refine keeps_get.bind fun _ => ?_
  split
  · exact keeps_pure _
  · exact keeps_nothing.bind fun _ => (keeps_modify fun _ => by rfl).bind fun _ => keeps_pure _
  · exact keeps_malformed

theorem keeps_setName (p : Properties) (n : Option NodeId) : Keeps (setName p n) := by
  unfold setName
  split
  · exact keeps_modify fun _ => rfl
  · exact keeps_pure _

theorem keeps_beginNode (p : Properties) : Keeps (beginNode p) := by
  have hend : ∀ _ : PUnit, Keeps (setName p none) := fun _ => keeps_setName _ _
  unfold beginNode
  cases p.name with
  | none => exact hend ()
  | some name =>
    exact keeps_get.bind fun _ => Keeps.ite (keeps_malformed.bind hend) (hend ())

theorem keeps_nodeOf (p : Properties) (kind : Tag) {content : Reader Content}
    (h : Keeps content) : Keeps (nodeOf p kind content) :=
  (keeps_beginNode p).bind fun _ => h.bind fun _ => (keeps_newNode _ _).bind fun _ =>
    (keeps_setName _ _).bind fun _ => keeps_pure _

theorem keeps_scalar (p : Properties) (plain : Bool) (t : Text) : Keeps (scalar p plain t) :=
  keeps_nodeOf _ _ (keeps_pure _)

/-! ## Nodes -/

/-- With so much fuel, nodes and the parts of nodes keep what waits. -/
structure NodesKeep (fuel : Nat) : Prop where
  node (context : Context) : Keeps (node context fuel)
  nodeUnless (enders : List Token) (context : Context) : Keeps (nodeUnless enders context fuel)
  blockSequence (done : List NodeId) : Keeps (blockSequence done fuel)
  entries (done : List NodeId) : Keeps (entries done fuel)
  blockMapping (done : List NodeEntry) : Keeps (blockMapping done fuel)
  flowSequence (first : Bool) (done : List NodeId) : Keeps (flowSequence first done fuel)
  flowMapping (first : Bool) (done : List NodeEntry) : Keeps (flowMapping first done fuel)

theorem nodesKeep_zero : NodesKeep 0 where
  node _ := keeps_malformed
  nodeUnless _ _ := keeps_malformed
  blockSequence _ := keeps_malformed
  entries _ := keeps_malformed
  blockMapping _ := keeps_malformed
  flowSequence _ _ := keeps_malformed
  flowMapping _ _ := keeps_malformed

namespace NodesKeep

variable (h : NodesKeep fuel)
include h

theorem node_succ (context : Context) : Keeps (Document.node context (fuel + 1)) := by
  refine keeps_peek.bind fun _ => ?_
  split
  · exact keeps_pass.bind fun _ => keeps_named _
  · refine keeps_properties.bind fun p => ?_
    have hempty : Keeps (if p.name.isSome || p.tag.isSome then scalar p true [] else malformed) :=
      (keeps_scalar _ _ _).ite keeps_malformed
    refine keeps_peek.bind fun _ => ?_
    split
    · exact Keeps.ite (keeps_nodeOf _ _ ((h.entries _).bind fun _ => keeps_pure _)) hempty
    · exact keeps_pass.bind fun _ => keeps_scalar _ _ _
    · exact keeps_pass.bind fun _ =>
        keeps_nodeOf _ _ ((h.flowSequence _ _).bind fun _ => keeps_pure _)
    · exact keeps_pass.bind fun _ =>
        keeps_nodeOf _ _ ((h.flowMapping _ _).bind fun _ => keeps_pure _)
    · exact Keeps.ite (keeps_pass.bind fun _ =>
        keeps_nodeOf _ _ ((h.blockSequence _).bind fun _ => keeps_pure _)) hempty
    · exact Keeps.ite (keeps_pass.bind fun _ =>
        keeps_nodeOf _ _ ((h.blockMapping _).bind fun _ => keeps_pure _)) hempty
    · exact hempty

theorem valueUnless (t : Token) (enders : List Token) (context : Context) {α : Type}
    {f : NodeId → Reader α} (hf : ∀ n, Keeps (f n)) : Keeps (do
      if ← passIf t then do
        let v ← Document.nodeUnless enders context fuel
        f v
      else do
        let v ← nothing
        f v) :=
  (keeps_passIf t).bind fun _ => Keeps.ite ((h.nodeUnless _ _).bind hf) (keeps_nothing.bind hf)

theorem succ : NodesKeep (fuel + 1) where
  node := h.node_succ
  nodeUnless _ _ := (keeps_isNext _).bind fun _ => keeps_nothing.ite (h.node _)
  blockSequence _ := (keeps_passIf _).bind fun _ => Keeps.ite
    ((h.nodeUnless _ _).bind fun _ => h.blockSequence _)
    ((keeps_require _).bind fun _ => keeps_pure _)
  entries _ := (keeps_passIf _).bind fun _ => Keeps.ite
    ((h.nodeUnless _ _).bind fun _ => h.entries _) (keeps_pure _)
  blockMapping _ := (keeps_passIf _).bind fun _ => Keeps.ite
    ((h.nodeUnless _ _).bind fun _ => h.valueUnless _ _ _ fun _ => h.blockMapping _)
    ((keeps_require _).bind fun _ => keeps_pure _)
  -- the comma that has to stand before all items but the first makes two cases of each item
  flowSequence first done := by
    refine (keeps_passIf _).bind fun _ => (keeps_pure _).ite <|
      Keeps.ite ((keeps_require _).bind fun _ => ?_) ?_
    all_goals
      refine (keeps_passIf _).bind fun _ => (keeps_pure _).ite <| (keeps_passIf _).bind fun _ =>
        Keeps.ite ?_ ((h.node _).bind fun _ => h.flowSequence _ _)
      exact (h.nodeUnless _ _).bind fun _ => h.valueUnless _ _ _ fun _ =>
        (keeps_newNode _ _).bind fun _ => h.flowSequence _ _
  flowMapping first done := by
    refine (keeps_passIf _).bind fun _ => (keeps_pure _).ite <|
      Keeps.ite ((keeps_require _).bind fun _ => ?_) ?_
    all_goals
      refine (keeps_passIf _).bind fun _ => (keeps_pure _).ite <| (keeps_passIf _).bind fun _ =>
        Keeps.ite ?_ ((h.node _).bind fun _ => keeps_nothing.bind fun _ => h.flowMapping _ _)
      exact (h.nodeUnless _ _).bind fun _ => h.valueUnless _ _ _ fun _ => h.flowMapping _ _

end NodesKeep

theorem nodesKeep (fuel : Nat) : NodesKeep fuel := by
  induction fuel with
  | zero => exact nodesKeep_zero
  | succ fuel ih => exact ih.succ

/-! ## Documents -/

theorem keeps_content (fuel : Nat) : Keeps (content fuel) := keeps_peek.bind fun _ => by
  split
  iterate 4 exact keeps_nothing
  exact (nodesKeep fuel).node _

theorem keeps_passEnds (fuel : Nat) : Keeps (passEnds fuel) := by
  induction fuel with
  | zero => exact keeps_malformed
  | succ fuel ih => exact (keeps_passIf _).bind fun _ => ih.ite (keeps_pure _)

/-- What is looked for after a document: its ends, and nothing else. -/
theorem keeps_after (n : NodeId) (fuel : Nat) : Keeps (do
    passEnds fuel
    match ← peek with
    | none => pure (some n)
    | some _ => do
      directives false [] fuel
      malformed : Reader (Option NodeId)) :=
  (keeps_passEnds _).bind fun _ => keeps_peek.bind fun _ => by
    split
    · exact keeps_pure _
    · exact (keeps_directives _ _ _).bind fun _ => keeps_malformed

theorem keeps_single (fuel : Nat) : Keeps (single fuel) := keeps_peek.bind fun _ => by
  split
  · exact keeps_pure _
  · exact Keeps.ite
      ((keeps_directives _ _ _).bind fun _ => (keeps_require _).bind fun _ =>
        (keeps_content _).bind fun _ => keeps_after _ _)
      ((keeps_modify fun _ => by rfl).bind fun _ => ((nodesKeep fuel).node _).bind fun _ =>
        keeps_after _ _)

theorem waiting_of_after {n : NodeId} {root : Option NodeId} (h : (do
    passEnds fuel
    match ← peek with
    | none => pure (some n)
    | some _ => do
      directives false [] fuel
      malformed : Reader (Option NodeId)) s = .ok root s') : waiting s = none := by
  obtain ⟨_, s₁, hends, h⟩ := work_bind_eq_ok_iff.1 h
  obtain ⟨next, s₂, hpeek, h⟩ := work_bind_eq_ok_iff.1 h
  cases next with
  | none => rw [← (keeps_passEnds _).waiting_eq hends, waiting_of_peek hpeek]
  | some t =>
    obtain ⟨_, _, -, h⟩ := work_bind_eq_ok_iff.1 h
    cases h

/-- A document is read only when nothing waits: before it, or after it at last, no token is next. -/
theorem waiting_of_single {root : Option NodeId} (h : single fuel s = .ok root s') :
    waiting s = none := by
  obtain ⟨next, s₁, hpeek, h⟩ := work_bind_eq_ok_iff.1 h
  rw [← keeps_peek.waiting_eq hpeek]
  cases next with
  | none => rw [keeps_peek.waiting_eq hpeek, waiting_of_peek hpeek]
  | some t =>
    dsimp only at h
    split at h
    · obtain ⟨_, s₂, hdirectives, h⟩ := work_bind_eq_ok_iff.1 h
      obtain ⟨_, s₃, hstart, h⟩ := work_bind_eq_ok_iff.1 h
      obtain ⟨_, s₄, hcontent, h⟩ := work_bind_eq_ok_iff.1 h
      rw [← (keeps_directives _ _ _).waiting_eq hdirectives, ← (keeps_require _).waiting_eq hstart,
        ← (keeps_content _).waiting_eq hcontent]
      exact waiting_of_after h
    · obtain ⟨_, s₂, hhandles, hread⟩ := work_bind_eq_ok_iff.1 h
      obtain ⟨_, s₃, hnode, hafter⟩ := work_bind_eq_ok_iff.1 hread
      cases hhandles
      have hkept := ((nodesKeep fuel).node _).waiting_eq hnode
      rw [waiting_of_after hafter] at hkept
      exact hkept.symm

/-! ## Sources -/

variable {source : Source}

/-- There is a document, or an empty one, only in a source that has no fault. -/
theorem stop_of_ofSource {document : Option Document} (h : ofSource source = .ok document) :
    source.stop = none := by
  obtain ⟨ts, fault, htokens⟩ : ∃ ts fault, Token.ofSource source = (ts, fault) := ⟨_, _, rfl⟩
  simp only [ofSource, htokens] at h
  split at h
  · next hsingle =>
    cases show fault = none from waiting_of_single hsingle
    exact Token.stop_of_ofSource htokens
  · cases h

/-- A fault that tells of octets that are no text is that of the source. -/
theorem stop_of_ofSource_encoding {e : Text.Utf8.Fault}
    (h : ofSource source = .error (.encoding e)) : source.stop = some (.encoding e) := by
  obtain ⟨ts, fault, htokens⟩ : ∃ ts fault, Token.ofSource source = (ts, fault) := ⟨_, _, rfl⟩
  simp only [ofSource, htokens] at h
  split at h
  · cases h
  · next hsingle =>
    cases h
    cases show fault = some (.encoding e) from (keeps_single _).waiting_of_error hsingle
    exact Token.stop_of_ofSource_encoding htokens

end JndiScan.Yaml.Document

/-
Tokens up to the end. Reading tokens keeps what waits at the end of the text, and goes on until it
meets that end; so all tokens are read only when nothing waits there. A fault after the tokens tells
of octets that are no text only when the source does.
-/
import JndiScan.Proofs.Yaml.Scan
import JndiScan.Yaml.Token

namespace JndiScan.Yaml.Token

open Waiting (waiting)

instance : Waiting State := ⟨fun s => s.cursor.stop⟩

namespace Reader

theorem keeps_scan {α : Type} {x : Scan α} (h : Keeps x) : Keeps (scan x) := by
  intro s
  have hcursor := h s.cursor
  unfold KeepsAt scan at *
  cases hx : x s.cursor with
  | ok a cursor =>
    rw [hx] at hcursor
    exact hcursor
  | error fault cursor =>
    rw [hx] at hcursor
    exact hcursor

theorem keeps_malformed {α : Type} : Keeps (malformed : Reader α) := keeps_throw nofun

theorem keeps_emit (t : Token) : Keeps (emit t) := keeps_modify fun _ => rfl

theorem keeps_insertAt (number : Nat) (t : Token) : Keeps (insertAt number t) :=
  keeps_modify fun _ => rfl

theorem keeps_setAllowKey (b : Bool) : Keeps (setAllowKey b) := keeps_modify fun _ => rfl

theorem keeps_inBlock : Keeps inBlock := keeps_get.bind fun _ => keeps_pure _

/-! ## Possible keys -/

theorem keeps_forgetStaleKeys : Keeps forgetStaleKeys := fun s => KeepsAt.get_bind <| by
  dsimp only
  split
  · exact keeps_malformed s
  · exact KeepsAt.set rfl

theorem keeps_forgetKey : Keeps forgetKey := fun s => KeepsAt.get_bind <| by
  split
  · exact keeps_malformed s
  · exact KeepsAt.set rfl

theorem keeps_noteKey : Keeps noteKey :=
  keeps_get.bind fun _ => Keeps.ite
    (keeps_forgetKey.bind fun _ => keeps_modify fun _ => rfl) (keeps_pure _)

/-! ## Blocks -/

theorem keeps_endBlocks (column : Int) (indents : List Int) : Keeps (endBlocks column indents) := by
  induction indents with
  | nil => exact keeps_pure _
  | cons outer indents ih =>
    refine fun s => KeepsAt.get_bind ?_
    split
    · exact KeepsAt.bind (KeepsAt.set rfl) fun _ => ih
    · exact keeps_pure _ s

theorem keeps_unwind (column : Int) : Keeps (unwind column) :=
  keeps_inBlock.bind fun _ => Keeps.ite (keeps_get.bind fun _ => keeps_endBlocks _ _) (keeps_pure _)

theorem keeps_indentTo (column : Nat) : Keeps (indentTo column) := fun s => KeepsAt.get_bind <| by
  split
  · exact KeepsAt.bind (KeepsAt.set rfl) fun _ => keeps_pure _
  · exact keeps_pure _ s

theorem keeps_beginEntry (t : Token) : Keeps (beginEntry t) :=
  keeps_get.bind fun _ => Keeps.ite (keeps_malformed.ite <|
    (keeps_indentTo _).bind fun _ => (keeps_emit t).ite (keeps_pure _)) (keeps_pure _)

/-! ## Tokens -/

theorem keeps_sign (t : Token) (n : Nat) : Keeps (sign t n) :=
  (keeps_scan (Scan.keeps_skip n)).bind fun _ => keeps_emit t

theorem keeps_toNextToken (fuel : Nat) : Keeps (toNextToken fuel) := by
  induction fuel with
  | zero => exact keeps_malformed
  | succ fuel ih =>
    have hline : Keeps (do
        scan Scan.blanks
        scan Scan.comment
        let b ← scan Scan.lineBreak
        if !b.isEmpty then do
          if ← inBlock then setAllowKey true
          toNextToken fuel) :=
      (keeps_scan Scan.keeps_blanks).bind fun _ => (keeps_scan Scan.keeps_comment).bind fun _ =>
        (keeps_scan Scan.keeps_lineBreak).bind fun _ => Keeps.ite
          (keeps_inBlock.bind fun _ => Keeps.ite ((keeps_setAllowKey true).bind fun _ => ih) ih)
          (keeps_pure _)
    exact keeps_get.bind fun _ => Keeps.ite
      ((keeps_scan (Scan.keeps_skip 1)).bind fun _ => hline) hline

theorem keeps_boundary {x : Reader Unit} (h : Keeps x) : Keeps (boundary x) :=
  (keeps_unwind _).bind fun _ => keeps_forgetKey.bind fun _ => (keeps_setAllowKey _).bind fun _ => h

theorem keeps_flowStart (t : Token) : Keeps (flowStart t) :=
  keeps_noteKey.bind fun _ => (keeps_modify fun _ => by rfl).bind fun _ => keeps_sign t 1

theorem keeps_flowEnd (t : Token) : Keeps (flowEnd t) :=
  keeps_inBlock.bind fun _ => keeps_malformed.ite <| keeps_forgetKey.bind fun _ =>
    (keeps_modify fun _ => by rfl).bind fun _ => keeps_sign t 1

theorem keeps_flowEntrySign : Keeps flowEntrySign :=
  (keeps_setAllowKey _).bind fun _ => keeps_forgetKey.bind fun _ => keeps_sign _ 1

theorem keeps_blockEntrySign : Keeps blockEntrySign :=
  (keeps_beginEntry _).bind fun _ => (keeps_setAllowKey _).bind fun _ =>
    keeps_forgetKey.bind fun _ => keeps_sign _ 1

theorem keeps_keySign : Keeps keySign :=
  (keeps_beginEntry _).bind fun _ => keeps_inBlock.bind fun _ => (keeps_setAllowKey _).bind fun _ =>
    keeps_forgetKey.bind fun _ => keeps_sign _ 1

theorem keeps_valueSign : Keeps valueSign := fun s => KeepsAt.get_bind <| by
  dsimp only
  split
  · next k _ =>
    have hend : Keeps (do
        setAllowKey false
        sign .value) := (keeps_setAllowKey _).bind fun _ => keeps_sign _ 1
    refine KeepsAt.bind (KeepsAt.set rfl) fun _ => (keeps_insertAt _ _).bind fun _ =>
      keeps_inBlock.bind fun _ => Keeps.ite ?_ hend
    exact (keeps_indentTo _).bind fun _ => Keeps.ite ((keeps_insertAt _ _).bind fun _ => hend) hend
  · exact ((keeps_beginEntry _).bind fun _ => keeps_inBlock.bind fun _ =>
      (keeps_setAllowKey _).bind fun _ => keeps_forgetKey.bind fun _ => keeps_sign _ 1) s

theorem keeps_node {x : Scan Token} (h : Keeps x) : Keeps (node x) :=
  keeps_noteKey.bind fun _ => (keeps_setAllowKey _).bind fun _ => (keeps_scan h).bind fun _ =>
    keeps_emit _

theorem keeps_blockScalar (folded : Bool) : Keeps (blockScalar folded) :=
  (keeps_setAllowKey _).bind fun _ => keeps_forgetKey.bind fun _ => keeps_get.bind fun _ =>
    (keeps_scan (ScalarText.keeps_block _ _)).bind fun _ => keeps_emit _

theorem keeps_plainScalar : Keeps plainScalar :=
  keeps_noteKey.bind fun _ => keeps_get.bind fun _ =>
    (keeps_scan (ScalarText.keeps_plain _ _)).bind fun (_, _) =>
    (keeps_setAllowKey _).bind fun _ => keeps_emit _

theorem keeps_token : Keeps token := by
  refine (keeps_scan (Scan.keeps_need 2)).bind fun _ => keeps_get.bind fun _ => ?_
  refine Keeps.ite ?_ <| Keeps.ite ?_ <| Keeps.ite ?_ <| (keeps_flowStart _).ite <|
    (keeps_flowStart _).ite <| (keeps_flowEnd _).ite <| (keeps_flowEnd _).ite <|
    keeps_flowEntrySign.ite <| keeps_blockEntrySign.ite <| keeps_keySign.ite <|
    keeps_valueSign.ite <| Keeps.ite ?_ <| Keeps.ite ?_ <| Keeps.ite ?_ <|
    (keeps_blockScalar _).ite <| (keeps_blockScalar _).ite <| Keeps.ite ?_ <| Keeps.ite ?_ <|
    keeps_plainScalar.ite keeps_malformed
  · exact keeps_boundary ((keeps_scan Property.keeps_directive).bind fun _ => keeps_emit _)
  · exact keeps_boundary (keeps_sign _ _)
  · exact keeps_boundary (keeps_sign _ _)
  · exact keeps_node (Property.keeps_anchor.bind fun _ => keeps_pure _)
  · exact keeps_node (Property.keeps_anchor.bind fun _ => keeps_pure _)
  · exact keeps_node (Property.keeps_tag.bind fun (_, _) => keeps_pure _)
  · exact keeps_node ((ScalarText.keeps_quoted _).bind fun _ => keeps_pure _)
  · exact keeps_node ((ScalarText.keeps_quoted _).bind fun _ => keeps_pure _)

theorem keeps_settle : Keeps settle := keeps_modify fun _ => rfl

theorem keeps_tokens (fuel : Nat) : Keeps (tokens fuel) := by
  induction fuel with
  | zero => exact keeps_malformed
  | succ fuel ih =>
    refine keeps_forgetStaleKeys.bind fun _ => keeps_settle.bind fun _ =>
      (keeps_scan Scan.keeps_bound).bind fun _ => (keeps_toNextToken _).bind fun _ =>
      keeps_forgetStaleKeys.bind fun _ => keeps_get.bind fun _ => (keeps_unwind _).bind fun _ => ?_
    exact Keeps.ite ((keeps_unwind _).bind fun _ => keeps_forgetKey)
      (keeps_token.bind fun _ => ih)

/-! ## The end of the text -/

variable {s s' : State} {fuel : Nat}

theorem scan_eq_ok {α : Type} {x : Scan α} {a : α} (h : scan x s = .ok a s') :
    ∃ cursor, x s.cursor = .ok a cursor ∧ s' = { s with cursor } := by
  unfold scan at h
  split at h
  · next b cursor hx =>
    cases h
    exact ⟨cursor, hx, rfl⟩
  · cases h

theorem forgetStaleKeys_eq_ok (h : forgetStaleKeys s = .ok () s') : s'.cursor = s.cursor := by
  obtain ⟨_, _, hget, h⟩ := work_bind_eq_ok_iff.1 h
  cases hget
  dsimp only at h
  split at h
  · cases h
  · cases h
    rfl

/-- When what is passed before a token reaches the end of the text, nothing waits there. -/
theorem waiting_of_toNextToken (h : toNextToken fuel s = .ok () s') (hend : s'.cursor.rest = []) :
    waiting s' = none := by
  induction fuel generalizing s with
  | zero => cases h
  | succ fuel ih =>
    have hline : ∀ {s₁}, (do
        scan Scan.blanks
        scan Scan.comment
        let b ← scan Scan.lineBreak
        if !b.isEmpty then do
          if ← inBlock then setAllowKey true
          toNextToken fuel) s₁ = .ok () s' → waiting s' = none := by
      intro s₁ hread
      obtain ⟨_, _, -, hread⟩ := work_bind_eq_ok_iff.1 hread
      obtain ⟨_, s₂, -, hread⟩ := work_bind_eq_ok_iff.1 hread
      obtain ⟨b, s₃, hbreak, hread⟩ := work_bind_eq_ok_iff.1 hread
      obtain ⟨cursor, hplace, rfl⟩ := scan_eq_ok hbreak
      split at hread
      · obtain ⟨_, _, -, hread⟩ := work_bind_eq_ok_iff.1 hread
        split at hread
        · obtain ⟨_, _, -, hread⟩ := work_bind_eq_ok_iff.1 hread
          exact ih hread
        · exact ih hread
      · next hnil =>
        cases hread
        have hb : b = [] := by simpa using hnil
        rw [hb] at hplace
        obtain ⟨rfl, hstop | hmore⟩ := Scan.lineBreak_eq_nil hplace
        · exact hstop
        · exact absurd hend hmore
    obtain ⟨_, _, hget, h⟩ := work_bind_eq_ok_iff.1 h
    cases hget
    dsimp only at h
    split at h
    · obtain ⟨_, _, -, h⟩ := work_bind_eq_ok_iff.1 h
      exact hline h
    · exact hline h

/-- All tokens are read only when nothing waits. -/
theorem waiting_of_tokens (h : tokens fuel s = .ok () s') : waiting s = none := by
  induction fuel generalizing s with
  | zero => cases h
  | succ fuel ih =>
    obtain ⟨_, s₁, hstale, h⟩ := work_bind_eq_ok_iff.1 h
    obtain ⟨_, s₂, hsettle, h⟩ := work_bind_eq_ok_iff.1 h
    obtain ⟨_, s₃, hbound, h⟩ := work_bind_eq_ok_iff.1 h
    obtain ⟨_, s₄, hnext, h⟩ := work_bind_eq_ok_iff.1 h
    obtain ⟨_, s₅, hstale', h⟩ := work_bind_eq_ok_iff.1 h
    obtain ⟨_, _, hget, h⟩ := work_bind_eq_ok_iff.1 h
    cases hget
    obtain ⟨_, s₆, hunwind, h⟩ := work_bind_eq_ok_iff.1 h
    have hbefore : waiting s₄ = waiting s := by
      rw [(keeps_toNextToken _).waiting_eq hnext,
        (keeps_scan Scan.keeps_bound).waiting_eq hbound, keeps_settle.waiting_eq hsettle,
        keeps_forgetStaleKeys.waiting_eq hstale]
    rw [← hbefore]
    split at h
    · next hend =>
      rw [forgetStaleKeys_eq_ok hstale', List.isEmpty_iff] at hend
      exact waiting_of_toNextToken hnext hend
    · obtain ⟨_, s₇, htoken, h⟩ := work_bind_eq_ok_iff.1 h
      rw [← keeps_forgetStaleKeys.waiting_eq hstale', ← (keeps_unwind _).waiting_eq hunwind,
        ← keeps_token.waiting_eq htoken]
      exact ih h

end Reader

/-! ## Sources -/

variable {source : Source} {ts : List Token}

/-- There is no fault after the tokens only when the source has none. -/
theorem stop_of_ofSource (h : ofSource source = (ts, none)) : source.stop = none := by
  rw [ofSource] at h
  split at h
  · next htokens => exact Reader.waiting_of_tokens htokens
  · cases h

/-- One that tells of octets that are no text is that of the source. -/
theorem stop_of_ofSource_encoding {e : Text.Utf8.Fault}
    (h : ofSource source = (ts, some (.encoding e))) : source.stop = some (.encoding e) := by
  rw [ofSource] at h
  split at h
  · cases h
  · next htokens =>
    cases h
    exact (Reader.keeps_tokens _).waiting_of_error htokens

end JndiScan.Yaml.Token

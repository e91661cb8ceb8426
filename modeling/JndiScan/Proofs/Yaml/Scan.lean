/-
What waits at the end of a text. When a text was not handed on as a whole, a fault waits behind what
is known of it, and comes to light when more is needed. Reading leaves that fault as it is, and
tells of octets that are no text only when this is the fault that waits. That holds of every step
that reads from a place, as it holds of the few steps that all others are made of.
-/
import JndiScan.Proofs.Effect
import JndiScan.Yaml.Property
import JndiScan.Yaml.ScalarText

namespace JndiScan.Yaml

/-! ## Steps that keep what waits -/

/-- States of reading in which a fault may wait. -/
class Waiting (σ : Type) where
  waiting : σ → Option Fault

open Waiting (waiting)

instance : Waiting Cursor := ⟨Cursor.stop⟩

section Keeps

variable {σ α β : Type} [Waiting σ] {s s' : σ}

/-- From a state, a step leaves what waits there as it is, and tells of octets that are no text only
when that fault waits. -/
def KeepsAt (x : EStateM Fault σ α) (s : σ) : Prop :=
  match x s with
  | .ok _ s' => waiting s' = waiting s
  | .error fault _ => ∀ e, fault = .encoding e → waiting s = some fault

/-- A step does so from every state. -/
def Keeps (x : EStateM Fault σ α) : Prop := ∀ s, KeepsAt x s

variable {x y : EStateM Fault σ α} {f : α → EStateM Fault σ β}

theorem KeepsAt.bind (hx : KeepsAt x s) (hf : ∀ a, Keeps (f a)) : KeepsAt (x >>= f) s := by
  unfold KeepsAt at hx ⊢
  rw [work_bind_apply]
  cases hstep : x s with
  | error fault s₁ =>
    rw [hstep] at hx
    exact hx
  | ok a s₁ =>
    rw [hstep] at hx
    have hnext := hf a s₁
    unfold KeepsAt at hnext
    rw [show waiting s₁ = waiting s from hx] at hnext
    exact hnext

/-- What is done from the state that is got may depend on it. -/
theorem KeepsAt.get_bind {g : σ → EStateM Fault σ α} (h : KeepsAt (g s) s) :
    KeepsAt (get >>= g) s := h

theorem KeepsAt.set {new : σ} (h : waiting new = waiting s) :
    KeepsAt (set new : EStateM Fault σ PUnit) s := h

theorem keeps_pure (a : α) : Keeps (pure a : EStateM Fault σ α) := fun _ => rfl

theorem keeps_get : Keeps (get : EStateM Fault σ σ) := fun _ => rfl

theorem keeps_throw {fault : Fault} (h : ∀ e, fault ≠ .encoding e) :
    Keeps (throw fault : EStateM Fault σ α) := fun _ e he => absurd he (h e)

theorem keeps_modify {g : σ → σ} (h : ∀ s, waiting (g s) = waiting s) :
    Keeps (modify g : EStateM Fault σ PUnit) := h

theorem Keeps.bind (hx : Keeps x) (hf : ∀ a, Keeps (f a)) : Keeps (x >>= f) :=
  fun s => (hx s).bind hf

theorem Keeps.ite {p : Prop} [Decidable p] (hx : Keeps x) (hy : Keeps y) :
    Keeps (if p then x else y) := by
  split
  · exact hx
  · exact hy

theorem keeps_mapM {f : α → EStateM Fault σ β} (h : ∀ a, Keeps (f a)) (items : List α) :
    Keeps (items.mapM f) := by
  induction items with
  | nil => exact keeps_pure []
  | cons a items ih =>
    rw [List.mapM_cons]
    exact (h a).bind fun _ => ih.bind fun _ => keeps_pure _

theorem keeps_forM {f : α → EStateM Fault σ PUnit} (h : ∀ a, Keeps (f a)) (items : List α) :
    Keeps (items.forM f) := by
  induction items with
  | nil => exact keeps_pure _
  | cons a items ih => exact (h a).bind fun _ => ih

theorem keeps_foldlM {f : β → α → EStateM Fault σ β} (h : ∀ b a, Keeps (f b a)) (b : β)
    (items : List α) : Keeps (items.foldlM f b) := by
  induction items generalizing b with
  | nil => exact keeps_pure b
  | cons a items ih =>
    rw [List.foldlM_cons]
    exact (h b a).bind fun b => ih b

theorem Keeps.waiting_eq {a : α} (hx : Keeps x) (h : x s = .ok a s') : waiting s' = waiting s := by
  have hs := hx s
  rw [KeepsAt, h] at hs
  exact hs

theorem Keeps.waiting_of_error {e : Text.Utf8.Fault} (hx : Keeps x)
    (h : x s = .error (.encoding e) s') : waiting s = some (.encoding e) := by
  have hs := hx s
  rw [KeepsAt, h] at hs
  exact hs e rfl

end Keeps

/-! ## Places -/

namespace Cursor

theorem stop_next (c : Cursor) : c.next.stop = c.stop := by
  rw [next]
  split
  · rfl
  · dsimp only
    split
    · rfl
    · split <;> rfl

theorem stop_advance (c : Cursor) (n : Nat) : (c.advance n).stop = c.stop := by
  induction n generalizing c with
  | zero => rfl
  | succ n ih => rw [advance, ih, stop_next]

end Cursor

namespace Scan

theorem keeps_malformed {α : Type} : Keeps (malformed : Scan α) := keeps_throw nofun

/-- What waits comes to light here, and nowhere else. -/
theorem keeps_need (n : Nat) : Keeps (need n) := fun c => KeepsAt.get_bind <| by
  cases hstop : c.stop with
  | none => exact keeps_pure _ c
  | some fault =>
    dsimp only
    split
    · exact fun _ _ => hstop
    · exact keeps_pure _ c

theorem keeps_peek (n : Nat) : Keeps (peek n) :=
  (keeps_need _).bind fun _ => keeps_get.bind fun _ => keeps_pure _

theorem keeps_skip (n : Nat) : Keeps (skip n) :=
  (keeps_need _).bind fun _ => keeps_modify fun c => c.stop_advance n

theorem keeps_takeWhile (p : CodePoint → Bool) : Keeps (takeWhile p) :=
  keeps_get.bind fun _ => (keeps_skip _).bind fun _ => keeps_pure _

theorem keeps_take (n : Nat) : Keeps (take n) :=
  keeps_get.bind fun _ => (keeps_skip n).bind fun _ => keeps_pure _

theorem keeps_blanks : Keeps blanks := (keeps_takeWhile _).bind fun _ => keeps_pure _

theorem keeps_restOfLine : Keeps restOfLine := (keeps_takeWhile _).bind fun _ => keeps_pure _

theorem keeps_comment : Keeps comment :=
  (keeps_peek 0).bind fun _ => keeps_restOfLine.ite (keeps_pure _)

theorem keeps_lineBreak : Keeps lineBreak :=
  (keeps_peek 0).bind fun _ =>
    ((keeps_peek 1).bind fun _ => (keeps_skip _).bind fun _ => keeps_pure _).ite <|
    ((keeps_skip 1).bind fun _ => keeps_pure _).ite <|
    ((keeps_skip 1).bind fun _ => keeps_pure _).ite (keeps_pure _)

theorem keeps_ignoredLine : Keeps ignoredLine :=
  keeps_blanks.bind fun _ => keeps_comment.bind fun _ => (keeps_peek 0).bind fun _ =>
    (keeps_lineBreak.bind fun _ => keeps_pure _).ite keeps_malformed

theorem keeps_bound : Keeps bound := keeps_get.bind fun _ => keeps_pure _

/-! ## The end of what is known -/

variable {c c' : Cursor} {n : Nat}

theorem need_eq_ok (h : need n c = .ok () c') :
    c' = c ∧ (c.stop = none ∨ c.rest.drop (n - 1) ≠ []) := by
  rw [need] at h
  obtain ⟨_, _, hget, h⟩ := work_bind_eq_ok_iff.1 h
  cases hget
  cases hstop : c.stop with
  | none =>
    rw [hstop] at h
    cases h
    exact ⟨rfl, .inl rfl⟩
  | some fault =>
    rw [hstop] at h
    dsimp only at h
    split at h
    · cases h
    · next hknown =>
      cases h
      exact ⟨rfl, .inr (mt List.isEmpty_iff.2 hknown)⟩

theorem peek_eq_ok {ch : CodePoint} (h : peek n c = .ok ch c') :
    c' = c ∧ (c.stop = none ∨ c.rest.drop n ≠ []) := by
  obtain ⟨_, c₁, hneed, hgot⟩ := work_bind_eq_ok_iff.1 h
  obtain ⟨rfl, hknown⟩ := need_eq_ok hneed
  cases hgot
  exact ⟨rfl, hknown⟩

/-- Where there is no line end, more of the text is there, or nothing waits. -/
theorem lineBreak_eq_nil (h : lineBreak c = .ok [] c') :
    c' = c ∧ (c.stop = none ∨ c.rest ≠ []) := by
  obtain ⟨ch, c₁, hpeek, hread⟩ := work_bind_eq_ok_iff.1 h
  obtain ⟨rfl, hknown⟩ := peek_eq_ok hpeek
  split at hread
  · obtain ⟨_, _, -, hread⟩ := work_bind_eq_ok_iff.1 hread
    obtain ⟨_, _, -, hread⟩ := work_bind_eq_ok_iff.1 hread
    cases hread
  · split at hread
    · obtain ⟨_, _, -, hread⟩ := work_bind_eq_ok_iff.1 hread
      cases hread
    · split at hread
      · obtain ⟨_, _, -, hread⟩ := work_bind_eq_ok_iff.1 hread
        cases hread
      · cases hread
        exact ⟨rfl, hknown⟩

end Scan

namespace Property

open Scan

theorem keeps_name : Keeps name :=
  (keeps_takeWhile _).bind fun _ => keeps_malformed.ite (keeps_pure _)

theorem keeps_anchor : Keeps anchor :=
  (keeps_skip 1).bind fun _ => keeps_name.bind fun _ => (keeps_peek 0).bind fun _ =>
    (keeps_pure _).ite keeps_malformed

theorem keeps_escapedOctets (done : List UInt8) (fuel : Nat) : Keeps (escapedOctets done fuel) := by
  induction fuel generalizing done with
  | zero => exact keeps_malformed
  | succ fuel ih =>
    refine (keeps_peek 0).bind fun _ => Keeps.ite ?_ (keeps_pure _)
    refine (keeps_skip 1).bind fun _ => (keeps_take 2).bind fun _ => ?_
    split
    · exact ih _
    · exact keeps_malformed

theorem keeps_tagRest (done : Text) (fuel : Nat) : Keeps (tagRest done fuel) := by
  induction fuel generalizing done with
  | zero => exact keeps_malformed
  | succ fuel ih =>
    refine (keeps_takeWhile _).bind fun _ => (keeps_peek 0).bind fun _ =>
      Keeps.ite ?_ (keeps_pure _)
    refine keeps_bound.bind fun _ => (keeps_escapedOctets _ _).bind fun _ => ?_
    split
    · exact ih _
    · exact keeps_malformed

theorem keeps_tagText : Keeps tagText :=
  keeps_bound.bind fun _ => (keeps_tagRest _ _).bind fun _ => keeps_malformed.ite (keeps_pure _)

theorem keeps_handle : Keeps handle :=
  (keeps_peek 0).bind fun _ => keeps_malformed.ite <|
    (keeps_skip 1).bind fun _ => (keeps_peek 0).bind fun _ => (keeps_pure _).ite <|
    (keeps_takeWhile _).bind fun _ => (keeps_peek 0).bind fun _ =>
      ((keeps_skip 1).bind fun _ => keeps_pure _).ite keeps_malformed

theorem keeps_tag : Keeps tag := by
  refine (keeps_peek 1).bind fun _ => ?_
  have hend : ∀ found : Option Text × Text, Keeps (do
      if endsWord (← peek) then pure found else malformed) := fun _ =>
    (keeps_peek 0).bind fun _ => (keeps_pure _).ite keeps_malformed
  refine Keeps.ite ?_ (Keeps.ite ?_ ?_)
  · exact (keeps_skip 2).bind fun _ => keeps_tagText.bind fun _ => (keeps_peek 0).bind fun _ =>
      ((keeps_skip 1).bind fun _ => (keeps_pure _).bind hend).ite (keeps_malformed.bind hend)
  · exact (keeps_skip 1).bind fun _ => (keeps_pure _).bind hend
  · exact keeps_get.bind fun _ =>
      (keeps_handle.bind fun _ => keeps_tagText.bind fun _ => (keeps_pure _).bind hend).ite <|
      (keeps_skip 1).bind fun _ => keeps_tagText.bind fun _ => (keeps_pure _).bind hend

theorem keeps_number : Keeps number :=
  (keeps_takeWhile _).bind fun _ => keeps_malformed.ite <|
    (keeps_throw fun _ h => by cases h).ite (keeps_pure _)

theorem keeps_version : Keeps version :=
  keeps_blanks.bind fun _ => keeps_number.bind fun _ => (keeps_peek 0).bind fun _ =>
    keeps_malformed.ite <| (keeps_skip 1).bind fun _ => keeps_number.bind fun _ =>
      (keeps_peek 0).bind fun _ => (keeps_pure _).ite keeps_malformed

theorem keeps_tagDefinition : Keeps tagDefinition :=
  keeps_blanks.bind fun _ => keeps_handle.bind fun _ => (keeps_peek 0).bind fun _ =>
    keeps_malformed.ite <| keeps_blanks.bind fun _ => keeps_tagText.bind fun _ =>
      (keeps_peek 0).bind fun _ => (keeps_pure _).ite keeps_malformed

theorem keeps_directive : Keeps directive := by
  refine (keeps_skip 1).bind fun _ => keeps_name.bind fun _ => (keeps_peek 0).bind fun _ =>
    keeps_malformed.ite ?_
  have hend : ∀ d : Directive, Keeps (do
      ignoredLine
      pure d) := fun _ => keeps_ignoredLine.bind fun _ => keeps_pure _
  refine Keeps.ite ?_ (Keeps.ite ?_ ?_)
  · exact keeps_version.bind fun _ => (keeps_pure _).bind hend
  · exact keeps_tagDefinition.bind fun _ => (keeps_pure _).bind hend
  · exact keeps_restOfLine.bind fun _ => (keeps_pure _).bind hend

end Property

namespace ScalarText

open Scan

/-! ## Blocks -/

theorem keeps_chomping : Keeps chomping := by
  refine (keeps_peek 0).bind fun _ => ?_
  split
  · exact (keeps_skip 1).bind fun _ => keeps_pure _
  · exact keeps_pure _

theorem keeps_increment : Keeps increment :=
  (keeps_peek 0).bind fun _ => Keeps.ite
    (keeps_malformed.ite ((keeps_skip 1).bind fun _ => keeps_pure _)) (keeps_pure _)

theorem keeps_blockSigns : Keeps blockSigns := by
  have hend : ∀ signs : Chomping × Option Nat, Keeps (do
      if endsWord (← peek) then pure signs else malformed) := fun _ =>
    (keeps_peek 0).bind fun _ => (keeps_pure _).ite keeps_malformed
  refine (keeps_peek 0).bind fun _ => Keeps.ite ?_ ?_
  · exact keeps_chomping.bind fun _ => keeps_increment.bind fun _ => (keeps_pure _).bind hend
  · refine keeps_increment.bind fun _ => ?_
    split
    · exact keeps_chomping.bind fun _ => (keeps_pure _).bind hend
    · exact (keeps_pure _).bind hend

theorem keeps_leadingLines (done : Text) (column fuel : Nat) :
    Keeps (leadingLines done column fuel) := by
  induction fuel generalizing done column with
  | zero => exact keeps_malformed
  | succ fuel ih =>
    exact (keeps_peek 0).bind fun _ => Keeps.ite
      ((keeps_skip 1).bind fun _ => keeps_get.bind fun _ => ih _ _)
      (Keeps.ite (keeps_lineBreak.bind fun _ => ih _ _) (keeps_pure _))

theorem keeps_blanksUpTo (column : Nat) : Keeps (blanksUpTo column) :=
  keeps_get.bind fun _ => keeps_skip _

theorem keeps_emptyLines (indent : Nat) (done : Text) (fuel : Nat) :
    Keeps (emptyLines indent done fuel) := by
  induction fuel generalizing done with
  | zero => exact keeps_malformed
  | succ fuel ih =>
    exact (keeps_peek 0).bind fun _ => Keeps.ite
      (keeps_lineBreak.bind fun _ => (keeps_blanksUpTo _).bind fun _ => ih _) (keeps_pure _)

theorem keeps_atBlockLine (indent : Nat) : Keeps (atBlockLine indent) :=
  keeps_get.bind fun _ => keeps_pure _

theorem keeps_blockLines (folded : Bool) (indent : Nat) (done : List Text) (breaks : Text)
    (fuel : Nat) : Keeps (blockLines folded indent done breaks fuel) := by
  induction fuel generalizing done breaks with
  | zero => exact keeps_malformed
  | succ fuel ih =>
    refine (keeps_atBlockLine _).bind fun _ => (keeps_pure _).ite ?_
    refine (keeps_peek 0).bind fun _ => (keeps_takeWhile _).bind fun _ =>
      keeps_lineBreak.bind fun _ => (keeps_blanksUpTo _).bind fun _ => keeps_bound.bind fun _ =>
      (keeps_emptyLines _ _ _).bind fun _ => (keeps_atBlockLine _).bind fun _ =>
      Keeps.ite ?_ (keeps_pure _)
    exact (keeps_peek 0).bind fun _ => ih _ _

theorem keeps_block (folded : Bool) (parent : Int) : Keeps (block folded parent) := by
  refine (keeps_skip 1).bind fun _ => keeps_blockSigns.bind fun (_, increment) =>
    keeps_ignoredLine.bind fun _ => ?_
  cases increment with
  | some n =>
    exact (keeps_blanksUpTo _).bind fun _ => keeps_bound.bind fun _ =>
      (keeps_emptyLines _ _ _).bind fun _ => (keeps_pure _).bind fun _ => keeps_bound.bind fun _ =>
      (keeps_blockLines _ _ _ _ _).bind fun _ => keeps_pure _
  | none =>
    exact keeps_bound.bind fun _ => (keeps_leadingLines _ _ _).bind fun _ =>
      (keeps_pure _).bind fun _ => keeps_bound.bind fun _ =>
        (keeps_blockLines _ _ _ _ _).bind fun _ => keeps_pure _

/-! ## Quoted texts -/

theorem keeps_numbered (n : Nat) : Keeps (numbered n) := by
  refine (keeps_need n).bind fun _ => keeps_get.bind fun _ => ?_
  dsimp only
  split
  · exact keeps_malformed
  · exact ((keeps_skip n).bind fun _ => keeps_pure _).ite (keeps_throw nofun)

theorem keeps_quotedBreaks (done : Text) (fuel : Nat) : Keeps (quotedBreaks done fuel) := by
  induction fuel generalizing done with
  | zero => exact keeps_malformed
  | succ fuel ih =>
    exact keeps_get.bind fun _ => keeps_malformed.ite <| (keeps_takeWhile _).bind fun _ =>
      (keeps_peek 0).bind fun _ => Keeps.ite (keeps_lineBreak.bind fun _ => ih _) (keeps_pure _)

theorem keeps_escape : Keeps escape := by
  refine (keeps_peek 0).bind fun _ => ?_
  split
  · exact (keeps_skip 1).bind fun _ => keeps_pure _
  · exact (keeps_skip 1).bind fun _ => (keeps_numbered _).bind fun _ => keeps_pure _
  · exact Keeps.ite (keeps_lineBreak.bind fun _ => keeps_bound.bind fun _ =>
      keeps_quotedBreaks _ _) keeps_malformed

theorem keeps_quotedBlanks : Keeps quotedBlanks :=
  (keeps_takeWhile _).bind fun _ => (keeps_peek 0).bind fun _ => keeps_malformed.ite <|
    Keeps.ite (keeps_lineBreak.bind fun _ => keeps_bound.bind fun _ =>
      (keeps_quotedBreaks _ _).bind fun _ => keeps_pure _) (keeps_pure _)

theorem keeps_quotedRest (double : Bool) (done : List Text) (fuel : Nat) :
    Keeps (quotedRest double done fuel) := by
  induction fuel generalizing done with
  | zero => exact keeps_malformed
  | succ fuel ih =>
    refine (keeps_peek 0).bind fun _ => Keeps.ite ?_ (Keeps.ite ?_ (Keeps.ite ?_ ?_))
    · exact (keeps_peek 1).bind fun _ => Keeps.ite ((keeps_skip 2).bind fun _ => ih _)
        ((keeps_skip 1).bind fun _ => keeps_pure _)
    · exact (keeps_skip 1).bind fun _ => keeps_escape.bind fun _ => ih _
    · exact keeps_quotedBlanks.bind fun _ => ih _
    · exact (keeps_takeWhile _).bind fun _ => ih _

theorem keeps_quoted (double : Bool) : Keeps (quoted double) :=
  (keeps_skip 1).bind fun _ => keeps_bound.bind fun _ => keeps_quotedRest _ _ _

/-! ## Plain texts -/

theorem keeps_plainBreaks (done : Text) (fuel : Nat) : Keeps (plainBreaks done fuel) := by
  induction fuel generalizing done with
  | zero => exact keeps_malformed
  | succ fuel ih =>
    refine (keeps_peek 0).bind fun _ => Keeps.ite ?_ (Keeps.ite ?_ (keeps_pure _))
    · exact (keeps_skip 1).bind fun _ => ih _
    · exact keeps_lineBreak.bind fun _ => keeps_get.bind fun _ => (keeps_pure _).ite (ih _)

theorem keeps_plainBlanks : Keeps plainBlanks := by
  refine (keeps_takeWhile _).bind fun _ => (keeps_peek 0).bind fun _ =>
    Keeps.ite ?_ (keeps_pure _)
  refine keeps_lineBreak.bind fun _ => keeps_get.bind fun _ => (keeps_pure _).ite ?_
  refine keeps_bound.bind fun _ => (keeps_plainBreaks _ _).bind fun _ => ?_
  split <;> exact keeps_pure _

theorem keeps_plainRest (inFlow : Bool) (indent : Nat) (done : List Text) (between : Text)
    (newLine : Bool) (fuel : Nat) :
    Keeps (plainRest inFlow indent done between newLine fuel) := by
  induction fuel generalizing done between newLine with
  | zero => exact keeps_malformed
  | succ fuel ih =>
    refine keeps_get.bind fun _ => (keeps_pure _).ite ?_
    exact (keeps_skip _).bind fun _ => keeps_plainBlanks.bind fun (_, _) =>
      keeps_get.bind fun _ => (keeps_pure _).ite (ih _ _ _)

theorem keeps_plain (inFlow : Bool) (indent : Nat) : Keeps (plain inFlow indent) :=
  keeps_bound.bind fun _ => keeps_plainRest _ _ _ _ _ _

end ScalarText

end JndiScan.Yaml

/-
Work that has a state and may break off, taken apart where one part of it follows another. Two
pieces of work beside each other, in states that are related, may come to the same.
-/
namespace JndiScan

variable {ε ε' σ α β : Type} {s s' : σ} {work : EStateM ε σ α} {f : α → EStateM ε σ β}

theorem work_bind_apply (work : EStateM ε σ α) (f : α → EStateM ε σ β) (s : σ) :
    (work >>= f) s = match work s with
      | .ok x s => f x s
      | .error trouble s => .error trouble s := by
  show EStateM.bind work f s = _
  unfold EStateM.bind
  cases work s <;> rfl

theorem work_bind_eq_ok_iff {y : β} :
    (work >>= f) s = .ok y s' ↔ ∃ x s₁, work s = .ok x s₁ ∧ f x s₁ = .ok y s' := by
  rw [work_bind_apply]
  cases work s <;> simp [and_assoc]

theorem work_bind_eq_error_iff {trouble : ε} :
    (work >>= f) s = .error trouble s' ↔
      work s = .error trouble s' ∨ ∃ x s₁, work s = .ok x s₁ ∧ f x s₁ = .error trouble s' := by
  rw [work_bind_apply]
  cases work s <;> simp [and_assoc]

theorem adaptExcept_eq_ok_iff {g : ε → ε'} {x : α} :
    EStateM.adaptExcept g work s = .ok x s' ↔ work s = .ok x s' := by
  rw [EStateM.adaptExcept]
  cases work s <;> simp

theorem adaptExcept_eq_error_iff {g : ε → ε'} {trouble : ε'} :
    EStateM.adaptExcept g work s = .error trouble s' ↔
      ∃ t, work s = .error t s' ∧ g t = trouble := by
  rw [EStateM.adaptExcept]
  cases work s with
  | ok x s₁ => simp
  | error t s₁ =>
    simp only [EStateM.Result.error.injEq]
    constructor
    · rintro ⟨rfl, rfl⟩
      exact ⟨t, ⟨rfl, rfl⟩, rfl⟩
    · rintro ⟨_, ⟨rfl, rfl⟩, rfl⟩
      exact ⟨rfl, rfl⟩

/-! ## What work preserves -/

/-- The state that work comes to, whether it breaks off or not. -/
def stateOf : EStateM.Result ε σ α → σ
  | .ok _ s | .error _ s => s

/-- What holds of a state holds of it after the work, also where that breaks off. -/
def Preserves (P : σ → Prop) (work : EStateM ε σ α) : Prop := ∀ s, P s → P (stateOf (work s))

namespace Preserves

variable {P : σ → Prop}

theorem pure (x : α) : Preserves P (pure x : EStateM ε σ α) := fun _ hs => hs

theorem throw (trouble : ε) : Preserves P (throw trouble : EStateM ε σ α) := fun _ hs => hs

theorem bind (hwork : Preserves P work)
    (hf : ∀ x s s', P s → work s = .ok x s' → Preserves P (f x)) : Preserves P (work >>= f) := by
  intro s hs
  have hfirst := hwork s hs
  rw [work_bind_apply]
  cases hx : work s with
  | ok x s' =>
    rw [hx] at hfirst
    exact hf x s s' hs hx s' hfirst
  | error trouble s' =>
    rw [hx] at hfirst
    exact hfirst

theorem adaptExcept (hwork : Preserves P work) (g : ε → ε') :
    Preserves P (EStateM.adaptExcept g work) := by
  intro s hs
  have hfirst := hwork s hs
  rw [EStateM.adaptExcept]
  cases hx : work s <;> rw [hx] at hfirst <;> exact hfirst

end Preserves

/-! ## Work side by side -/

/-- Work in two states comes to the same, which has a property, and leaves states that are related. -/
inductive Alike {σ' : Type} (R : σ → σ' → Prop) (P : α → Prop) :
    EStateM.Result ε σ α → EStateM.Result ε σ' α → Prop
  | ok {x : α} {s : σ} {s' : σ'} : P x → R s s' → Alike R P (.ok x s) (.ok x s')
  | error {trouble : ε} {s : σ} {s' : σ'} :
    R s s' → Alike R P (.error trouble s) (.error trouble s')

namespace Alike

variable {σ' : Type} {R : σ → σ' → Prop} {P : α → Prop} {Q : β → Prop} {s' : σ'}
variable {work' : EStateM ε σ' α} {f' : α → EStateM ε σ' β}

theorem mono {Q : α → Prop} {r : EStateM.Result ε σ α} {r' : EStateM.Result ε σ' α}
    (h : Alike R P r r') (hPQ : ∀ x, P x → Q x) : Alike R Q r r' := by
  cases h with
  | ok hx hs => exact .ok (hPQ _ hx) hs
  | error hs => exact .error hs

theorem bind (h : Alike R P (work s) (work' s'))
    (hf : ∀ x s s', P x → R s s' → Alike R Q (f x s) (f' x s')) :
    Alike R Q ((work >>= f) s) ((work' >>= f') s') := by
  rw [work_bind_apply, work_bind_apply]
  generalize work s = r, work' s' = r' at h
  cases h with
  | ok hx hs => exact hf _ _ _ hx hs
  | error hs => exact .error hs

theorem adaptExcept (h : Alike R P (work s) (work' s')) (g : ε → ε') :
    Alike R P (EStateM.adaptExcept g work s) (EStateM.adaptExcept g work' s') := by
  rw [EStateM.adaptExcept, EStateM.adaptExcept]
  generalize work s = r, work' s' = r' at h
  cases h with
  | ok hx hs => exact .ok hx hs
  | error hs => exact .error hs

end Alike

end JndiScan

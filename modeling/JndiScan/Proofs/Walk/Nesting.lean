/-
How deep a walk is at each moment. The opened containers lie one inside the other, so the stack
carries the depths from its height down to one, and what is pulled from a container has as many
segments as its frame says. The limit of depth bounds the height.
-/
import JndiScan.Proofs.Walk.Steps

namespace JndiScan

theorem Provenance.depth_child (p : Provenance) (name : Text) (converted : Bool) :
    (p.child name converted).depth = p.depth + 1 := by
  simp [Provenance.depth, Provenance.child]

namespace Walk

variable {world entry container position : Type}
variable {d : Decoder world entry container position} {l : Limits}

/-- Where the containers and positions of a decoder lie: what it tells of places agrees with it. -/
structure Nesting (d : Decoder world entry container position) where
  ofContainer : container → Provenance
  ofPosition : position → Provenance
  definition : ∀ {e w o w'}, d.decode e w = .ok (.definition o) w' → o.place = d.placeOf e
  container : ∀ {e w kind place c w'}, d.decode e w = .ok (.container kind place c) w' →
    place = d.placeOf e ∧ ofContainer c = d.placeOf e
  enter : ∀ {c w p w'}, d.enter c w = .ok p w' → ofPosition p = ofContainer c
  pull : ∀ {p w e p' w'}, d.pull p w = .ok (some (e, p')) w' →
    (∃ name converted, d.placeOf e = (ofPosition p).child name converted) ∧
      ofPosition p' = ofPosition p

/-- Every container on the stack lies in the one below it. -/
inductive Stacked (N : Nesting d) : List (position × Nat) → Prop
  | nil : Stacked N []
  | cons {p : position} {frames : List (position × Nat)} :
    Stacked N frames → (N.ofPosition p).depth = frames.length →
    Stacked N ((p, frames.length + 1) :: frames)

namespace Stacked

variable {N : Nesting d} {frames : List (position × Nat)}

theorem depths (h : Stacked N frames) :
    frames.map Prod.snd = (List.range' 1 frames.length).reverse := by
  induction h with
  | nil => rfl
  | @cons p frames _ _ ih =>
    rw [List.map_cons, ih, List.length_cons, List.range'_concat, List.reverse_append,
      List.reverse_singleton, List.singleton_append, Nat.one_mul, Nat.add_comm]

/-- What is pulled from a container has the depth that its frame says. -/
theorem depth_of_pull (h : Stacked N frames) {p : position} {depth : Nat}
    (hmem : (p, depth) ∈ frames) {w w' : world} {e : entry} {p' : position}
    (hpull : d.pull p w = .ok (some (e, p')) w') : (d.placeOf e).depth = depth := by
  obtain ⟨⟨name, converted, hplace⟩, -⟩ := N.pull hpull
  rw [hplace, Provenance.depth_child]
  induction h with
  | nil => cases hmem
  | cons _ hdepth ih =>
    rcases List.mem_cons.1 hmem with heq | hmem
    · cases heq
      rw [hdepth]
    · exact ih hmem

end Stacked

/-- The state of a walk whose containers lie one inside the other, no more of them than the limit
of depth allows, and whose roots lie in no container. -/
structure Nested (N : Nesting d) (m : Nat) (s : State world entry position) : Prop where
  stacked : Stacked N s.frames
  height_le : s.frames.length ≤ m
  roots : ∀ e, .entry e ∈ s.roots → (d.placeOf e).depth = 0

namespace Nested

variable {N : Nesting d} {m : Nat} {s : State world entry position}

theorem closeAll (h : Nested N m s) : Nested N m (s.closeAll d) :=
  ⟨.nil, Nat.zero_le m, h.roots⟩

/-- What neither the stack nor the roots tell does not matter. -/
theorem of_eq (h : Nested N m s) {s' : State world entry position} (hframes : s'.frames = s.frames)
    (hroots : s'.roots = s.roots) : Nested N m s' :=
  ⟨hframes ▸ h.stacked, hframes ▸ h.height_le, hroots ▸ h.roots⟩

theorem abort (h : Nested N m s) (fault : Fault) : Nested N m (Walk.abort d fault s).state :=
  h.closeAll

theorem expand (h : Nested N m s) (hl : ∀ n : Int, l.maxDepth = .atMost n → n.toNat = m)
    (kind : EntryKind) (place : Provenance) {contents : container}
    (hcontents : (N.ofContainer contents).depth = s.frames.length) :
    Nested N m (Walk.expand d l kind place contents s.frames.length s).state := by
  unfold Walk.expand
  cases hlimit : l.maxDepth with
  | unsaid => exact h.closeAll
  | atMost n =>
    simp only
    split
    · exact h.of_eq rfl rfl
    · next hle =>
      have hm := hl n hlimit
      simp only [State.mapTally]
      cases hx : d.enter contents s.world with
      | ok p w =>
        have hp : (N.ofPosition p).depth = s.frames.length := by rw [N.enter hx, hcontents]
        exact ⟨.cons h.stacked hp, by simp only [Next.state, List.length_cons]; omega, h.roots⟩
      | error trouble w =>
        cases trouble with
        | failed failure => exact h.of_eq rfl rfl
        | aborted fault =>
          refine Nested.abort ?_ fault
          exact h.of_eq rfl rfl

theorem visit (h : Nested N m s) (hl : ∀ n : Int, l.maxDepth = .atMost n → n.toNat = m) {e : entry}
    (he : (d.placeOf e).depth = s.frames.length) :
    Nested N m (Walk.visit d l e s.frames.length s).state := by
  unfold Walk.visit
  lift_lets
  intro place s'
  have hs' : Nested N m s' := h.of_eq rfl rfl
  split
  · cases l.maxEntries with
    | unsaid => exact hs'.closeAll
    | atMost n => exact hs'.of_eq rfl rfl
  · cases hx : d.decode e s'.world with
    | ok decoded w =>
      cases decoded with
      | definition o => exact hs'.of_eq rfl rfl
      | unrecognized name => exact hs'.of_eq rfl rfl
      | container kind place contents =>
        obtain ⟨-, hcontents⟩ := N.container hx
        have hw : Nested N m { s' with world := w } := hs'.of_eq rfl rfl
        exact hw.expand hl kind place (by rw [hcontents, he]; rfl)
    | error trouble w =>
      cases trouble with
      | failed failure => exact hs'.of_eq rfl rfl
      | aborted fault =>
        refine Nested.abort ?_ fault
        exact hs'.of_eq rfl rfl

theorem of_roots (h : Nested N m s) {roots : List (Root entry)}
    (hroots : ∀ root ∈ roots, root ∈ s.roots) : Nested N m { s with roots } :=
  ⟨h.stacked, h.height_le, fun e he => h.roots e (hroots _ he)⟩

/-- The entry that comes lies where its frame says, in the state in which it is visited. -/
theorem of_comes (h : Nested N m s) {e : entry} {depth : Nat} {s₁ : State world entry position}
    (hcomes : Comes d s e depth s₁) :
    Nested N m s₁ ∧ depth = s₁.frames.length ∧ (d.placeOf e).depth = s₁.frames.length := by
  cases hcomes with
  | root hframes hroots =>
    have hdepth : s.frames.length = 0 := congrArg List.length hframes
    exact ⟨h.of_roots fun root hroot => hroots ▸ List.mem_cons_of_mem _ hroot, hdepth.symm,
      (h.roots e (hroots ▸ List.mem_cons_self ..)).trans hdepth.symm⟩
  | pulled hframes hpull =>
    obtain ⟨hstacked, hheight, hroots⟩ := h
    rw [hframes] at hstacked hheight
    cases hstacked with
    | cons hbelow hp =>
      obtain ⟨⟨name, converted, hplace⟩, hp'⟩ := N.pull hpull
      refine ⟨⟨.cons hbelow (by rw [hp', hp]), hheight, hroots⟩, rfl, ?_⟩
      rw [hplace, Provenance.depth_child, hp]
      rfl

/-- Once a container is left, those below it lie inside one another. -/
theorem of_left (h : Nested N m s) {p : position} {depth : Nat} {frames : List (position × Nat)}
    (hframes : s.frames = (p, depth) :: frames) (w : world) :
    Nested N m { s with world := w, frames } := by
  obtain ⟨hstacked, hheight, hroots⟩ := h
  rw [hframes] at hstacked hheight
  cases hstacked with
  | cons hbelow _ => exact ⟨hbelow, Nat.le_of_succ_le hheight, hroots⟩

theorem of_idles (h : Nested N m s) {x : Next world entry position} (hidles : Idles d s x) :
    Nested N m x.state := by
  cases hidles with
  | ended | faulty => exact h
  | unlistable _ hroots =>
    exact (h.of_roots fun root hroot => hroots ▸ List.mem_cons_of_mem _ hroot).of_eq rfl rfl
  | @exhausted _ _ _ w hframes => exact h.of_left hframes w
  | @failed _ _ _ w _ hframes => exact (h.of_left hframes w).of_eq rfl rfl
  | @aborted _ _ _ w fault hframes => exact (h.of_left hframes w).abort fault

/-- Every step keeps the containers inside one another. -/
theorem step (h : Nested N m s) (hl : ∀ n : Int, l.maxDepth = .atMost n → n.toNat = m) :
    Nested N m (Walk.step d l s).state := by
  refine step_elim d s l (fun _ x hstops => ?_) (fun _ e depth s₁ hcomes => ?_)
    fun _ x hidles => h.of_idles hidles
  · cases hstops with
    | left | refused => exact h.closeAll
    | faulty => exact h
    | unlistable _ hroots =>
      exact (h.of_roots fun root hroot => hroots ▸ List.mem_cons_of_mem _ hroot).of_eq rfl rfl
    | ended => exact h.of_roots (List.forall_mem_nil _)
  · obtain ⟨hs₁, rfl, he⟩ := h.of_comes hcomes
    exact hs₁.visit hl he

end Nested

/-- The states that a walk comes to. -/
inductive Reaches (d : Decoder world entry container position) (l : Limits)
    (s : State world entry position) : State world entry position → Prop
  | start : Reaches d l s s
  | step {s' : State world entry position} : Reaches d l s s' → Reaches d l s (step d l s').state

/-- The states that a walk goes through, as long as nothing has ended it. -/
inductive GoesThrough (d : Decoder world entry container position) (l : Limits)
    (s : State world entry position) : State world entry position → Prop
  | start : GoesThrough d l s s
  | continues {s₁ s₂ : State world entry position} :
    GoesThrough d l s s₁ → step d l s₁ = .continues s₂ → GoesThrough d l s s₂
  | found {s₁ s₂ : State world entry position} {o : Occurrence} :
    GoesThrough d l s s₁ → step d l s₁ = .found o s₂ → GoesThrough d l s s₂

/-- At every moment of a walk the containers lie one inside the other. -/
theorem Nested.of_reaches {N : Nesting d} {m : Nat} {s s' : State world entry position}
    (hl : ∀ n : Int, l.maxDepth = .atMost n → n.toNat = m) (h : Nested N m s)
    (hreaches : Reaches d l s s') : Nested N m s' := by
  induction hreaches with
  | start => exact h
  | step _ ih => exact ih.step hl

end Walk

end JndiScan

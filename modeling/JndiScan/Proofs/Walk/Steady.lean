/-
What entries unfold to in more than one world. A walk that leaves something out comes to its entries
in other worlds than a walk that does not, so a tree that an entry unfolds to in one world says
nothing of it. `Is` and `Gives` say it for all worlds of an invariant, which the entries keep; a
container may have an invariant of its own while it is open.
-/
import JndiScan.Proofs.Walk.Nesting

namespace JndiScan.Walk

variable {world entry container position : Type}

/-- In every world of the first invariant the work gives the value, in a world of the second. -/
def Yields (I J : world → Prop) (work : EStateM Trouble world α) (x : α) : Prop :=
  ∀ w, I w → ∃ w', work w = .ok x w' ∧ J w'

/-- In every world of the first invariant the work fails, in a world of the second. -/
def Fails (I J : world → Prop) (work : EStateM Trouble world α) (failure : Failure) : Prop :=
  ∀ w, I w → ∃ w', work w = .error (.failed failure) w' ∧ J w'

mutual

/-- In every world of the invariant the entry turns out to be the tree, and the invariant is
kept. -/
inductive Is (d : Decoder world entry container position) : (world → Prop) → entry → Tree → Prop
  | leaf {I : world → Prop} {e : entry} {o : Occurrence} :
    Yields I I (d.decode e) (.definition o) → Is d I e (.leaf o)
  | other {I : world → Prop} {e : entry} {name : Text} :
    Yields I I (d.decode e) (.unrecognized name) → Is d I e (.other (d.placeOf e))
  | broken {I : world → Prop} {e : entry} {failure : Failure} :
    Fails I I (d.decode e) failure → Is d I e (.broken (d.placeOf e) failure)
  | sealed {I : world → Prop} {e : entry} {kind : EntryKind} {place : Provenance}
      {contents : container} {failure : Failure} :
    Yields I I (d.decode e) (.container kind place contents) →
    Fails I I (d.enter contents) failure →
    Is d I e (.sealed kind place failure)
  | node {I : world → Prop} {e : entry} {kind : EntryKind} {place : Provenance}
      {contents : container} {p : position} {children : Forest} :
    Yields I I (d.decode e) (.container kind place contents) → Yields I I (d.enter contents) p →
    Gives d I I p children → Is d I e (.node kind place children)

/-- In every world of the first invariant the position delivers the forest, and comes to a world of
the second. -/
inductive Gives (d : Decoder world entry container position) :
    (world → Prop) → (world → Prop) → position → Forest → Prop
  | done {I J : world → Prop} {p : position} : Yields I J (d.pull p) none → Gives d I J p .done
  | cut {I J : world → Prop} {p : position} {failure : Failure} :
    Fails I J (d.pull p) failure → Gives d I J p (.cut failure)
  | more {I J K : world → Prop} {p p' : position} {e : entry} {t : Tree} {rest : Forest} :
    Yields I K (d.pull p) (some (e, p')) → Is d K e t → Gives d K J p' rest →
    Gives d I J p (.more t rest)

end

section Pull

variable {d : Decoder world entry container position} {p p' : position} {f : Forest}

/-- What is pulled alike is delivered alike. -/
theorem Delivers.of_pull {w w₁ w' : world} (hpull : d.pull p w = d.pull p' w₁)
    (h : Delivers d w p f w') : Delivers d w₁ p' f w' := by
  cases h with
  | done hp => exact .done (hpull ▸ hp)
  | cut hp => exact .cut (hpull ▸ hp)
  | more hp ht hrest => exact .more (hpull ▸ hp) ht hrest

theorem Gives.of_pull {I I' J : world → Prop}
    (hpull : ∀ w, I w → ∃ w₁, I' w₁ ∧ d.pull p w = d.pull p' w₁) (h : Gives d I' J p' f) :
    Gives d I J p f := by
  have hyields : ∀ {K x}, Yields I' K (d.pull p') x → Yields I K (d.pull p) x := by
    intro K x hx w hw
    obtain ⟨w₁, hw₁, heq⟩ := hpull w hw
    rw [heq]
    exact hx w₁ hw₁
  cases h with
  | done hp => exact .done (hyields hp)
  | cut hp =>
    refine .cut fun w hw => ?_
    obtain ⟨w₁, hw₁, heq⟩ := hpull w hw
    rw [heq]
    exact hp w₁ hw₁
  | more hp ht hrest => exact .more (hyields hp) ht hrest

end Pull

/-! ## Where the entries of a tree lie -/

mutual

/-- Every entry of the tree has as many segments as there are containers around it, counted from a
depth on. -/
def Tree.LiesAt (depth : Nat) : Tree → Prop
  | .leaf o => o.place.depth = depth
  | .other place | .broken place _ | .sealed _ place _ => place.depth = depth
  | .node _ place children => place.depth = depth ∧ children.LiesAt (depth + 1)

/-- The same of the entries that are delivered. -/
def Forest.LiesAt (depth : Nat) : Forest → Prop
  | .done | .cut _ => True
  | .more t rest => t.LiesAt depth ∧ rest.LiesAt depth

end

variable {d : Decoder world entry container position}

mutual

theorem Nesting.liesAt_of_unfolds (N : Nesting d) {w w' : world} {e : entry} {t : Tree}
    (h : Unfolds d w e t w') : t.LiesAt (d.placeOf e).depth := by
  cases h with
  | leaf hd => rw [Tree.LiesAt, N.definition hd]
  | other hd => rw [Tree.LiesAt]
  | broken hd => rw [Tree.LiesAt]
  | sealed hd he => rw [Tree.LiesAt, (N.container hd).1]
  | node hd he hp =>
    obtain ⟨hplace, hcontents⟩ := N.container hd
    have hchildren := N.liesAt_of_delivers hp
    rw [N.enter he, hcontents] at hchildren
    exact ⟨by rw [hplace], hchildren⟩

theorem Nesting.liesAt_of_delivers (N : Nesting d) {w w' : world} {p : position} {f : Forest}
    (h : Delivers d w p f w') : f.LiesAt ((N.ofPosition p).depth + 1) := by
  cases h with
  | done hp => trivial
  | cut hp => trivial
  | more hp ht hrest =>
    obtain ⟨⟨name, converted, hplace⟩, hp'⟩ := N.pull hp
    have hfirst := N.liesAt_of_unfolds ht
    have hothers := N.liesAt_of_delivers hrest
    rw [hplace, Provenance.depth_child] at hfirst
    rw [hp'] at hothers
    exact ⟨hfirst, hothers⟩

end

theorem Nesting.liesAt_of_unfoldsAll (N : Nesting d) {w w' : world} {es : List entry}
    {ts : List Tree} (h : UnfoldsAll d w es ts w') (hes : ∀ e ∈ es, (d.placeOf e).depth = 0) :
    ∀ t ∈ ts, t.LiesAt 0 := by
  induction h with
  | nil => exact fun _ ht => absurd ht List.not_mem_nil
  | @cons w w₁ w' e es t ts ht _ ih =>
    intro u hu
    rcases List.mem_cons.1 hu with rfl | hu
    · have hfirst := N.liesAt_of_unfolds ht
      rwa [hes e (List.mem_cons_self ..)] at hfirst
    · exact ih (fun e he => hes e (List.mem_cons_of_mem _ he)) u hu

end JndiScan.Walk

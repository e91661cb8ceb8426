/-
Dotted names and descriptors of classes and of arrays of them. A descriptor has an opening bracket
for each dimension before it, a dotted name a pair of brackets behind it. Brackets are taken off one
end and put on the other, and what is left is enclosed or taken out and has its separators
exchanged; so each is made of the other as long as the name has no bracket, no semicolon and none
of the separators that it is to get. A name that begins with `L` is no exception: it is not
enclosed, as it does not end in `;`.
-/
import JndiScan.Proofs.ClassName.Spelling

namespace JndiScan.ClassName

variable {k : Nat} {d m n t : Text}

/-! ## Dimensions -/

/-- The name of arrays with `k` dimensions of what `m` names. -/
def arrayName (k : Nat) (m : Text) : Text := m ++ (List.replicate k ("[]" : Text)).flatten

/-- The descriptor of arrays with `k` dimensions of what `d` describes. -/
def arrayDescriptor (k : Nat) (d : Text) : Text := Text.copies k (.ofChar '[') ++ d

theorem arrayName_zero (m : Text) : arrayName 0 m = m := List.append_nil m

theorem arrayName_succ (k : Nat) (m : Text) : arrayName (k + 1) m = arrayName k m ++ "[]" := by
  rw [arrayName, arrayName, List.replicate_succ', List.flatten_append, List.flatten_singleton,
    List.append_assoc]

theorem arrayName_eq_nil_iff : arrayName k m = [] ↔ k = 0 ∧ m = [] := by
  cases k with
  | zero => rw [arrayName_zero, eq_self, true_and]
  | succ k =>
    rw [arrayName_succ, List.append_eq_nil_iff]
    exact iff_of_false (fun h => nomatch h.2) (fun h => nomatch h.1)

theorem arrayDescriptor_zero (d : Text) : arrayDescriptor 0 d = d := rfl

theorem arrayDescriptor_succ (k : Nat) (d : Text) :
    arrayDescriptor (k + 1) d = .ofChar '[' :: arrayDescriptor k d := rfl

theorem getLast?_of_brackets_suffix (h : ("[]" : Text) <:+ t) :
    t.getLast? = some (.ofChar ']') := by
  obtain ⟨before, rfl⟩ := h
  exact List.getLast?_append_of_ne_nil before (List.cons_ne_nil _ _)

theorem not_brackets_suffix_wrap (name : Text) : ¬ ("[]" : Text) <:+ wrap name := by
  intro h
  have hlast := getLast?_of_brackets_suffix h
  rw [wrap, List.getLast?_concat] at hlast
  exact absurd (Option.some.inj hlast) (by decide)

theorem brackets_suffix_replace (old new : CodePoint) (hold : Text.replace "[]" old new = "[]")
    (h : ("[]" : Text) <:+ t) : ("[]" : Text) <:+ t.replace old new := by
  obtain ⟨before, rfl⟩ := h
  rw [Text.replace_append, hold]
  exact List.suffix_append _ _

theorem leadingDims_of_head? (h : d.head? ≠ some (.ofChar '[')) : leadingDims d = (0, d) := by
  cases d with
  | nil => rfl
  | cons c rest => rw [leadingDims, if_neg fun hc => h (congrArg some hc)]

theorem leadingDims_arrayDescriptor (k : Nat) (h : d.head? ≠ some (.ofChar '[')) :
    leadingDims (arrayDescriptor k d) = (k, d) := by
  induction k with
  | zero => exact leadingDims_of_head? h
  | succ k ih => rw [arrayDescriptor_succ, leadingDims, if_pos rfl, ih]

theorem trailingDims_of_not_suffix (h : ¬ ("[]" : Text) <:+ m) :
    trailingDims m.reverse = (0, m.reverse) := by
  rw [← List.reverse_prefix] at h
  generalize m.reverse = back at h ⊢
  rcases back with _ | ⟨c, _ | ⟨e, rest⟩⟩
  · rfl
  · rfl
  · have hpair : ¬ (decide (c = .ofChar ']') && decide (e = .ofChar '[')) = true := by
      rw [Bool.and_eq_true, decide_eq_true_eq, decide_eq_true_eq]
      rintro ⟨rfl, rfl⟩
      exact h ⟨rest, rfl⟩
    rw [trailingDims, if_neg hpair]

theorem trailingDims_arrayName (k : Nat) (h : ¬ ("[]" : Text) <:+ m) :
    trailingDims (arrayName k m).reverse = (k, m.reverse) := by
  induction k with
  | zero =>
    rw [arrayName_zero]
    exact trailingDims_of_not_suffix h
  | succ k ih =>
    have hback : (arrayName (k + 1) m).reverse =
        .ofChar ']' :: .ofChar '[' :: (arrayName k m).reverse := by
      rw [arrayName_succ, List.reverse_append]
      rfl
    have hpair : (decide (CodePoint.ofChar ']' = .ofChar ']') &&
        decide (CodePoint.ofChar '[' = .ofChar '[')) = true := by decide
    rw [hback, trailingDims, if_pos hpair, ih]

/-- Every text is a descriptor with all of its dimensions taken off. -/
theorem exists_arrayDescriptor (t : Text) :
    ∃ k d, t = arrayDescriptor k d ∧ d.head? ≠ some (.ofChar '[') := by
  induction t with
  | nil => exact ⟨0, [], rfl, nofun⟩
  | cons c t ih =>
    by_cases hc : c = .ofChar '['
    · obtain ⟨k, d, rfl, hhead⟩ := ih
      exact ⟨k + 1, d, by rw [hc, arrayDescriptor_succ], hhead⟩
    · exact ⟨0, c :: t, rfl, fun heq => hc (Option.some.inj heq)⟩

/-- Every text is a name with all of its dimensions taken off. -/
theorem exists_arrayName (t : Text) : ∃ k m, t = arrayName k m ∧ ¬ ("[]" : Text) <:+ m := by
  by_cases hend : ("[]" : Text) <:+ t
  · obtain ⟨before, rfl⟩ := hend
    have hshorter : before.length < (before ++ ("[]" : Text)).length := by
      rw [List.length_append]
      exact Nat.lt_add_of_pos_right (by decide)
    obtain ⟨k, m, hbefore, hm⟩ := exists_arrayName before
    exact ⟨k + 1, m, by rw [arrayName_succ, ← hbefore], hm⟩
  · exact ⟨0, t, (arrayName_zero t).symm, hend⟩
  termination_by t.length

/-! ## From descriptors to names and back -/

/-- The name that is described is the one that is enclosed, or the descriptor itself. -/
theorem dotted?_arrayDescriptor (k : Nat) (hhead : d.head? ≠ some (.ofChar '['))
    (hne : arrayDescriptor k d ≠ []) :
    dotted? (arrayDescriptor k d) =
      some (arrayName k ((unwrap d).replace (.ofChar '/') (.ofChar '.'))) := by
  rw [dotted?, if_neg (List.isEmpty_iff.not.2 hne), leadingDims_arrayDescriptor k hhead]
  rfl

theorem dotted?_arrayDescriptor_wrap (k : Nat) (n : Text) :
    dotted? (arrayDescriptor k (wrap n)) =
      some (arrayName k (n.replace (.ofChar '/') (.ofChar '.'))) := by
  have hhead : (wrap n).head? ≠ some (.ofChar '[') := by
    rw [wrap, List.cons_append, List.head?_cons]
    decide
  have hne : arrayDescriptor k (wrap n) ≠ [] :=
    List.append_ne_nil_of_right_ne_nil _ (List.cons_ne_nil _ _)
  rw [dotted?_arrayDescriptor k hhead hne, unwrap_wrap]

/-- A name that is enclosed already is not described again. -/
theorem descriptor?_arrayName_wrap (k : Nat) (name : Text) :
    descriptor? (arrayName k (wrap name)) = some (arrayName k (wrap name)) := by
  have hne : arrayName k (wrap name) ≠ [] :=
    List.append_ne_nil_of_left_ne_nil (List.cons_ne_nil _ _) _
  rw [descriptor?, if_neg (List.isEmpty_iff.not.2 hne),
    trailingDims_arrayName k (not_brackets_suffix_wrap name)]
  dsimp only
  rw [List.reverse_reverse, if_pos (isEnclosed_iff.2 ⟨name, rfl⟩)]

theorem descriptor?_arrayName (k : Nat) (hend : ¬ ("[]" : Text) <:+ m)
    (hwrap : ∀ name, m ≠ wrap name) (hne : arrayName k m ≠ []) :
    descriptor? (arrayName k m) =
      some (arrayDescriptor k (wrap (m.replace (.ofChar '.') (.ofChar '/')))) := by
  have hbare : ¬ (m.startsWith "L" && m.endsWith ";") = true := fun henclosed => by
    obtain ⟨name, hname⟩ := isEnclosed_iff.1 henclosed
    exact hwrap name hname
  rw [descriptor?, if_neg (List.isEmpty_iff.not.2 hne), trailingDims_arrayName k hend]
  dsimp only
  rw [List.reverse_reverse, if_neg hbare, arrayDescriptor, wrap, List.append_assoc,
    List.append_assoc]
  rfl

/-- The descriptor of a class is made of itself, or of a name that is neither of arrays nor
enclosed. -/
theorem eq_of_descriptor?_eq_wrap (h : descriptor? t = some (wrap n)) :
    t = wrap n ∨ (¬ ("[]" : Text) <:+ t ∧ (∀ name, t ≠ wrap name) ∧
      t.replace (.ofChar '.') (.ofChar '/') = n) := by
  obtain ⟨k, m, rfl, hend⟩ := exists_arrayName t
  by_cases hwrap : ∃ name, m = wrap name
  · obtain ⟨name, rfl⟩ := hwrap
    rw [descriptor?_arrayName_wrap] at h
    exact .inl (Option.some.inj h)
  · have hwrap : ∀ name, m ≠ wrap name := not_exists.1 hwrap
    have hne : arrayName k m ≠ [] := fun hnil => by
      rw [hnil] at h
      cases h
    rw [descriptor?_arrayName k hend hwrap hne] at h
    have h := Option.some.inj h
    cases k with
    | zero =>
      rw [arrayDescriptor_zero] at h
      rw [arrayName_zero]
      exact .inr ⟨hend, hwrap, wrap_injective h⟩
    | succ k =>
      rw [arrayDescriptor_succ] at h
      exact absurd (List.cons.inj h).1 (by decide)

theorem not_brackets_suffix_of_descriptor? (h : descriptor? t = some (wrap n)) :
    ¬ ("[]" : Text) <:+ t := by
  rcases eq_of_descriptor?_eq_wrap h with rfl | ⟨hend, -, -⟩
  · exact not_brackets_suffix_wrap n
  · exact hend

/-! ## Names without marks -/

/-- A name in which nothing is taken for a mark of arrays or descriptors, nor for the separator
that it is to get. -/
structure Unmarked (separator : CodePoint) (t : Text) : Prop where
  ne_nil : t ≠ []
  noSeparator : separator ∉ t
  noOpening : .ofChar '[' ∉ t
  noClosing : .ofChar ']' ∉ t
  noSemicolon : .ofChar ';' ∉ t

theorem unmarked_iff {separator : CodePoint} : Unmarked separator t ↔
    t ≠ [] ∧ (t.all fun c =>
      c != separator && c != .ofChar '[' && c != .ofChar ']' && c != .ofChar ';') = true := by
  simp only [List.all_eq_true, Bool.and_eq_true, bne_iff_ne, and_assoc]
  constructor
  · rintro ⟨hnil, hseparator, hopening, hclosing, hsemicolon⟩
    exact ⟨hnil, fun c hc => ⟨fun heq => hseparator (heq ▸ hc), fun heq => hopening (heq ▸ hc),
      fun heq => hclosing (heq ▸ hc), fun heq => hsemicolon (heq ▸ hc)⟩⟩
  · rintro ⟨hnil, hall⟩
    exact ⟨hnil, fun hc => (hall _ hc).1 rfl, fun hc => (hall _ hc).2.1 rfl,
      fun hc => (hall _ hc).2.2.1 rfl, fun hc => (hall _ hc).2.2.2 rfl⟩

instance (separator : CodePoint) : DecidablePred (Unmarked separator) :=
  fun _ => decidable_of_iff _ unmarked_iff.symm

theorem Unmarked.not_brackets_suffix {separator : CodePoint} (h : Unmarked separator t) :
    ¬ ("[]" : Text) <:+ t := fun hend =>
  h.noClosing (List.mem_of_getLast? (getLast?_of_brackets_suffix hend))

theorem Unmarked.ne_wrap {separator : CodePoint} (h : Unmarked separator t) (name : Text) :
    t ≠ wrap name :=
  ne_wrap_of_noSemicolon h.noSemicolon name

/-- A name without slashes comes back from the descriptor that is made of it. -/
theorem Unmarked.descriptor?_bind_dotted? (h : Unmarked (.ofChar '/') m) (k : Nat) :
    (descriptor? (arrayName k m)).bind dotted? = some (arrayName k m) := by
  rw [descriptor?_arrayName k h.not_brackets_suffix h.ne_wrap
    (List.append_ne_nil_of_left_ne_nil h.ne_nil _), Option.bind_some, dotted?_arrayDescriptor_wrap,
    Text.replace_replace h.noSeparator]

/-! ## Names that their descriptors tell -/

/-- A name that is told by the descriptor of its dotted form. -/
structure Describable (n : Text) : Prop where
  ne_nil : n ≠ []
  noDot : .ofChar '.' ∉ n
  notArray : n.head? ≠ some (.ofChar '[')
  notArrayName : ¬ ("[]" : Text) <:+ n
  ne_wrap : ∀ name, n ≠ wrap name

theorem Unmarked.describable (h : Unmarked (.ofChar '.') n) : Describable n where
  ne_nil := h.ne_nil
  noDot := h.noSeparator
  notArray := fun hhead => h.noOpening (List.mem_of_head? hhead)
  notArrayName := h.not_brackets_suffix
  ne_wrap := h.ne_wrap

theorem wrap_slashes (name : Text) :
    (wrap name).replace (.ofChar '.') (.ofChar '/') =
      wrap (name.replace (.ofChar '.') (.ofChar '/')) := by
  rw [wrap, wrap, Text.replace_append]
  rfl

theorem Describable.dotted?_eq (h : Describable n) :
    dotted? n = some (n.replace (.ofChar '/') (.ofChar '.')) := by
  have hdotted := dotted?_arrayDescriptor 0 h.notArray h.ne_nil
  rwa [arrayDescriptor_zero, arrayName_zero, unwrap_of_ne_wrap h.ne_wrap] at hdotted

/-- What has the name with dots is described by the name itself. -/
theorem Describable.descriptor?_arrayName (h : Describable n) (k : Nat) :
    descriptor? (arrayName k (n.replace (.ofChar '/') (.ofChar '.'))) =
      some (arrayDescriptor k (wrap n)) := by
  have hback : (n.replace (.ofChar '/') (.ofChar '.')).replace (.ofChar '.') (.ofChar '/') = n :=
    Text.replace_replace h.noDot
  -- with dots the name is neither of arrays nor enclosed, or it would be so with slashes again
  have hend : ¬ ("[]" : Text) <:+ n.replace (.ofChar '/') (.ofChar '.') := fun hend => by
    have hend := brackets_suffix_replace (.ofChar '.') (.ofChar '/') (by decide) hend
    rw [hback] at hend
    exact h.notArrayName hend
  have hwrap : ∀ name, n.replace (.ofChar '/') (.ofChar '.') ≠ wrap name := fun name hname => by
    rw [hname, wrap_slashes] at hback
    exact h.ne_wrap _ hback.symm
  have hne : n.replace (.ofChar '/') (.ofChar '.') ≠ [] := mt Text.replace_eq_nil_iff.1 h.ne_nil
  rw [ClassName.descriptor?_arrayName k hend hwrap (List.append_ne_nil_of_left_ne_nil hne _), hback]

/-- A descriptor is longer than the name that is taken out of it, so it tells no enclosed name. -/
theorem describable_of_descriptor?_unwrap (hne : n ≠ []) (hhead : n.head? ≠ some (.ofChar '['))
    (h : descriptor? ((unwrap n).replace (.ofChar '/') (.ofChar '.')) = some (wrap n)) :
    Describable n := by
  have hsublist := unwrap_sublist n
  rcases eq_of_descriptor?_eq_wrap h with heq | ⟨hend, -, hslashes⟩
  · have hlength := congrArg List.length heq
    rw [Text.length_replace, wrap, List.length_append, List.length_cons] at hlength
    have hshorter := hsublist.length_le
    omega
  · have hlength := congrArg List.length hslashes
    rw [Text.length_replace, Text.length_replace] at hlength
    have hwhole : unwrap n = n := hsublist.eq_of_length hlength
    rw [hwhole] at hend hslashes
    refine ⟨hne, ?_, hhead, fun hbrackets => hend ?_, fun name hname => ?_⟩
    · rw [← hslashes]
      exact Text.notMem_replace (by decide)
    · exact brackets_suffix_replace (.ofChar '/') (.ofChar '.') (by decide) hbrackets
    · rw [hname, unwrap_wrap] at hwhole
      exact wrap_ne_self name hwhole.symm

end JndiScan.ClassName

/-
Blanks at the ends of texts. A text is trimmed when it neither begins nor ends with a blank.
Trimming makes a text so and changes it in no other way: a text that is trimmed already is left
alone, and one with blanks around it becomes what stands between them.
-/
import JndiScan.Text.Blank
import Mathlib.Data.List.DropRight

namespace JndiScan.Text

variable {t before after : Text}

/-- A text without blanks at its ends. -/
structure Trimmed (t : Text) : Prop where
  first : ∀ c ∈ t.head?, isBlank c = false
  last : ∀ c ∈ t.getLast?, isBlank c = false

theorem trim_eq (t : Text) : t.trim = (t.dropWhile isBlank).rdropWhile isBlank := rfl

theorem trim_isInfix (t : Text) : t.trim <:+: t :=
  (List.rdropWhile_prefix isBlank _).isInfix.trans (List.dropWhile_suffix isBlank).isInfix

theorem Trimmed.dropWhile_eq (h : t.Trimmed) : t.dropWhile isBlank = t := by
  cases t with
  | nil => rfl
  | cons c t => exact List.dropWhile_cons_of_neg (by simp [h.first c rfl])

theorem Trimmed.rdropWhile_eq (h : t.Trimmed) : t.rdropWhile isBlank = t := by
  refine List.rdropWhile_eq_self_iff.2 fun hnil => ?_
  simp [h.last _ (List.getLast?_eq_some_getLast hnil)]

theorem trim_of_trimmed (h : t.Trimmed) : t.trim = t := by
  rw [trim_eq, h.dropWhile_eq, h.rdropWhile_eq]

theorem trimmed_trim (t : Text) : t.trim.Trimmed := by
  refine ⟨fun c hc => ?_, fun c hc => ?_⟩
  · -- what is left begins as the text does behind its first blanks
    obtain ⟨rest, hrest⟩ := List.rdropWhile_prefix isBlank (t.dropWhile isBlank)
    have hhead : (t.dropWhile isBlank).head? = some c := by
      rw [← hrest, List.head?_append, ← trim_eq, Option.mem_def.1 hc, Option.some_or]
    have hnot := List.head?_dropWhile_not isBlank t
    rw [hhead] at hnot
    exact hnot
  · obtain ⟨hnil, rfl⟩ := List.mem_getLast?_eq_getLast hc
    exact Bool.eq_false_iff.2 (List.rdropWhile_last_not isBlank _ hnil)

theorem trim_eq_self_iff : t.trim = t ↔ t.Trimmed :=
  ⟨fun h => h ▸ trimmed_trim t, trim_of_trimmed⟩

instance : DecidablePred Trimmed := fun _ => decidable_of_iff _ trim_eq_self_iff

/-- Blanks around a text are what trimming takes away. -/
theorem trim_between (h : t.Trimmed) (hbefore : ∀ c ∈ before, isBlank c = true)
    (hafter : ∀ c ∈ after, isBlank c = true) : (before ++ t ++ after).trim = t := by
  have hdrop : (before ++ t ++ after).dropWhile isBlank = (t ++ after).dropWhile isBlank := by
    rw [List.append_assoc, List.dropWhile_append_of_pos hbefore]
  have hrdrop : (t ++ after).rdropWhile isBlank = t := by
    have hreverse : ∀ c ∈ after.reverse, isBlank c = true := fun c hc =>
      hafter c (List.mem_reverse.1 hc)
    rw [List.rdropWhile, List.reverse_append, List.dropWhile_append_of_pos hreverse,
      ← List.rdropWhile, h.rdropWhile_eq]
  rw [trim_eq, hdrop]
  cases t with
  | nil =>
    rw [List.nil_append, List.dropWhile_eq_nil_iff.2 hafter]
    rfl
  | cons c t =>
    rw [List.cons_append, List.dropWhile_cons_of_neg (by simp [h.first c rfl]), ← List.cons_append,
      hrdrop]

theorem trimmed_of_noBlank (h : ∀ c ∈ t, isBlank c = false) : t.Trimmed :=
  ⟨fun c hc => h c (List.mem_of_head? hc), fun c hc => h c (List.mem_of_getLast? hc)⟩

end JndiScan.Text

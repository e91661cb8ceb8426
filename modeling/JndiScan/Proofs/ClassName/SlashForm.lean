/-
Slash forms of class names. Every step towards the slash form takes something away or replaces
dots, so a name is its own slash form exactly when no step has anything to do: it has no dot and no
blank at its ends, and is not enclosed in `L` and `;`. The steps are made once each. What stands
inside `L` and `;` or before `.class` is not trimmed again and may be enclosed again, so the slash
form of a name is not always its own.
-/
import JndiScan.ClassName
import JndiScan.Proofs.Text.Blank

namespace JndiScan

namespace Text

variable {t : Text} {old new : CodePoint}

theorem length_replace : (t.replace old new).length = t.length := List.length_map _

theorem replace_eq_nil_iff : t.replace old new = [] ↔ t = [] := List.map_eq_nil_iff

theorem notMem_replace (h : new ≠ old) : old ∉ t.replace old new := by
  rw [replace, List.mem_map]
  rintro ⟨c, -, heq⟩
  split at heq
  · exact h heq
  · next hne => exact hne heq

end Text

namespace ClassName

variable {t : Text}

/-! ## Enclosed names -/

/-- The name between `L` and `;`. -/
def wrap (name : Text) : Text := .ofChar 'L' :: name ++ [.ofChar ';']

theorem trimmed_wrap (name : Text) : (wrap name).Trimmed := by
  refine ⟨fun c hc => ?_, fun c hc => ?_⟩
  · obtain rfl : CodePoint.ofChar 'L' = c := Option.some.inj hc
    decide
  · rw [wrap, List.getLast?_concat] at hc
    obtain rfl : CodePoint.ofChar ';' = c := Option.some.inj hc
    decide

/-- A name that begins with `L` and ends in `;` has something between the two, as they differ. -/
theorem isEnclosed_iff :
    (t.startsWith "L" && t.endsWith ";") = true ↔ ∃ name, t = wrap name := by
  rw [Bool.and_eq_true, Text.startsWith, Text.endsWith, List.isPrefixOf_iff_prefix,
    List.isSuffixOf_iff_suffix]
  constructor
  · rintro ⟨⟨rest, rfl⟩, hend⟩
    rcases List.suffix_cons_iff.1 hend with heq | ⟨name, hname⟩
    · exact absurd (List.cons.inj heq).1 (by decide)
    · have hrest : rest = name ++ [.ofChar ';'] := hname.symm
      exact ⟨name, by rw [hrest]; rfl⟩
  · rintro ⟨name, rfl⟩
    exact ⟨⟨name ++ [.ofChar ';'], rfl⟩, ⟨.ofChar 'L' :: name, rfl⟩⟩

theorem unwrap_wrap (name : Text) : unwrap (wrap name) = name := by
  rw [unwrap, if_pos (isEnclosed_iff.2 ⟨name, rfl⟩), wrap, List.cons_append, List.drop_succ_cons,
    List.drop_zero, List.dropLast_concat]

theorem unwrap_of_ne_wrap (h : ∀ name, t ≠ wrap name) : unwrap t = t := by
  rw [unwrap, if_neg fun hboth => ?_]
  obtain ⟨name, hname⟩ := isEnclosed_iff.1 hboth
  exact h name hname

theorem wrap_injective : Function.Injective wrap := fun name name' h => by
  rw [← unwrap_wrap name, h, unwrap_wrap]

theorem unwrap_eq_nil_iff : unwrap t = [] ↔ t = [] ∨ t = wrap [] := by
  by_cases h : ∃ name, t = wrap name
  · obtain ⟨name, rfl⟩ := h
    have hne : wrap name ≠ [] := List.cons_ne_nil _ _
    rw [unwrap_wrap, wrap_injective.eq_iff, or_iff_right hne]
  · rw [unwrap_of_ne_wrap (not_exists.1 h), or_iff_left fun hwrap => h ⟨[], hwrap⟩]

theorem wrap_ne_self (name : Text) : wrap name ≠ name := by
  intro h
  have hlength := congrArg List.length h
  rw [wrap, List.length_append, List.length_cons, List.length_singleton] at hlength
  omega

/-! ## The other steps -/

theorem dropFileEnding_of_noDot {name : Text} (h : .ofChar '.' ∉ name) :
    dropFileEnding name = name := by
  have hend : ¬ name.endsWith ".class" = true := by
    intro hsuffix
    have hsuffix : (".class" : Text) <:+ name := List.isSuffixOf_iff_suffix.1 hsuffix
    exact h (hsuffix.subset (by decide))
  rw [dropFileEnding, if_neg hend]

theorem replace_of_noDot {name : Text} (h : .ofChar '.' ∉ name) :
    name.replace (.ofChar '.') (.ofChar '/') = name := by
  have hkeep : ∀ c ∈ name, (if c = .ofChar '.' then CodePoint.ofChar '/' else c) = id c := by
    intro c hc
    have hne : c ≠ .ofChar '.' := fun heq => h (heq ▸ hc)
    exact if_neg hne
  rw [Text.replace, List.map_congr_left hkeep, List.map_id]

theorem unwrap_sublist (t : Text) : (unwrap t).Sublist t := by
  rw [unwrap]
  split
  · exact (List.dropLast_sublist _).trans (List.drop_sublist 1 t)
  · exact .refl t

theorem dropFileEnding_sublist (t : Text) : (dropFileEnding t).Sublist t := by
  rw [dropFileEnding]
  split
  · exact List.take_sublist _ t
  · exact .refl t

/-- The slash form of a name has no dots. -/
theorem dot_not_mem_slashForm (t : Text) : .ofChar '.' ∉ slashForm t :=
  Text.notMem_replace (by decide)

/-- The slash form of an enclosed name is the name. -/
theorem slashForm_wrap {name : Text} (h : .ofChar '.' ∉ name) : slashForm (wrap name) = name := by
  rw [slashForm, Text.trim_of_trimmed (trimmed_wrap name), unwrap_wrap, dropFileEnding_of_noDot h,
    replace_of_noDot h]

/-! ## Names in slash form -/

/-- A name that is its own slash form. -/
def IsSlashForm (t : Text) : Prop := slashForm t = t

instance : DecidablePred IsSlashForm := fun t => inferInstanceAs (Decidable (slashForm t = t))

theorem length_slashForm (t : Text) :
    (slashForm t).length = (dropFileEnding (unwrap t.trim)).length := by
  rw [slashForm, Text.length_replace]

theorem length_slashForm_le (t : Text) : (slashForm t).length ≤ t.length := by
  rw [length_slashForm]
  exact (((dropFileEnding_sublist _).trans (unwrap_sublist _)).trans
    (Text.trim_isInfix t).sublist).length_le

/-- A name is its own slash form when no step changes it. -/
theorem isSlashForm_iff :
    IsSlashForm t ↔ t.Trimmed ∧ .ofChar '.' ∉ t ∧ ∀ name, t ≠ wrap name := by
  constructor
  · intro h
    have hdot : .ofChar '.' ∉ t := h ▸ dot_not_mem_slashForm t
    -- every step gives part of what it is given, and nothing is missing at the end
    have hlength : t.length ≤ (dropFileEnding (unwrap t.trim)).length := by
      rw [← length_slashForm, h]
    have hending := dropFileEnding_sublist (unwrap t.trim)
    have hunwrap := unwrap_sublist t.trim
    have hcut := (hending.trans hunwrap).length_le
    have htrim : t.trim = t :=
      (Text.trim_isInfix t).sublist.eq_of_length_le (hlength.trans hcut)
    rw [htrim] at hlength hending hunwrap
    have hwhole : unwrap t = t := hunwrap.eq_of_length_le (hlength.trans hending.length_le)
    refine ⟨Text.trim_eq_self_iff.1 htrim, hdot, ?_⟩
    rintro name rfl
    rw [unwrap_wrap] at hwhole
    exact wrap_ne_self name hwhole.symm
  · rintro ⟨htrimmed, hdot, hwrap⟩
    rw [IsSlashForm, slashForm, Text.trim_of_trimmed htrimmed, unwrap_of_ne_wrap hwrap,
      dropFileEnding_of_noDot hdot, replace_of_noDot hdot]

theorem ne_wrap_of_noSemicolon (h : .ofChar ';' ∉ t) (name : Text) : t ≠ wrap name := by
  rintro rfl
  exact h (List.mem_append_right _ (List.mem_singleton_self _))

/-- Of a name without dots and semicolons only the blanks at its ends are taken away. -/
theorem slashForm_eq_trim (hdot : .ofChar '.' ∉ t) (hend : .ofChar ';' ∉ t) :
    slashForm t = t.trim := by
  have hpart : t.trim ⊆ t := (Text.trim_isInfix t).subset
  have hdot' : .ofChar '.' ∉ t.trim := fun hc => hdot (hpart hc)
  have hend' : .ofChar ';' ∉ t.trim := fun hc => hend (hpart hc)
  rw [slashForm, unwrap_of_ne_wrap (ne_wrap_of_noSemicolon hend'), dropFileEnding_of_noDot hdot',
    replace_of_noDot hdot']

/-- So its slash form is its own. -/
theorem isSlashForm_slashForm (hdot : .ofChar '.' ∉ t) (hend : .ofChar ';' ∉ t) :
    IsSlashForm (slashForm t) := by
  refine isSlashForm_iff.2 ⟨?_, dot_not_mem_slashForm t, ?_⟩
  · rw [slashForm_eq_trim hdot hend]
    exact Text.trimmed_trim t
  · refine ne_wrap_of_noSemicolon fun hc => hend ?_
    rw [slashForm_eq_trim hdot hend] at hc
    exact (Text.trim_isInfix t).subset hc

end ClassName

end JndiScan

/-
The classes that a signature names, looked up by these names. The check of a rules entry asks for
names that are not empty, but a lookup compares slash forms, and a key of a pool is brought into
slash form once more. So a class whose name is that of the signature is found exactly when something
is left of the name in slash form, and nothing more is taken away the second time.
-/
import JndiScan.Proofs.Check.Verdict
import JndiScan.Proofs.Pool.Lookup
import JndiScan.Proofs.Signature.Fields

namespace JndiScan

namespace ClassName

variable {p t : Text}

/-! ## Names of which nothing is left -/

theorem dropFileEnding_eq_nil_iff : dropFileEnding t = [] ↔ t = [] ∨ t = ".class" := by
  by_cases hend : ∃ name : Text, name ++ ".class" = t
  · obtain ⟨name, rfl⟩ := hend
    have hnil : name ++ (".class" : Text) ≠ [] := fun h => by
      cases (List.append_eq_nil_iff.1 h).2
    rw [dropFileEnding_fileName, or_iff_right hnil, List.append_left_eq_self]
  · have hwhole : dropFileEnding t = t :=
      if_neg fun h => hend (List.isSuffixOf_iff_suffix.1 h)
    rw [hwhole, or_iff_left]
    rintro rfl
    exact hend ⟨[], rfl⟩

theorem slashForm_eq_nil_iff : slashForm t = [] ↔
    t.trim = [] ∨ t.trim = ".class" ∨ t.trim = wrap [] ∨ t.trim = wrap ".class" := by
  rw [← List.length_eq_zero_iff, length_slashForm, List.length_eq_zero_iff,
    dropFileEnding_eq_nil_iff, ← or_assoc]
  by_cases h : ∃ name, t.trim = wrap name
  · obtain ⟨name, hname⟩ := h
    have hnot : ¬ (wrap name = [] ∨ wrap name = ".class") := by
      rintro (h | h)
      · cases h
      · exact absurd (List.cons.inj h).1 (by decide)
    rw [hname, unwrap_wrap, or_iff_right hnot, wrap_injective.eq_iff, wrap_injective.eq_iff]
  · rw [unwrap_of_ne_wrap (not_exists.1 h)]
    refine (or_iff_left ?_).symm
    rintro (hwrap | hwrap)
    · exact h ⟨_, hwrap⟩
    · exact h ⟨_, hwrap⟩

/-! ## Names that find their classes -/

/-- A name that finds the classes of the name. -/
structure FindsItself (p : Text) : Prop where
  ne_nil : slashForm p ≠ []
  isSlashForm : IsSlashForm (slashForm p)

/-- A slash form is no longer than its name, so it has no end that is longer than itself. -/
theorem hasSuffix_slashForm_iff : hasSuffix (slashForm p) p = true ↔ FindsItself p := by
  rw [hasSuffix_iff]
  constructor
  · rintro ⟨hnil, hsuffix⟩
    refine ⟨hnil, ?_⟩
    rw [segments, segments, Text.splitOn_isSuffix_iff] at hsuffix
    rcases hsuffix with hform | hlonger
    · exact hform
    · have hle := hlonger.length_le
      rw [List.length_cons] at hle
      have := length_slashForm_le (slashForm p)
      omega
  · rintro ⟨hnil, hform⟩
    rw [show slashForm (slashForm p) = slashForm p from hform]
    exact ⟨hnil, List.suffix_refl _⟩

/-- A name without dots and semicolons, and not only of blanks, finds itself. -/
theorem findsItself_of_noDot (hdot : .ofChar '.' ∉ p) (hend : .ofChar ';' ∉ p)
    (hblank : p.trim ≠ []) : FindsItself p := by
  refine ⟨?_, isSlashForm_slashForm hdot hend⟩
  rwa [slashForm_eq_trim hdot hend]

end ClassName

namespace Pool

open ClassName (slashForm hasSuffix wrap FindsItself)

variable {os : List Occurrence} {o : Occurrence} {p : Text} {s : Signature}

theorem exists_mem_withSuffix_iff (ho : o ∈ os) (hname : o.definition.name = p) :
    (∃ e ∈ (ofOccurrences os).withSuffix p, EntryUnder os (keyOf o) e) ↔ FindsItself p := by
  have hkey : keyOf o = slashForm p := by rw [keyOf, hname]
  have hlists := listsKeys_withSuffix os p
  rw [← ClassName.hasSuffix_slashForm_iff, ← hkey]
  constructor
  · rintro ⟨e, he, hunder⟩
    obtain ⟨k, ⟨-, hsuffix⟩, hunder'⟩ := hlists.exists_key he
    rwa [← hunder.key_eq, hunder'.key_eq]
  · intro hsuffix
    exact hlists.exists_item ⟨List.mem_map_of_mem ho, hsuffix⟩

/-- A class without members. -/
def classNamed (name : Text) : Occurrence :=
  { definition := { name, superName := none }, place := { root := "/x.jar" } }

/-- A class whose name leads in two steps to the slash form of a name. -/
def enclosing (p : Text) : Occurrence := classNamed (wrap (wrap (slashForm p)))

theorem slashForm_keyOf_enclosing (p : Text) : slashForm (keyOf (enclosing p)) = slashForm p := by
  have hdot := ClassName.dot_not_mem_slashForm p
  have hwrap : .ofChar '.' ∉ wrap (slashForm p) := by
    rw [wrap, List.mem_append, List.mem_cons, not_or, not_or]
    exact ⟨⟨by decide, hdot⟩, by decide⟩
  have hkey : keyOf (enclosing p) = wrap (slashForm p) := ClassName.slashForm_wrap hwrap
  rw [hkey, ClassName.slashForm_wrap hdot]

/-- Every scan ends without the class only when nothing is left of its name. -/
theorem forall_notPresent_iff :
    (∀ os, ((ofOccurrences os).check s).verdict = .notPresent) ↔
      slashForm s.presenceClass = [] := by
  simp only [verdict_eq_notPresent_iff]
  constructor
  · intro h
    by_contra hnil
    refine h [enclosing s.presenceClass] (keyOf (enclosing s.presenceClass))
      ⟨List.mem_singleton_self _, ?_⟩
    rw [ClassName.hasSuffix_iff, slashForm_keyOf_enclosing]
    exact ⟨hnil, List.suffix_refl _⟩
  · rintro hnil os k ⟨-, hsuffix⟩
    exact (ClassName.hasSuffix_iff.1 hsuffix).1 hnil

end Pool

namespace Signature

open ClassName (slashForm wrap FindsItself)
open Pool (classNamed)

variable {v : Value} {s : Signature}

/-! ## Accepted entries -/

theorem classes_ne_nil (h : ofEntry v = .ok s) : s.presenceClass ≠ [] ∧ s.vulnerableClass ≠ [] := by
  obtain ⟨entries, -, fields, -, references, -, htells⟩ := ofEntry_eq_ok_iff.1 h
  exact ⟨((classField_eq_ok_iff (by decide)).1 htells.presenceClass).2,
    ((classField_eq_ok_iff (by decide)).1 htells.vulnerableClass).2⟩

/-- The names of classes in an accepted entry are not empty. A class of such a name is found by it
in every pool exactly when the slash form of the name is not empty and is its own slash form. That
holds for names without dots and semicolons that are not only blanks, and the slash form is empty
for four names, blanks apart: nothing and the ending of class files, enclosed or not. The class
whose presence matters is missing from every scan exactly when the slash form of its name is empty.
-/
theorem found_of_accepted (h : ofEntry v = .ok s) :
    (∀ p ∈ [s.presenceClass, s.vulnerableClass], p ≠ [] ∧
      (∀ os, ∀ o ∈ os, o.definition.name = p →
        ((∃ e ∈ (Pool.ofOccurrences os).withSuffix p, Pool.EntryUnder os (Pool.keyOf o) e) ↔
          FindsItself p)) ∧
      (.ofChar '.' ∉ p → .ofChar ';' ∉ p → p.trim ≠ [] → FindsItself p) ∧
      (slashForm p = [] ↔
        p.trim = [] ∨ p.trim = ".class" ∨ p.trim = wrap [] ∨ p.trim = wrap ".class")) ∧
    ((∀ os, ((Pool.ofOccurrences os).check s).verdict = .notPresent) ↔
      slashForm s.presenceClass = []) := by
  refine ⟨fun p hp => ⟨?_, fun os o => Pool.exists_mem_withSuffix_iff,
    ClassName.findsItself_of_noDot, ClassName.slashForm_eq_nil_iff⟩, Pool.forall_notPresent_iff⟩
  obtain ⟨hpresence, hvulnerable⟩ := classes_ne_nil h
  simp only [List.mem_cons, List.not_mem_nil, or_false] at hp
  rcases hp with rfl | rfl
  · exact hpresence
  · exact hvulnerable

/-- An entry that gives the class whose presence matters, and nothing else. -/
def presenceEntry (p : Text) : Value := .mapping [(.text "presence_class", .text p)]

theorem ofEntry_presenceEntry {p : Text} (h : p ≠ []) :
    ofEntry (presenceEntry p) = .ok { builtIn with presenceClass := p } := by
  cases p with
  | nil => exact absurd rfl h
  | cons c p => rfl

/-- The class whose presence matters may be given as a descriptor. -/
theorem found_of_accepted_descriptor :
    let s := { builtIn with presenceClass := "Lorg.example.Lookup;" }
    let os := [classNamed "Lorg.example.Lookup;"]
    ofEntry (presenceEntry "Lorg.example.Lookup;") = .ok s ∧
      (∃ e ∈ (Pool.ofOccurrences os).withSuffix s.presenceClass,
        Pool.EntryUnder os "org/example/Lookup" e) ∧
      ¬ ∀ os, ((Pool.ofOccurrences os).check s).verdict = .notPresent := by
  intro s os
  have hentry : ofEntry (presenceEntry "Lorg.example.Lookup;") = .ok s :=
    ofEntry_presenceEntry (by decide)
  obtain ⟨hclasses, hnever⟩ := found_of_accepted hentry
  obtain ⟨-, hfound, -, -⟩ := hclasses s.presenceClass (List.mem_cons_self ..)
  refine ⟨hentry, (hfound os _ (List.mem_singleton_self _) rfl).2 ⟨?_, ?_⟩, fun h => ?_⟩
  · decide
  · decide
  · exact absurd (hnever.1 h) (by decide)

/-- The name may also be a blank. It is accepted, but the class of that name is not found. -/
theorem not_found_blank :
    let s := { builtIn with presenceClass := " " }
    let pool := Pool.ofOccurrences [classNamed " "]
    ofEntry (presenceEntry " ") = .ok s ∧ pool.withSuffix s.presenceClass = [] ∧
      (pool.check s).verdict = .notPresent := by
  intro s pool
  have hnil : slashForm s.presenceClass = [] := by decide
  have hnone : pool.withSuffix s.presenceClass = [] := by
    rw [(Pool.listsKeys_withSuffix _ _).eq_nil_iff]
    rintro k ⟨-, hsuffix⟩
    exact (ClassName.hasSuffix_iff.1 hsuffix).1 hnil
  exact ⟨ofEntry_presenceEntry (by decide), hnone, Pool.forall_notPresent_iff.2 hnil _⟩

end Signature

end JndiScan

/-
The spellings of a class name. A name in slash form is also written with dots, as a descriptor or
as the name of its file, and blanks may stand around each of these. All of them have that name as
their slash form, as long as the name has no dot and no semicolon of its own and, written with
dots, is not taken for the name of a file.
-/
import JndiScan.Proofs.ClassName

namespace JndiScan

namespace Text

variable {t : Text} {old new : CodePoint}

/-! ## Code points in place of others -/

theorem replace_replace (h : new ∉ t) :
    (t.replace old new).replace new old = t := by
  have hback : ∀ c ∈ t, (if (if c = old then new else c) = new then old else
      if c = old then new else c) = id c := by
    intro c hc
    have hne : c ≠ new := fun heq => h (heq ▸ hc)
    by_cases hold : c = old
    · simp [hold]
    · simp [hold, hne]
  rw [replace, replace, List.map_map]
  exact (List.map_congr_left hback).trans (List.map_id t)

theorem replace_append (t u : Text) (old new : CodePoint) :
    replace (t ++ u) old new = t.replace old new ++ u.replace old new :=
  List.map_append

theorem mem_replace {c : CodePoint} (h : c ∈ t.replace old new) : c = new ∨ c ∈ t := by
  obtain ⟨d, hd, rfl⟩ := List.mem_map.1 h
  split
  · exact .inl rfl
  · exact .inr hd

theorem trimmed_replace (hnew : isBlank new = false) (h : t.Trimmed) :
    (t.replace old new).Trimmed := by
  have hone : ∀ d, isBlank d = false → isBlank (if d = old then new else d) = false := by
    intro d hd
    split
    · exact hnew
    · exact hd
  refine ⟨fun c hc => ?_, fun c hc => ?_⟩
  · rw [replace, List.head?_map] at hc
    obtain ⟨d, hd, rfl⟩ := Option.map_eq_some_iff.1 hc
    exact hone d (h.first d hd)
  · rw [replace, List.getLast?_map] at hc
    obtain ⟨d, hd, rfl⟩ := Option.map_eq_some_iff.1 hc
    exact hone d (h.last d hd)

end Text

namespace ClassName

variable {n t : Text}

/-! ## Spellings -/

/-- The ways to write a class name. -/
inductive Spelling
  | slashes
  | dots
  | descriptor
  | fileName
  deriving DecidableEq, Repr

/-- A name in slash form, written in one of the ways. -/
def Spelling.write : Spelling → Text → Text
  | slashes, n => n
  | dots, n => n.replace (.ofChar '/') (.ofChar '.')
  | descriptor, n => wrap n
  | fileName, n => n ++ ".class"

/-- `t` is a spelling of `n`, with any blanks around it. -/
def Spells (n t : Text) : Prop :=
  ∃ (s : Spelling) (before after : Text), (∀ c ∈ before, Text.isBlank c = true) ∧
    (∀ c ∈ after, Text.isBlank c = true) ∧ t = before ++ s.write n ++ after

/-- A name in slash form that each of its spellings tells. -/
structure Spellable (n : Text) : Prop where
  ne_nil : n ≠ []
  noDot : .ofChar '.' ∉ n
  noSemicolon : .ofChar ';' ∉ n
  trimmed : n.Trimmed
  /-- With dots in place of slashes the name would end as that of a file does. -/
  notFileName : .ofChar '/' ∉ n ∨ lastSegment n ≠ "class"

/-! ## Names written with dots -/

theorem lastSegment_below (p : Text) {last : Text} (h : .ofChar '/' ∉ last) :
    lastSegment (below p last) = last := by
  have hsegments : segments (below p last) = segments p ++ [last] := by
    rw [segments_below, segments, segments, Text.splitOn_of_not_mem h]
  simp only [lastSegment, hsegments, List.getLast_concat]

/-- With dots in place of slashes the name does not end as that of a file does. -/
theorem Spellable.dotted_endsWith (h : Spellable n) :
    (Spelling.dots.write n).endsWith ".class" = false := by
  refine Bool.eq_false_iff.2 fun hend => ?_
  obtain ⟨before, hbefore⟩ := List.isSuffixOf_iff_suffix.1 hend
  -- put the slashes back in what was found to end in `.class`
  have hback : (Spelling.dots.write n).replace (.ofChar '.') (.ofChar '/') = n :=
    Text.replace_replace h.noDot
  have hending : Text.replace ".class" (.ofChar '.') (.ofChar '/') =
      .ofChar '/' :: ("class" : Text) := by
    decide
  have hname : n = below (Text.replace before (.ofChar '.') (.ofChar '/')) "class" := by
    rw [← hback, ← hbefore, Text.replace_append, hending, below]
  rcases h.notFileName with hslash | hlast
  · refine hslash ?_
    rw [hname]
    exact List.mem_append_right _ (List.mem_cons_self ..)
  · refine hlast ?_
    rw [hname]
    exact lastSegment_below _ (by decide)

/-! ## Slash forms of spellings -/

theorem Spellable.isSlashForm (h : Spellable n) : IsSlashForm n :=
  isSlashForm_iff.2 ⟨h.trimmed, h.noDot, ne_wrap_of_noSemicolon h.noSemicolon⟩

theorem Spellable.trimmed_write (h : Spellable n) (s : Spelling) : (s.write n).Trimmed := by
  cases s with
  | slashes => exact h.trimmed
  | dots => exact Text.trimmed_replace (by decide) h.trimmed
  | descriptor => exact trimmed_wrap n
  | fileName =>
    refine ⟨fun c hc => h.trimmed.first c ?_, fun c hc => ?_⟩
    · rwa [Spelling.write, List.head?_append_of_ne_nil n h.ne_nil] at hc
    · rw [Spelling.write, List.getLast?_append] at hc
      obtain rfl : CodePoint.ofChar 's' = c := Option.some.inj hc
      decide

theorem dropFileEnding_fileName (n : Text) : dropFileEnding (n ++ ".class") = n := by
  have hend : Text.endsWith (n ++ ".class") ".class" = true :=
    List.isSuffixOf_iff_suffix.2 ⟨n, rfl⟩
  have hlength : (n ++ (".class" : Text)).length - 6 = n.length := by
    rw [List.length_append]
    exact Nat.add_sub_cancel n.length 6
  rw [dropFileEnding, if_pos hend, hlength, List.take_left]

/-- Each way of writing a name comes back to the name. -/
theorem Spellable.slashForm_write (h : Spellable n) (s : Spelling) :
    slashForm (s.write n) = n := by
  have htrim : (s.write n).trim = s.write n := Text.trim_of_trimmed (h.trimmed_write s)
  cases s with
  | slashes => exact h.isSlashForm
  | dots =>
    have hend : .ofChar ';' ∉ Spelling.dots.write n := fun hc =>
      (Text.mem_replace hc).elim (absurd · (by decide)) h.noSemicolon
    rw [slashForm, htrim, unwrap_of_ne_wrap (ne_wrap_of_noSemicolon hend), dropFileEnding,
      if_neg (by simp [h.dotted_endsWith])]
    exact Text.replace_replace h.noDot
  | descriptor => exact slashForm_wrap h.noDot
  | fileName =>
    have hend : .ofChar ';' ∉ Spelling.fileName.write n := fun hc =>
      (List.mem_append.1 hc).elim h.noSemicolon (absurd · (by decide))
    rw [slashForm, htrim, unwrap_of_ne_wrap (ne_wrap_of_noSemicolon hend), Spelling.write,
      dropFileEnding_fileName, replace_of_noDot h.noDot]

/-- And so does each of them with blanks around it. -/
theorem Spellable.slashForm_eq (h : Spellable n) (ht : Spells n t) : slashForm t = n := by
  obtain ⟨s, before, after, hbefore, hafter, rfl⟩ := ht
  have hwritten := h.trimmed_write s
  rw [slashForm, Text.trim_between hwritten hbefore hafter, ← Text.trim_of_trimmed hwritten]
  exact h.slashForm_write s

end ClassName

end JndiScan

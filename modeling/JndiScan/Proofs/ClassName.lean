/-
Class names and their ends. A name without dots, semicolons and blanks is its own slash form, and a
name has an end exactly when the segments of the end are the last segments of the name. So names in
slash form are ordered by their ends, and a class moved below another package keeps the ends of its
name and wins one only with the last segment of that package.
-/
import JndiScan.Proofs.ClassName.SlashForm
import JndiScan.Proofs.Files.Path
import Mathlib.Data.List.Induction

namespace JndiScan

namespace Text

/-! ## Pieces of texts -/

theorem splitOn_ne_nil (sep : CodePoint) (t : Text) : splitOn sep t ≠ [] := by
  cases t with
  | nil => exact List.cons_ne_nil _ _
  | cons c t =>
    rw [splitOn]
    split
    · exact List.cons_ne_nil _ _
    · split <;> exact List.cons_ne_nil _ _

/-- The pieces of two texts with a separator between them are the pieces of both. -/
theorem splitOn_append_sep (sep : CodePoint) (t u : Text) :
    splitOn sep (t ++ sep :: u) = splitOn sep t ++ splitOn sep u := by
  induction t with
  | nil =>
    show splitOn sep (sep :: u) = [] :: splitOn sep u
    rw [splitOn, if_pos rfl]
  | cons c t ih =>
    rw [List.cons_append, splitOn, splitOn, ih]
    split
    · rfl
    · obtain ⟨piece, pieces, hpieces⟩ := List.exists_cons_of_ne_nil (splitOn_ne_nil sep t)
      rw [hpieces]
      rfl

/-- A text is made of its pieces. -/
theorem joinWith_splitOn (sep : CodePoint) (t : Text) : joinWith [sep] (splitOn sep t) = t := by
  induction t with
  | nil => rfl
  | cons c t ih =>
    obtain ⟨piece, pieces, hpieces⟩ := List.exists_cons_of_ne_nil (splitOn_ne_nil sep t)
    rw [splitOn]
    split
    · next hc => rw [joinWith_cons _ _ (splitOn_ne_nil sep t), ih, hc]; rfl
    · rw [hpieces] at ih ⊢
      cases pieces with
      | nil => rw [joinWith_singleton] at ih ⊢; rw [ih]
      | cons next rest =>
        rw [joinWith_cons _ _ (List.cons_ne_nil _ _)] at ih ⊢
        rw [← ih]
        rfl

theorem splitOn_injective (sep : CodePoint) : Function.Injective (splitOn sep) := by
  intro t u h
  rw [← joinWith_splitOn sep t, h, joinWith_splitOn]

/-- The last pieces of a text are the pieces of what ends it behind a separator. -/
theorem splitOn_isSuffix_iff {sep : CodePoint} {t tail : Text} :
    splitOn sep tail <:+ splitOn sep t ↔ t = tail ∨ sep :: tail <:+ t := by
  constructor
  · rintro ⟨pieces, hpieces⟩
    by_cases hnil : pieces = []
    · rw [hnil, List.nil_append] at hpieces
      exact .inl (splitOn_injective sep hpieces).symm
    · refine .inr ⟨joinWith [sep] pieces, ?_⟩
      rw [← joinWith_splitOn sep t, ← hpieces, joinWith_append _ hnil (splitOn_ne_nil sep tail),
        joinWith_splitOn, List.append_assoc, List.singleton_append]
  · rintro (rfl | ⟨before, rfl⟩)
    · exact List.suffix_refl _
    · rw [splitOn_append_sep]
      exact List.suffix_append _ _

end Text

namespace ClassName

/-! ## Plain names -/

/-- A name in which nothing has to be cut or replaced. -/
structure Plain (t : Text) : Prop where
  ne_nil : t ≠ []
  noDot : .ofChar '.' ∉ t
  noSemicolon : .ofChar ';' ∉ t
  noBlank : ∀ c ∈ t, Text.isBlank c = false

variable {p n t tail a b c : Text}

theorem plain_iff : Plain t ↔
    t ≠ [] ∧ .ofChar '.' ∉ t ∧ .ofChar ';' ∉ t ∧ (t.all fun c => !Text.isBlank c) = true := by
  simp only [List.all_eq_true, Bool.not_eq_true']
  exact ⟨fun ⟨hnil, hdot, hend, hblank⟩ => ⟨hnil, hdot, hend, hblank⟩,
    fun ⟨hnil, hdot, hend, hblank⟩ => ⟨hnil, hdot, hend, hblank⟩⟩

instance : DecidablePred Plain := fun _ => decidable_of_iff _ plain_iff.symm

theorem Plain.slashForm_eq (h : Plain t) : slashForm t = t :=
  isSlashForm_iff.2
    ⟨Text.trimmed_of_noBlank h.noBlank, h.noDot, ne_wrap_of_noSemicolon h.noSemicolon⟩

/-! ## Ends of names -/

/-- The segments of a name in slash form. -/
def segments (t : Text) : List Text := t.splitOn (.ofChar '/')

/-- The last segment of a name. -/
def lastSegment (t : Text) : Text := (segments t).getLast (Text.splitOn_ne_nil _ t)

/-- A name has an end when the segments of the end are its last segments. -/
theorem hasSuffix_iff : hasSuffix t tail = true ↔
    slashForm tail ≠ [] ∧ segments (slashForm tail) <:+ segments (slashForm t) := by
  have hslash : ("/" : Text) ++ slashForm tail = .ofChar '/' :: slashForm tail := rfl
  rw [segments, segments, Text.splitOn_isSuffix_iff, hasSuffix, Bool.and_eq_true, Bool.or_eq_true,
    Bool.not_eq_true', List.isEmpty_eq_false_iff, beq_iff_eq, Text.endsWith,
    List.isSuffixOf_iff_suffix, hslash]

theorem segments_injective : Function.Injective segments := Text.splitOn_injective _

theorem hasSuffix_self (h : slashForm t ≠ []) : hasSuffix t t = true :=
  hasSuffix_iff.2 ⟨h, List.suffix_refl _⟩

theorem hasSuffix_trans (hab : hasSuffix a b = true) (hbc : hasSuffix b c = true) :
    hasSuffix a c = true := by
  rw [hasSuffix_iff] at hab hbc ⊢
  exact ⟨hbc.1, hbc.2.trans hab.2⟩

theorem slashForm_eq_of_hasSuffix (hab : hasSuffix a b = true) (hba : hasSuffix b a = true) :
    slashForm a = slashForm b := by
  rw [hasSuffix_iff] at hab hba
  exact segments_injective (hba.2.eq_of_length_le hab.2.length_le)

/-- Of two ends of one name the longer one has the shorter one as its end. -/
theorem hasSuffix_total (ha : hasSuffix t a = true) (hb : hasSuffix t b = true) :
    hasSuffix a b = true ∨ hasSuffix b a = true := by
  rw [hasSuffix_iff] at ha hb
  rw [hasSuffix_iff, hasSuffix_iff]
  rcases List.suffix_or_suffix_of_suffix ha.2 hb.2 with h | h
  · exact .inr ⟨ha.1, h⟩
  · exact .inl ⟨hb.1, h⟩

/-- An end of a name is a number of its last segments, at least one character in all. So the ends
order the names in slash form, and those of one name are a chain. -/
theorem hasSuffix_orders_names :
    (∀ t tail, hasSuffix t tail = true ↔
      slashForm tail ≠ [] ∧ segments (slashForm tail) <:+ segments (slashForm t)) ∧
    (∀ t, IsSlashForm t → t ≠ [] → hasSuffix t t = true) ∧
    (∀ a b c, hasSuffix a b = true → hasSuffix b c = true → hasSuffix a c = true) ∧
    (∀ a b, IsSlashForm a → IsSlashForm b →
      hasSuffix a b = true → hasSuffix b a = true → a = b) ∧
    (∀ t a b, hasSuffix t a = true → hasSuffix t b = true →
      hasSuffix a b = true ∨ hasSuffix b a = true) := by
  refine ⟨fun t tail => hasSuffix_iff, fun t ht hnil => ?_, fun a b c => hasSuffix_trans,
    fun a b ha hb hab hba => ?_, fun t a b => hasSuffix_total⟩
  · have hform : slashForm t = t := ht
    exact hasSuffix_self (hform.symm ▸ hnil)
  · have hforms := slashForm_eq_of_hasSuffix hab hba
    rwa [show slashForm a = a from ha, show slashForm b = b from hb] at hforms

/-! ## Names below a package -/

/-- A name below a package. -/
def below (p n : Text) : Text := p ++ .ofChar '/' :: n

theorem below_injective (p : Text) : Function.Injective (below p) :=
  fun _ _ h => (List.cons.inj (List.append_cancel_left h)).2

theorem segments_below (p n : Text) : segments (below p n) = segments p ++ segments n :=
  Text.splitOn_append_sep _ p n

theorem Plain.below (hp : Plain p) (hn : Plain n) : Plain (below p n) := by
  have hmem : ∀ {c}, c ∈ ClassName.below p n → c ∈ p ∨ c = .ofChar '/' ∨ c ∈ n := fun hc =>
    (List.mem_append.1 hc).imp_right List.mem_cons.1
  refine ⟨List.append_ne_nil_of_left_ne_nil hp.ne_nil _, fun hc => ?_, fun hc => ?_, fun c hc => ?_⟩
  · rcases hmem hc with hc | hc | hc
    · exact hp.noDot hc
    · exact absurd hc (by decide)
    · exact hn.noDot hc
  · rcases hmem hc with hc | hc | hc
    · exact hp.noSemicolon hc
    · exact absurd hc (by decide)
    · exact hn.noSemicolon hc
  · rcases hmem hc with hc | rfl | hc
    · exact hp.noBlank c hc
    · decide
    · exact hn.noBlank c hc

/-- A class that is moved below a package keeps the ends of its name. -/
theorem hasSuffix_below (hp : Plain p) (hn : Plain n) (h : hasSuffix n tail = true) :
    hasSuffix (below p n) tail = true := by
  rw [hasSuffix_iff, hn.slashForm_eq] at h
  rw [hasSuffix_iff, (hp.below hn).slashForm_eq, segments_below]
  exact ⟨h.1, h.2.trans (List.suffix_append _ _)⟩

/-- It wins an end only if the last segment of the package is part of it. -/
theorem hasSuffix_of_below (hp : Plain p) (hn : Plain n)
    (hlast : lastSegment p ∉ segments (slashForm tail)) (h : hasSuffix (below p n) tail = true) :
    hasSuffix n tail = true := by
  rw [hasSuffix_iff, (hp.below hn).slashForm_eq, segments_below] at h
  rw [hasSuffix_iff, hn.slashForm_eq]
  refine ⟨h.1, ?_⟩
  obtain ⟨before, hbefore⟩ := h.2
  rcases List.append_eq_append_iff.1 hbefore with ⟨more, hpackage, htail⟩ | ⟨more, -, hname⟩
  · cases more using List.reverseRecOn with
    | nil => rw [htail, List.nil_append]
    | append_singleton more last =>
      -- the end reaches into the package, so it holds the last segment of this
      have hlast' : lastSegment p = last := by
        simp only [lastSegment, hpackage, ← List.append_assoc, List.getLast_concat]
      refine absurd ?_ hlast
      rw [hlast', htail]
      exact List.mem_append_left _ (List.mem_append_right _ (List.mem_singleton_self last))
  · exact ⟨more, hname.symm⟩

end ClassName

end JndiScan

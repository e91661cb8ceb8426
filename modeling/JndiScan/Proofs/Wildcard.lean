/-
What wildcards mean. A pattern is cut in one way into items, and an item stands for certain pieces
of names. A name matches when it is made of pieces, one for each item in turn. The search for such
pieces goes from left to right and tries everything that an item can leave over, so it finds them
when they exist.
-/
import JndiScan.Wildcard
import Mathlib.Data.List.Forall2

namespace JndiScan.Wildcard

/-! ## Items of patterns -/

/-- A pattern cut into items from left to right: two stars where there are two, then a star, a
question mark, or a code point that stands for itself. -/
inductive Cut : Text → List Wildcard → Prop
  | done : Cut [] []
  | anyRun {rest : Text} {ws : List Wildcard} : Cut rest ws →
      Cut (.ofChar '*' :: .ofChar '*' :: rest) (anyRun :: ws)
  | segmentRun {rest : Text} {ws : List Wildcard} : rest.head? ≠ some (.ofChar '*') →
      Cut rest ws → Cut (.ofChar '*' :: rest) (segmentRun :: ws)
  | segmentOne {rest : Text} {ws : List Wildcard} : Cut rest ws →
      Cut (.ofChar '?' :: rest) (segmentOne :: ws)
  | exact {c : CodePoint} {rest : Text} {ws : List Wildcard} : c ≠ .ofChar '*' →
      c ≠ .ofChar '?' → Cut rest ws → Cut (c :: rest) (exact c :: ws)

variable {w : Wildcard} {ws : List Wildcard} {pattern name rest : Text} {p : CodePoint → Bool}

theorem ofText_segmentRun (h : rest.head? ≠ some (.ofChar '*')) :
    ofText (.ofChar '*' :: rest) = segmentRun :: ofText rest := by
  cases rest with
  | nil => rfl
  | cons d rest =>
    have hd : d ≠ .ofChar '*' := fun heq => h (congrArg some heq)
    rw [ofText, if_pos rfl, if_neg hd]

theorem ofText_segmentOne (rest : Text) :
    ofText (.ofChar '?' :: rest) = segmentOne :: ofText rest := by
  have hstar : CodePoint.ofChar '?' ≠ .ofChar '*' := by decide
  cases rest with
  | nil => simp only [ofText, if_neg hstar, if_true]
  | cons d rest => rw [ofText, if_neg hstar, if_pos rfl]

theorem ofText_exact {c : CodePoint} (hstar : c ≠ .ofChar '*') (hmark : c ≠ .ofChar '?')
    (rest : Text) : ofText (c :: rest) = exact c :: ofText rest := by
  cases rest with
  | nil => simp only [ofText, if_neg hstar, if_neg hmark]
  | cons d rest => rw [ofText, if_neg hstar, if_neg hmark]

theorem ofText_of_cut (h : Cut pattern ws) : ofText pattern = ws := by
  induction h with
  | done => rfl
  | anyRun _ ih => rw [ofText, if_pos rfl, if_pos rfl, ih]
  | segmentRun hone _ ih => rw [ofText_segmentRun hone, ih]
  | segmentOne _ ih => rw [ofText_segmentOne, ih]
  | exact hstar hmark _ ih => rw [ofText_exact hstar hmark, ih]

theorem cut_ofText (pattern : Text) : Cut pattern (ofText pattern) := by
  fun_induction ofText pattern with
  | case1 => exact .done
  | case2 => exact .segmentRun (by simp) .done
  | case3 => exact .segmentOne .done
  | case4 c hstar hmark => exact .exact hstar hmark .done
  | case5 rest ih => exact .anyRun ih
  | case6 d rest hd ih => exact .segmentRun (by simpa using hd) ih
  | case7 d rest hstar ih => exact .segmentOne ih
  | case8 c d rest hstar hmark ih => exact .exact hstar hmark ih

/-- There is one way to cut a pattern. -/
theorem cut_iff : Cut pattern ws ↔ ws = ofText pattern :=
  ⟨fun h => (ofText_of_cut h).symm, fun h => h ▸ cut_ofText pattern⟩

/-! ## Pieces of names -/

/-- The pieces that an item stands for. -/
inductive Piece : Wildcard → Text → Prop
  | anyRun (piece : Text) : Piece anyRun piece
  | segmentRun {piece : Text} : .ofChar '/' ∉ piece → Piece segmentRun piece
  | segmentOne {c : CodePoint} : c ≠ .ofChar '/' → Piece segmentOne [c]
  | exact (c : CodePoint) : Piece (exact c) [c]

/-- What is left over of a name is what follows one of its runs. -/
theorem mem_afterRun_iff :
    rest ∈ afterRun p name ↔ ∃ run : Text, (∀ c ∈ run, p c = true) ∧ run ++ rest = name := by
  induction name with
  | nil =>
    rw [afterRun, List.mem_singleton]
    constructor
    · rintro rfl
      exact ⟨[], List.forall_mem_nil _, rfl⟩
    · rintro ⟨run, -, happend⟩
      exact (List.append_eq_nil_iff.1 happend).2
  | cons c name ih =>
    rw [afterRun, List.mem_cons]
    constructor
    · rintro (rfl | hrest)
      · exact ⟨[], List.forall_mem_nil _, rfl⟩
      · split at hrest
        · next hc =>
          obtain ⟨run, hrun, rfl⟩ := ih.1 hrest
          exact ⟨c :: run, List.forall_mem_cons.2 ⟨hc, hrun⟩, rfl⟩
        · exact absurd hrest List.not_mem_nil
    · rintro ⟨run, hrun, happend⟩
      cases run with
      | nil => exact .inl happend
      | cons d run =>
        obtain ⟨rfl, htail⟩ := List.cons.inj happend
        obtain ⟨hd, hrun⟩ := List.forall_mem_cons.1 hrun
        rw [if_pos hd]
        exact .inr (ih.2 ⟨run, hrun, htail⟩)

/-- What an item can leave over is what follows one of its pieces. -/
theorem mem_after_iff : rest ∈ w.after name ↔ ∃ piece, w.Piece piece ∧ piece ++ rest = name := by
  cases w with
  | anyRun =>
    rw [after, mem_afterRun_iff]
    exact ⟨fun ⟨run, _, happend⟩ => ⟨run, .anyRun run, happend⟩,
      fun ⟨piece, _, happend⟩ => ⟨piece, fun _ _ => rfl, happend⟩⟩
  | segmentRun =>
    rw [after, mem_afterRun_iff]
    constructor
    · rintro ⟨run, hrun, happend⟩
      exact ⟨run, .segmentRun fun hslash => by simpa using hrun _ hslash, happend⟩
    · rintro ⟨piece, ⟨⟩, happend⟩
      next hslash =>
        exact ⟨piece, fun c hc => by simpa using ne_of_mem_of_not_mem hc hslash, happend⟩
  | segmentOne =>
    constructor
    · intro hrest
      cases name with
      | nil => exact absurd hrest List.not_mem_nil
      | cons c name =>
        rw [after] at hrest
        split at hrest
        · exact absurd hrest List.not_mem_nil
        · next hc => exact ⟨[c], .segmentOne hc, by rw [List.mem_singleton.1 hrest]; rfl⟩
    · rintro ⟨piece, ⟨⟩, rfl⟩
      next c hc =>
        show rest ∈ after segmentOne (c :: rest)
        rw [after, if_neg hc]
        exact List.mem_singleton_self rest
  | exact d =>
    constructor
    · intro hrest
      cases name with
      | nil => exact absurd hrest List.not_mem_nil
      | cons c name =>
        rw [after] at hrest
        split at hrest
        · next hc => exact ⟨[d], .exact d, by rw [List.mem_singleton.1 hrest, hc]; rfl⟩
        · exact absurd hrest List.not_mem_nil
    · rintro ⟨piece, ⟨⟩, rfl⟩
      show rest ∈ after (.exact d) (d :: rest)
      rw [after, if_pos rfl]
      exact List.mem_singleton_self rest

/-! ## Names that match -/

theorem matchAll_cons_iff :
    matchAll (w :: ws) name = true ↔ ∃ rest ∈ w.after name, matchAll ws rest = true := by
  rw [matchAll, List.any_eq_true]

/-- A search along the items finds pieces for all of them, if there are any. -/
theorem matchAll_iff :
    matchAll ws name = true ↔ ∃ pieces, List.Forall₂ Piece ws pieces ∧ pieces.flatten = name := by
  induction ws generalizing name with
  | nil =>
    rw [matchAll, List.isEmpty_iff]
    constructor
    · rintro rfl
      exact ⟨[], .nil, rfl⟩
    · rintro ⟨pieces, hpieces, rfl⟩
      cases hpieces
      rfl
  | cons w ws ih =>
    rw [matchAll_cons_iff]
    constructor
    · rintro ⟨rest, hrest, hmatch⟩
      obtain ⟨piece, hpiece, rfl⟩ := mem_after_iff.1 hrest
      obtain ⟨pieces, hpieces, rfl⟩ := ih.1 hmatch
      exact ⟨piece :: pieces, .cons hpiece hpieces, rfl⟩
    · rintro ⟨pieces, hpieces, rfl⟩
      cases hpieces with
      | cons hpiece hpieces =>
        next piece pieces =>
          exact ⟨pieces.flatten, mem_after_iff.2 ⟨piece, hpiece, rfl⟩, ih.2 ⟨pieces, hpieces, rfl⟩⟩

/-! ## Texts between runs -/

theorem matchAll_nil_iff : matchAll [] name = true ↔ name = [] := by
  rw [matchAll, List.isEmpty_iff]

/-- Behind any run stands an end of the name. -/
theorem matchAll_anyRun_iff :
    matchAll (anyRun :: ws) name = true ↔
      ∃ rest : Text, rest <:+ name ∧ matchAll ws rest = true := by
  rw [matchAll_cons_iff]
  refine exists_congr fun rest => and_congr_left fun _ => ?_
  rw [mem_after_iff]
  exact ⟨fun ⟨piece, _, happend⟩ => ⟨piece, happend⟩,
    fun ⟨piece, happend⟩ => ⟨piece, .anyRun piece, happend⟩⟩

/-- Behind a run within a segment stands what follows code points other than a slash. -/
theorem matchAll_segmentRun_iff :
    matchAll (segmentRun :: ws) name = true ↔
      ∃ run rest : Text, .ofChar '/' ∉ run ∧ run ++ rest = name ∧ matchAll ws rest = true := by
  rw [matchAll_cons_iff]
  constructor
  · rintro ⟨rest, hrest, hmatch⟩
    obtain ⟨run, ⟨⟩, happend⟩ := mem_after_iff.1 hrest
    next hslash => exact ⟨run, rest, hslash, happend, hmatch⟩
  · rintro ⟨run, rest, hslash, happend, hmatch⟩
    exact ⟨rest, mem_after_iff.2 ⟨run, .segmentRun hslash, happend⟩, hmatch⟩

/-- A text in a pattern stands for itself. -/
theorem matchAll_exact_append_iff {t : Text} :
    matchAll (t.map exact ++ ws) name = true ↔
      ∃ rest : Text, t ++ rest = name ∧ matchAll ws rest = true := by
  induction t generalizing name with
  | nil => simp
  | cons c t ih =>
    rw [List.map_cons, List.cons_append, matchAll_cons_iff]
    constructor
    · rintro ⟨after, hafter, hmatch⟩
      obtain ⟨piece, ⟨⟩, rfl⟩ := mem_after_iff.1 hafter
      obtain ⟨rest, rfl, hrest⟩ := ih.1 hmatch
      exact ⟨rest, rfl, hrest⟩
    · rintro ⟨rest, rfl, hrest⟩
      exact ⟨t ++ rest, mem_after_iff.2 ⟨[c], .exact c, rfl⟩, ih.2 ⟨rest, rfl, hrest⟩⟩

theorem matchAll_exact_iff {t : Text} : matchAll (t.map exact) name = true ↔ name = t := by
  rw [← List.append_nil (t.map exact), matchAll_exact_append_iff]
  simp only [matchAll_nil_iff, exists_eq_right, List.append_nil]
  exact eq_comm

theorem ofText_literal {t : Text} (hstar : .ofChar '*' ∉ t) (hmark : .ofChar '?' ∉ t) :
    ofText t = t.map exact := by
  induction t with
  | nil => rfl
  | cons c t ih =>
    rw [List.mem_cons, not_or] at hstar hmark
    rw [ofText_exact (Ne.symm hstar.1) (Ne.symm hmark.1), ih hstar.2 hmark.2, List.map_cons]

/-- The pattern of a file extension tells the names that end in it. -/
theorem matchesPattern_ending_iff {t : Text} (hstar : .ofChar '*' ∉ t) (hmark : .ofChar '?' ∉ t) :
    name.matchesPattern (.ofChar '*' :: .ofChar '*' :: t) = true ↔ t <:+ name := by
  have hitems : ofText (.ofChar '*' :: .ofChar '*' :: t) = anyRun :: t.map exact := by
    rw [ofText, if_pos rfl, if_pos rfl, ofText_literal hstar hmark]
  rw [Text.matchesPattern, hitems, matchAll_anyRun_iff]
  simp only [matchAll_exact_iff, exists_eq_right]

/-! ## Patterns -/

/-- A pattern is cut into items in one way, and it matches a name exactly when the whole name is
made of pieces, one for each item in turn. -/
theorem matchesPattern_iff_pieces (pattern : Text) :
    ∃ items, (∀ ws, Cut pattern ws ↔ ws = items) ∧ ∀ name : Text,
      name.matchesPattern pattern = true ↔
        ∃ pieces, List.Forall₂ Piece items pieces ∧ pieces.flatten = name :=
  ⟨ofText pattern, fun _ => cut_iff, fun _ => matchAll_iff⟩

end JndiScan.Wildcard

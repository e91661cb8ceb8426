/-
Paths and their names. A path that is made of names gives these names back, and what is below a
directory has the names of the directory before its own.
-/
import JndiScan.Files.Path
import Mathlib.Data.List.Infix

namespace JndiScan

namespace Text

theorem splitOn_of_not_mem {sep : CodePoint} {t : Text} (h : sep ∉ t) : splitOn sep t = [t] := by
  induction t with
  | nil => rfl
  | cons c t ih =>
    rw [List.mem_cons, not_or] at h
    rw [splitOn, if_neg (Ne.symm h.1), ih h.2]

theorem splitOn_append {sep : CodePoint} {t : Text} (h : sep ∉ t) (rest : Text) :
    splitOn sep (t ++ sep :: rest) = t :: splitOn sep rest := by
  induction t with
  | nil => rw [List.nil_append, splitOn, if_pos rfl]
  | cons c t ih =>
    rw [List.mem_cons, not_or] at h
    rw [List.cons_append, splitOn, if_neg (Ne.symm h.1), ih h.2]

theorem mem_of_mem_splitOn {sep c : CodePoint} {t piece : Text} (h : piece ∈ splitOn sep t)
    (hc : c ∈ piece) : c ∈ t := by
  induction t generalizing piece with
  | nil =>
    rw [splitOn, List.mem_singleton] at h
    rw [h] at hc
    exact hc
  | cons d t ih =>
    rw [splitOn] at h
    split at h
    · rcases List.mem_cons.1 h with rfl | h
      · exact absurd hc List.not_mem_nil
      · exact List.mem_cons_of_mem _ (ih h hc)
    · split at h
      · rw [List.mem_singleton.1 h] at hc
        rw [List.mem_singleton.1 hc]
        exact List.mem_cons_self ..
      · next first pieces hs =>
        rcases List.mem_cons.1 h with rfl | h
        · rcases List.mem_cons.1 hc with rfl | hc
          · exact List.mem_cons_self ..
          · exact List.mem_cons_of_mem _ (ih (hs ▸ List.mem_cons_self ..) hc)
        · exact List.mem_cons_of_mem _ (ih (hs ▸ List.mem_cons_of_mem _ h) hc)

theorem exists_mem_splitOn {c : CodePoint} {t : Text} (sep : CodePoint) (h : c ∈ t) :
    c = sep ∨ ∃ piece ∈ splitOn sep t, c ∈ piece := by
  induction t with
  | nil => cases h
  | cons d t ih =>
    by_cases hd : d = sep
    · rw [splitOn, if_pos hd]
      rcases List.mem_cons.1 h with rfl | h
      · exact .inl hd
      · rcases ih h with heq | ⟨piece, hpiece, hc⟩
        · exact .inl heq
        · exact .inr ⟨piece, List.mem_cons_of_mem _ hpiece, hc⟩
    · rw [splitOn, if_neg hd]
      cases hs : splitOn sep t with
      | nil =>
        rcases List.mem_cons.1 h with rfl | h
        · exact .inr ⟨[c], List.mem_singleton_self _, List.mem_cons_self ..⟩
        · rcases ih h with heq | ⟨piece, hpiece, -⟩
          · exact .inl heq
          · rw [hs] at hpiece
            cases hpiece
      | cons first pieces =>
        rcases List.mem_cons.1 h with rfl | h
        · exact .inr ⟨c :: first, List.mem_cons_self .., List.mem_cons_self ..⟩
        · rcases ih h with heq | ⟨piece, hpiece, hc⟩
          · exact .inl heq
          · rw [hs] at hpiece
            rcases List.mem_cons.1 hpiece with rfl | hpiece
            · exact .inr ⟨d :: piece, List.mem_cons_self .., List.mem_cons_of_mem _ hc⟩
            · exact .inr ⟨piece, List.mem_cons_of_mem _ hpiece, hc⟩

theorem joinWith_singleton (sep t : Text) : joinWith sep [t] = t := by
  simp [joinWith]

theorem joinWith_cons (sep t : Text) {ts : List Text} (hts : ts ≠ []) :
    joinWith sep (t :: ts) = t ++ sep ++ joinWith sep ts := by
  obtain ⟨next, rest, rfl⟩ := List.exists_cons_of_ne_nil hts
  simp [joinWith, List.intercalate_cons_cons]

theorem joinWith_append (sep : Text) {ts us : List Text} (hts : ts ≠ []) (hus : us ≠ []) :
    joinWith sep (ts ++ us) = joinWith sep ts ++ sep ++ joinWith sep us := by
  induction ts with
  | nil => exact absurd rfl hts
  | cons t ts ih =>
    by_cases hnil : ts = []
    · rw [hnil, List.cons_append, List.nil_append, joinWith_cons sep t hus, joinWith_singleton]
    · rw [List.cons_append, joinWith_cons sep t (by simp [hnil]), ih hnil, joinWith_cons sep t hnil]
      simp only [List.append_assoc]

/-- The pieces of what was joined with a separator that is in none of them. -/
theorem splitOn_joinWith {sep : CodePoint} (ts : List Text) (hts : ts ≠ [])
    (h : ∀ t ∈ ts, sep ∉ t) : splitOn sep (joinWith [sep] ts) = ts := by
  induction ts with
  | nil => exact absurd rfl hts
  | cons t rest ih =>
    have ht : sep ∉ t := h t (List.mem_cons_self ..)
    by_cases hnil : rest = []
    · rw [hnil, joinWith_singleton, splitOn_of_not_mem ht]
    · rw [joinWith_cons [sep] t hnil, List.append_assoc, List.singleton_append, splitOn_append ht,
        ih hnil fun t ht => h t (List.mem_cons_of_mem _ ht)]

theorem not_mem_of_mem_splitOn {sep : CodePoint} {t piece : Text} (h : piece ∈ splitOn sep t) :
    sep ∉ piece := by
  induction t generalizing piece with
  | nil =>
    rw [splitOn, List.mem_singleton] at h
    rw [h]
    exact List.not_mem_nil
  | cons c t ih =>
    rw [splitOn] at h
    split at h
    · rcases List.mem_cons.1 h with rfl | h
      · exact List.not_mem_nil
      · exact ih h
    · next hc =>
      split at h
      · next hs =>
        rw [List.mem_singleton] at h
        rw [h, List.mem_singleton]
        exact Ne.symm hc
      · next first pieces hs =>
        rcases List.mem_cons.1 h with rfl | h
        · rw [List.mem_cons, not_or]
          exact ⟨Ne.symm hc, ih (hs ▸ List.mem_cons_self ..)⟩
        · exact ih (hs ▸ List.mem_cons_of_mem _ h)

end Text

namespace Path

/-- A name of something in a directory: it has no slash and does not stand for the directory itself
or the one above. -/
structure Plain (n : Text) : Prop where
  ne_nil : n ≠ []
  noSlash : slash ∉ n
  ne_here : n ≠ here
  ne_above : n ≠ above

theorem plain_iff {n : Text} :
    Plain n ↔ n ≠ [] ∧ n.contains slash = false ∧ n ≠ here ∧ n ≠ above := by
  rw [← Bool.not_eq_true, List.contains_iff_mem]
  exact ⟨fun ⟨hne, hslash, hhere, habove⟩ => ⟨hne, hslash, hhere, habove⟩,
    fun ⟨hne, hslash, hhere, habove⟩ => ⟨hne, hslash, hhere, habove⟩⟩

instance : DecidablePred Plain := fun _ => decidable_of_iff _ plain_iff.symm

theorem mem_names {n p : Text} (h : n ∈ names p) : n ≠ [] ∧ slash ∉ n ∧ n ≠ here := by
  rw [names, List.mem_filter] at h
  obtain ⟨hmem, hn⟩ := h
  simp only [Bool.and_eq_true, Bool.not_eq_true', List.isEmpty_eq_false_iff, decide_eq_true_eq]
    at hn
  exact ⟨hn.1, Text.not_mem_of_mem_splitOn hmem, hn.2⟩

theorem plain_of_mem_names {n p : Text} (h : n ∈ names p) (hn : n ≠ above) : Plain n :=
  ⟨(mem_names h).1, (mem_names h).2.1, (mem_names h).2.2, hn⟩

theorem filter_plain {ns : List Text} (h : ∀ n ∈ ns, Plain n) :
    (ns.filter fun n => !n.isEmpty && n ≠ here) = ns := by
  refine List.filter_eq_self.2 fun n hn => ?_
  simp [(h n hn).ne_nil, (h n hn).ne_here]

theorem splitOn_ofNames {ns : List Text} (hns : ns ≠ []) (h : ∀ n ∈ ns, Plain n) :
    (ofNames ns).splitOn slash = [] :: ns := by
  have hroot : ofNames ns = slash :: Text.joinWith [slash] ns := rfl
  rw [hroot, Text.splitOn, if_pos rfl, Text.splitOn_joinWith ns hns fun n hn => (h n hn).noSlash]

theorem names_ofNames {ns : List Text} (h : ∀ n ∈ ns, Plain n) : names (ofNames ns) = ns := by
  by_cases hns : ns = []
  · rw [hns]
    rfl
  · rw [names, splitOn_ofNames hns h, List.filter_cons_of_neg (by simp)]
    exact filter_plain h

theorem isAbsolute_ofNames (ns : List Text) : isAbsolute (ofNames ns) = true := by
  have hroot : ofNames ns = slash :: Text.joinWith [slash] ns := rfl
  rw [isAbsolute, hroot]
  simp

theorem ofNames_ne_here (ns : List Text) : ofNames ns ≠ here := by
  intro h
  have := isAbsolute_ofNames ns
  rw [h] at this
  exact absurd this (by decide)

theorem ofNames_cons (n : Text) {ns : List Text} (hns : ns ≠ []) :
    ofNames (n :: ns) = slash :: n ++ ofNames ns := by
  rw [ofNames, Text.joinWith_cons _ _ hns, ofNames, List.append_assoc]
  rfl

theorem ofNames_append {ns : List Text} (hns : ns ≠ []) {more : List Text} (hmore : more ≠ []) :
    ofNames (ns ++ more) = ofNames ns ++ ofNames more := by
  rw [ofNames, Text.joinWith_append _ hns hmore, ofNames, ofNames]
  simp only [List.append_assoc]

theorem ofNames_singleton (n : Text) : ofNames [n] = slash :: n := by
  rw [ofNames, Text.joinWith_singleton]
  rfl

theorem rootOf_ofNames {ns : List Text} (hns : ns ≠ []) (h : ∀ n ∈ ns, Plain n) :
    rootOf (ofNames ns) = "/" := by
  obtain ⟨n, ns, rfl⟩ := List.exists_cons_of_ne_nil hns
  have hn := h n (List.mem_cons_self ..)
  obtain ⟨c, n, rfl⟩ := List.exists_cons_of_ne_nil hn.ne_nil
  have hc : c ≠ slash := fun hc => hn.noSlash (hc ▸ List.mem_cons_self ..)
  have hstart : ∃ rest, ofNames ((c :: n) :: ns) = slash :: c :: rest := by
    by_cases hnil : ns = []
    · exact ⟨n, by rw [hnil, ofNames_singleton]⟩
    · exact ⟨_, by rw [ofNames_cons _ hnil]; rfl⟩
  obtain ⟨rest, heq⟩ := hstart
  rw [rootOf, heq]
  simp [hc]

theorem shown_ofNames {ns : List Text} (hns : ns ≠ []) (h : ∀ n ∈ ns, Plain n) :
    shown (ofNames ns) = ofNames ns := by
  rw [shown, rootOf_ofNames hns h, names_ofNames h]
  rfl

theorem getLast?_ofNames_ne {ns : List Text} (hns : ns ≠ []) (h : ∀ n ∈ ns, Plain n) :
    (ofNames ns).getLast? ≠ some slash := by
  obtain ⟨init, n, rfl⟩ : ∃ init n, ns = init ++ [n] :=
    ⟨_, _, (List.dropLast_append_getLast hns).symm⟩
  have hn : Plain n := h n (List.mem_append_right _ (List.mem_singleton_self n))
  have hend : ∃ start, ofNames (init ++ [n]) = start ++ n := by
    by_cases hnil : init = []
    · exact ⟨[slash], by rw [hnil, List.nil_append, ofNames_singleton]; rfl⟩
    · exact ⟨ofNames init ++ [slash], by
        rw [ofNames_append hnil (List.cons_ne_nil n []), ofNames_singleton]; simp⟩
  obtain ⟨start, heq⟩ := hend
  rw [heq, List.getLast?_append_of_ne_nil _ hn.ne_nil]
  intro hlast
  exact hn.noSlash (List.mem_of_getLast? hlast)

/-- The path below a directory has the names of both. -/
theorem below_ofNames {ns : List Text} (hns : ns ≠ []) (h : ∀ n ∈ ns, Plain n) {p : Text}
    (hp : isAbsolute p = false) (hnames : names p ≠ []) :
    below (ofNames ns) p = ofNames (ns ++ names p) := by
  rw [below, hp, if_neg Bool.false_ne_true, if_neg (by simpa using hnames),
    if_neg (ofNames_ne_here ns), shown_ofNames hns h, ofNames_append hns hnames]
  simp only [if_neg (getLast?_ofNames_ne hns h), List.append_assoc]
  rfl

theorem octets_append (t u : Text) : octets (t ++ u) = octets t ++ octets u := List.flatMap_append

/-- A name more adds its octets and a slash to a path. -/
theorem octetLength_ofNames_concat {ns : List Text} (hns : ns ≠ []) (n : Text) :
    octetLength (ofNames (ns ++ [n])) = octetLength (ofNames ns) + 1 + octetLength n := by
  have hslash : octets (slash :: n) = 0x2F :: octets n := rfl
  rw [ofNames_append hns (List.cons_ne_nil n []), ofNames_singleton, octetLength, octets_append,
    hslash, List.length_append, List.length_cons, octetLength, octetLength]
  omega

theorem names_slash_cons (t : Text) : names (slash :: t) = names t := by
  rw [names, Text.splitOn, if_pos rfl, List.filter_cons_of_neg (by simp)]
  rfl

theorem names_rootOf_append (p t : Text) : names (rootOf p ++ t) = names t := by
  rw [rootOf]
  split
  · rfl
  · split
    · exact (names_slash_cons _).trans (names_slash_cons t)
    · exact names_slash_cons t

theorem names_joinWith_names (p : Text) : names (Text.joinWith [slash] (names p)) = names p := by
  by_cases hnil : names p = []
  · rw [hnil]
    rfl
  · rw [names, Text.splitOn_joinWith _ hnil fun n hn => (mem_names hn).2.1, List.filter_eq_self]
    intro n hn
    simp [(mem_names hn).1, (mem_names hn).2.2]

/-- A path has the same names when it is shown. -/
theorem names_shown (p : Text) : names (shown p) = names p := by
  have hnames : names (rootOf p ++ Text.joinWith [slash] (names p)) = names p := by
    rw [names_rootOf_append, names_joinWith_names]
  rw [shown]
  split
  · next hempty =>
    have hnil : rootOf p ++ Text.joinWith [slash] (names p) = [] := List.isEmpty_iff.1 hempty
    rw [← hnames, hnil]
    rfl
  · exact hnames

/-- A path from the root on is shown by its names, with one slash before them or with two. -/
theorem shown_eq {p : Text} (h : isAbsolute p = true) :
    shown p = ofNames (names p) ∨ shown p = slash :: ofNames (names p) := by
  have hhead : p.head? = some slash := by simpa [isAbsolute] using h
  obtain ⟨rest, rfl⟩ := List.head?_eq_some_iff.1 hhead
  rw [shown, rootOf]
  simp only [List.takeWhile_cons, decide_true, if_true, List.length_cons, Nat.succ_ne_zero, if_false]
  split
  · exact .inr rfl
  · exact .inl rfl

theorem isAbsolute_shown {p : Text} (h : isAbsolute p = true) : isAbsolute (shown p) = true := by
  rcases shown_eq h with heq | heq
  · exact heq ▸ isAbsolute_ofNames _
  · exact heq ▸ rfl

/-- A path below a directory that is named from the root on is named from the root on. -/
theorem isAbsolute_below {ns : List Text} (hns : ns ≠ []) (h : ∀ n ∈ ns, Plain n) (p : Text) :
    isAbsolute (below (ofNames ns) p) = true := by
  cases hp : isAbsolute p with
  | true =>
    rw [below, hp, if_pos rfl]
    exact isAbsolute_shown hp
  | false =>
    by_cases hnames : names p = []
    · rw [below, hp, hnames, if_neg Bool.false_ne_true, if_pos List.isEmpty_nil,
        shown_ofNames hns h]
      exact isAbsolute_ofNames ns
    · rw [below_ofNames hns h hp hnames]
      exact isAbsolute_ofNames _

/-! ## Texts that can be paths -/

theorem check_eq_ok_iff {t : Text} : check t = .ok () ↔
    ∀ c ∈ t, ¬ (c.isSurrogate && !standsForOctet c) = true ∧ c.val ≠ 0 := by
  rw [check]
  split
  · next h =>
    obtain ⟨c, hc, hbad⟩ := List.any_eq_true.1 h
    exact iff_of_false (fun heq => by cases heq) fun hall => (hall c hc).1 hbad
  · next h =>
    split
    · next h =>
      obtain ⟨c, hc, hzero⟩ := List.any_eq_true.1 h
      exact iff_of_false (fun heq => by cases heq) fun hall => (hall c hc).2 (by simpa using hzero)
    · next h' =>
      simp only [List.any_eq_true, not_exists, not_and] at h h'
      exact iff_of_true rfl fun c hc => ⟨h c hc, by simpa using h' c hc⟩

theorem check_append_iff {t u : Text} :
    check (t ++ u) = .ok () ↔ check t = .ok () ∧ check u = .ok () := by
  simp only [check_eq_ok_iff, List.forall_mem_append]

theorem check_joinWith_iff {ns : List Text} :
    check (Text.joinWith "/" ns) = .ok () ↔ ∀ n ∈ ns, check n = .ok () := by
  induction ns with
  | nil => exact iff_of_true rfl (List.forall_mem_nil _)
  | cons n ns ih =>
    by_cases hnil : ns = []
    · rw [hnil, Text.joinWith_singleton, List.forall_mem_singleton]
    · rw [Text.joinWith_cons _ _ hnil, check_append_iff, check_append_iff, ih,
        List.forall_mem_cons]
      exact and_congr_left' (and_iff_left rfl)

/-- Names make a path exactly when each of them can be part of one. -/
theorem check_ofNames_iff {ns : List Text} :
    check (ofNames ns) = .ok () ↔ ∀ n ∈ ns, check n = .ok () := by
  rw [ofNames, check_append_iff, check_joinWith_iff]
  exact and_iff_right rfl

/-- A text is a path exactly when each of its names can be part of one. -/
theorem check_iff_names {p : Text} :
    check p = .ok () ↔ ∀ n ∈ names p, check n = .ok () := by
  constructor
  · intro h n hn
    have hpiece := (List.mem_filter.1 hn).1
    exact check_eq_ok_iff.2 fun c hc => check_eq_ok_iff.1 h c (Text.mem_of_mem_splitOn hpiece hc)
  · intro h
    refine check_eq_ok_iff.2 fun c hc => ?_
    rcases Text.exists_mem_splitOn slash hc with rfl | ⟨piece, hpiece, hmem⟩
    · decide
    · by_cases hdot : piece = here
      · rw [hdot] at hmem
        rw [List.mem_singleton.1 hmem]
        decide
      · have hne : piece ≠ [] := List.ne_nil_of_mem hmem
        have hname : piece ∈ names p := List.mem_filter.2 ⟨hpiece, by simp [hne, hdot]⟩
        exact check_eq_ok_iff.1 (h piece hname) c hmem

end Path

end JndiScan

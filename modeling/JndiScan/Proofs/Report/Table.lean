/-
The table of findings cannot be taken for a verdict: each of its lines begins with a letter or a
sign that no line of the verdict begins with, whatever the findings say.
-/
import JndiScan.Proofs.Report.Verdict

namespace JndiScan

namespace Finding

/-- A line that begins like neither of the lines that tell a verdict. -/
def Silent (line : Text) : Prop := line.head? ≠ warning.head? ∧ line.head? ≠ allClear.head?

theorem Silent.of_head? {line : Text} {c : CodePoint} (h : line.head? = some c)
    (hwarning : c ≠ .ofChar 'W') (hclear : c ≠ .ofChar 'N') : Silent line := by
  rw [Silent, h]
  exact ⟨fun heq => hwarning (Option.some.inj heq), fun heq => hclear (Option.some.inj heq)⟩

theorem silent_nil : Silent [] := ⟨by decide, by decide⟩

theorem warning_notMem {lines : List Text} (h : ∀ line ∈ lines, Silent line) : warning ∉ lines :=
  fun hmem => (h warning hmem).1 rfl

theorem allClear_notMem {lines : List Text} (h : ∀ line ∈ lines, Silent line) :
    allClear ∉ lines :=
  fun hmem => (h allClear hmem).2 rfl

end Finding

namespace Table

open Finding (Silent)

/-! ## Where a line begins -/

/-- A text that is cut to some width still begins as it did. -/
theorem head?_clip (t : Text) {width : Nat} (h : 1 ≤ width) :
    (t.clip width).head? = t.head? := by
  rw [Text.clip]
  split
  · rfl
  · next hlong =>
    have hne : t ≠ [] := by
      rintro rfl
      exact hlong (by simp)
    obtain ⟨c, rest, rfl⟩ := List.exists_cons_of_ne_nil hne
    split
    · obtain ⟨n, rfl⟩ : ∃ n, width = n + 1 := ⟨width - 1, by omega⟩
      rw [Text.before, if_pos (by omega)]
      rfl
    · obtain ⟨n, hn⟩ : ∃ n, ((width : Int) - 3).toNat = n + 1 := ⟨width - 4, by omega⟩
      rw [Text.before, if_pos (by omega), hn]
      rfl

/-- A line begins as its first cell does. -/
theorem head?_line {w : Nat} (h : 1 ≤ w) (ws : List Nat) (c : CodePoint) (t : Text)
    (cells : List Text) : (line (w :: ws) ((c :: t) :: cells)).head? = some c := by
  have hcell : ((Text.clip (c :: t) w).padRight w).head? = some c := by
    rw [Text.padRight, List.head?_append, head?_clip _ h]
    rfl
  obtain ⟨rest, hrest⟩ := List.head?_eq_some_iff.1 hcell
  rw [line, List.zipWith_cons_cons, hrest, Text.joinWith]
  cases List.zipWith (fun (w : Nat) (t : Text) => (t.clip w).padRight w) ws cells with
  | nil => rfl
  | cons => rfl

/-! ## The lines of a table -/

/-- The first column is at least as wide as its heading. -/
theorem exists_longest (fs : List Finding) (w : Nat) (ws : List Nat) :
    ∃ w' ws', (fs.map row).foldl (fun ws r => List.zipWith max ws (r.map List.length)) (w :: ws) =
      w' :: ws' ∧ w ≤ w' := by
  induction fs generalizing w ws with
  | nil => exact ⟨w, ws, rfl, Nat.le_refl w⟩
  | cons f fs ih =>
    obtain ⟨w', ws', hfold, hle⟩ := ih (max w f.severity.label.length) _
    exact ⟨w', ws', hfold, Nat.le_trans (Nat.le_max_left ..) hle⟩

theorem exists_widths (fs : List Finding) :
    ∃ w ws, widths (fs.map row) = w :: ws ∧ 1 ≤ w := by
  obtain ⟨w, ws, hfold, hle⟩ := exists_longest fs 3 [2, 5, 9]
  refine ⟨min w 8, List.zipWith min ws [32, 80, 9], ?_, by omega⟩
  rw [widths]
  exact congrArg (List.zipWith min · maxWidths) hfold

theorem exists_label (s : Severity) : ∃ c t, s.label = c :: t ∧ c ≠ .ofChar 'W' ∧
    c ≠ .ofChar 'N' := by
  cases s <;> exact ⟨_, _, rfl, by decide, by decide⟩

/-- No line of a table reads like a verdict. -/
theorem silent_of_mem_lines {fs : List Finding} : ∀ line ∈ lines fs, Silent line := by
  rw [lines]
  split
  · rw [List.forall_mem_singleton]
    exact Silent.of_head? rfl (by decide) (by decide)
  · obtain ⟨w, ws, hwidths, hw⟩ := exists_widths (Finding.sorted fs)
    obtain ⟨n, rfl⟩ : ∃ n, w = n + 1 := ⟨w - 1, by omega⟩
    dsimp only
    rw [hwidths, List.forall_mem_cons, List.forall_mem_cons, List.forall_mem_map,
      List.forall_mem_map]
    refine ⟨?_, ?_, fun f _ => ?_⟩
    · have hheading : (line ((n + 1) :: ws) headings).head? = some (.ofChar 'S') :=
        head?_line hw ws (.ofChar 'S') "EV" _
      exact Silent.of_head? hheading (by decide) (by decide)
    · have hrule : (Text.joinWith "  "
          (((n + 1) :: ws).map fun w => Text.copies w (.ofChar '-'))).head? = some (.ofChar '-') := by
        cases ws <;> rfl
      exact Silent.of_head? hrule (by decide) (by decide)
    · obtain ⟨c, t, hlabel, hwarning, hclear⟩ := exists_label f.severity
      rw [row, hlabel]
      exact Silent.of_head? (head?_line hw ws c t _) hwarning hclear

end Table

end JndiScan

/-
The table on the console and the report show the same findings. Both list them in one stable order,
each finding once, and both count them by severity. All lines of the table are equally long: a column
is as wide as its longest text, up to a limit, and each cell fills its column.
-/
import JndiScan.CommandLine.Run
import JndiScan.Proofs.Files.Path
import JndiScan.Proofs.Text.Order
import Mathlib.Algebra.Ring.Nat

namespace JndiScan

/-! ## The order of lists -/

namespace Finding

variable {a b c : Finding} {fs : List Finding}

/-- What the place of a finding in lists depends on. -/
def listKey (f : Finding) : Nat × Text × Text := (f.severity.rank, f.id, f.className)

/-- Does the finding come before the other one, or have they the same key? The severity counts
first, then the identifier, then the name of the class. -/
def ListLE (a b : Finding) : Prop :=
  a.severity.rank < b.severity.rank ∨ a.severity.rank = b.severity.rank ∧
    (a.id ≠ b.id ∧ Text.le a.id b.id = true ∨
      a.id = b.id ∧ Text.le a.className b.className = true)

theorem listedBefore_eq_true_iff (a b : Finding) : a.listedBefore b = true ↔ a.ListLE b := by
  unfold listedBefore ListLE
  by_cases hrank : a.severity.rank = b.severity.rank
  · by_cases hid : a.id = b.id
    · simp [hrank, hid]
    · simp [hrank, hid]
  · simp [hrank]

theorem ListLE.trans (hab : a.ListLE b) (hbc : b.ListLE c) : a.ListLE c := by
  unfold ListLE at *
  rcases hab with hab | ⟨hrank, hab⟩
  · left
    rcases hbc with hbc | ⟨hrank, -⟩ <;> omega
  · rcases hbc with hbc | ⟨hrank', hbc⟩
    · left
      omega
    · refine .inr ⟨hrank.trans hrank', ?_⟩
      rcases hab with ⟨hne, hle⟩ | ⟨heq, hle⟩
      · left
        rcases hbc with ⟨hne', hle'⟩ | ⟨heq', -⟩
        · refine ⟨fun heq => ?_, Text.le_trans _ _ _ hle hle'⟩
          rw [heq] at hle
          exact hne' (Text.le_antisymm hle' hle)
        · exact heq' ▸ ⟨hne, hle⟩
      · rcases hbc with ⟨hne', hle'⟩ | ⟨heq', hle'⟩
        · exact .inl (heq ▸ ⟨hne', hle'⟩)
        · exact .inr ⟨heq.trans heq', Text.le_trans _ _ _ hle hle'⟩

theorem listLE_total (a b : Finding) : a.ListLE b ∨ b.ListLE a := by
  unfold ListLE
  have hid := Text.le_total a.id b.id
  have hname := Text.le_total a.className b.className
  rw [Bool.or_eq_true] at hid hname
  by_cases hrank : a.severity.rank = b.severity.rank
  · by_cases heq : a.id = b.id
    · simpa [hrank, heq] using hname
    · simpa [hrank, heq, Ne.symm heq] using hid
  · omega

theorem listLE_of_listKey_eq (h : a.listKey = b.listKey) : a.ListLE b := by
  simp only [listKey, Prod.mk.injEq] at h
  obtain ⟨hrank, hid, hname⟩ := h
  have hself : Text.le b.className b.className = true := by
    simpa using Text.le_total b.className b.className
  exact .inr ⟨hrank, .inr ⟨hid, hname ▸ hself⟩⟩

/-- The second list is the first one in the order of lists: each finding as often as it was, and
findings with one key as they stood. -/
structure Arranges (fs gs : List Finding) : Prop where
  perm : gs.Perm fs
  ordered : gs.Pairwise ListLE
  stable : ∀ key, gs.filter (·.listKey = key) = fs.filter (·.listKey = key)

theorem arranges_sorted (fs : List Finding) : Arranges fs (sorted fs) := by
  have htrans : ∀ a b c : Finding, a.listedBefore b = true → b.listedBefore c = true →
      a.listedBefore c = true := by
    intro a b c
    simp only [listedBefore_eq_true_iff]
    exact ListLE.trans
  have htotal : ∀ a b : Finding, (a.listedBefore b || b.listedBefore a) = true := by
    intro a b
    rw [Bool.or_eq_true, listedBefore_eq_true_iff, listedBefore_eq_true_iff]
    exact listLE_total a b
  have hperm : (sorted fs).Perm fs := List.mergeSort_perm ..
  refine ⟨hperm, ?_, fun key => ?_⟩
  · refine (List.pairwise_mergeSort htrans htotal fs).imp fun {a b} hab => ?_
    exact (listedBefore_eq_true_iff a b).1 hab
  · -- The findings with one key are in order as they stand, so sorting leaves them in a sublist.
    have halike : (fs.filter (·.listKey = key)).Pairwise fun a b => a.listedBefore b = true := by
      refine List.pairwise_filter.2 (List.pairwise_of_forall fun a b ha hb => ?_)
      rw [listedBefore_eq_true_iff]
      exact listLE_of_listKey_eq ((of_decide_eq_true ha).trans (of_decide_eq_true hb).symm)
    have hkept : (fs.filter (·.listKey = key)).Sublist (sorted fs) :=
      List.sublist_mergeSort htrans htotal halike List.filter_sublist
    have hinside := hkept.filter (·.listKey = key)
    simp only [List.filter_filter, Bool.and_self] at hinside
    exact (hinside.eq_of_length (hperm.filter _).length_eq.symm).symm

/-! ## Counts -/

/-- The numbers of findings by severity add up to the number of findings. -/
theorem sum_severityCounts (fs : List Finding) :
    ((severityCounts fs).map Prod.snd).sum = fs.length := by
  induction fs with
  | nil => rfl
  | cons f fs ih =>
    rw [List.length_cons, ← ih]
    cases hf : f.severity <;>
      simp [severityCounts, Severity.all, List.filter_cons, hf] <;> omega

theorem count_eq (s : Severity) (fs : List Finding) :
    CommandLine.Run.count s fs = fs.countP (·.severity = s) := by
  rw [List.countP_eq_length_filter]
  cases s <;> rfl

end Finding

/-! ## Cells -/

namespace Text

variable {t : Text} {w : Nat}

/-- What a cell of a width shows of a text: the text with blanks behind it where it fits, and
otherwise its beginning with three points. -/
inductive FillsCell (w : Nat) (t : Text) : Text → Prop
  | padded : t.length ≤ w → FillsCell w t (t ++ copies (w - t.length) ' ')
  | cut : 3 < w → w < t.length → FillsCell w t (t.take (w - 3) ++ "...")

theorem clip_of_le (h : t.length ≤ w) : t.clip w = t := by
  rw [clip, if_pos (by omega)]

theorem clip_of_lt (h3 : 3 < w) (h : w < t.length) : t.clip w = t.take (w - 3) ++ "..." := by
  have hindex : (0 : Int) ≤ w - 3 := by omega
  have hcount : ((w : Int) - 3).toNat = w - 3 := by omega
  rw [clip, if_neg (by omega), if_neg (by omega), before, if_pos hindex, hcount]

/-- In a column that is wider than the points, or wide enough, a cell shows its text. -/
theorem fillsCell_clip (h : 3 < w ∨ t.length ≤ w) : FillsCell w t ((t.clip w).padRight w) := by
  by_cases hfits : t.length ≤ w
  · rw [clip_of_le hfits]
    exact .padded hfits
  · have h3 : 3 < w := h.resolve_right hfits
    have hlong : w < t.length := Nat.lt_of_not_le hfits
    have hfull : (t.take (w - 3) ++ ("..." : Text)).length = w := by
      simp [ofString]
      omega
    rw [clip_of_lt h3 hlong, padRight, hfull, Nat.sub_self]
    simpa [copies] using FillsCell.cut h3 hlong

theorem FillsCell.length_eq {cell : Text} (h : FillsCell w t cell) : cell.length = w := by
  cases h with
  | padded hfits => simp [copies]; omega
  | cut h3 hlong => simp [ofString]; omega

/-- Texts with a separator between them are as long as they are together, and the separators. -/
theorem length_joinWith (sep : Text) (ts : List Text) :
    (joinWith sep ts).length = (ts.map List.length).sum + sep.length * (ts.length - 1) := by
  induction ts with
  | nil => rfl
  | cons t ts ih =>
    by_cases hts : ts = []
    · simp [hts, joinWith]
    · have hlength : 0 < ts.length := List.length_pos_of_ne_nil hts
      rw [joinWith_cons sep t hts]
      simp only [List.length_append, ih, List.map_cons, List.sum_cons, List.length_cons]
      obtain ⟨n, hn⟩ : ∃ n, ts.length = n + 1 := ⟨ts.length - 1, by omega⟩
      simp only [hn, Nat.add_sub_cancel, Nat.mul_succ]
      omega

end Text

/-! ## Columns -/

namespace Table

/-- A column: its heading, its largest width, and what it shows of a finding. -/
structure Column where
  heading : Text
  limit : Nat
  cell : Finding → Text

/-- The columns of the table. -/
def columns : List Column := [
  ⟨"SEV", 8, fun f => f.severity.label⟩,
  ⟨"ID", 32, fun f => f.id⟩,
  ⟨"CLASS", 80, fun f => f.className⟩,
  ⟨"LOCATIONS", 9, fun f => .ofNat f.locations.length⟩]

/-- The texts of a column: its heading and its cells. -/
def Column.texts (c : Column) (fs : List Finding) : List Text := c.heading :: fs.map c.cell

/-- The width is that of the longest text of the column, but not more than its largest width. -/
structure Column.Fits (c : Column) (fs : List Finding) (w : Nat) : Prop where
  covers : ∀ t ∈ c.texts fs, min t.length c.limit ≤ w
  reached : ∃ t ∈ c.texts fs, w = min t.length c.limit

/-- The line shows texts in columns of such widths, with two blanks between the cells. -/
def Shows (ws : List Nat) (ts : List Text) (line : Text) : Prop :=
  ∃ cells : List Text, line = Text.joinWith "  " cells ∧
    List.Forall₂ (fun x cell => Text.FillsCell x.1 x.2 cell) (ws.zip ts) cells

section Widths

variable {c : Column} {fs : List Finding} {w : Nat}

/-- A number is the length of the longest of some texts. -/
def IsLongest (n : Nat) (ts : List Text) : Prop :=
  (∀ t ∈ ts, t.length ≤ n) ∧ ∃ t ∈ ts, t.length = n

theorem IsLongest.concat {n : Nat} {ts : List Text} (h : IsLongest n ts) (t : Text) :
    IsLongest (max n t.length) (ts ++ [t]) := by
  obtain ⟨hle, u, hu, hlength⟩ := h
  refine ⟨fun v hv => ?_, ?_⟩
  · rcases List.mem_append.1 hv with hv | hv
    · exact Nat.le_trans (hle v hv) (Nat.le_max_left ..)
    · rw [List.mem_singleton.1 hv]
      exact Nat.le_max_right ..
  · by_cases hmax : n ≤ t.length
    · exact ⟨t, by simp, by omega⟩
    · exact ⟨u, by simp [hu], by omega⟩

theorem IsLongest.fits {n : Nat} (h : IsLongest n (c.texts fs)) : c.Fits fs (min n c.limit) := by
  obtain ⟨hle, t, ht, hlength⟩ := h
  refine ⟨fun u hu => ?_, t, ht, by rw [hlength]⟩
  have := hle u hu
  omega

/-- The numbers that gathering the rows leads to are the lengths of the longest texts. -/
theorem forall₂_longest (fs : List Finding) (more : List Finding) {ns : List Nat}
    (h : List.Forall₂ (fun (c : Column) n => IsLongest n (c.texts fs)) columns ns) :
    List.Forall₂ (fun (c : Column) n => IsLongest n (c.texts (fs ++ more))) columns
      ((more.map row).foldl (fun ws r => List.zipWith max ws (r.map List.length)) ns) := by
  induction more generalizing fs ns with
  | nil => simpa using h
  | cons f more ih =>
    have hnext : List.Forall₂ (fun (c : Column) n => IsLongest n (c.texts (fs ++ [f]))) columns
        (List.zipWith max ns ((row f).map List.length)) := by
      simp only [columns, List.forall₂_cons_left_iff, List.forall₂_nil_left_iff] at h
      obtain ⟨a, _, ha, ⟨b, _, hb, ⟨c, _, hc, ⟨d, _, hd, rfl, rfl⟩, rfl⟩, rfl⟩, rfl⟩ := h
      simp only [Column.texts, List.map_append, List.map_cons, List.map_nil,
        ← List.cons_append] at ha hb hc hd ⊢
      exact .cons (ha.concat _) (.cons (hb.concat _) (.cons (hc.concat _)
        (.cons (hd.concat _) .nil)))
    simpa using ih (fs ++ [f]) hnext

theorem forall₂_widths (fs : List Finding) :
    List.Forall₂ (fun (c : Column) w => c.Fits fs w) columns (widths (fs.map row)) := by
  have hheadings : List.Forall₂ (fun (c : Column) n => IsLongest n (c.texts [])) columns
      (headings.map List.length) := by
    have hself : ∀ t : Text, IsLongest t.length [t] := fun t => by simp [IsLongest]
    exact .cons (hself _) (.cons (hself _) (.cons (hself _) (.cons (hself _) .nil)))
  have hlongest := forall₂_longest [] fs hheadings
  rw [List.nil_append] at hlongest
  unfold widths
  generalize (fs.map row).foldl _ _ = ns at hlongest
  simp only [columns, List.forall₂_cons_left_iff, List.forall₂_nil_left_iff] at hlongest
  obtain ⟨a, _, ha, ⟨b, _, hb, ⟨c, _, hc, ⟨d, _, hd, rfl, rfl⟩, rfl⟩, rfl⟩, rfl⟩ := hlongest
  exact .cons ha.fits (.cons hb.fits (.cons hc.fits (.cons hd.fits .nil)))

theorem Column.Fits.le_limit (h : c.Fits fs w) : w ≤ c.limit := by
  obtain ⟨t, -, hw⟩ := h.reached
  omega

/-- A text of the column is shown as a whole, or the column is as wide as it may be. -/
theorem Column.Fits.lt_or_le (h : c.Fits fs w) (hlimit : 3 < c.limit) {t : Text}
    (ht : t ∈ c.texts fs) : 3 < w ∨ t.length ≤ w := by
  have := h.covers t ht
  omega

/-- The columns together are no wider than their largest widths. -/
theorem sum_le_of_fits {ws : List Nat} {cs : List Column}
    (h : List.Forall₂ (fun (c : Column) w => c.Fits fs w) cs ws) :
    ws.sum ≤ (cs.map Column.limit).sum := by
  induction h with
  | nil => exact Nat.le_refl 0
  | cons hfits _ ih =>
    have := hfits.le_limit
    simp only [List.sum_cons, List.map_cons]
    omega

end Widths

/-! ## Lines -/

section Lines

variable {fs : List Finding} {ws : List Nat} {ts : List Text} {t : Text}

theorem shows_line (h : List.Forall₂ (fun w (t : Text) => 3 < w ∨ t.length ≤ w) ws ts) :
    Shows ws ts (line ws ts) := by
  refine ⟨_, rfl, ?_⟩
  induction h with
  | nil => exact .nil
  | cons hfirst _ ih => exact .cons (Text.fillsCell_clip hfirst) ih

/-- The texts that are read off from the columns are shown in them. -/
theorem shows_line_columns (h : List.Forall₂ (fun (c : Column) w => c.Fits fs w) columns ws)
    {text : Column → Text} (htext : ∀ c ∈ columns, text c ∈ c.texts fs) :
    Shows ws (columns.map text) (line ws (columns.map text)) := by
  refine shows_line ?_
  have hlimits : ∀ c ∈ columns, 3 < c.limit := by decide
  generalize columns = cs at h htext hlimits
  induction h with
  | nil => exact .nil
  | cons hfits _ ih =>
    rw [List.forall_mem_cons] at htext hlimits
    exact .cons (hfits.lt_or_le hlimits.1 htext.1) (ih htext.2 hlimits.2)

theorem Shows.length_eq (h : Shows ws ts t) (hlength : ws.length = ts.length) :
    t.length = ws.sum + 2 * (ws.length - 1) := by
  obtain ⟨cells, rfl, hcells⟩ := h
  have hwidths : cells.map List.length = ws := by
    induction ws generalizing ts cells with
    | nil => cases hcells; rfl
    | cons w ws ih =>
      obtain ⟨t, ts, rfl⟩ := List.exists_cons_of_length_eq_add_one hlength.symm
      cases hcells with
      | cons hfirst hrest => rw [List.map_cons, hfirst.length_eq, ih (by simpa using hlength) _ hrest]
  have hcount : cells.length = ws.length := by rw [← hwidths, List.length_map]
  rw [Text.length_joinWith, hwidths, hcount]
  rfl

theorem length_rule (ws : List Nat) :
    (Text.joinWith "  " (ws.map fun w => Text.copies w '-')).length =
      ws.sum + 2 * (ws.length - 1) := by
  have hlengths : (ws.map fun w => Text.copies w '-').map List.length = ws := by
    simp [Text.copies, Function.comp_def]
  rw [Text.length_joinWith, hlengths, List.length_map]
  rfl

/-- An item of a report carries what the rows of a table are listed by. -/
structure Carries (item : Json) (f : Finding) : Prop where
  id : item.field? "id" = some (.text f.id)
  severity : item.field? "severity" = some (.text f.severity.label)
  className : item.field? "class_name" = some (.text f.className)

theorem carries_finding (f : Finding) : Carries (Report.finding f) f := by
  rw [Report.finding]
  constructor <;> rcases f.cve with _ | _ | ⟨c, t⟩ <;> cases f.references <;> rfl

/-- The table and the report show the same findings. Where there are any, both list them in one
order, the stable one by severity, identifier and class name, and each finding once; in the report
its item carries these three. The lines of the table are equally long, and not longer than 135; each
cell shows its text, cut where the column is as wide as it may be. The report counts the findings by
severity as the console does, and the counts add up to the number of findings. -/
theorem lines_beside_report (hne : fs ≠ []) (header : ReportHeader) :
    ∃ gs ws heading rule rows,
      Finding.Arranges fs gs ∧
      (Report.build header fs).field? "findings" = some (.list (gs.map Report.finding)) ∧
      (∀ f ∈ gs, Carries (Report.finding f) f) ∧
      lines fs = heading :: rule :: rows ∧
      List.Forall₂ (fun (c : Column) w => c.Fits gs w) columns ws ∧
      Shows ws (columns.map Column.heading) heading ∧
      rule = Text.joinWith "  " (ws.map fun w => Text.copies w '-') ∧
      List.Forall₂ (fun f row => Shows ws (columns.map (·.cell f)) row) gs rows ∧
      (∃ n ≤ 135, ∀ t ∈ lines fs, t.length = n) ∧
      ((Report.build header fs).field? "summary").bind (·.field? "findings_by_severity") =
        some (.object ((Finding.severityCounts fs).map fun x => (x.1.label, .int x.2))) ∧
      Finding.severityCounts fs = Severity.all.map (fun s => (s, fs.countP (·.severity = s))) ∧
      (∀ s, CommandLine.Run.count s fs = fs.countP (·.severity = s)) ∧
      ((Finding.severityCounts fs).map Prod.snd).sum = fs.length := by
  have hfits := forall₂_widths (Finding.sorted fs)
  have hlines : lines fs =
      line (widths ((Finding.sorted fs).map row)) headings ::
        Text.joinWith "  " ((widths ((Finding.sorted fs).map row)).map fun w => Text.copies w '-') ::
        ((Finding.sorted fs).map row).map (line (widths ((Finding.sorted fs).map row))) := by
    simp [lines, hne]
  generalize widths ((Finding.sorted fs).map row) = ws at hfits hlines
  have hcount : ws.length = 4 := hfits.length_eq.symm
  have hheading : Shows ws (columns.map Column.heading) (line ws headings) :=
    shows_line_columns hfits fun c _ => List.mem_cons_self ..
  have hrows : ∀ f ∈ Finding.sorted fs, Shows ws (columns.map (·.cell f)) (line ws (row f)) :=
    fun f hf => shows_line_columns hfits fun c _ =>
      List.mem_cons_of_mem _ (List.mem_map_of_mem hf)
  have hsum : ws.sum ≤ 129 := sum_le_of_fits hfits
  refine ⟨Finding.sorted fs, ws, _, _, _, Finding.arranges_sorted fs, rfl,
    fun f _ => carries_finding f, hlines, hfits, hheading, rfl, ?_,
    ⟨ws.sum + 2 * (ws.length - 1), by omega, ?_⟩, rfl, ?_, fun s => Finding.count_eq s fs,
    Finding.sum_severityCounts fs⟩
  · rw [List.map_map, List.forall₂_map_right_iff, List.forall₂_same]
    exact hrows
  · rw [hlines]
    simp only [List.forall_mem_cons, List.forall_mem_map]
    exact ⟨hheading.length_eq hcount, length_rule ws, fun f hf => (hrows f hf).length_eq hcount⟩
  · simp only [Finding.severityCounts, List.countP_eq_length_filter]

end Lines

/-- A finding with a title that tells it apart. -/
def titled (title : Text) (severity : Severity) (className : Text) : Finding where
  id := "X"
  title
  description := []
  severity
  confidence := .high
  className
  vulnerableConstructor := false
  locations := []
  evidence := []
  recommendation := []
  references := []

/-- Two findings with one key, and between them a critical one with a long class name. -/
def longNamed : List Finding :=
  [titled "first" .info "a.B", titled "second" .critical (Text.copies 90 'c'),
    titled "third" .info "a.B"]

/-- The two with one key keep their order, and all lines are equally long. -/
theorem lines_beside_report_longNamed :
    longNamed ≠ [] ∧ ∀ header : ReportHeader, ∃ gs : List Finding,
      gs.filter (·.listKey = ((4, "X", "a.B") : Nat × Text × Text)) =
        [titled "first" .info "a.B", titled "third" .info "a.B"] ∧
      (Report.build header longNamed).field? "findings" = some (.list (gs.map Report.finding)) ∧
      (lines longNamed).length = 5 ∧ ∃ n ≤ 135, ∀ t ∈ lines longNamed, t.length = n := by
  have hne : longNamed ≠ [] := by simp [longNamed]
  refine ⟨hne, fun header => ?_⟩
  obtain ⟨gs, ws, heading, rule, rows, harranges, hfindings, -, hlines, -, -, -, hrows, hlength, -⟩ :=
    lines_beside_report hne header
  have hcount : rows.length = 3 := by rw [← hrows.length_eq, harranges.perm.length_eq]; rfl
  refine ⟨gs, ?_, hfindings, by rw [hlines, List.length_cons, List.length_cons, hcount], hlength⟩
  rw [harranges.stable]
  decide

end Table

end JndiScan

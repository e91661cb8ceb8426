/-
Where the files of classes lie. The names of the file of a class are those of the class, with the
ending of class files at the last of them, and a name without dots leads nowhere else. Classes whose
names the file system tells apart have files that it tells apart.
-/
import JndiScan.Dalvik.Conversion
import JndiScan.Proofs.Files.Path
import JndiScan.Proofs.Files.Tree
import JndiScan.Proofs.Text.Utf8

namespace JndiScan

namespace Text

/-- What is added without a separator is added to the last piece. -/
theorem splitOn_append_of_not_mem {sep : CodePoint} {u : Text} (hu : sep ∉ u) (t : Text) :
    ∃ init last, splitOn sep t = init ++ [last] ∧ splitOn sep (t ++ u) = init ++ [last ++ u] := by
  induction t with
  | nil => exact ⟨[], [], rfl, splitOn_of_not_mem hu⟩
  | cons c t ih =>
    obtain ⟨init, last, ht, htu⟩ := ih
    by_cases hc : c = sep
    · refine ⟨[] :: init, last, ?_, ?_⟩
      · rw [splitOn, if_pos hc, ht, List.cons_append]
      · rw [List.cons_append, splitOn, if_pos hc, htu, List.cons_append]
    · cases init with
      | nil =>
        refine ⟨[], c :: last, ?_, ?_⟩
        · rw [splitOn, if_neg hc, ht]
          rfl
        · rw [List.cons_append, splitOn, if_neg hc, htu]
          rfl
      | cons first init =>
        refine ⟨(c :: first) :: init, last, ?_, ?_⟩
        · rw [splitOn, if_neg hc, ht]
          rfl
        · rw [List.cons_append, splitOn, if_neg hc, htu]
          rfl

end Text

namespace Path

theorem octets_eq_nil_iff {t : Text} : octets t = [] ↔ t = [] := by
  cases t with
  | nil => simp [octets]
  | cons c t =>
    have hone : (if standsForOctet c then [c.val.toUInt8] else Text.Utf8.encodeOne c) ≠ [] := by
      split
      · exact List.cons_ne_nil _ []
      · rcases Text.Utf8.encodeOne_cases c with ⟨-, h⟩ | ⟨-, -, h⟩ | ⟨-, -, h⟩ | ⟨-, h⟩ <;>
          exact h ▸ List.cons_ne_nil _ _
    simp [octets, hone]

end Path

namespace Dalvik.Conversion

/-- The names that lead from the directory of a conversion to the file of a class. -/
def segments (d : ClassDefinition) : List Text := Path.names (fileName d)

variable {d e : ClassDefinition}

/-- The names of a class, beside those of its file. -/
theorem exists_segments (h : .ofChar '.' ∉ d.name) : ∃ init last,
    Path.names d.name = init ++ (if last = [] then [] else [last]) ∧
      segments d = init ++ [last ++ (".class" : Text)] ∧ ∀ n ∈ init, .ofChar '.' ∉ n := by
  have hslash : Path.slash ∉ (".class" : Text) := by decide
  obtain ⟨init, last, hname, hfile⟩ := Text.splitOn_append_of_not_mem hslash d.name
  have hdot : ∀ piece ∈ init ++ [last], .ofChar '.' ∉ piece := by
    intro piece hpiece hmem
    exact h (Text.mem_of_mem_splitOn (hname ▸ hpiece) hmem)
  have hhere : .ofChar '.' ∈ Path.here := by decide
  refine ⟨init.filter fun n => !n.isEmpty && n ≠ Path.here, last, ?_, ?_, ?_⟩
  · rw [Path.names, hname, List.filter_append]
    congr 1
    by_cases hlast : last = []
    · simp [hlast]
    · have hne : last ≠ Path.here := by
        rintro rfl
        exact hdot Path.here (by simp) hhere
      simp [hlast, hne]
  · rw [segments, fileName, Path.names, hfile, List.filter_append]
    congr 1
    have hne : last ++ (".class" : Text) ≠ Path.here := by
      intro heq
      have hlength := congrArg List.length heq
      rw [List.length_append] at hlength
      have hending : (".class" : Text).length = 6 := by decide
      have hone : Path.here.length = 1 := by decide
      omega
    have hending : (".class" : Text) ≠ [] := by decide
    rw [List.filter_cons_of_pos (by simp [hne, hending]), List.filter_nil]
  · intro n hn
    exact hdot n (List.mem_append_left _ (List.mem_of_mem_filter hn))

/-- The names of the file of a class are names of entries. -/
theorem plain_segments (h : .ofChar '.' ∉ d.name) : ∀ n ∈ segments d, Path.Plain n := by
  intro n hn
  refine Path.plain_of_mem_names hn ?_
  rintro rfl
  obtain ⟨init, last, -, hsegments, hinit⟩ := exists_segments h
  rw [hsegments] at hn
  rcases List.mem_append.1 hn with hn | hn
  · exact hinit _ hn (by decide)
  · have hlength := congrArg List.length (List.mem_singleton.1 hn)
    rw [List.length_append] at hlength
    have hending : (".class" : Text).length = 6 := by decide
    have htwo : Path.above.length = 2 := by decide
    omega

theorem segments_ne_nil (h : .ofChar '.' ∉ d.name) : segments d ≠ [] := by
  obtain ⟨init, last, -, hsegments, -⟩ := exists_segments h
  rw [hsegments]
  simp

/-- Classes have one file only if they have one name, as the file system tells names apart. -/
theorem key_names_of_key_segments (hd : .ofChar '.' ∉ d.name) (he : .ofChar '.' ∉ e.name)
    (h : Path.key (segments d) = Path.key (segments e)) :
    Path.key (Path.names d.name) = Path.key (Path.names e.name) := by
  obtain ⟨init, last, hdname, hdfile, -⟩ := exists_segments hd
  obtain ⟨init', last', hename, hefile, -⟩ := exists_segments he
  rw [hdfile, hefile, Path.key_append, Path.key_append] at h
  obtain ⟨hinit, hlast⟩ := List.append_inj' h rfl
  have hlast : Path.octets last = Path.octets last' := by
    simpa [Path.octets_append] using hlast
  have hempty : last = [] ↔ last' = [] := by
    rw [← Path.octets_eq_nil_iff, hlast, Path.octets_eq_nil_iff]
  rw [hdname, hename, Path.key_append, Path.key_append, hinit]
  by_cases hnil : last = []
  · rw [if_pos hnil, if_pos (hempty.1 hnil)]
  · rw [if_neg hnil, if_neg fun h => hnil (hempty.2 h), Path.key_cons, Path.key_cons, hlast]

end Dalvik.Conversion

end JndiScan

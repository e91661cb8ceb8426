/-
The descriptors in a report. An item of a report tells its class by its dotted name and by the
descriptor that is made of that name again. So the descriptor is that of the class as the pool
names it exactly when the name has no dot and is neither empty, an array nor enclosed.
-/
import JndiScan.Proofs.ClassName.Descriptor
import JndiScan.Proofs.Pool.Observers
import JndiScan.Proofs.Report.Verdict
import JndiScan.Proofs.Signature.Overlay

namespace JndiScan

open ClassName

/-! ## Items of a report -/

namespace Report

/-- The items of a report, one for each finding. -/
def items (report : Json) : List Json :=
  match report.field? "findings" with
  | some (.list items) => items
  | _ => []

/-- The descriptor of the class that an item tells. -/
def classDescriptor (item : Json) : Option Json := item.field? "class_desc"

theorem items_build (header : ReportHeader) (fs : List Finding) :
    items (build header fs) = (Finding.sorted fs).map finding := rfl

theorem finding_mem_items {f : Finding} {fs : List Finding} (h : f ∈ fs) (header : ReportHeader) :
    finding f ∈ items (build header fs) := by
  rw [items_build]
  exact List.mem_map_of_mem (List.mem_mergeSort.2 h)

theorem classDescriptor_finding (f : Finding) :
    classDescriptor (finding f) = some (optional (descriptor? f.className)) := by
  rw [finding]
  rcases f.cve with _ | _ | ⟨c, t⟩ <;> cases f.references <;> rfl

end Report

/-! ## The classes that findings tell -/

theorem Pool.mem_toList_of_mem_withSuffix {pool : Pool} {tail : Text} {e : PoolEntry}
    (h : e ∈ pool.withSuffix tail) : e ∈ pool.toList := by
  rw [Pool.toList_eq_map]
  exact List.map_subset _ (List.filter_subset_self _) h

namespace Finding

variable {s : Signature} {pool : Pool} {e : PoolEntry} {f : Finding}

/-- Every finding of a check tells a class of the pool. -/
theorem exists_tells_of_mem_ofCheck (hf : f ∈ ofCheck s (pool.check s)) :
    ∃ e ∈ pool.toList, Tells f.severity f.vulnerableConstructor e f := by
  cases hv : (pool.check s).verdict with
  | notPresent =>
    rw [ofCheck_of_notPresent hv] at hf
    cases hf
  | patched =>
    rw [ofCheck_of_patched hv, Pool.lookups_eq] at hf
    obtain ⟨e, he, rfl⟩ := List.mem_map.1 hf
    exact ⟨e, Pool.mem_toList_of_mem_withSuffix he, tells_ofPresence s e⟩
  | vulnerable =>
    rw [ofCheck_of_vulnerable hv] at hf
    obtain ⟨found, hfound, rfl⟩ := List.mem_map.1 hf
    rw [Pool.vulnerable_eq] at hfound
    split at hfound
    · cases hfound
    · obtain ⟨e, he, rfl⟩ := List.mem_map.1 (List.mem_filter.1 hfound).1
      exact ⟨e, Pool.mem_toList_of_mem_withSuffix he, tells_ofVulnerable s _ e _⟩

theorem findings_of_run {entry : Option Value} {console console' : Console}
    {result : ScannerResult}
    (h : (Scanner.log4shell.run entry pool).run console = .ok result console') :
    ∃ s, result.findings = ofCheck s (pool.check s) := by
  cases hs : Signature.ofEntry (entry.getD .null) with
  | error error =>
    simp only [Scanner.log4shell, hs] at h
    cases h
  | ok s =>
    obtain ⟨console'', hrun⟩ := Pool.exists_run_log4shell pool console hs
    rw [hrun] at h
    cases h
    exact ⟨s, rfl⟩

/-! ## The descriptor of a class -/

/-- The name of a class in a report is that of the class with its dimensions, unless nothing is left
of it. -/
theorem classNameOf_cases (h : e.name ≠ []) :
    (e.name = wrap [] ∧ classNameOf e = wrap []) ∨
    ∃ k d, e.name = arrayDescriptor k d ∧ d.head? ≠ some (.ofChar '[') ∧
      classNameOf e = arrayName k ((unwrap d).replace (.ofChar '/') (.ofChar '.')) := by
  obtain ⟨k, d, hname, hhead⟩ := exists_arrayDescriptor e.name
  have hdotted : dotted? e.name =
      some (arrayName k ((unwrap d).replace (.ofChar '/') (.ofChar '.'))) := by
    rw [hname]
    exact dotted?_arrayDescriptor k hhead (hname ▸ h)
  by_cases hempty : arrayName k ((unwrap d).replace (.ofChar '/') (.ofChar '.')) = []
  · obtain ⟨rfl, hnil⟩ := arrayName_eq_nil_iff.1 hempty
    rw [arrayDescriptor_zero] at hname
    have hclass : classNameOf e = e.name := by
      simp only [classNameOf, hdotted, List.isEmpty_iff, hempty, if_true]
    have hwrap : e.name = wrap [] := by
      rw [hname]
      exact (unwrap_eq_nil_iff.1 (Text.replace_eq_nil_iff.1 hnil)).resolve_left (hname ▸ h)
    exact .inl ⟨hwrap, hclass.trans hwrap⟩
  · refine .inr ⟨k, d, hname, hhead, ?_⟩
    simp only [classNameOf, hdotted, List.isEmpty_iff, hempty, if_false]

theorem describable_of_descriptor?_eq (h : descriptor? (classNameOf e) = some (wrap e.name)) :
    Describable e.name := by
  have hne : e.name ≠ [] := by
    intro hnil
    have hnone : classNameOf e = [] := by simp [classNameOf, hnil, dotted?]
    rw [hnone] at h
    cases h
  rcases classNameOf_cases hne with ⟨hname, hclass⟩ | ⟨k, d, hname, hhead, hclass⟩
  · rw [hclass, hname] at h
    exact absurd h (by decide)
  · rw [hclass] at h
    cases k with
    | succ k =>
      have hend : ¬ ("[]" : Text) <:+ arrayName (k + 1) _ := not_brackets_suffix_of_descriptor? h
      rw [arrayName_succ] at hend
      exact absurd (List.suffix_append _ _) hend
    | zero =>
      rw [arrayDescriptor_zero] at hname
      rw [arrayName_zero, ← hname] at h
      rw [← hname] at hhead
      exact describable_of_descriptor?_unwrap hne hhead h

theorem descriptor?_classNameOf_eq_iff :
    descriptor? (classNameOf e) = some (wrap e.name) ↔ Describable e.name := by
  refine ⟨describable_of_descriptor?_eq, fun h => ?_⟩
  have hne : e.name.replace (.ofChar '/') (.ofChar '.') ≠ [] :=
    mt Text.replace_eq_nil_iff.1 h.ne_nil
  have hclass : classNameOf e = e.name.replace (.ofChar '/') (.ofChar '.') := by
    simp only [classNameOf, h.dotted?_eq, List.isEmpty_iff, hne, if_false]
  have hdescriptor := h.descriptor?_arrayName 0
  rwa [arrayName_zero, arrayDescriptor_zero, ← hclass] at hdescriptor

/-- A finding tells classes of one name, which its fingerprint holds. -/
theorem Tells.name_eq {severity severity' : Severity} {flag flag' : Bool} {e' : PoolEntry}
    (h : Tells severity flag e f) (h' : Tells severity' flag' e' f) : e.name = e'.name :=
  List.append_cancel_left (Option.some.inj (h.fingerprint.symm.trans h'.fingerprint))

end Finding

namespace Report

/-- The descriptor in an item is that of the class by its name in the pool, if the name can be
described, and only then. -/
theorem classDescriptor_eq_iff {severity : Severity} {flag : Bool} {e : PoolEntry} {f : Finding}
    (h : Finding.Tells severity flag e f) :
    classDescriptor (finding f) = some (.text (wrap e.name)) ↔ Describable e.name := by
  rw [classDescriptor_finding, h.className, ← Finding.descriptor?_classNameOf_eq_iff, Option.some_inj]
  cases descriptor? (Finding.classNameOf e) with
  | none => exact iff_of_false nofun nofun
  | some d => rw [optional, Json.text.injEq, Option.some_inj]

/-- Names and descriptors are made of each other. The descriptor of arrays with any number of
dimensions of a class gives the dotted name with as many pairs of brackets, and this gives the
descriptor; a dotted name with pairs of brackets comes back from its descriptor; so what a report
tells of a class of the pool is the descriptor of its name. -/
theorem descriptors_tell_names :
    (∀ (k : Nat) (n : Text), Unmarked (.ofChar '.') n →
      dotted? (arrayDescriptor k (wrap n)) =
          some (arrayName k (n.replace (.ofChar '/') (.ofChar '.'))) ∧
        descriptor? (arrayName k (n.replace (.ofChar '/') (.ofChar '.'))) =
          some (arrayDescriptor k (wrap n))) ∧
    (∀ (k : Nat) (m : Text), Unmarked (.ofChar '/') m →
      (descriptor? (arrayName k m)).bind dotted? = some (arrayName k m)) ∧
    ∀ (pool : Pool) (entry : Option Value) (console console' : Console) (result : ScannerResult),
      (Scanner.log4shell.run entry pool).run console = .ok result console' →
      ∀ f ∈ result.findings,
        (∀ header, finding f ∈ items (build header result.findings)) ∧
        ∃ e ∈ pool.toList, Finding.Tells f.severity f.vulnerableConstructor e f ∧
          (Unmarked (.ofChar '.') e.name →
            classDescriptor (finding f) = some (.text (wrap e.name))) := by
  refine ⟨fun k n hn => ⟨dotted?_arrayDescriptor_wrap k n, hn.describable.descriptor?_arrayName k⟩,
    fun k m hm => hm.descriptor?_bind_dotted? k, fun pool entry console console' result hrun f hf =>
    ⟨finding_mem_items hf, ?_⟩⟩
  obtain ⟨s, hfindings⟩ := Finding.findings_of_run hrun
  rw [hfindings] at hf
  obtain ⟨e, he, htells⟩ := Finding.exists_tells_of_mem_ofCheck hf
  exact ⟨e, he, htells, fun hname => (classDescriptor_eq_iff htells).2 hname.describable⟩

/-- The classes of an old release. -/
def oldRelease : Pool := Pool.ofOccurrences [Pool.lookupClass, Pool.oldManager]

/-- A class whose name begins with the letter of descriptors and ends in it, arrays of it, and the
finding of an old release. -/
theorem descriptors_tell_names_oldRelease :
    Unmarked (.ofChar '.') "Lib/L" ∧ dotted? "[[LLib/L;" = some "Lib.L[][]" ∧
      descriptor? "Lib.L[][]" = some "[[LLib/L;" ∧
      Unmarked (.ofChar '/') "Lib.L" ∧
      (descriptor? "Lib.L[]").bind dotted? = some "Lib.L[]" ∧
      ∃ result console',
        (Scanner.log4shell.run none oldRelease).run { verbose := false } = .ok result console' ∧
        ∃ f ∈ result.findings, classDescriptor (finding f) =
          some (.text "Lorg/apache/logging/log4j/core/net/JndiManager;") := by
  obtain ⟨hdescriptor, hdotted, hfinding⟩ := descriptors_tell_names
  have hslashes : Unmarked (.ofChar '.') "Lib/L" := by decide
  have hdots : Unmarked (.ofChar '/') "Lib.L" := by decide
  refine ⟨hslashes, (hdescriptor 2 "Lib/L" hslashes).1, (hdescriptor 2 "Lib/L" hslashes).2, hdots,
    hdotted 1 "Lib.L" hdots, ?_⟩
  have hrules : Signature.ofEntry ((none : Option Value).getD .null) = .ok .builtIn :=
    Signature.ofEntry_of_isAbsent rfl
  obtain ⟨console', hrun⟩ := Pool.exists_run_log4shell oldRelease { verbose := false } hrules
  have hverdict : (oldRelease.check .builtIn).verdict = .vulnerable := by decide +kernel
  have hnames : (oldRelease.check .builtIn).vulnerable.map (fun found => found.1.name) =
      ["org/apache/logging/log4j/core/net/JndiManager"] := by decide +kernel
  obtain ⟨found, hfound, hname⟩ := List.map_eq_singleton_iff.1 hnames
  have hmem : Finding.ofVulnerable .builtIn (oldRelease.check .builtIn).lookups found.1 found.2 ∈
      Finding.ofCheck .builtIn (oldRelease.check .builtIn) := by
    rw [Finding.ofCheck_of_vulnerable hverdict, hfound]
    exact List.mem_singleton_self _
  obtain ⟨-, e, -, htells, hclass⟩ := hfinding oldRelease none _ console' _ hrun _ hmem
  have he : e.name = "org/apache/logging/log4j/core/net/JndiManager" :=
    (htells.name_eq (Finding.tells_ofVulnerable ..)).trans hname
  rw [he] at hclass
  exact ⟨_, console', hrun, _, hmem, hclass (by decide)⟩

end Report

end JndiScan

/-
Places do not matter for what a check finds. The classes of a pool, by their keys, are told by the
definitions of the occurrences and their order, and so are the verdict and the classes that it rests
on, whatever the places are.
-/
import JndiScan.Check
import JndiScan.Proofs.Pool.Grouping

namespace JndiScan

/-- Occurrences are told by their definitions and their places. -/
theorem Occurrence.eq_of_map_eq {os os' : List Occurrence}
    (hd : os.map (·.definition) = os'.map (·.definition))
    (hp : os.map (·.place) = os'.map (·.place)) : os = os' := by
  induction os generalizing os' with
  | nil => exact (List.map_eq_nil_iff.1 hd.symm).symm
  | cons o os ih =>
    cases os' with
    | nil => cases hd
    | cons o' os' =>
      rw [List.map_cons, List.map_cons, List.cons.injEq] at hd hp
      obtain ⟨definition, place⟩ := o
      obtain ⟨definition', place'⟩ := o'
      obtain ⟨rfl, hd⟩ := hd
      obtain ⟨rfl, hp⟩ := hp
      rw [ih hd hp]

/-- What a check finds, without the places. -/
structure Findings where
  verdict : Verdict
  stage : Nat
  lookups : List ClassDefinition
  vulnerable : List (ClassDefinition × List Member)
  deriving DecidableEq, Repr

/-- What a check found, without the places. -/
def CheckResult.findings (r : CheckResult) : Findings where
  verdict := r.verdict
  stage := r.stage
  lookups := r.lookups.map (·.definition)
  vulnerable := r.vulnerable.map fun found => (found.1.definition, found.2)

namespace Pool

variable {pool pool' : Pool} {os os' : List Occurrence}

/-- The classes of a pool with their keys, in the order of these. -/
def classes (pool : Pool) : List (Text × ClassDefinition) :=
  pool.entries.toList.map fun e => (e.1, e.2.definition)

theorem map_definition_withSuffix (pool : Pool) (tail : Text) :
    (pool.withSuffix tail).map (·.definition) =
      (pool.classes.filter fun e => ClassName.hasSuffix e.1 tail).map (·.2) := by
  rw [classes, withSuffix, List.filter_map, List.map_map, List.map_map]
  rfl

/-- What is found of the vulnerable class, without the places, is told by the definitions. -/
theorem map_vulnerableClasses (pool : Pool) (s : Signature) :
    (s.vulnerableClasses pool).map (fun found => (found.1.definition, found.2)) =
      (((pool.withSuffix s.vulnerableClass).map (·.definition)).map fun d =>
        (d, d.members.filter s.matchesMember)).filter fun found => !found.2.isEmpty := by
  rw [Signature.vulnerableClasses, List.map_map, List.filter_map, List.filter_map, List.map_map]
  rfl

/-- Pools of the same classes give the same findings. -/
theorem findings_congr (h : pool.classes = pool'.classes) (s : Signature) :
    (pool.check s).findings = (pool'.check s).findings := by
  have hsuffix : ∀ tail, (pool.withSuffix tail).map (·.definition) =
      (pool'.withSuffix tail).map (·.definition) := by
    intro tail
    rw [map_definition_withSuffix, map_definition_withSuffix, h]
  have hvulnerable : (s.vulnerableClasses pool).map (fun found => (found.1.definition, found.2)) =
      (s.vulnerableClasses pool').map fun found => (found.1.definition, found.2) := by
    rw [map_vulnerableClasses, map_vulnerableClasses, hsuffix]
  have hlookups := hsuffix s.presenceClass
  have hnone : (pool.withSuffix s.presenceClass).isEmpty =
      (pool'.withSuffix s.presenceClass).isEmpty := by
    rw [← List.isEmpty_map, hlookups, List.isEmpty_map]
  have hsafe : (s.vulnerableClasses pool).isEmpty = (s.vulnerableClasses pool').isEmpty := by
    rw [← List.isEmpty_map, hvulnerable, List.isEmpty_map]
  simp only [check, hnone, hsafe]
  split
  · rfl
  · split
    · simp only [CheckResult.findings, hlookups]
    · simp only [CheckResult.findings, hlookups, hvulnerable]

/-! ## The classes of occurrences -/

theorem map_definition_merged (os : List Occurrence) (key : Text) :
    (merged (under os key)).map (·.definition) =
      ((os.map (·.definition)).filter fun d => ClassName.slashForm d.name = key).head? := by
  have hunder : (under os key).map (·.definition) =
      (os.map (·.definition)).filter fun d => ClassName.slashForm d.name = key := by
    rw [under, List.filter_map]
    rfl
  rw [← hunder]
  cases under os key <;> rfl

/-- The classes of a pool are told by the definitions and their order. -/
theorem classes_congr (h : os.map (·.definition) = os'.map (·.definition)) :
    (ofOccurrences os).classes = (ofOccurrences os').classes := by
  have hequiv : ((ofOccurrences os).entries.map fun _ e => e.definition).Equiv
      ((ofOccurrences os').entries.map fun _ e => e.definition) := by
    refine Std.TreeMap.Equiv.of_forall_constGet?_eq fun key => ?_
    rw [Std.TreeMap.getElem?_map, Std.TreeMap.getElem?_map, getElem?_ofOccurrences,
      getElem?_ofOccurrences, map_definition_merged, map_definition_merged, h]
  have hlist := hequiv.toList_eq
  rwa [Std.TreeMap.toList_map, Std.TreeMap.toList_map] at hlist

/-- What a check finds is told by the definitions of the occurrences and their order. -/
theorem findings_ofOccurrences_congr (h : os.map (·.definition) = os'.map (·.definition))
    (s : Signature) :
    ((ofOccurrences os).check s).findings = ((ofOccurrences os').check s).findings :=
  findings_congr (classes_congr h) s

end Pool

end JndiScan

/-
Shading cannot hide a class. When all classes of a scan are moved below a package the pool stays the
same but for their names, which keep the ends that they had, so a check finds whatever it found
before. It finds something else only if the last segment of the package is part of an end that is
looked for.
-/
import JndiScan.Proofs.Check.Growth
import JndiScan.Proofs.Check.Order
import JndiScan.Proofs.ClassName

namespace JndiScan

open ClassName (below Plain)

/-! ## Classes moved below a package -/

/-- The class below a package. -/
def ClassDefinition.below (p : Text) (d : ClassDefinition) : ClassDefinition :=
  { d with name := ClassName.below p d.name }

/-- The occurrence with its class below a package, at the same place. -/
def Occurrence.below (p : Text) (o : Occurrence) : Occurrence :=
  { o with definition := o.definition.below p }

/-- The entry with its class below a package. -/
def PoolEntry.below (p : Text) (e : PoolEntry) : PoolEntry :=
  { e with definition := e.definition.below p }

/-- The result with its classes below a package. -/
def CheckResult.below (p : Text) (r : CheckResult) : CheckResult :=
  { r with
    lookups := r.lookups.map (·.below p)
    vulnerable := r.vulnerable.map fun found => (found.1.below p, found.2) }

theorem compare_below (p a b : Text) :
    compare (ClassName.below p a) (ClassName.below p b) = compare a b := by
  have hcons : ∀ (c : CodePoint) (x y : Text), compare (c :: x) (c :: y) = compare x y := by
    intro c x y
    have hself : compare c c = .eq := Std.ReflCmp.compare_self
    rw [List.compare_cons_cons, hself, Ordering.eq_then]
  rw [ClassName.below, ClassName.below]
  induction p with
  | nil => exact hcons _ a b
  | cons c p ih => rw [List.cons_append, List.cons_append, hcons, ih]

namespace Pool

variable {os : List Occurrence} {p key : Text} {s : Signature}

/-- Occurrences of classes whose names are their own keys. -/
def PlainNames (os : List Occurrence) : Prop := ∀ o ∈ os, Plain o.definition.name

theorem keyOf_below (hp : Plain p) {o : Occurrence} (ho : Plain o.definition.name) :
    keyOf (o.below p) = below p (keyOf o) := by
  have hkey : keyOf o = o.definition.name := ho.slashForm_eq
  rw [hkey]
  exact (hp.below ho).slashForm_eq

theorem plain_of_mem_keys (hos : PlainNames os) (h : key ∈ os.map keyOf) : Plain key := by
  obtain ⟨o, ho, rfl⟩ := List.mem_map.1 h
  have hkey : keyOf o = o.definition.name := (hos o ho).slashForm_eq
  rw [hkey]
  exact hos o ho

/-! ## The pool of moved classes -/

theorem under_below (hos : PlainNames os) (hp : Plain p) (key : Text) :
    under (os.map (·.below p)) (below p key) = (under os key).map (·.below p) := by
  rw [under, List.filter_map, under]
  congr 1
  refine List.filter_congr fun o ho => ?_
  rw [Function.comp_apply, keyOf_below hp (hos o ho)]
  exact decide_eq_decide.2 (ClassName.below_injective p).eq_iff

theorem merged_below (p : Text) (os : List Occurrence) :
    merged (os.map (·.below p)) = (merged os).map (·.below p) := by
  cases os with
  | nil => rfl
  | cons o os =>
    have hplaces : (os.map (·.below p)).map (·.place) = os.map (·.place) := by
      rw [List.map_map]
      rfl
    rw [List.map_cons, merged, hplaces]
    rfl

/-- Under the moved key the pool holds the moved class, at all of its places. -/
theorem getElem?_below (hos : PlainNames os) (hp : Plain p) (key : Text) :
    (ofOccurrences (os.map (·.below p))).entries[below p key]? =
      ((ofOccurrences os).entries[key]?).map (·.below p) := by
  rw [getElem?_ofOccurrences, getElem?_ofOccurrences, under_below hos hp, merged_below]

/-- The pool of moved classes holds nothing else. -/
theorem exists_of_getElem?_below (hos : PlainNames os) (hp : Plain p) {e : PoolEntry}
    (h : (ofOccurrences (os.map (·.below p))).entries[key]? = some e) :
    ∃ k e', key = below p k ∧ e = e'.below p ∧ (ofOccurrences os).entries[k]? = some e' := by
  obtain ⟨o, ho, hkey⟩ := List.mem_map.1 (exists_getElem?_iff.1 ⟨e, h⟩)
  obtain ⟨first, hfirst, rfl⟩ := List.mem_map.1 ho
  rw [keyOf_below hp (hos first hfirst)] at hkey
  rw [← hkey, getElem?_below hos hp] at h
  obtain ⟨e', he', hbelow⟩ := Option.map_eq_some_iff.1 h
  exact ⟨keyOf first, e', hkey.symm, hbelow.symm, he'⟩

/-- Keys and entries as they are listed are in one order, so that the members tell the list. -/
theorem eq_of_mem_iff {es es' : List (Text × PoolEntry)}
    (h : es.Pairwise fun a b => compare a.1 b.1 = .lt)
    (h' : es'.Pairwise fun a b => compare a.1 b.1 = .lt) (hmem : ∀ e, e ∈ es ↔ e ∈ es') :
    es = es' := by
  have hirrefl : ∀ a : Text × PoolEntry, compare a.1 a.1 ≠ .lt := by
    intro a hlt
    have hself : compare a.1 a.1 = .eq := Std.ReflCmp.compare_self
    rw [hself] at hlt
    cases hlt
  have hnodup : ∀ {es : List (Text × PoolEntry)},
      (es.Pairwise fun a b => compare a.1 b.1 = .lt) → es.Nodup := by
    intro es h
    refine h.imp ?_
    rintro a b hlt rfl
    exact hirrefl a hlt
  refine List.Perm.eq_of_pairwise (fun a b _ _ hab hba => ?_) h h'
    ((List.perm_ext_iff_of_nodup (hnodup h) (hnodup h')).2 hmem)
  have hswap : compare b.1 a.1 = (compare a.1 b.1).swap := Std.OrientedCmp.eq_swap
  rw [hab, hba] at hswap
  cases hswap

/-- The pool of moved classes lists the moved classes in the old order. -/
theorem toList_below (hos : PlainNames os) (hp : Plain p) :
    (ofOccurrences (os.map (·.below p))).entries.toList =
      (ofOccurrences os).entries.toList.map fun e => (below p e.1, e.2.below p) := by
  refine eq_of_mem_iff Std.TreeMap.ordered_keys_toList ?_ fun e => ?_
  · rw [List.pairwise_map]
    exact Std.TreeMap.ordered_keys_toList.imp fun {a b} hlt => (compare_below p a.1 b.1).trans hlt
  · obtain ⟨key, e⟩ := e
    rw [Std.TreeMap.mem_toList_iff_getElem?_eq_some, List.mem_map]
    constructor
    · intro h
      obtain ⟨k, e', rfl, rfl, he'⟩ := exists_of_getElem?_below hos hp h
      exact ⟨(k, e'), Std.TreeMap.mem_toList_iff_getElem?_eq_some.2 he', rfl⟩
    · rintro ⟨⟨k, e'⟩, hmem, heq⟩
      cases heq
      rw [getElem?_below hos hp, Std.TreeMap.mem_toList_iff_getElem?_eq_some.1 hmem]
      rfl

theorem plain_of_mem_toList (hos : PlainNames os) {e : Text × PoolEntry}
    (h : e ∈ (ofOccurrences os).entries.toList) : Plain e.1 :=
  plain_of_mem_keys hos
    (exists_getElem?_iff.1 ⟨e.2, Std.TreeMap.mem_toList_iff_getElem?_eq_some.1 h⟩)

/-! ## What is found in it -/

/-- What satisfies one predicate satisfies another, so it is listed again. -/
theorem filter_sublist_filter {es : List α} {f g : α → Bool}
    (h : ∀ e ∈ es, f e = true → g e = true) : (es.filter f).Sublist (es.filter g) := by
  have hfilter : es.filter f = (es.filter g).filter f := by
    rw [List.filter_filter]
    refine List.filter_congr fun e he => ?_
    cases hf : f e with
    | false => rfl
    | true => rw [h e he hf, Bool.and_self]
  rw [hfilter]
  exact List.filter_sublist

theorem withSuffix_below (hos : PlainNames os) (hp : Plain p) (tail : Text) :
    (ofOccurrences (os.map (·.below p))).withSuffix tail =
      ((ofOccurrences os).entries.toList.filter fun e =>
        ClassName.hasSuffix (below p e.1) tail).map fun e => e.2.below p := by
  rw [withSuffix, toList_below hos hp, List.filter_map, List.map_map]
  rfl

theorem vulnerableClasses_below (hos : PlainNames os) (hp : Plain p) (s : Signature) :
    s.vulnerableClasses (ofOccurrences (os.map (·.below p))) =
      ((ofOccurrences os).entries.toList.filter fun e =>
        ClassName.hasSuffix (below p e.1) s.vulnerableClass &&
          !(s.matchingMembers e.2).isEmpty).map
            fun e => (e.2.below p, s.matchingMembers e.2) := by
  rw [vulnerableClasses_eq, toList_below hos hp, List.filter_map, List.map_map]
  rfl

theorem map_below_withSuffix (p : Text) (pool : Pool) (tail : Text) :
    (pool.withSuffix tail).map (·.below p) =
      (pool.entries.toList.filter fun e => ClassName.hasSuffix e.1 tail).map
        fun e => e.2.below p := by
  rw [withSuffix, List.map_map]
  rfl

theorem map_below_vulnerableClasses (p : Text) (pool : Pool) (s : Signature) :
    (s.vulnerableClasses pool).map (fun found => (found.1.below p, found.2)) =
      (pool.entries.toList.filter fun e =>
        ClassName.hasSuffix e.1 s.vulnerableClass && !(s.matchingMembers e.2).isEmpty).map
          fun e => (e.2.below p, s.matchingMembers e.2) := by
  rw [vulnerableClasses_eq, List.map_map]
  rfl

/-- The moved classes have the ends that the classes had. -/
theorem sublist_withSuffix_below (hos : PlainNames os) (hp : Plain p) (tail : Text) :
    (((ofOccurrences os).withSuffix tail).map (·.below p)).Sublist
      ((ofOccurrences (os.map (·.below p))).withSuffix tail) := by
  rw [map_below_withSuffix, withSuffix_below hos hp]
  refine (filter_sublist_filter fun e he hsuffix => ?_).map _
  exact ClassName.hasSuffix_below hp (plain_of_mem_toList hos he) hsuffix

theorem sublist_vulnerableClasses_below (hos : PlainNames os) (hp : Plain p) (s : Signature) :
    ((s.vulnerableClasses (ofOccurrences os)).map fun found => (found.1.below p, found.2)).Sublist
      (s.vulnerableClasses (ofOccurrences (os.map (·.below p)))) := by
  rw [map_below_vulnerableClasses, vulnerableClasses_below hos hp]
  refine (filter_sublist_filter fun e he hvulnerable => ?_).map _
  rw [Bool.and_eq_true] at hvulnerable ⊢
  exact ⟨ClassName.hasSuffix_below hp (plain_of_mem_toList hos he) hvulnerable.1, hvulnerable.2⟩

/-- Without the last segment of the package in the end they have no others. -/
theorem hasSuffix_below_eq (hos : PlainNames os) (hp : Plain p) {tail : Text}
    (hlast : ClassName.lastSegment p ∉ ClassName.segments (ClassName.slashForm tail))
    {e : Text × PoolEntry} (he : e ∈ (ofOccurrences os).entries.toList) :
    ClassName.hasSuffix (below p e.1) tail = ClassName.hasSuffix e.1 tail := by
  have hplain := plain_of_mem_toList hos he
  exact Bool.eq_iff_iff.2 ⟨ClassName.hasSuffix_of_below hp hplain hlast,
    ClassName.hasSuffix_below hp hplain⟩

theorem withSuffix_below_eq (hos : PlainNames os) (hp : Plain p) {tail : Text}
    (hlast : ClassName.lastSegment p ∉ ClassName.segments (ClassName.slashForm tail)) :
    (ofOccurrences (os.map (·.below p))).withSuffix tail =
      ((ofOccurrences os).withSuffix tail).map (·.below p) := by
  rw [map_below_withSuffix, withSuffix_below hos hp]
  exact congrArg _ (List.filter_congr fun e he => hasSuffix_below_eq hos hp hlast he)

theorem vulnerableClasses_below_eq (hos : PlainNames os) (hp : Plain p)
    (hlast : ClassName.lastSegment p ∉
      ClassName.segments (ClassName.slashForm s.vulnerableClass)) :
    s.vulnerableClasses (ofOccurrences (os.map (·.below p))) =
      (s.vulnerableClasses (ofOccurrences os)).map fun found => (found.1.below p, found.2) := by
  rw [map_below_vulnerableClasses, vulnerableClasses_below hos hp]
  refine congrArg _ (List.filter_congr fun e he => ?_)
  rw [hasSuffix_below_eq hos hp hlast he]

/-! ## Checks of it -/

/-- Pools whose classes correspond give results that correspond. -/
theorem check_below_of_eq {pool pool' : Pool}
    (hlookups : pool'.withSuffix s.presenceClass =
      (pool.withSuffix s.presenceClass).map (·.below p))
    (hvulnerable : s.vulnerableClasses pool' =
      (s.vulnerableClasses pool).map fun found => (found.1.below p, found.2)) :
    pool'.check s = (pool.check s).below p := by
  by_cases hl : pool.withSuffix s.presenceClass = []
  · have hl' : pool'.withSuffix s.presenceClass = [] := by rw [hlookups, hl]; rfl
    rw [check_of_lookups_eq_nil hl, check_of_lookups_eq_nil hl']
    rfl
  · have hl' : pool'.withSuffix s.presenceClass ≠ [] := by rwa [hlookups, Ne, List.map_eq_nil_iff]
    by_cases hv : s.vulnerableClasses pool = []
    · have hv' : s.vulnerableClasses pool' = [] := by rw [hvulnerable, hv]; rfl
      rw [check_of_vulnerable_eq_nil hl hv, check_of_vulnerable_eq_nil hl' hv', hlookups]
      rfl
    · have hv' : s.vulnerableClasses pool' ≠ [] := by
        rwa [hvulnerable, Ne, List.map_eq_nil_iff]
      have hplaces : ((s.vulnerableClasses pool).map fun found =>
          (found.1.below p, found.2)).flatMap (fun found => found.1.places) =
            (s.vulnerableClasses pool).flatMap fun found => found.1.places := by
        rw [List.flatMap_map]
        rfl
      rw [check_of_vulnerable_ne_nil hl hv, check_of_vulnerable_ne_nil hl' hv', hlookups,
        hvulnerable, hplaces]
      rfl

/-- A check finds the classes that it found, below the package. -/
theorem sublist_vulnerable_below (hos : PlainNames os) (hp : Plain p) (s : Signature) :
    (((ofOccurrences os).check s).vulnerable.map fun found => (found.1.below p, found.2)).Sublist
      ((ofOccurrences (os.map (·.below p))).check s).vulnerable := by
  have hlookups := sublist_withSuffix_below hos hp s.presenceClass
  rw [vulnerable_eq, vulnerable_eq]
  by_cases hl : (ofOccurrences os).withSuffix s.presenceClass = []
  · rw [if_pos hl]
    exact List.nil_sublist _
  · have hl' : (ofOccurrences (os.map (·.below p))).withSuffix s.presenceClass ≠ [] := by
      intro hnil
      rw [hnil, List.sublist_nil, List.map_eq_nil_iff] at hlookups
      exact hl hlookups
    rw [if_neg hl, if_neg hl']
    exact sublist_vulnerableClasses_below hos hp s

/-- The verdict is told by which lists have something in them. -/
theorem strength_le_of_ne_nil {pool pool' : Pool}
    (hlookups : (pool.check s).lookups ≠ [] → (pool'.check s).lookups ≠ [])
    (hvulnerable : (pool.check s).vulnerable ≠ [] → (pool'.check s).vulnerable ≠ []) :
    (pool.check s).verdict.strength ≤ (pool'.check s).verdict.strength := by
  rcases pool.check_cases s with ⟨hv, -⟩ | ⟨hv, hl, -⟩ | ⟨hv, hl, hne, -⟩
  · rw [hv]
    exact Nat.zero_le _
  · rcases pool'.check_cases s with ⟨-, hl', -⟩ | ⟨hv', -⟩ | ⟨hv', -⟩
    · exact absurd hl' (hlookups hl)
    · rw [hv, hv']
    · rw [hv, hv']
      decide
  · rcases pool'.check_cases s with ⟨-, hl', -⟩ | ⟨-, -, hne', -⟩ | ⟨hv', -⟩
    · exact absurd hl' (hlookups hl)
    · exact absurd hne' (hvulnerable hne)
    · rw [hv, hv']

theorem ne_nil_of_sublist_map {f : α → β} {xs : List α} {ys : List β}
    (h : (xs.map f).Sublist ys) (hne : xs ≠ []) : ys ≠ [] := by
  rintro rfl
  rw [List.sublist_nil, List.map_eq_nil_iff] at h
  exact hne h

/-- Shading cannot hide a class. Let all classes be moved below a package. The verdict is at least
as strong as it was, the classes that were listed are listed under their new names with the same
constructors, and no place is lost. If the last segment of the package is no segment of the classes
that are looked for, the result is the same but for the names. -/
theorem check_below (os : List Occurrence) (p : Text) (s : Signature)
    (hos : ∀ o ∈ os, Plain o.definition.name) (hp : Plain p) :
    let r := (ofOccurrences os).check s
    let moved := (ofOccurrences (os.map (·.below p))).check s
    r.verdict.strength ≤ moved.verdict.strength ∧
    (r.lookups.map (·.below p)).Sublist moved.lookups ∧
    (r.vulnerable.map fun found => (found.1.below p, found.2)).Sublist moved.vulnerable ∧
    (∀ place ∈ r.places, place ∈ moved.places) ∧
    (ClassName.lastSegment p ∉ ClassName.segments (ClassName.slashForm s.presenceClass) →
      ClassName.lastSegment p ∉ ClassName.segments (ClassName.slashForm s.vulnerableClass) →
      moved = r.below p) := by
  intro r moved
  have hlookups : (r.lookups.map (·.below p)).Sublist moved.lookups := by
    simp only [r, moved, lookups_eq]
    exact sublist_withSuffix_below hos hp s.presenceClass
  have hvulnerable := sublist_vulnerable_below hos hp s
  refine ⟨?_, hlookups, hvulnerable, fun place hplace => ?_, fun hpresence hlast => ?_⟩
  · exact strength_le_of_ne_nil (ne_nil_of_sublist_map hlookups)
      (ne_nil_of_sublist_map hvulnerable)
  · simp only [r, moved, places_eq, List.mem_eraseDups, List.mem_flatMap] at hplace ⊢
    obtain ⟨found, hfound, hmem⟩ := hplace
    exact ⟨_, hvulnerable.subset (List.mem_map_of_mem hfound), hmem⟩
  · exact check_below_of_eq (withSuffix_below_eq hos hp hpresence)
      (vulnerableClasses_below_eq hos hp hlast)

/-- An old release that was moved into another package is found there. -/
theorem check_below_shaded :
    (∀ o ∈ [lookupClass, oldManager], Plain o.definition.name) ∧ Plain "com/shaded" ∧
    let moved := (ofOccurrences ([lookupClass, oldManager].map (·.below "com/shaded"))).check
    moved = ((ofOccurrences [lookupClass, oldManager]).check).below "com/shaded" ∧
    moved.verdict = .vulnerable := by
  have hos : ∀ o ∈ [lookupClass, oldManager], Plain o.definition.name := by decide +kernel
  have hp : Plain "com/shaded" := by decide +kernel
  have hverdict : ((ofOccurrences [lookupClass, oldManager]).check).verdict = .vulnerable := by
    decide +kernel
  obtain ⟨-, -, -, -, hsame⟩ := check_below [lookupClass, oldManager] "com/shaded" .builtIn hos hp
  have hmoved := hsame (by decide +kernel) (by decide +kernel)
  refine ⟨hos, hp, hmoved, ?_⟩
  rw [hmoved]
  exact hverdict

end Pool

end JndiScan

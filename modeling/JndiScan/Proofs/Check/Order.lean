/-
What the order of occurrences means for a verdict. Of the classes met under one key the pool keeps
the first, so the order matters where such classes differ in the constructor of vulnerable
releases, and nowhere else.
-/
import JndiScan.Proofs.Check.Verdict

namespace JndiScan

/-- Two results have one verdict and the same places. -/
def CheckResult.Agrees (r r' : CheckResult) : Prop :=
  r.verdict = r'.verdict ∧ ∀ p, p ∈ r.places ↔ p ∈ r'.places

instance (s : Signature) : DecidablePred s.IsVulnerable :=
  fun d => inferInstanceAs (Decidable (∃ m ∈ d.members, s.IsOldConstructor m))

namespace Pool

/-- A key of the vulnerable class all of whose classes are vulnerable, so the first of them in
any order. -/
def UniformKey (os : List Occurrence) (s : Signature) (key : Text) : Prop :=
  ClassName.hasSuffix key s.vulnerableClass = true ∧ (∃ o, o ∈ under os key) ∧
    ∀ o ∈ under os key, s.IsVulnerable o.definition

/-- A key of the vulnerable class under which both vulnerable classes and others were met, so that
it is the order that tells which of them is the first. -/
def MixedKey (os : List Occurrence) (s : Signature) (key : Text) : Prop :=
  ClassName.hasSuffix key s.vulnerableClass = true ∧
    (∃ o ∈ under os key, s.IsVulnerable o.definition) ∧
    ∃ o ∈ under os key, ¬ s.IsVulnerable o.definition

/-- Whatever the keys of mixed classes may add to the places of a result is there without them:
each of their places is the place of a class under a uniform key too. -/
def OrderFree (os : List Occurrence) (s : Signature) : Prop :=
  (∃ k, PresenceKey os s k) → ∀ o ∈ os, MixedKey os s (keyOf o) →
    ∃ o' ∈ os, UniformKey os s (keyOf o') ∧ o'.place = o.place

/-! ## What no order changes -/

theorem mem_under_perm {os os' : List Occurrence} (h : os.Perm os') {key : Text}
    {o : Occurrence} : o ∈ under os key ↔ o ∈ under os' key := by
  rw [mem_under, mem_under, h.mem_iff]

theorem presenceKey_perm {os os' : List Occurrence} (h : os.Perm os') {s : Signature}
    {key : Text} : PresenceKey os s key ↔ PresenceKey os' s key := by
  rw [PresenceKey, PresenceKey, (h.map keyOf).mem_iff]

theorem uniformKey_perm {os os' : List Occurrence} (h : os.Perm os') {s : Signature}
    {key : Text} : UniformKey os s key ↔ UniformKey os' s key := by
  simp only [UniformKey, mem_under_perm h]

theorem mixedKey_perm {os os' : List Occurrence} (h : os.Perm os') {s : Signature}
    {key : Text} : MixedKey os s key ↔ MixedKey os' s key := by
  simp only [MixedKey, mem_under_perm h]

/-! ## The first class of a key -/

theorem UniformKey.vulnerableKey {os : List Occurrence} {s : Signature} {key : Text}
    (h : UniformKey os s key) : VulnerableKey os s key := by
  obtain ⟨hsuffix, ⟨o, ho⟩, hall⟩ := h
  obtain ⟨first, rest, hu⟩ := List.exists_cons_of_ne_nil (List.ne_nil_of_mem ho)
  have hfirst : first ∈ under os key := hu ▸ List.mem_cons_self ..
  exact ⟨hsuffix, first, by rw [hu]; rfl, hall first hfirst⟩

theorem VulnerableKey.uniform_or_mixed {os : List Occurrence} {s : Signature} {key : Text}
    (h : VulnerableKey os s key) : UniformKey os s key ∨ MixedKey os s key := by
  obtain ⟨hsuffix, first, hfirst, hv⟩ := h
  have hmem : first ∈ under os key := List.mem_of_head? hfirst
  by_cases hall : ∀ o ∈ under os key, s.IsVulnerable o.definition
  · exact .inl ⟨hsuffix, ⟨first, hmem⟩, hall⟩
  · push Not at hall
    exact .inr ⟨hsuffix, ⟨first, hmem, hv⟩, hall⟩

/-- The occurrences with the vulnerable classes first. -/
def vulnerableFirst (os : List Occurrence) (s : Signature) : List Occurrence :=
  os.filter (fun o => s.IsVulnerable o.definition) ++
    os.filter fun o => !decide (s.IsVulnerable o.definition)

/-- The occurrences with the vulnerable classes last. -/
def vulnerableLast (os : List Occurrence) (s : Signature) : List Occurrence :=
  os.filter (fun o => !decide (s.IsVulnerable o.definition)) ++
    os.filter fun o => s.IsVulnerable o.definition

theorem perm_vulnerableFirst (os : List Occurrence) (s : Signature) :
    os.Perm (vulnerableFirst os s) :=
  (List.filter_append_perm _ os).symm

theorem perm_vulnerableLast (os : List Occurrence) (s : Signature) :
    os.Perm (vulnerableLast os s) :=
  (perm_vulnerableFirst os s).trans List.perm_append_comm

/-- With the occurrences of one sort first, the first under a key is of that sort if any is. -/
theorem exists_head?_under_filter {os : List Occurrence} {key : Text} {o : Occurrence}
    {p : Occurrence → Bool} (ho : o ∈ under os key) (hp : p o = true) (others : List Occurrence) :
    ∃ first, (under (os.filter p ++ others) key).head? = some first ∧ p first = true := by
  obtain ⟨hmem, hkey⟩ := mem_under.1 ho
  have hsort : o ∈ under (os.filter p) key :=
    mem_under.2 ⟨List.mem_filter.2 ⟨hmem, hp⟩, hkey⟩
  obtain ⟨first, rest, hu⟩ := List.exists_cons_of_ne_nil (List.ne_nil_of_mem hsort)
  have hfirst : first ∈ under (os.filter p) key := hu ▸ List.mem_cons_self ..
  refine ⟨first, ?_, (List.mem_filter.1 (mem_under.1 hfirst).1).2⟩
  rw [under] at hu
  rw [under, List.filter_append, hu]
  rfl

/-- With the vulnerable classes first, a key of mixed classes is a vulnerable one. -/
theorem MixedKey.vulnerableKey_first {os : List Occurrence} {s : Signature} {key : Text}
    (h : MixedKey os s key) : VulnerableKey (vulnerableFirst os s) s key := by
  obtain ⟨hsuffix, ⟨o, ho, hv⟩, -⟩ := h
  obtain ⟨first, hfirst, hvulnerable⟩ :=
    exists_head?_under_filter (p := fun o => s.IsVulnerable o.definition) ho (by simpa using hv) _
  exact ⟨hsuffix, first, hfirst, by simpa using hvulnerable⟩

/-- With the vulnerable classes last, only the keys without others are vulnerable ones. -/
theorem VulnerableKey.uniform_of_last {os : List Occurrence} {s : Signature} {key : Text}
    (h : VulnerableKey (vulnerableLast os s) s key) : UniformKey os s key := by
  rcases h.uniform_or_mixed with hu | hm
  · exact (uniformKey_perm (perm_vulnerableLast os s)).2 hu
  · exfalso
    obtain ⟨-, -, o, ho, hnot⟩ := (mixedKey_perm (perm_vulnerableLast os s)).2 hm
    obtain ⟨first, hfirst, hother⟩ := exists_head?_under_filter
      (p := fun o => !decide (s.IsVulnerable o.definition)) ho (by simpa using hnot)
      (os.filter fun o => s.IsVulnerable o.definition)
    obtain ⟨-, first', hfirst', hv⟩ := h
    cases hfirst.symm.trans hfirst'
    simp [hv] at hother

/-! ## Results in different orders -/

/-- There are places exactly where there is something vulnerable. -/
theorem verdict_eq_vulnerable_iff_exists_place {os : List Occurrence} {s : Signature} :
    ((ofOccurrences os).check s).verdict = .vulnerable ↔
      ∃ p, p ∈ ((ofOccurrences os).check s).places := by
  rw [verdict_eq_vulnerable_iff]
  simp only [mem_places_iff]
  constructor
  · rintro ⟨hp, k, hk⟩
    obtain ⟨-, o, ho, -⟩ := id hk
    obtain ⟨hmem, rfl⟩ := mem_under.1 (List.mem_of_head? ho)
    exact ⟨o.place, hp, o, hmem, hk, rfl⟩
  · rintro ⟨p, hp, o, -, hk, -⟩
    exact ⟨hp, keyOf o, hk⟩

theorem verdict_eq_notPresent_perm {os os' : List Occurrence} (h : os.Perm os') (s : Signature) :
    ((ofOccurrences os).check s).verdict = .notPresent ↔
      ((ofOccurrences os').check s).verdict = .notPresent := by
  simp only [verdict_eq_notPresent_iff, presenceKey_perm h]

/-- Results in two orders agree as soon as their places do. -/
theorem agrees_of_mem_places_iff {os os' : List Occurrence} (h : os.Perm os') {s : Signature}
    (hp : ∀ p, p ∈ ((ofOccurrences os).check s).places ↔
      p ∈ ((ofOccurrences os').check s).places) :
    ((ofOccurrences os).check s).Agrees ((ofOccurrences os').check s) := by
  refine ⟨?_, hp⟩
  have hno := verdict_eq_notPresent_perm h s
  have hyes : ((ofOccurrences os).check s).verdict = .vulnerable ↔
      ((ofOccurrences os').check s).verdict = .vulnerable := by
    simp only [verdict_eq_vulnerable_iff_exists_place, hp]
  cases hr : ((ofOccurrences os).check s).verdict <;>
    cases hr' : ((ofOccurrences os').check s).verdict <;> simp_all

/-- Where the order is free, the places are those of the classes under uniform keys. -/
theorem OrderFree.mem_places_iff {os os' : List Occurrence} {s : Signature} (hfree : OrderFree os s)
    (h : os.Perm os') {p : Provenance} :
    p ∈ ((ofOccurrences os').check s).places ↔
      (∃ k, PresenceKey os s k) ∧ ∃ o ∈ os, UniformKey os s (keyOf o) ∧ o.place = p := by
  rw [Pool.mem_places_iff]
  simp only [← presenceKey_perm h, ← h.mem_iff]
  constructor
  · rintro ⟨hp, o, ho, hk, rfl⟩
    refine ⟨hp, ?_⟩
    rcases hk.uniform_or_mixed with hu | hm
    · exact ⟨o, ho, (uniformKey_perm h).2 hu, rfl⟩
    · exact hfree hp o ho ((mixedKey_perm h).2 hm)
  · rintro ⟨hp, o, ho, hu, hplace⟩
    exact ⟨hp, o, ho, ((uniformKey_perm h).1 hu).vulnerableKey, hplace⟩

theorem orderFree_of_agrees {os : List Occurrence} {s : Signature}
    (h : ∀ os', os.Perm os' →
      ((ofOccurrences os).check s).Agrees ((ofOccurrences os').check s)) : OrderFree os s := by
  intro hp o ho hm
  have hfirst := perm_vulnerableFirst os s
  have hlast := perm_vulnerableLast os s
  have hplace : o.place ∈ ((ofOccurrences (vulnerableFirst os s)).check s).places :=
    Pool.mem_places_iff.2 ⟨by simpa only [← presenceKey_perm hfirst] using hp, o,
      hfirst.mem_iff.1 ho, hm.vulnerableKey_first, rfl⟩
  rw [← (h _ hfirst).2, (h _ hlast).2] at hplace
  obtain ⟨-, o', ho', hk, heq⟩ := Pool.mem_places_iff.1 hplace
  exact ⟨o', hlast.mem_iff.2 ho', hk.uniform_of_last, heq⟩

/-- Two orders in which the same keys are vulnerable give the same places. -/
theorem mem_places_congr {os os' : List Occurrence} (h : os.Perm os') {s : Signature}
    (hk : ∀ k, VulnerableKey os s k ↔ VulnerableKey os' s k) (p : Provenance) :
    p ∈ ((ofOccurrences os).check s).places ↔ p ∈ ((ofOccurrences os').check s).places := by
  simp only [Pool.mem_places_iff, presenceKey_perm h, h.mem_iff, hk]

/-- What the order of the occurrences can change. In every order the same keys have the class whose
presence matters, so its absence and the stage are the same. Verdict and places are the same in two
orders in which the same keys are vulnerable, and in all orders exactly where the order is free. -/
theorem check_perm (os : List Occurrence) (s : Signature) :
    let result := fun os' => (ofOccurrences os').check s
    (∀ os', os.Perm os' →
      (∀ k, PresenceKey os s k ↔ PresenceKey os' s k) ∧
      ((result os).verdict = .notPresent ↔ (result os').verdict = .notPresent) ∧
      (result os).stage = (result os').stage ∧
      ((∀ k, VulnerableKey os s k ↔ VulnerableKey os' s k) → (result os).Agrees (result os'))) ∧
    ((∀ os', os.Perm os' → (result os).Agrees (result os')) ↔ OrderFree os s) := by
  intro result
  constructor
  · intro os' h
    have hverdict := verdict_eq_notPresent_perm h s
    refine ⟨fun k => presenceKey_perm h, hverdict, ?_, fun hk => ?_⟩
    · simp only [result, stage_eq, hverdict]
    · exact agrees_of_mem_places_iff h (mem_places_congr h hk)
  · refine ⟨orderFree_of_agrees, fun hfree os' h => agrees_of_mem_places_iff h fun p => ?_⟩
    rw [hfree.mem_places_iff (.refl os), hfree.mem_places_iff h]

/-! ## Where the order is not free -/

/-- A class whose presence matters, in a jar of its own. -/
def lookupClass : Occurrence :=
  { definition := { name := "org/apache/logging/log4j/core/lookup/JndiLookup", superName := none }
    place := { root := "/core.jar" } }

/-- A class of the vulnerable name without the constructor of vulnerable releases. -/
def patchedManager : Occurrence :=
  { definition := { name := "org/apache/logging/log4j/core/net/JndiManager", superName := none }
    place := { root := "/new.jar" } }

/-- A class of the vulnerable name with that constructor. -/
def oldManager : Occurrence :=
  { definition :=
      { name := "org/apache/logging/log4j/core/net/JndiManager"
        superName := none
        members := [⟨"<init>", "(Ljava/lang/String;Ljavax/naming/Context;)V", 2, .constructor⟩] }
    place := { root := "/old.jar" } }

/-- The class that was met first hides the one that was met second. -/
theorem not_agrees_patched_first :
    [lookupClass, oldManager, patchedManager].Perm [lookupClass, patchedManager, oldManager] ∧
    ¬ ((ofOccurrences [lookupClass, oldManager, patchedManager]).check).Agrees
      ((ofOccurrences [lookupClass, patchedManager, oldManager]).check) := by
  refine ⟨.cons _ (.swap ..), fun h => ?_⟩
  have hfirst : ((ofOccurrences [lookupClass, oldManager, patchedManager]).check).verdict =
      .vulnerable := by
    decide +kernel
  have hlast : ((ofOccurrences [lookupClass, patchedManager, oldManager]).check).verdict =
      .patched := by
    decide +kernel
  rw [h.1, hlast] at hfirst
  cases hfirst

end Pool

end JndiScan

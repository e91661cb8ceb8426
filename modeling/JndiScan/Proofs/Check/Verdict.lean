/-
The verdict of a check, told by the occurrences alone: by the keys that they have, by the first
definition under each key, and by the places of all occurrences under it.
-/
import JndiScan.Check
import JndiScan.Proofs.Access
import JndiScan.Proofs.Pool.Grouping

namespace JndiScan

namespace Signature

/-- A member is the constructor of vulnerable releases. The flags may hold more than what is
required; name and descriptor are compared exactly. -/
structure IsOldConstructor (s : Signature) (m : Member) : Prop where
  kind : m.kind = .constructor
  name : m.name = s.constructorName
  access : ∀ i, s.requiredAccess.testBit i = true → m.accessFlags.testBit i = true
  descriptor : m.descriptor = s.constructorDescriptor

/-- A class declares the constructor of vulnerable releases. -/
def IsVulnerable (s : Signature) (d : ClassDefinition) : Prop :=
  ∃ m ∈ d.members, s.IsOldConstructor m

theorem matchesMember_iff {s : Signature} {m : Member} :
    s.matchesMember m = true ↔ s.IsOldConstructor m := by
  simp only [matchesMember, Bool.and_eq_true, beq_iff_eq, Access.hasAll_eq_true_iff]
  constructor
  · rintro ⟨⟨⟨hkind, hname⟩, haccess⟩, hdescriptor⟩
    exact ⟨hkind, hname, haccess, hdescriptor⟩
  · rintro ⟨hkind, hname, haccess, hdescriptor⟩
    exact ⟨⟨⟨hkind, hname⟩, haccess⟩, hdescriptor⟩

instance (s : Signature) : DecidablePred s.IsOldConstructor :=
  fun _ => decidable_of_iff _ matchesMember_iff

theorem matchingMembers_eq (s : Signature) (e : PoolEntry) :
    s.matchingMembers e = e.definition.members.filter fun m => s.IsOldConstructor m := by
  simp only [matchingMembers, ← matchesMember_iff, Bool.decide_eq_true]

theorem isEmpty_matchingMembers {s : Signature} {e : PoolEntry} :
    (s.matchingMembers e).isEmpty = false ↔ s.IsVulnerable e.definition := by
  simp only [matchingMembers_eq, IsVulnerable, List.isEmpty_eq_false_iff_exists_mem,
    List.mem_filter, decide_eq_true_eq]

end Signature

namespace Pool

/-- A key of the occurrences that ends in the class whose presence matters. -/
def PresenceKey (os : List Occurrence) (s : Signature) (key : Text) : Prop :=
  key ∈ os.map keyOf ∧ ClassName.hasSuffix key s.presenceClass = true

/-- A key that ends in the vulnerable class and whose first definition declares the constructor of
vulnerable releases. -/
def VulnerableKey (os : List Occurrence) (s : Signature) (key : Text) : Prop :=
  ClassName.hasSuffix key s.vulnerableClass = true ∧
    ∃ o, (under os key).head? = some o ∧ s.IsVulnerable o.definition

/-- The entry of a key together with the members that make it vulnerable, in their order. -/
def VulnerableEntry (os : List Occurrence) (s : Signature) (key : Text)
    (found : PoolEntry × List Member) : Prop :=
  EntryUnder os key found.1 ∧
    found.2 = found.1.definition.members.filter fun m => s.IsOldConstructor m

/-! ## The three endings of a check -/

theorem check_of_lookups_eq_nil {pool : Pool} {s : Signature}
    (h : pool.withSuffix s.presenceClass = []) :
    pool.check s = { verdict := .notPresent, stage := 1 } := by
  simp [check, h]

theorem check_of_vulnerable_eq_nil {pool : Pool} {s : Signature}
    (hl : pool.withSuffix s.presenceClass ≠ []) (hv : s.vulnerableClasses pool = []) :
    pool.check s =
      { verdict := .patched, stage := 2, lookups := pool.withSuffix s.presenceClass } := by
  simp [check, hl, hv]

theorem check_of_vulnerable_ne_nil {pool : Pool} {s : Signature}
    (hl : pool.withSuffix s.presenceClass ≠ []) (hv : s.vulnerableClasses pool ≠ []) :
    pool.check s =
      { verdict := .vulnerable, stage := 2, lookups := pool.withSuffix s.presenceClass
        vulnerable := s.vulnerableClasses pool
        places := ((s.vulnerableClasses pool).flatMap fun f => f.1.places).eraseDups } := by
  simp [check, hl, hv]

theorem stage_eq (pool : Pool) (s : Signature) :
    (pool.check s).stage = if (pool.check s).verdict = .notPresent then 1 else 2 := by
  by_cases hl : pool.withSuffix s.presenceClass = []
  · simp [check_of_lookups_eq_nil hl]
  · by_cases hv : s.vulnerableClasses pool = []
    · simp [check_of_vulnerable_eq_nil hl hv]
    · simp [check_of_vulnerable_ne_nil hl hv]

theorem lookups_eq (pool : Pool) (s : Signature) :
    (pool.check s).lookups = pool.withSuffix s.presenceClass := by
  by_cases hl : pool.withSuffix s.presenceClass = []
  · simp [check_of_lookups_eq_nil hl, hl]
  · by_cases hv : s.vulnerableClasses pool = []
    · simp [check_of_vulnerable_eq_nil hl hv]
    · simp [check_of_vulnerable_ne_nil hl hv]

/-- The three endings of a check, told by what it lists. -/
theorem check_cases (pool : Pool) (s : Signature) :
    let r := pool.check s
    (r.verdict = .notPresent ∧ r.lookups = [] ∧ r.vulnerable = [] ∧ r.places = []) ∨
    (r.verdict = .patched ∧ r.lookups ≠ [] ∧ r.vulnerable = [] ∧ r.places = []) ∨
    (r.verdict = .vulnerable ∧ r.lookups ≠ [] ∧ r.vulnerable ≠ [] ∧
      r.places = (r.vulnerable.flatMap fun found => found.1.places).eraseDups) := by
  intro r
  by_cases hl : pool.withSuffix s.presenceClass = []
  · have hr : r = { verdict := .notPresent, stage := 1 } := check_of_lookups_eq_nil hl
    exact .inl (by simp [hr])
  · by_cases hv : s.vulnerableClasses pool = []
    · have hr := check_of_vulnerable_eq_nil hl hv
      exact .inr (.inl (by simp [r, hr, hl]))
    · have hr := check_of_vulnerable_ne_nil hl hv
      exact .inr (.inr (by simp [r, hr, hl, hv]))

/-- The vulnerable classes are looked for where the class whose presence matters is there. -/
theorem vulnerable_eq (pool : Pool) (s : Signature) :
    (pool.check s).vulnerable =
      if pool.withSuffix s.presenceClass = [] then [] else s.vulnerableClasses pool := by
  by_cases hl : pool.withSuffix s.presenceClass = []
  · simp [check_of_lookups_eq_nil hl, hl]
  · by_cases hv : s.vulnerableClasses pool = []
    · simp [check_of_vulnerable_eq_nil hl hv, hl, hv]
    · simp [check_of_vulnerable_ne_nil hl hv, hl]

theorem places_eq (pool : Pool) (s : Signature) :
    (pool.check s).places =
      ((pool.check s).vulnerable.flatMap fun found => found.1.places).eraseDups := by
  rcases pool.check_cases s with ⟨-, -, hv, hp⟩ | ⟨-, -, hv, hp⟩ | ⟨-, -, -, hp⟩
  · rw [hp, hv]
    rfl
  · rw [hp, hv]
    rfl
  · exact hp

/-! ## What is found -/

theorem vulnerableClasses_eq (s : Signature) (pool : Pool) :
    s.vulnerableClasses pool =
      (pool.entries.toList.filter fun e =>
        ClassName.hasSuffix e.1 s.vulnerableClass && !(s.matchingMembers e.2).isEmpty).map
          fun e => (e.2, s.matchingMembers e.2) := by
  simp only [Signature.vulnerableClasses, withSuffix, List.map_map, List.filter_map,
    List.filter_filter]
  congr 1
  apply List.filter_congr
  intro e _
  exact Bool.and_comm ..

/-- The first definition under a key is the one that the pool holds. -/
theorem vulnerableKey_iff {os : List Occurrence} {s : Signature} {key : Text} :
    VulnerableKey os s key ↔ ∃ e, (ofOccurrences os).entries[key]? = some e ∧
      (ClassName.hasSuffix key s.vulnerableClass && !(s.matchingMembers e).isEmpty) = true := by
  simp only [VulnerableKey, getElem?_ofOccurrences, Bool.and_eq_true, Bool.not_eq_true',
    Signature.isEmpty_matchingMembers]
  cases hu : under os key with
  | nil => simp [merged]
  | cons o rest => simp [merged]

theorem listsKeys_vulnerableClasses (os : List Occurrence) (s : Signature) :
    ListsKeys (VulnerableKey os s) (VulnerableEntry os s)
      (s.vulnerableClasses (ofOccurrences os)) := by
  rw [vulnerableClasses_eq]
  refine (listsKeys_filter (ofOccurrences os) (fun e =>
    ClassName.hasSuffix e.1 s.vulnerableClass && !(s.matchingMembers e.2).isEmpty)
    fun e => (e, s.matchingMembers e)).imp ?_ ?_
  · exact fun k => vulnerableKey_iff.symm
  · rintro k x ⟨e, he, rfl⟩
    exact ⟨entryUnder_of_getElem? he, s.matchingMembers_eq e⟩

theorem mem_vulnerable_places {os : List Occurrence} {s : Signature} {p : Provenance} :
    p ∈ ((s.vulnerableClasses (ofOccurrences os)).flatMap fun f => f.1.places).eraseDups ↔
      ∃ o ∈ os, VulnerableKey os s (keyOf o) ∧ o.place = p := by
  have hlist := listsKeys_vulnerableClasses os s
  rw [List.mem_eraseDups, List.mem_flatMap]
  constructor
  · rintro ⟨f, hf, hp⟩
    obtain ⟨k, hk, hentry, -⟩ := hlist.exists_key hf
    obtain ⟨o, ho, rfl, hplace⟩ := (hentry.mem_places p).1 hp
    exact ⟨o, ho, hk, hplace⟩
  · rintro ⟨o, ho, hk, hplace⟩
    obtain ⟨f, hf, hentry, -⟩ := hlist.exists_item hk
    exact ⟨f, hf, (hentry.mem_places p).2 ⟨o, ho, rfl, hplace⟩⟩

/-! ## The verdict -/

theorem check_of_no_presenceKey {os : List Occurrence} {s : Signature}
    (h : ∀ k, ¬ PresenceKey os s k) :
    (ofOccurrences os).check s = { verdict := .notPresent, stage := 1 } :=
  check_of_lookups_eq_nil ((listsKeys_withSuffix os s.presenceClass).eq_nil_iff.2 h)

theorem withSuffix_presence_ne_nil {os : List Occurrence} {s : Signature}
    (h : ∃ k, PresenceKey os s k) : (ofOccurrences os).withSuffix s.presenceClass ≠ [] := by
  obtain ⟨k, hk⟩ := h
  exact fun hnil => (listsKeys_withSuffix os s.presenceClass).eq_nil_iff.1 hnil k hk

theorem check_of_no_vulnerableKey {os : List Occurrence} {s : Signature}
    (hp : ∃ k, PresenceKey os s k) (h : ∀ k, ¬ VulnerableKey os s k) :
    (ofOccurrences os).check s =
      { verdict := .patched, stage := 2
        lookups := (ofOccurrences os).withSuffix s.presenceClass } :=
  check_of_vulnerable_eq_nil (withSuffix_presence_ne_nil hp)
    ((listsKeys_vulnerableClasses os s).eq_nil_iff.2 h)

theorem check_of_vulnerableKey {os : List Occurrence} {s : Signature}
    (hp : ∃ k, PresenceKey os s k) (h : ∃ k, VulnerableKey os s k) :
    (ofOccurrences os).check s =
      { verdict := .vulnerable, stage := 2
        lookups := (ofOccurrences os).withSuffix s.presenceClass
        vulnerable := s.vulnerableClasses (ofOccurrences os)
        places := ((s.vulnerableClasses (ofOccurrences os)).flatMap fun f =>
          f.1.places).eraseDups } := by
  refine check_of_vulnerable_ne_nil (withSuffix_presence_ne_nil hp) fun hnil => ?_
  obtain ⟨k, hk⟩ := h
  exact (listsKeys_vulnerableClasses os s).eq_nil_iff.1 hnil k hk

theorem verdict_eq_notPresent_iff {os : List Occurrence} {s : Signature} :
    ((ofOccurrences os).check s).verdict = .notPresent ↔ ∀ k, ¬ PresenceKey os s k := by
  by_cases hp : ∃ k, PresenceKey os s k
  · refine iff_of_false (fun h => ?_) (fun h => hp.elim h)
    by_cases hv : ∃ k, VulnerableKey os s k
    · rw [check_of_vulnerableKey hp hv] at h
      cases h
    · rw [check_of_no_vulnerableKey hp (not_exists.1 hv)] at h
      cases h
  · rw [check_of_no_presenceKey (not_exists.1 hp)]
    exact iff_of_true rfl (not_exists.1 hp)

theorem verdict_eq_vulnerable_iff {os : List Occurrence} {s : Signature} :
    ((ofOccurrences os).check s).verdict = .vulnerable ↔
      (∃ k, PresenceKey os s k) ∧ ∃ k, VulnerableKey os s k := by
  by_cases hp : ∃ k, PresenceKey os s k
  · by_cases hv : ∃ k, VulnerableKey os s k
    · rw [check_of_vulnerableKey hp hv]
      exact iff_of_true rfl ⟨hp, hv⟩
    · rw [check_of_no_vulnerableKey hp (not_exists.1 hv)]
      exact iff_of_false (fun h => nomatch h) fun h => hv h.2
  · rw [check_of_no_presenceKey (not_exists.1 hp)]
    exact iff_of_false (fun h => nomatch h) fun h => hp h.1

theorem PresenceKey.mono {os os' : List Occurrence} {s : Signature} {key : Text}
    (h : os <+: os') (hk : PresenceKey os s key) : PresenceKey os' s key :=
  ⟨(h.map keyOf).subset hk.1, hk.2⟩

/-- Occurrences that come later leave the keys of earlier ones vulnerable. -/
theorem VulnerableKey.mono {os os' : List Occurrence} {s : Signature} {key : Text}
    (h : os <+: os') (hk : VulnerableKey os s key) : VulnerableKey os' s key := by
  obtain ⟨hsuffix, o, ho, hv⟩ := hk
  exact ⟨hsuffix, o, head?_under_mono h ho, hv⟩

/-- What was vulnerable stays so when more occurrences come. -/
theorem verdict_eq_vulnerable_mono {os os' : List Occurrence} {s : Signature}
    (h : os <+: os') (hv : ((ofOccurrences os).check s).verdict = .vulnerable) :
    ((ofOccurrences os').check s).verdict = .vulnerable := by
  rw [verdict_eq_vulnerable_iff] at hv ⊢
  obtain ⟨⟨k, hk⟩, k', hk'⟩ := hv
  exact ⟨⟨k, hk.mono h⟩, k', hk'.mono h⟩

/-- The places of a result are those of all occurrences under the vulnerable keys. -/
theorem mem_places_iff {os : List Occurrence} {s : Signature} {p : Provenance} :
    p ∈ ((ofOccurrences os).check s).places ↔
      (∃ k, PresenceKey os s k) ∧ ∃ o ∈ os, VulnerableKey os s (keyOf o) ∧ o.place = p := by
  by_cases hp : ∃ k, PresenceKey os s k
  · by_cases hv : ∃ k, VulnerableKey os s k
    · rw [check_of_vulnerableKey hp hv, mem_vulnerable_places]
      simp only [hp, true_and]
    · rw [check_of_no_vulnerableKey hp (not_exists.1 hv)]
      exact iff_of_false List.not_mem_nil fun ⟨_, o, _, hk, _⟩ => hv ⟨_, hk⟩
  · rw [check_of_no_presenceKey (not_exists.1 hp)]
    exact iff_of_false List.not_mem_nil fun h => hp h.1

/-- The exact verdict. Without the class whose presence matters nothing is reported, whatever else
was found; with it, the entries of that class are listed, and the vulnerable ones are those whose
first definition declares the constructor of vulnerable releases, reported with these constructors
and at every place where a class of the same key was met. -/
theorem check_ofOccurrences (os : List Occurrence) (s : Signature) :
    let r := (ofOccurrences os).check s
    ((r.verdict = .notPresent ∧ r.stage = 1 ∧ r.lookups = [] ∧ r.vulnerable = [] ∧ r.places = []) ↔
      ∀ k, ¬ PresenceKey os s k) ∧
    ((∃ k, PresenceKey os s k) →
      r.stage = 2 ∧ ListsKeys (PresenceKey os s) (EntryUnder os) r.lookups ∧
      (r.verdict = .vulnerable ↔ ∃ k, VulnerableKey os s k) ∧
      (r.verdict = .vulnerable →
        ListsKeys (VulnerableKey os s) (VulnerableEntry os s) r.vulnerable ∧ r.places.Nodup ∧
        ∀ p, p ∈ r.places ↔ ∃ o ∈ os, VulnerableKey os s (keyOf o) ∧ o.place = p) ∧
      (r.verdict ≠ .vulnerable → r.verdict = .patched ∧ r.vulnerable = [] ∧ r.places = [])) := by
  intro r
  constructor
  · refine ⟨fun h => verdict_eq_notPresent_iff.1 h.1, fun h => ?_⟩
    simp only [r, check_of_no_presenceKey h, and_self]
  · intro hp
    have hlookups := listsKeys_withSuffix os s.presenceClass
    by_cases hv : ∃ k, VulnerableKey os s k
    · simp only [r, check_of_vulnerableKey hp hv]
      refine ⟨trivial, hlookups, iff_of_true trivial hv, fun _ => ⟨?_, ?_, ?_⟩, fun h => ?_⟩
      · exact listsKeys_vulnerableClasses os s
      · exact nodup_eraseDups _
      · exact fun p => mem_vulnerable_places
      · exact absurd rfl h
    · simp only [r, check_of_no_vulnerableKey hp (not_exists.1 hv)]
      exact ⟨trivial, hlookups, iff_of_false (fun h => nomatch h) hv, fun h => (nomatch h),
        fun _ => ⟨trivial, trivial, trivial⟩⟩

end Pool

end JndiScan

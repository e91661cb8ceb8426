/-
Evidence only accumulates. Of each key a pool keeps the first definition for good and forgets no
place, so a pool that was given further occurrences has all the keys that it had, with the same
definitions and with all their places; and a check of it finds whatever was found before.
-/
import JndiScan.Proofs.Check.Verdict

namespace JndiScan

/-- Verdicts in the order of what they report. -/
def Verdict.strength : Verdict → Nat
  | notPresent => 0
  | patched => 1
  | vulnerable => 2

namespace Pool

variable {os os' : List Occurrence} {s : Signature} {key : Text}

/-! ## One key -/

/-- The entry of a key keeps its definition. -/
theorem EntryUnder.definition_eq {e e' : PoolEntry} (he : EntryUnder os key e)
    (he' : EntryUnder os' key e') (h : os <+: os') : e'.definition = e.definition := by
  obtain ⟨first, hfirst, hdefinition⟩ := Option.map_eq_some_iff.1 he.first
  have hfirst' := he'.first
  rw [head?_under_mono h hfirst] at hfirst'
  rw [← hdefinition]
  exact (Option.some.inj hfirst').symm

/-! ## What is listed -/

/-- Where items tell their keys, these are the keys that are listed. -/
theorem ListsKeys.mem_map_iff {P : Text → Prop} {R : Text → α → Prop} {xs : List α}
    (h : ListsKeys P R xs) {keyOf : α → Text} (hkey : ∀ k x, R k x → keyOf x = k) :
    key ∈ xs.map keyOf ↔ P key := by
  rw [List.mem_map]
  constructor
  · rintro ⟨x, hx, rfl⟩
    obtain ⟨k, hP, hR⟩ := h.exists_key hx
    rwa [hkey k x hR]
  · intro hP
    obtain ⟨x, hx, hR⟩ := h.exists_item hP
    exact ⟨x, hx, hkey key x hR⟩

/-- The classes that a result lists as vulnerable. -/
theorem listsKeys_vulnerable (os : List Occurrence) (s : Signature) :
    ListsKeys (fun k => (∃ k', PresenceKey os s k') ∧ VulnerableKey os s k)
      (VulnerableEntry os s) ((ofOccurrences os).check s).vulnerable := by
  by_cases hp : ∃ k, PresenceKey os s k
  · simp only [hp, true_and]
    by_cases hv : ∃ k, VulnerableKey os s k
    · rw [check_of_vulnerableKey hp hv]
      exact listsKeys_vulnerableClasses os s
    · rw [check_of_no_vulnerableKey hp (not_exists.1 hv)]
      exact ⟨[], .nil, fun k => iff_of_false List.not_mem_nil (not_exists.1 hv k), .nil⟩
  · rw [check_of_no_presenceKey (not_exists.1 hp)]
    exact ⟨[], .nil, fun k => iff_of_false List.not_mem_nil fun h => hp h.1, .nil⟩

theorem mem_keys_lookups_iff :
    key ∈ ((ofOccurrences os).check s).lookups.map PoolEntry.key ↔ PresenceKey os s key := by
  rw [lookups_eq]
  exact (listsKeys_withSuffix os s.presenceClass).mem_map_iff fun _ _ he => he.key_eq

theorem mem_keys_vulnerable_iff :
    key ∈ ((ofOccurrences os).check s).vulnerable.map (fun found => found.1.key) ↔
      (∃ k, PresenceKey os s k) ∧ VulnerableKey os s key :=
  (listsKeys_vulnerable os s).mem_map_iff fun _ _ hfound => hfound.1.key_eq

/-! ## More occurrences -/

theorem foldl_accept (os more : List Occurrence) :
    more.foldl (fun pool o => (pool.accept o).2) (ofOccurrences os) = ofOccurrences (os ++ more) :=
  (List.foldl_append ..).symm

theorem strength_mono (h : os <+: os') (s : Signature) :
    ((ofOccurrences os).check s).verdict.strength ≤
      ((ofOccurrences os').check s).verdict.strength := by
  cases hv : ((ofOccurrences os).check s).verdict with
  | notPresent => exact Nat.zero_le _
  | vulnerable => rw [verdict_eq_vulnerable_mono h hv]
  | patched =>
    -- The class whose presence matters is still there, so something is reported.
    have hpresent : ∃ k, PresenceKey os s k := by
      by_contra hno
      rw [verdict_eq_notPresent_iff.2 (not_exists.1 hno)] at hv
      cases hv
    obtain ⟨k, hk⟩ := hpresent
    cases hv' : ((ofOccurrences os').check s).verdict with
    | notPresent => exact absurd (hk.mono h) (verdict_eq_notPresent_iff.1 hv' k)
    | patched => exact Nat.le_refl _
    | vulnerable => exact Nat.le_succ _

theorem stage_le_of_strength_le {pool pool' : Pool}
    (h : (pool.check s).verdict.strength ≤ (pool'.check s).verdict.strength) :
    (pool.check s).stage ≤ (pool'.check s).stage := by
  rw [stage_eq, stage_eq]
  cases hv : (pool.check s).verdict <;> cases hv' : (pool'.check s).verdict <;>
    simp [hv, hv', Verdict.strength] at h ⊢

/-- Evidence only accumulates: whatever is taken into a pool further, a check reports no less than
before. The classes found and their places are found again, and each vulnerable class by the same
constructors. -/
theorem check_grows (os more : List Occurrence) (s : Signature) :
    let r := (ofOccurrences os).check s
    let r' := (more.foldl (fun pool o => (pool.accept o).2) (ofOccurrences os)).check s
    r.verdict.strength ≤ r'.verdict.strength ∧ r.stage ≤ r'.stage ∧
      r.lookups.map PoolEntry.key ⊆ r'.lookups.map PoolEntry.key ∧
      r.vulnerable.map (fun found => found.1.key) ⊆
        r'.vulnerable.map (fun found => found.1.key) ∧
      (∀ found ∈ r.vulnerable, ∀ found' ∈ r'.vulnerable, found'.1.key = found.1.key →
        found'.2 = found.2) ∧
      r.places ⊆ r'.places := by
  intro r r'
  have hr' : r' = (ofOccurrences (os ++ more)).check s := by rw [← foldl_accept]
  have h : os <+: os ++ more := List.prefix_append ..
  rw [hr']
  have hstrength := strength_mono h s
  refine ⟨hstrength, stage_le_of_strength_le hstrength, ?_, ?_, ?_, ?_⟩
  · intro key hkey
    exact mem_keys_lookups_iff.2 ((mem_keys_lookups_iff.1 hkey).mono h)
  · intro key hkey
    obtain ⟨⟨k, hk⟩, hv⟩ := mem_keys_vulnerable_iff.1 hkey
    exact mem_keys_vulnerable_iff.2 ⟨⟨k, hk.mono h⟩, hv.mono h⟩
  · intro found hfound found' hfound' hkey
    obtain ⟨k, -, hentry, hmembers⟩ := (listsKeys_vulnerable os s).exists_key hfound
    obtain ⟨k', -, hentry', hmembers'⟩ :=
      (listsKeys_vulnerable (os ++ more) s).exists_key hfound'
    obtain rfl : k' = k := by rw [← hentry.key_eq, ← hentry'.key_eq, hkey]
    rw [hmembers, hmembers', hentry.definition_eq hentry' h]
  · intro p hp
    obtain ⟨⟨k, hk⟩, o, ho, hv, hplace⟩ := mem_places_iff.1 hp
    exact mem_places_iff.2 ⟨⟨k, hk.mono h⟩, o, h.subset ho, hv.mono h, hplace⟩

end Pool

end JndiScan

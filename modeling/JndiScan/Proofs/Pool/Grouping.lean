/-
A pool groups the occurrences it was given: the entry of a key holds the first definition met under
it, and every place met under it once. What is said here of lookups and listings is said of
`Pool.ofOccurrences`, so of every pool that any sequence of occurrences leads to.
-/
import JndiScan.Pool
import Mathlib.Data.List.Forall2
import Mathlib.Data.List.Induction

namespace JndiScan

/-- The key of an entry, told by its definition. -/
def PoolEntry.key (e : PoolEntry) : Text := ClassName.slashForm e.name

namespace Pool

/-- The occurrences under a key, in their order. -/
def under (os : List Occurrence) (key : Text) : List Occurrence := os.filter fun o => keyOf o = key

/-- The entry of a key with its occurrences `os`: the first definition, and every place once. -/
def merged : List Occurrence → Option PoolEntry
  | [] => none
  | o :: os => some ⟨o.definition, (o.place :: os.map (·.place)).eraseDups⟩

/-- `e` is the entry that occurrences have under a key: the definition is that of the first of them,
and the places are those of all of them, each once. -/
structure EntryUnder (os : List Occurrence) (key : Text) (e : PoolEntry) : Prop where
  first : (under os key).head?.map (·.definition) = some e.definition
  nodup : e.places.Nodup
  mem_places : ∀ p, p ∈ e.places ↔ ∃ o ∈ os, keyOf o = key ∧ o.place = p

/-! ## Occurrences under a key -/

theorem mem_under {os : List Occurrence} {key : Text} {o : Occurrence} :
    o ∈ under os key ↔ o ∈ os ∧ keyOf o = key := by
  simp [under]

theorem under_concat (os : List Occurrence) (o : Occurrence) (key : Text) :
    under (os ++ [o]) key = if keyOf o = key then under os key ++ [o] else under os key := by
  simp only [under, List.filter_append]
  split
  · next h => simp [h]
  · next h => simp [h]

theorem under_eq_nil_iff {os : List Occurrence} {key : Text} :
    under os key = [] ↔ key ∉ os.map keyOf := by
  simp [under, List.filter_eq_nil_iff]

/-- The first occurrence of a key stays the first when more come. -/
theorem head?_under_mono {os os' : List Occurrence} {key : Text} {o : Occurrence}
    (h : os <+: os') (ho : (under os key).head? = some o) : (under os' key).head? = some o := by
  obtain ⟨more, rfl⟩ := h
  rw [under, List.filter_append, List.head?_append, ← under, ho, Option.some_or]

/-! ## The merge of one key -/

theorem eraseDups_concat [BEq α] [LawfulBEq α] (xs : List α) (x : α) :
    (xs ++ [x]).eraseDups = if x ∈ xs then xs.eraseDups else xs.eraseDups ++ [x] := by
  rw [List.eraseDups_append]
  by_cases h : x ∈ xs
  · simp [List.removeAll, h]
  · simp [List.removeAll, h, List.eraseDups_cons]

theorem nodup_eraseDups [BEq α] [LawfulBEq α] : ∀ xs : List α, xs.eraseDups.Nodup
  | [] => by simp
  | x :: xs => by
    rw [List.eraseDups_cons, List.nodup_cons]
    exact ⟨by simp [List.mem_eraseDups], nodup_eraseDups _⟩
  termination_by xs => xs.length
  decreasing_by exact Nat.lt_succ_of_le (List.length_filter_le ..)

theorem merged_concat (os : List Occurrence) (o : Occurrence) :
    merged (os ++ [o]) = some (match merged os with
      | none => ⟨o.definition, [o.place]⟩
      | some e => e.addPlace o.place) := by
  cases os with
  | nil => rfl
  | cons first os =>
    simp only [merged, List.cons_append, List.map_append, List.map_cons, List.map_nil]
    rw [← List.cons_append, eraseDups_concat, PoolEntry.addPlace]
    simp only [List.mem_eraseDups]
    split <;> rfl

theorem merged_eq_none_iff {os : List Occurrence} : merged os = none ↔ os = [] := by
  cases os <;> simp [merged]

/-- What the merge of a key's occurrences says of them. -/
theorem entryUnder_of_merged {os : List Occurrence} {key : Text} {e : PoolEntry}
    (h : merged (under os key) = some e) : EntryUnder os key e := by
  have hmem : ∀ p, p ∈ (under os key).map (·.place) ↔ ∃ o ∈ os, keyOf o = key ∧ o.place = p := by
    intro p
    simp only [List.mem_map, mem_under, and_assoc]
  cases hu : under os key with
  | nil => rw [hu] at h; cases h
  | cons o rest =>
    rw [hu] at h hmem
    cases h
    refine ⟨by rw [hu]; rfl, nodup_eraseDups _, fun p => ?_⟩
    rw [List.mem_eraseDups]
    exact hmem p

/-! ## The pool of a sequence -/

theorem getElem?_accept (pool : Pool) (o : Occurrence) (key : Text) :
    (pool.accept o).2.entries[key]? =
      if keyOf o = key then some (match pool.entries[key]? with
        | none => ⟨o.definition, [o.place]⟩
        | some e => e.addPlace o.place)
      else pool.entries[key]? := by
  unfold accept
  by_cases h : keyOf o = key
  · subst h
    cases he : pool.entries[keyOf o]? with
    | none => simp [he]
    | some e => simp [he]
  · cases he : pool.entries[keyOf o]? with
    | none => simp [Std.TreeMap.getElem?_insert, he, h]
    | some e => simp [Std.TreeMap.getElem?_insert, he, h]

theorem ofOccurrences_concat (os : List Occurrence) (o : Occurrence) :
    ofOccurrences (os ++ [o]) = ((ofOccurrences os).accept o).2 := by
  simp [ofOccurrences]

/-- Under each key the pool holds the merge of the occurrences of that key. -/
theorem getElem?_ofOccurrences (os : List Occurrence) (key : Text) :
    (ofOccurrences os).entries[key]? = merged (under os key) := by
  induction os using List.reverseRecOn with
  | nil => simp [ofOccurrences, under, merged]
  | append_singleton os o ih =>
    rw [ofOccurrences_concat, getElem?_accept, ih, under_concat]
    split
    · rw [merged_concat]
    · rfl

theorem entryUnder_of_getElem? {os : List Occurrence} {key : Text} {e : PoolEntry}
    (h : (ofOccurrences os).entries[key]? = some e) : EntryUnder os key e :=
  entryUnder_of_merged (getElem?_ofOccurrences os key ▸ h)

theorem EntryUnder.key_eq {e : PoolEntry} (h : EntryUnder os key e) : e.key = key := by
  obtain ⟨first, hfirst, hdefinition⟩ := Option.map_eq_some_iff.1 h.first
  obtain ⟨-, hkey⟩ := mem_under.1 (List.mem_of_head? hfirst)
  rw [PoolEntry.key, PoolEntry.name, ← hdefinition]
  exact hkey

theorem exists_getElem?_iff {os : List Occurrence} {key : Text} :
    (∃ e, (ofOccurrences os).entries[key]? = some e) ↔ key ∈ os.map keyOf := by
  rw [← Option.isSome_iff_exists, getElem?_ofOccurrences, Option.isSome_iff_ne_none, Ne,
    merged_eq_none_iff, under_eq_nil_iff, Classical.not_not]

/-! ## Listings -/

/-- `xs` has one item for each key with `P`, in increasing order of the keys, and `R` holds between
the key and its item. -/
def ListsKeys (P : Text → Prop) (R : Text → α → Prop) (xs : List α) : Prop :=
  ∃ keys : List Text, keys.Pairwise (fun a b => compare a b = .lt) ∧ (∀ k, k ∈ keys ↔ P k) ∧
    List.Forall₂ R keys xs

theorem ListsKeys.eq_nil_iff {P : Text → Prop} {R : Text → α → Prop} {xs : List α}
    (h : ListsKeys P R xs) : xs = [] ↔ ∀ k, ¬ P k := by
  obtain ⟨keys, -, hmem, hall⟩ := h
  constructor
  · rintro rfl k hk
    cases hall
    simpa using (hmem k).2 hk
  · intro hno
    cases hall with
    | nil => rfl
    | cons => exact absurd ((hmem _).1 (List.mem_cons_self ..)) (hno _)

theorem ListsKeys.imp {P Q : Text → Prop} {R S : Text → α → Prop} {xs : List α}
    (hP : ∀ k, P k ↔ Q k) (hR : ∀ k x, R k x → S k x) (h : ListsKeys P R xs) : ListsKeys Q S xs := by
  obtain ⟨keys, hlt, hmem, hall⟩ := h
  exact ⟨keys, hlt, fun k => (hmem k).trans (hP k), hall.imp hR⟩

theorem ListsKeys.exists_key {P : Text → Prop} {R : Text → α → Prop} {xs : List α}
    (h : ListsKeys P R xs) {x : α} (hx : x ∈ xs) : ∃ k, P k ∧ R k x := by
  obtain ⟨keys, -, hmem, hall⟩ := h
  obtain ⟨i, hi, rfl⟩ := List.mem_iff_getElem.1 hx
  have hi' : i < keys.length := hall.length_eq ▸ hi
  exact ⟨keys[i], (hmem _).1 (List.getElem_mem hi'), hall.get hi' hi⟩

theorem ListsKeys.exists_item {P : Text → Prop} {R : Text → α → Prop} {xs : List α}
    (h : ListsKeys P R xs) {k : Text} (hk : P k) : ∃ x ∈ xs, R k x := by
  obtain ⟨keys, -, hmem, hall⟩ := h
  obtain ⟨i, hi, rfl⟩ := List.mem_iff_getElem.1 ((hmem k).2 hk)
  have hi' : i < xs.length := hall.length_eq ▸ hi
  exact ⟨xs[i], List.getElem_mem hi', hall.get hi hi'⟩

/-- What is selected from the keys and entries of a pool, and made of the entries, lists the keys
that are selected. -/
theorem listsKeys_filter (pool : Pool) (p : Text × PoolEntry → Bool) (f : PoolEntry → α) :
    ListsKeys (fun k => ∃ e, pool.entries[k]? = some e ∧ p (k, e) = true)
      (fun k x => ∃ e, pool.entries[k]? = some e ∧ x = f e)
      ((pool.entries.toList.filter p).map fun e => f e.2) := by
  refine ⟨(pool.entries.toList.filter p).map (·.1), ?_, fun k => ?_, ?_⟩
  · rw [List.pairwise_map]
    exact Std.TreeMap.ordered_keys_toList.filter _
  · simp only [List.mem_map, List.mem_filter, Prod.exists]
    constructor
    · rintro ⟨k', e, ⟨hmem, hp⟩, rfl⟩
      exact ⟨e, Std.TreeMap.mem_toList_iff_getElem?_eq_some.1 hmem, hp⟩
    · rintro ⟨e, he, hp⟩
      exact ⟨k, e, ⟨Std.TreeMap.mem_toList_iff_getElem?_eq_some.2 he, hp⟩, rfl⟩
  · rw [List.forall₂_map_left_iff, List.forall₂_map_right_iff, List.forall₂_same]
    rintro ⟨k, e⟩ hmem
    exact ⟨e, Std.TreeMap.mem_toList_iff_getElem?_eq_some.1 (List.mem_filter.1 hmem).1, rfl⟩

/-- The entries found for the end of a name are those of the keys with that end. -/
theorem listsKeys_withSuffix (os : List Occurrence) (tail : Text) :
    ListsKeys (fun k => k ∈ os.map keyOf ∧ ClassName.hasSuffix k tail = true) (EntryUnder os)
      ((ofOccurrences os).withSuffix tail) := by
  refine (listsKeys_filter (ofOccurrences os) (fun e => ClassName.hasSuffix e.1 tail) id).imp ?_ ?_
  · intro k
    show (∃ e, _ ∧ ClassName.hasSuffix k tail = true) ↔ _
    rw [exists_and_right, exists_getElem?_iff]
  · rintro k x ⟨e, he, rfl⟩
    exact entryUnder_of_getElem? he

end Pool

end JndiScan

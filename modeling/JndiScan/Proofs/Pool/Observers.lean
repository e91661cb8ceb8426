/-
What a pool tells of the occurrences it was given. Whichever way it is asked, for its size, its
keys, its entries, those with the end of a name or the one of a name, it answers by one grouping: the
occurrences under their keys. An occurrence that was taken in before changes no answer.
-/
import JndiScan.Proofs.Pool.Grouping

namespace JndiScan.Pool

variable {pool pool' : Pool} {os : List Occurrence} {o : Occurrence} {key : Text} {e : PoolEntry}

/-! ## The listings of one pool -/

theorem toList_eq_map (pool : Pool) : pool.toList = pool.entries.toList.map (·.2) := by
  have hfold : pool.entries.values = pool.entries.foldr (fun _ e es => e :: es) [] := rfl
  rw [toList, hfold, Std.TreeMap.foldr_eq_foldr_toList]
  induction pool.entries.toList with
  | nil => rfl
  | cons e es ih => rw [List.foldr_cons, ih, List.map_cons]

/-- Keys and entries are listed side by side. -/
theorem zip_keys_toList (pool : Pool) : pool.keys.zip pool.toList = pool.entries.toList := by
  rw [keys, toList_eq_map, ← Std.TreeMap.map_fst_toList_eq_keys, List.zip_map']
  exact List.map_id _

theorem mem_zip_iff : (key, e) ∈ pool.keys.zip pool.toList ↔ pool.entries[key]? = some e := by
  rw [zip_keys_toList, Std.TreeMap.mem_toList_iff_getElem?_eq_some]

theorem forall₂_keys_toList (pool : Pool) :
    List.Forall₂ (fun key e => pool.entries[key]? = some e) pool.keys pool.toList := by
  rw [List.forall₂_iff_zip, keys, Std.TreeMap.length_keys, toList_eq_map, List.length_map,
    Std.TreeMap.length_toList, ← toList_eq_map]
  exact ⟨rfl, fun hmem => mem_zip_iff.1 hmem⟩

/-! ## Asking for one key -/

theorem accept_fst (pool : Pool) (o : Occurrence) :
    (pool.accept o).1 = (pool.entries[keyOf o]?).isNone := by
  rw [accept]
  cases pool.entries[keyOf o]? <;> rfl

theorem isNone_getElem?_iff :
    ((ofOccurrences os).entries[key]?).isNone = true ↔ key ∉ os.map keyOf := by
  rw [← exists_getElem?_iff, Option.isNone_iff_eq_none, Option.eq_none_iff_forall_ne_some,
    not_exists]

theorem mem_entries_iff : key ∈ (ofOccurrences os).entries ↔ key ∈ os.map keyOf := by
  rw [Std.TreeMap.mem_iff_isSome_getElem?, Option.isSome_iff_exists, exists_getElem?_iff]

/-- An entry has a place, that of its first occurrence. -/
theorem EntryUnder.places_ne_nil (h : EntryUnder os key e) : e.places ≠ [] := by
  obtain ⟨first, hfirst, -⟩ := Option.map_eq_some_iff.1 h.first
  obtain ⟨hmem, hkey⟩ := mem_under.1 (List.mem_of_head? hfirst)
  exact List.ne_nil_of_mem ((h.mem_places first.place).2 ⟨first, hmem, hkey, rfl⟩)

/-! ## Pools that answer alike -/

/-- Two pools that no question tells apart. -/
structure Alike (pool pool' : Pool) : Prop where
  accept : ∀ o, (pool.accept o).1 = (pool'.accept o).1
  size : pool.size = pool'.size
  keys : pool.keys = pool'.keys
  toList : pool.toList = pool'.toList
  withSuffix : ∀ tail, pool.withSuffix tail = pool'.withSuffix tail
  get? : ∀ name, pool.get? name = pool'.get? name
  contains : ∀ name, pool.contains name = pool'.contains name

theorem alike_of_getElem? (h : ∀ key : Text, pool.entries[key]? = pool'.entries[key]?) :
    Alike pool pool' := by
  have hequiv : pool.entries.Equiv pool'.entries := Std.TreeMap.Equiv.of_forall_constGet?_eq h
  refine ⟨fun o => ?_, hequiv.size_eq, hequiv.keys_eq, hequiv.values_eq, fun tail => ?_,
    fun name => h _, fun name => hequiv.contains_eq⟩
  · rw [accept_fst, accept_fst, h]
  · rw [Pool.withSuffix, Pool.withSuffix, hequiv.toList_eq]

theorem addPlace_of_mem {p : Provenance} (h : p ∈ e.places) : e.addPlace p = e := by
  rw [PoolEntry.addPlace, if_pos h]

/-- What was taken in before is in its entry. -/
theorem getElem?_accept_again (h : o ∈ os) (key : Text) :
    ((ofOccurrences os).accept o).2.entries[key]? = (ofOccurrences os).entries[key]? := by
  rw [getElem?_accept]
  split
  · next hkey =>
    obtain ⟨e, he⟩ := exists_getElem?_iff.2 (List.mem_map.2 ⟨o, h, hkey⟩)
    have hplace : o.place ∈ e.places :=
      ((entryUnder_of_getElem? he).mem_places _).2 ⟨o, h, hkey, rfl⟩
    simp only [he, addPlace_of_mem hplace]
  · rfl

/-! ## Pools as groupings -/

/-- A pool groups occurrences: each of its answers is told by them and their keys. -/
structure Groups (os : List Occurrence) (pool : Pool) : Prop where
  /-- A further occurrence is new when no earlier one has its key. -/
  isNew : ∀ o, (pool.accept o).1 = true ↔ keyOf o ∉ os.map keyOf
  /-- An occurrence that was taken in before changes nothing. -/
  again : ∀ o ∈ os, Alike (pool.accept o).2 pool
  /-- The size is the number of different keys. -/
  size : pool.size = (os.map keyOf).eraseDups.length
  increasing : pool.keys.Pairwise fun a b => compare a b = .lt
  mem_keys : ∀ key, key ∈ pool.keys ↔ key ∈ os.map keyOf
  /-- The entries are those of the keys, in their order: the first definition under the key and all
  places under it, of which there is one at least. -/
  entries : List.Forall₂ (fun key e => EntryUnder os key e ∧ e.places ≠ []) pool.keys pool.toList
  /-- The end of a name selects from this list. -/
  withSuffix : ∀ tail, pool.withSuffix tail =
    ((pool.keys.zip pool.toList).filter fun e => ClassName.hasSuffix e.1 tail).map (·.2)
  /-- A name leads to the entry beside its slash form, if that is a key, and to none otherwise. -/
  get? : ∀ name e, pool.get? name = some e ↔
    (ClassName.slashForm name, e) ∈ pool.keys.zip pool.toList
  found : ∀ name, (pool.get? name).isSome = true ↔ ClassName.slashForm name ∈ pool.keys
  contains : ∀ name, pool.contains name = true ↔ ClassName.slashForm name ∈ pool.keys

theorem keys_perm_eraseDups (os : List Occurrence) :
    (ofOccurrences os).keys.Perm (os.map keyOf).eraseDups := by
  refine (List.perm_ext_iff_of_nodup Std.TreeMap.nodup_keys (nodup_eraseDups _)).2 fun key => ?_
  rw [List.mem_eraseDups, Std.TreeMap.mem_keys, mem_entries_iff]

/-- A pool groups the occurrences it was given, whichever they are. -/
theorem groups_ofOccurrences (os : List Occurrence) : Groups os (ofOccurrences os) where
  isNew o := by rw [accept_fst, isNone_getElem?_iff]
  again o ho := alike_of_getElem? (getElem?_accept_again ho)
  size := by rw [← (keys_perm_eraseDups os).length_eq, keys, Std.TreeMap.length_keys, size]
  increasing := Std.TreeMap.ordered_keys
  mem_keys key := by rw [keys, Std.TreeMap.mem_keys, mem_entries_iff]
  entries := (forall₂_keys_toList _).imp fun _ _ he =>
    have hentry := entryUnder_of_getElem? he
    ⟨hentry, hentry.places_ne_nil⟩
  withSuffix tail := by rw [zip_keys_toList, withSuffix]
  get? name e := mem_zip_iff.symm
  found name := by
    rw [keys, Std.TreeMap.mem_keys, Std.TreeMap.mem_iff_isSome_getElem?]
    rfl
  contains name := by rw [keys, Std.TreeMap.mem_keys, Std.TreeMap.mem_iff_contains, contains]

end JndiScan.Pool

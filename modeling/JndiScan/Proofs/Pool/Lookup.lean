/-
Names that lead to entries. A lookup asks for the slash form of the name that it is given, so all
spellings of a name lead to one entry, and that entry has the occurrences of all of them. A key is
itself a name that can be looked up: it leads to its own entry if it is its own slash form. The
keys of classes whose names have no dot and no semicolon are; a key that is not leads to the entry
of another key or to none.
-/
import JndiScan.Proofs.ClassName.Spelling
import JndiScan.Proofs.Pool.Observers

namespace JndiScan.Pool

open ClassName (IsSlashForm Spells Spellable slashForm hasSuffix wrap)

variable {os : List Occurrence} {o : Occurrence} {key n t : Text} {e : PoolEntry}

/-! ## Lookups -/

theorem get?_eq (pool : Pool) (name : Text) : pool.get? name = pool.entries[slashForm name]? := rfl

theorem contains_eq (pool : Pool) (name : Text) :
    pool.contains name = (pool.get? name).isSome :=
  Std.TreeMap.contains_eq_isSome_getElem?

theorem mem_keys_iff : key ∈ (ofOccurrences os).keys ↔ key ∈ os.map keyOf := by
  rw [keys, Std.TreeMap.mem_keys, mem_entries_iff]

theorem exists_entry_of_mem_keys (h : key ∈ (ofOccurrences os).keys) :
    ∃ e, (ofOccurrences os).entries[key]? = some e :=
  exists_getElem?_iff.2 (mem_keys_iff.1 h)

/-- What a name leads to is the entry of its slash form. -/
theorem entryUnder_of_get? (h : (ofOccurrences os).get? t = some e) :
    EntryUnder os (slashForm t) e :=
  entryUnder_of_getElem? h

/-! ## Keys as names -/

theorem isSlashForm_key_iff (h : key ∈ (ofOccurrences os).keys) :
    IsSlashForm key ↔ key.Trimmed ∧ ∀ name, key ≠ wrap name := by
  obtain ⟨o, -, rfl⟩ := List.mem_map.1 (mem_keys_iff.1 h)
  rw [ClassName.isSlashForm_iff]
  exact and_congr_right fun _ => and_iff_right (ClassName.dot_not_mem_slashForm o.definition.name)

/-- A key that is found when it is looked up as a name, with its own entry. -/
structure Found (pool : Pool) (key : Text) : Prop where
  contains : pool.contains key = true
  get? : ∃ e, pool.entries[key]? = some e ∧ pool.get? key = some e

/-- A key is found when it is its own slash form, as no entry has two keys. -/
theorem found_iff_isSlashForm (h : key ∈ (ofOccurrences os).keys) :
    (ofOccurrences os).Found key ↔ IsSlashForm key := by
  constructor
  · rintro ⟨-, e, he, hget⟩
    rw [IsSlashForm, ← (entryUnder_of_get? hget).key_eq, (entryUnder_of_getElem? he).key_eq]
  · intro hform
    obtain ⟨e, he⟩ := exists_entry_of_mem_keys h
    have hget : (ofOccurrences os).get? key = some e := by
      rw [get?_eq, show slashForm key = key from hform, he]
    exact ⟨by rw [contains_eq, hget, Option.isSome_some], e, he, hget⟩

/-- A key is found as a name exactly when it has no blanks at its ends and is not enclosed in `L`
and `;`. Any other key leads to the entry of its slash form, which is the entry of another key, or
to none. All keys are found when no class has a dot or a semicolon in its name. -/
theorem found_of_mem_keys (os : List Occurrence) :
    let pool := ofOccurrences os
    (∀ key ∈ pool.keys, pool.Found key ↔ key.Trimmed ∧ ∀ name, key ≠ wrap name) ∧
    (∀ key ∈ pool.keys, ¬ pool.Found key →
      slashForm key ≠ key ∧ (pool.contains key = true ↔ slashForm key ∈ pool.keys) ∧
      ∀ e, pool.get? key = some e → EntryUnder os (slashForm key) e) ∧
    ((∀ o ∈ os, .ofChar '.' ∉ o.definition.name ∧ .ofChar ';' ∉ o.definition.name) →
      ∀ key ∈ pool.keys, pool.Found key) := by
  intro pool
  refine ⟨fun key hkey => ?_, fun key hkey hlost => ⟨fun hform => ?_, ?_, fun e he => ?_⟩,
    fun hnames key hkey => ?_⟩
  · rw [found_iff_isSlashForm hkey, isSlashForm_key_iff hkey]
  · exact hlost ((found_iff_isSlashForm hkey).2 hform)
  · rw [contains_eq, get?_eq, Option.isSome_iff_exists, exists_getElem?_iff, mem_keys_iff]
  · exact entryUnder_of_get? he
  · obtain ⟨o, ho, rfl⟩ := List.mem_map.1 (mem_keys_iff.1 hkey)
    rw [found_iff_isSlashForm hkey]
    exact ClassName.isSlashForm_slashForm (hnames o ho).1 (hnames o ho).2

/-- Two classes, the key of one of them the descriptor of the other. -/
def enclosedTwice : List Occurrence :=
  [{ definition := { name := "LLa;;", superName := none }, place := { root := "/x.jar" } },
    { definition := { name := "a", superName := none }, place := { root := "/y.jar" } }]

theorem mem_keys_enclosedTwice : ("La;" : Text) ∈ (ofOccurrences enclosedTwice).keys := by
  rw [mem_keys_iff]
  decide

/-- The key of the first class is in the pool and leads to the second class. -/
theorem found_of_mem_keys_enclosedTwice :
    ("La;" : Text) ∈ (ofOccurrences enclosedTwice).keys ∧
    ¬ (ofOccurrences enclosedTwice).Found "La;" ∧
    ∀ e, (ofOccurrences enclosedTwice).get? "La;" = some e → EntryUnder enclosedTwice "a" e := by
  obtain ⟨hfound, hlost, -⟩ := found_of_mem_keys enclosedTwice
  have hnot : ¬ (ofOccurrences enclosedTwice).Found "La;" := fun h =>
    ((hfound _ mem_keys_enclosedTwice).1 h).2 "a" (by decide)
  exact ⟨mem_keys_enclosedTwice, hnot, (hlost _ mem_keys_enclosedTwice hnot).2.2⟩

/-- Where the second class is missing, it leads to nothing. -/
theorem lost_enclosedTwice :
    let pool := ofOccurrences (enclosedTwice.take 1)
    ("La;" : Text) ∈ pool.keys ∧ pool.contains "La;" = false ∧ pool.get? "La;" = none := by
  intro pool
  have hnone : pool.get? "La;" = none := by
    rw [get?_eq, getElem?_ofOccurrences, merged_eq_none_iff]
    decide
  refine ⟨?_, ?_, hnone⟩
  · rw [mem_keys_iff]
    decide
  · rw [contains_eq, hnone, Option.isSome_none]

/-! ## Spellings of one name -/

theorem keyOf_of_spells (h : Spellable n) (ho : Spells n o.definition.name) : keyOf o = n :=
  h.slashForm_eq ho

theorem get?_of_spells (h : Spellable n) (ht : Spells n t) (pool : Pool) :
    pool.get? t = pool.entries[n]? := by
  rw [get?_eq, h.slashForm_eq ht]

theorem hasSuffix_congr {t t' tail tail' : Text} (ht : slashForm t = slashForm t')
    (htail : slashForm tail = slashForm tail') : hasSuffix t tail = hasSuffix t' tail' := by
  rw [hasSuffix, hasSuffix, ht, htail]

/-- One entry stands for a name and all its spellings. Each of them leads to it, every occurrence
under one of them has its place in it, and a further one adds its place and changes nothing
else. -/
structure StandsFor (os : List Occurrence) (n : Text) (e : PoolEntry) : Prop where
  entryUnder : EntryUnder os n e
  get? : ∀ t, Spells n t → (ofOccurrences os).get? t = some e
  contains : ∀ t, Spells n t → (ofOccurrences os).contains t = true
  places : ∀ o ∈ os, Spells n o.definition.name → o.place ∈ e.places
  accept : ∀ o, Spells n o.definition.name → ((ofOccurrences os).accept o).1 = false ∧
    (∀ t, Spells n t → ((ofOccurrences os).accept o).2.get? t = some (e.addPlace o.place)) ∧
    ∀ t, slashForm t ≠ n → ((ofOccurrences os).accept o).2.get? t = (ofOccurrences os).get? t

theorem standsFor_of_getElem? (h : Spellable n) (he : (ofOccurrences os).entries[n]? = some e) :
    StandsFor os n e where
  entryUnder := entryUnder_of_getElem? he
  get? t ht := by rw [get?_of_spells h ht, he]
  contains t ht := by rw [contains_eq, get?_of_spells h ht, he, Option.isSome_some]
  places o ho hname :=
    ((entryUnder_of_getElem? he).mem_places o.place).2 ⟨o, ho, keyOf_of_spells h hname, rfl⟩
  accept o hname := by
    have hkey : keyOf o = n := keyOf_of_spells h hname
    refine ⟨?_, fun t ht => ?_, fun t ht => ?_⟩
    · rw [accept_fst, hkey, he, Option.isNone_some]
    · rw [get?_of_spells h ht, getElem?_accept, if_pos hkey, he]
    · rw [get?_eq, getElem?_accept, if_neg fun hsame => ht (hsame.symm.trans hkey)]
      rfl

/-- A name and its spellings have one slash form, so they lead to one entry of any pool and are not
told apart by the ends of names; and where the name or a spelling of it was met, that entry stands
for all of them. -/
theorem spellings_share_entry (h : Spellable n) :
    (∀ t, Spells n t → slashForm t = n) ∧
    (∀ os t u, Spells n t → Spells n u →
      (ofOccurrences os).get? t = (ofOccurrences os).get? u ∧
      (ofOccurrences os).contains t = (ofOccurrences os).contains u) ∧
    (∀ os, (∃ o ∈ os, Spells n o.definition.name) → ∃ e, StandsFor os n e) ∧
    (∀ t u x, Spells n t → Spells n u →
      hasSuffix t x = hasSuffix u x ∧ hasSuffix x t = hasSuffix x u) := by
  refine ⟨fun t => h.slashForm_eq, fun os t u ht hu => ?_, fun os hmet => ?_,
    fun t u x ht hu => ?_⟩
  · have hget : (ofOccurrences os).get? t = (ofOccurrences os).get? u := by
      rw [get?_of_spells h ht, get?_of_spells h hu]
    exact ⟨hget, by rw [contains_eq, contains_eq, hget]⟩
  · obtain ⟨o, ho, hname⟩ := hmet
    obtain ⟨e, he⟩ := exists_getElem?_iff.2
      (List.mem_map.2 ⟨o, ho, keyOf_of_spells h hname⟩)
    exact ⟨e, standsFor_of_getElem? h he⟩
  · have hform : slashForm t = slashForm u := (h.slashForm_eq ht).trans (h.slashForm_eq hu).symm
    exact ⟨hasSuffix_congr hform rfl, hasSuffix_congr rfl hform⟩

/-- A name with a package called `class`, with a first letter `L` and with a blank inside. -/
def oddName : Text := "Log/class/My Manager"

/-- Found in a class file under its descriptor with blanks around it, the class is looked up under
the name of its file. -/
theorem spellings_share_entry_oddName :
    Spellable oddName ∧
    Spells oddName " LLog/class/My Manager;\n" ∧ Spells oddName "Log/class/My Manager.class" ∧
    ∀ place, ∃ e, (ofOccurrences
      [{ definition := { name := " LLog/class/My Manager;\n", superName := none }
         place := place }]).get? "Log/class/My Manager.class" = some e ∧ place ∈ e.places := by
  have hname : Spellable oddName :=
    ⟨by decide, by decide, by decide, by decide, .inr (by decide)⟩
  have hfirst : Spells oddName " LLog/class/My Manager;\n" :=
    ⟨.descriptor, " ", "\n", List.all_eq_true.1 (by decide), List.all_eq_true.1 (by decide),
      by decide⟩
  have hfile : Spells oddName "Log/class/My Manager.class" :=
    ⟨.fileName, [], [], List.forall_mem_nil _, List.forall_mem_nil _, by decide⟩
  refine ⟨hname, hfirst, hfile, fun place => ?_⟩
  obtain ⟨e, he⟩ := (spellings_share_entry hname).2.2.1
    [{ definition := { name := " LLog/class/My Manager;\n", superName := none }, place := place }]
    ⟨_, List.mem_singleton_self _, hfirst⟩
  exact ⟨e, he.get? _ hfile, he.places _ (List.mem_singleton_self _) hfirst⟩

end JndiScan.Pool

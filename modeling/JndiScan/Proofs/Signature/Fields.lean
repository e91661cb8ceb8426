/-
The fields of a signature, as a rules entry gives them. What an entry gives for a key stands for
what is built in, and the constructor is overlaid in the same way. Each field fails by itself; all
errors are those of the rules but one, which comes of a value that cannot be shown.
-/
import JndiScan.Proofs.Files.Host
import JndiScan.Rules.Load

namespace JndiScan

open Host (bind_eq_ok_iff bind_eq_error_iff)

namespace Signature

variable {v w : Value} {entries fields : List (Value × Value)} {references names : List Value}
variable {key t builtInText : Text} {mask calls : Nat} {error : EntryError} {s : Signature}
variable {fault : Value.ShowFault}

/-! ## Values of fields -/

/-- What an entry gives for a key, or else what is built in. -/
def effective (entries : List (Value × Value)) (key : Text) (builtIn : Value) : Value :=
  (Value.lookup? (.text key) entries).getD builtIn

/-- What the constructor of an entry is overlaid by. -/
def constructorOf (entries : List (Value × Value)) : List (Value × Value) :=
  match Value.lookup? (.text "constructor") entries with
  | some (.mapping fields) => fields
  | _ => []

/-- The references that are built in. -/
def builtInReferences : Value := .list (builtIn.references.map .text)

/-- The access flags that are built in. -/
def builtInAccess : Value := .list [.text "private"]

theorem shownText_eq_ok_iff :
    shownText calls v = .ok t ↔ v.showFault? calls = none ∧ v.shown = t := by
  rw [shownText]
  cases v.showFault? calls <;> simp

theorem shownText_eq_error_iff : shownText calls v = .error error ↔
    ∃ fault, v.showFault? calls = some fault ∧ error = .unshown fault := by
  rw [shownText]
  cases v.showFault? calls <;> simp [eq_comm]

theorem shownText_eq_unshown_iff :
    shownText calls v = .error (.unshown fault) ↔ v.showFault? calls = some fault := by
  simp [shownText_eq_error_iff]

theorem textField_eq (entries : List (Value × Value)) (key builtInText : Text) :
    textField entries key builtInText =
      shownText fieldCalls (effective entries key (.text builtInText)) := by
  rw [textField, effective]
  cases Value.lookup? (.text key) entries <;> rfl

theorem classField_eq_ok_iff (hbuiltIn : builtInText ≠ []) :
    classField entries key builtInText = .ok t ↔
      effective entries key (.text builtInText) = .text t ∧ t ≠ [] := by
  rw [classField, effective]
  cases Value.lookup? (.text key) entries with
  | none =>
    simp only [Option.getD_none, Except.ok.injEq, Value.text.injEq]
    exact ⟨fun h => ⟨h, h ▸ hbuiltIn⟩, And.left⟩
  | some w =>
    cases w with
    | text given =>
      cases given with
      | nil => simp +contextual
      | cons c given =>
        simp only [List.isEmpty_cons, Bool.false_eq_true, if_false, Option.getD_some,
          Except.ok.injEq, Value.text.injEq]
        exact ⟨fun h => ⟨h, h ▸ List.cons_ne_nil c given⟩, And.left⟩
    | _ => simp

theorem classField_ne_unshown :
    classField entries key builtInText ≠ .error (.unshown fault) := by
  rw [classField]
  split
  · simp
  · split <;> simp
  · simp

/-! ## Access flags -/

/-- A value names an access flag: as a text in small letters it is the name of the flag. -/
def Names (v : Value) (flag : Nat) : Prop := (v.shown.lower, flag) ∈ accessFlags

theorem accessFlag?_eq_some_iff {flag : Nat} :
    accessFlag? v.shown = some flag ↔ Names v flag := by
  rw [accessFlag?, Names]
  constructor
  · rw [List.lookup_eq_some_iff]
    rintro ⟨before, after, heq, -⟩
    exact heq ▸ List.mem_append_right before (List.mem_cons_self ..)
  · simp only [accessFlags, List.mem_cons, Prod.mk.injEq, List.not_mem_nil, or_false]
    rintro (⟨h, rfl⟩ | ⟨h, rfl⟩ | ⟨h, rfl⟩ | ⟨h, rfl⟩ | ⟨h, rfl⟩) <;> rw [h] <;> rfl

theorem accessMask_cons_eq_ok_iff {total : Nat} :
    accessMask mask (v :: names) = .ok total ↔ ∃ flag,
      v.showFault? itemCalls = none ∧ Names v flag ∧ accessMask (mask ||| flag) names = .ok total := by
  rw [accessMask, bind_eq_ok_iff]
  constructor
  · rintro ⟨t, hshown, h⟩
    obtain ⟨hshort, rfl⟩ := shownText_eq_ok_iff.1 hshown
    split at h
    · next flag hflag => exact ⟨flag, hshort, accessFlag?_eq_some_iff.1 hflag, h⟩
    · cases h
  · rintro ⟨flag, hshort, hnames, h⟩
    refine ⟨v.shown, shownText_eq_ok_iff.2 ⟨hshort, rfl⟩, ?_⟩
    rw [accessFlag?_eq_some_iff.2 hnames]
    exact h

/-- A list of flags is taken when each of its values names one. -/
theorem exists_accessMask_iff : (∃ total, accessMask mask names = .ok total) ↔
    ∀ name ∈ names, name.showFault? itemCalls = none ∧ ∃ flag, Names name flag := by
  induction names generalizing mask with
  | nil => simp [accessMask]
  | cons v names ih =>
    simp only [accessMask_cons_eq_ok_iff, List.forall_mem_cons]
    constructor
    · rintro ⟨total, flag, hshort, hnames, h⟩
      exact ⟨⟨hshort, flag, hnames⟩, ih.1 ⟨total, h⟩⟩
    · rintro ⟨⟨hshort, flag, hnames⟩, hall⟩
      obtain ⟨total, h⟩ := ih.2 hall
      exact ⟨total, flag, hshort, hnames, h⟩

theorem Names.unique {flag flag' : Nat} (h : Names v flag) (h' : Names v flag') : flag = flag' :=
  Option.some.inj ((accessFlag?_eq_some_iff.2 h).symm.trans (accessFlag?_eq_some_iff.2 h'))

/-- A mask has the bits of the flags that a list names. -/
theorem testBit_accessMask {total : Nat} (h : accessMask mask names = .ok total) (i : Nat) :
    total.testBit i = true ↔
      mask.testBit i = true ∨ ∃ name ∈ names, ∃ flag, Names name flag ∧ flag.testBit i = true := by
  induction names generalizing mask with
  | nil =>
    cases h
    simp
  | cons v names ih =>
    obtain ⟨flag, -, hnames, h⟩ := accessMask_cons_eq_ok_iff.1 h
    have hflag : (∃ flag, Names v flag ∧ flag.testBit i = true) ↔ flag.testBit i = true :=
      ⟨fun ⟨_, hnames', hbit⟩ => hnames.unique hnames' ▸ hbit, fun hbit => ⟨flag, hnames, hbit⟩⟩
    simp only [ih h, Nat.testBit_or, Bool.or_eq_true, List.mem_cons, exists_eq_or_imp, hflag,
      or_assoc]

theorem exists_of_accessMask_unshown (h : accessMask mask names = .error (.unshown fault)) :
    ∃ name ∈ names, name.showFault? itemCalls = some fault := by
  induction names generalizing mask with
  | nil => cases h
  | cons v names ih =>
    rw [accessMask, bind_eq_error_iff] at h
    rcases h with h | ⟨t, -, h⟩
    · exact ⟨v, List.mem_cons_self .., shownText_eq_unshown_iff.1 h⟩
    · split at h
      · obtain ⟨name, hname, hunshown⟩ := ih h
        exact ⟨name, List.mem_cons_of_mem v hname, hunshown⟩
      · cases h

/-! ## Shapes of values -/

theorem entriesOf_mapping (entries : List (Value × Value)) :
    entriesOf (.mapping entries) = .ok entries := by
  cases entries <;> rfl

theorem entriesOf_eq_ok_iff : entriesOf v = .ok entries ↔
    v.isAbsent = true ∧ entries = [] ∨ v.isAbsent = false ∧ v.opened = .mapping entries := by
  rw [entriesOf]
  cases v.isAbsent with
  | true => simp [eq_comm]
  | false => cases v.opened <;> simp

theorem constructorEntries_eq_ok_iff : constructorEntries entries = .ok fields ↔
    Value.lookup? (.text "constructor") entries = none ∧ fields = [] ∨
      ∃ w, Value.lookup? (.text "constructor") entries = some w ∧ w.opened = .mapping fields := by
  rw [constructorEntries]
  cases Value.lookup? (.text "constructor") entries with
  | none => simp [eq_comm]
  | some w => cases hw : w.opened <;> simp [hw]

theorem referencesField_eq_ok_iff : referencesField entries = .ok references ↔
    (effective entries "references" builtInReferences).isAbsent = true ∧ references = [] ∨
      (effective entries "references" builtInReferences).isAbsent = false ∧
        (effective entries "references" builtInReferences).opened = .list references := by
  rw [referencesField, effective]
  cases Value.lookup? (.text "references") entries with
  | none =>
    have hpresent : builtInReferences.isAbsent = false := rfl
    have hopened : builtInReferences.opened = .list (builtIn.references.map .text) := rfl
    simp only [Option.getD_none, hpresent, hopened, Bool.false_eq_true, false_and, false_or,
      true_and, Except.ok.injEq, Value.list.injEq]
  | some w =>
    simp only [Option.getD_some]
    cases w.isAbsent with
    | true => simp [eq_comm]
    | false => cases w.opened <;> simp

theorem accessField_eq_ok_iff {total : Nat} : accessField fields = .ok total ↔
    ∃ names, (effective fields "access" builtInAccess).opened = .list names ∧
      accessMask 0 names = .ok total := by
  rw [accessField, effective]
  cases Value.lookup? (.text "access") fields with
  | none =>
    have hbuiltIn : accessMask 0 [.text "private"] = .ok builtIn.requiredAccess := rfl
    simp only [Option.getD_none, builtInAccess, Value.opened, Value.list.injEq, exists_eq_left',
      hbuiltIn]
  | some w =>
    simp only [Option.getD_some]
    cases w.opened <;> simp

theorem mapM_shownText_eq_ok_iff {ts : List Text} : references.mapM (shownText itemCalls) = .ok ts ↔
    (∀ w ∈ references, w.showFault? itemCalls = none) ∧ references.map Value.shown = ts := by
  induction references generalizing ts with
  | nil =>
    rw [List.mapM_nil]
    simp [pure, Except.pure]
  | cons w references ih =>
    rw [List.mapM_cons, bind_eq_ok_iff]
    simp only [bind_eq_ok_iff, shownText_eq_ok_iff, ih, List.forall_mem_cons, List.map_cons]
    constructor
    · rintro ⟨_, ⟨hshort, rfl⟩, _, ⟨hshorts, rfl⟩, ⟨⟩⟩
      exact ⟨⟨hshort, hshorts⟩, rfl⟩
    · rintro ⟨⟨hshort, hshorts⟩, rfl⟩
      exact ⟨_, ⟨hshort, rfl⟩, _, ⟨hshorts, rfl⟩, rfl⟩

theorem exists_of_mapM_unshown (h : references.mapM (shownText itemCalls) = .error (.unshown fault)) :
    ∃ w ∈ references, w.showFault? itemCalls = some fault := by
  induction references with
  | nil => cases h
  | cons w references ih =>
    rw [List.mapM_cons, bind_eq_error_iff] at h
    rcases h with h | ⟨t, -, h⟩
    · exact ⟨w, List.mem_cons_self .., shownText_eq_unshown_iff.1 h⟩
    · rcases bind_eq_error_iff.1 h with h | ⟨ts, -, h⟩
      · obtain ⟨name, hname, hunshown⟩ := ih h
        exact ⟨name, List.mem_cons_of_mem w hname, hunshown⟩
      · cases h

/-! ## Whole entries -/

/-- A signature is told by an entry, the fields of its constructor and its references. -/
structure Tells (entries fields : List (Value × Value)) (references : List Value)
    (s : Signature) : Prop where
  presenceClass : classField entries "presence_class" builtIn.presenceClass = .ok s.presenceClass
  vulnerableClass :
    classField entries "vulnerable_class" builtIn.vulnerableClass = .ok s.vulnerableClass
  id : textField entries "id" builtIn.id = .ok s.id
  cve : textField entries "cve" builtIn.cve = .ok s.cve
  title : textField entries "title" builtIn.title = .ok s.title
  constructorName : textField fields "name" builtIn.constructorName = .ok s.constructorName
  constructorDescriptor :
    textField fields "descriptor" builtIn.constructorDescriptor = .ok s.constructorDescriptor
  requiredAccess : accessField fields = .ok s.requiredAccess
  recommendation :
    textField entries "recommendation" builtIn.recommendation = .ok s.recommendation
  references : references.mapM (shownText itemCalls) = .ok s.references

theorem ofEntry_eq_ok_iff : ofEntry v = .ok s ↔
    ∃ entries, entriesOf v = .ok entries ∧ ∃ fields, constructorEntries entries = .ok fields ∧
      ∃ references, referencesField entries = .ok references ∧
        Tells entries fields references s := by
  simp only [ofEntry, bind_eq_ok_iff]
  constructor
  · rintro ⟨entries, hentries, fields, hfields, references, hreferences, presence, hpresence,
      vulnerable, hvulnerable, id, hid, cve, hcve, title, htitle, name, hname, descriptor,
      hdescriptor, access, haccess, recommendation, hrecommendation, shown, hshown, ⟨⟩⟩
    exact ⟨entries, hentries, fields, hfields, references, hreferences, hpresence, hvulnerable,
      hid, hcve, htitle, hname, hdescriptor, haccess, hrecommendation, hshown⟩
  · rintro ⟨entries, hentries, fields, hfields, references, hreferences, h⟩
    exact ⟨entries, hentries, fields, hfields, references, hreferences, _, h.presenceClass, _,
      h.vulnerableClass, _, h.id, _, h.cve, _, h.title, _, h.constructorName, _,
      h.constructorDescriptor, _, h.requiredAccess, _, h.recommendation, _, h.references, rfl⟩

/-- Values that a signature shows as texts, with the calls that may be open then: the fields of an
entry and of its constructor, and the items of lists in such fields. -/
inductive Shows (v : Value) : Value → Nat → Prop
  | field {entries : List (Value × Value)} {key w : Value} : entriesOf v = .ok entries →
      Value.lookup? key entries = some w → Shows v w fieldCalls
  | constructor {w : Value} {fields : List (Value × Value)} {key x : Value} {calls : Nat} :
      Shows v w calls → w.opened = .mapping fields → Value.lookup? key fields = some x →
      Shows v x calls
  | item {w x : Value} {items : List Value} {calls : Nat} : Shows v w calls →
      w.opened = .list items → x ∈ items → Shows v x itemCalls

theorem exists_of_textField_unshown
    (h : textField entries key builtInText = .error (.unshown fault)) :
    ∃ w, Value.lookup? (.text key) entries = some w ∧ w.showFault? fieldCalls = some fault := by
  rw [textField] at h
  split at h
  · next w hw => exact ⟨w, hw, shownText_eq_unshown_iff.1 h⟩
  · cases h

theorem exists_of_accessField_unshown (h : accessField fields = .error (.unshown fault)) :
    ∃ w names, Value.lookup? (.text "access") fields = some w ∧ w.opened = .list names ∧
      ∃ name ∈ names, name.showFault? itemCalls = some fault := by
  rw [accessField] at h
  split at h
  · cases h
  · next w hw =>
    split at h
    · next names hnames => exact ⟨w, names, hw, hnames, exists_of_accessMask_unshown h⟩
    · cases h

theorem exists_of_references_unshown (hfield : referencesField entries = .ok references)
    (h : references.mapM (shownText itemCalls) = .error (.unshown fault)) :
    ∃ w items, Value.lookup? (.text "references") entries = some w ∧ w.opened = .list items ∧
      ∃ item ∈ items, item.showFault? itemCalls = some fault := by
  obtain ⟨item, hitem, hunshown⟩ := exists_of_mapM_unshown h
  rw [referencesField] at hfield
  split at hfield
  · cases hfield
    obtain ⟨t, -, rfl⟩ := List.mem_map.1 hitem
    cases hunshown
  · next w hw =>
    split at hfield
    · cases hfield
      cases hitem
    · split at hfield
      · next items hitems =>
        cases hfield
        exact ⟨w, references, hw, hitems, item, hitem, hunshown⟩
      · cases hfield

theorem entriesOf_ne_unshown : entriesOf v ≠ .error (.unshown fault) := by
  rw [entriesOf]
  split
  · simp
  · split <;> simp

theorem constructorEntries_ne_unshown : constructorEntries entries ≠ .error (.unshown fault) := by
  rw [constructorEntries]
  split
  · simp
  · split <;> simp

theorem referencesField_ne_unshown : referencesField entries ≠ .error (.unshown fault) := by
  rw [referencesField]
  split
  · simp
  · split
    · simp
    · split <;> simp

/-- The one error that is not the rules' own comes of a value that cannot be shown. -/
theorem exists_of_ofEntry_unshown (h : ofEntry v = .error (.unshown fault)) :
    ∃ w calls, Shows v w calls ∧ w.showFault? calls = some fault := by
  simp only [ofEntry, bind_eq_error_iff] at h
  rcases h with h | ⟨entries, hentries, h⟩
  · exact absurd h entriesOf_ne_unshown
  rcases h with h | ⟨fields, hfields, h⟩
  · exact absurd h constructorEntries_ne_unshown
  rcases h with h | ⟨references, hreferences, h⟩
  · exact absurd h referencesField_ne_unshown
  rcases h with h | ⟨_, -, h⟩
  · exact absurd h classField_ne_unshown
  rcases h with h | ⟨_, -, h⟩
  · exact absurd h classField_ne_unshown
  have hfield : ∀ {key builtInText : Text},
      textField entries key builtInText = .error (.unshown fault) →
        ∃ w calls, Shows v w calls ∧ w.showFault? calls = some fault := fun h =>
    let ⟨w, hw, hunshown⟩ := exists_of_textField_unshown h
    ⟨w, _, .field hentries hw, hunshown⟩
  have hlookup : ∀ {key w : Value}, Value.lookup? key fields = some w → Shows v w fieldCalls := by
    intro key w hw
    rcases constructorEntries_eq_ok_iff.1 hfields with ⟨-, rfl⟩ | ⟨c, hc, hopened⟩
    · cases hw
    · exact .constructor (.field hentries hc) hopened hw
  have hconstructor : ∀ {key builtInText : Text},
      textField fields key builtInText = .error (.unshown fault) →
        ∃ w calls, Shows v w calls ∧ w.showFault? calls = some fault := fun h =>
    let ⟨w, hw, hunshown⟩ := exists_of_textField_unshown h
    ⟨w, _, hlookup hw, hunshown⟩
  rcases h with h | ⟨_, -, h⟩
  · exact hfield h
  rcases h with h | ⟨_, -, h⟩
  · exact hfield h
  rcases h with h | ⟨_, -, h⟩
  · exact hfield h
  rcases h with h | ⟨_, -, h⟩
  · exact hconstructor h
  rcases h with h | ⟨_, -, h⟩
  · exact hconstructor h
  rcases h with h | ⟨_, -, h⟩
  · obtain ⟨w, names, hw, hopened, name, hname, hunshown⟩ := exists_of_accessField_unshown h
    exact ⟨name, _, .item (hlookup hw) hopened hname, hunshown⟩
  rcases h with h | ⟨_, -, h⟩
  · exact hfield h
  rcases h with h | ⟨_, -, h⟩
  · obtain ⟨w, items, hw, hopened, item, hitem, hunshown⟩ :=
      exists_of_references_unshown hreferences h
    exact ⟨item, _, .item (.field hentries hw) hopened hitem, hunshown⟩
  · cases h

/-! ## Rules of one name -/

/-- The signature that an entry alone tells as rules. -/
theorem signature_of_entry (v : Value) : Rules.signature [(rulesKey, v)] =
    match ofEntry v with
    | .ok s => .ok s
    | .error (.unshown fault) => .error (.unshown fault)
    | .error error => .error (.rules (.entry error)) := by
  have hlookup : List.lookup rulesKey [(rulesKey, v)] = some v := List.lookup_cons_self
  cases h : ofEntry v with
  | ok s => simp only [Rules.signature, hlookup, Option.getD_some, h]
  | error error => cases error <;> simp only [Rules.signature, hlookup, Option.getD_some, h]

end Signature

end JndiScan

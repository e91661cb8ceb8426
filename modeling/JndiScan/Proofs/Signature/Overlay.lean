/-
The overlay of the built-in signature by a rules entry like those of JSON. The checks ask for the
shapes of a few values, whatever the others are, and each field of the signature is told by one
value, the built-in one where the entry gives none.
-/
import JndiScan.Proofs.Signature.Fields

namespace JndiScan

namespace Value

variable {v w key : Value} {items : List Value} {entries : List (Value × Value)}

/-! ## Plain values -/

/-- Nothing, a truth value, a whole number or a text. -/
inductive Scalar : Value → Prop
  | null : Scalar .null
  | bool (b : Bool) : Scalar (.bool b)
  | int (i : Int) : Scalar (.int i)
  | text (t : Text) : Scalar (.text t)

/-- A scalar, or a list or a mapping of such values, with scalars as keys. -/
inductive JsonLike : Value → Prop
  | scalar {v : Value} : Scalar v → JsonLike v
  | list {items : List Value} : (∀ v ∈ items, JsonLike v) → JsonLike (.list items)
  | mapping {entries : List (Value × Value)} : (∀ e ∈ entries, Scalar e.1) →
      (∀ e ∈ entries, JsonLike e.2) → JsonLike (.mapping entries)

theorem JsonLike.opened_eq (h : v.JsonLike) : v.opened = v := by
  cases h with
  | scalar h => cases h <;> rfl
  | list _ => rfl
  | mapping _ _ => rfl

theorem JsonLike.of_mem_list (h : JsonLike (.list items)) (hw : w ∈ items) : w.JsonLike := by
  cases h with
  | scalar h => cases h
  | list h => exact h w hw

theorem exists_mem_of_lookup? (h : lookup? key entries = some w) : ∃ k, (k, w) ∈ entries := by
  rw [lookup?, Option.map_eq_some_iff] at h
  obtain ⟨⟨k, _⟩, hfind, rfl⟩ := h
  exact ⟨k, List.mem_of_find?_eq_some hfind⟩

theorem JsonLike.of_lookup? (h : JsonLike (.mapping entries)) (hw : lookup? key entries = some w) :
    w.JsonLike := by
  obtain ⟨k, hmem⟩ := exists_mem_of_lookup? hw
  cases h with
  | scalar h => cases h
  | mapping _ h => exact h _ hmem

/-! ## Values that can be shown -/

/-- Nothing is told of the parts of a web, as there is none. -/
abbrev noParts : Nat → Shape → Nat → Option ShowFault := fun _ _ _ => none

/-- A value inside another one can be shown by one call less. -/
def ShownInside (calls : Nat) (v : Value) : Prop :=
  0 < calls ∧ showFaultWith noParts (calls - 1) v = none

theorem showFaultItems_eq_none_iff {calls : Nat} :
    showFaultItems noParts calls items = none ↔ ∀ w ∈ items, ShownInside calls w := by
  induction items with
  | nil => simp [showFaultItems]
  | cons v items ih =>
    rw [showFaultItems, List.forall_mem_cons, ← ih, ShownInside]
    by_cases hcalls : calls = 0
    · simp [hcalls]
    · rw [if_neg hcalls, Option.or_eq_none_iff, and_iff_right (Nat.pos_of_ne_zero hcalls)]

theorem showFaultEntries_eq_none_iff {calls : Nat} :
    showFaultEntries noParts calls entries = none ↔
      ∀ e ∈ entries, ShownInside calls e.1 ∧ ShownInside calls e.2 := by
  induction entries with
  | nil => simp [showFaultEntries]
  | cons e entries ih =>
    obtain ⟨k, v⟩ := e
    rw [showFaultEntries, List.forall_mem_cons, ← ih, ShownInside, ShownInside]
    by_cases hcalls : calls = 0
    · simp [hcalls]
    · simp only [if_neg hcalls, Option.or_eq_none_iff, Nat.pos_of_ne_zero hcalls, true_and,
        and_assoc]

theorem showFault?_of_jsonLike (h : v.JsonLike) (calls : Nat) :
    v.showFault? calls = showFaultWith noParts calls v := by
  cases h with
  | scalar h => cases h <;> rfl
  | list _ => rfl
  | mapping _ _ => rfl

/-- A scalar is shown by no calls or not at all. -/
theorem Scalar.showFaultWith_eq (h : v.Scalar) (calls calls' : Nat) :
    showFaultWith noParts calls v = showFaultWith noParts calls' v := by
  cases h <;> rfl

/-- More calls show whatever fewer show. -/
theorem JsonLike.showFaultWith_mono (h : v.JsonLike) {calls calls' : Nat} (hle : calls ≤ calls')
    (hshown : showFaultWith noParts calls v = none) : showFaultWith noParts calls' v = none := by
  induction h generalizing calls calls' with
  | scalar h => exact (h.showFaultWith_eq calls' calls).trans hshown
  | list _ ih =>
    rw [showFaultWith, showFaultItems_eq_none_iff] at hshown ⊢
    intro w hw
    obtain ⟨hpos, hinside⟩ := hshown w hw
    exact ⟨Nat.lt_of_lt_of_le hpos hle, ih w hw (Nat.sub_le_sub_right hle 1) hinside⟩
  | mapping hkeys _ ih =>
    rw [showFaultWith, showFaultEntries_eq_none_iff] at hshown ⊢
    intro e he
    obtain ⟨⟨hpos, hkey⟩, -, hinside⟩ := hshown e he
    have hmore : 0 < calls' := Nat.lt_of_lt_of_le hpos hle
    exact ⟨⟨hmore, ((hkeys e he).showFaultWith_eq _ _).trans hkey⟩,
      hmore, ih e he (Nat.sub_le_sub_right hle 1) hinside⟩

/-- A list that holds nothing, inside as many others as a number tells. -/
def nested : Nat → Value
  | 0 => .list []
  | n + 1 => .list [nested n]

/-- Lists inside each other can be shown when a call may be open for each but the outermost one. -/
theorem showFault?_nested (n calls : Nat) :
    (nested n).showFault? calls = if n ≤ calls then none else some .tooDeep := by
  suffices hwith : showFaultWith noParts calls (nested n) =
      if n ≤ calls then none else some .tooDeep by
    cases n <;> exact hwith
  induction n generalizing calls with
  | zero => rfl
  | succ n ih =>
    rw [nested, showFaultWith, showFaultItems]
    cases calls with
    | zero => rfl
    | succ calls => simp [ih, showFaultItems]

/-- A value like those of JSON that can be shown by as many calls. -/
structure Plain (calls : Nat) (v : Value) : Prop where
  jsonLike : v.JsonLike
  shown : v.showFault? calls = none

theorem plain_text (calls : Nat) (t : Text) : Plain calls (.text t) := ⟨.scalar (.text t), rfl⟩

namespace Plain

variable {calls calls' : Nat}

theorem mono (h : v.Plain calls) (hle : calls ≤ calls') : v.Plain calls' := by
  have hshown := h.shown
  rw [showFault?_of_jsonLike h.jsonLike] at hshown
  refine ⟨h.jsonLike, ?_⟩
  rw [showFault?_of_jsonLike h.jsonLike]
  exact h.jsonLike.showFaultWith_mono hle hshown

theorem of_shownInside (hjson : w.JsonLike) (h : ShownInside calls w) : w.Plain (calls - 1) :=
  ⟨hjson, (showFault?_of_jsonLike hjson _).trans h.2⟩

theorem of_mem_list (h : Plain calls (.list items)) (hw : w ∈ items) : w.Plain (calls - 1) := by
  have hshown : showFaultItems noParts calls items = none := h.shown
  exact of_shownInside (h.jsonLike.of_mem_list hw) (showFaultItems_eq_none_iff.1 hshown w hw)

theorem of_lookup? (h : Plain calls (.mapping entries)) (hw : lookup? key entries = some w) :
    w.Plain (calls - 1) := by
  have hshown : showFaultEntries noParts calls entries = none := h.shown
  obtain ⟨k, hmem⟩ := exists_mem_of_lookup? hw
  exact of_shownInside (h.jsonLike.of_lookup? hw) (showFaultEntries_eq_none_iff.1 hshown _ hmem).2

end Plain

end Value

namespace Signature

variable {v w : Value} {entries fields : List (Value × Value)} {references names : List Value}
variable {key t builtInText : Text} {calls : Nat} {fault : Value.ShowFault} {error : EntryError}
variable {s : Signature}

/-! ## Plain entries -/

theorem Shows.calls_le (h : Shows v w calls) : calls ≤ fieldCalls := by
  induction h with
  | field _ _ => exact Nat.le_refl _
  | constructor _ _ _ ih => exact ih
  | item _ _ _ _ => exact Nat.sub_le ..

theorem Shows.plain (h : Shows v w calls) (hv : v.Plain fieldCalls) : w.Plain calls := by
  induction h with
  | field hentries hw =>
    rcases entriesOf_eq_ok_iff.1 hentries with ⟨-, rfl⟩ | ⟨-, hopened⟩
    · cases hw
    · obtain rfl := hv.jsonLike.opened_eq.symm.trans hopened
      exact (hv.of_lookup? hw).mono (Nat.sub_le ..)
  | constructor _ hopened hx ih =>
    obtain rfl := ih.jsonLike.opened_eq.symm.trans hopened
    exact (ih.of_lookup? hx).mono (Nat.sub_le ..)
  | item hlist hopened hx ih =>
    obtain rfl := ih.jsonLike.opened_eq.symm.trans hopened
    exact (ih.of_mem_list hx).mono (Nat.sub_le_sub_right hlist.calls_le 1)

theorem ofEntry_ne_unshown (hv : v.Plain fieldCalls) : ofEntry v ≠ .error (.unshown fault) := by
  intro h
  obtain ⟨w, calls, hshows, hunshown⟩ := exists_of_ofEntry_unshown h
  rw [(hshows.plain hv).shown] at hunshown
  cases hunshown

/-- What is checked of an entry. -/
structure Accepted (entries : List (Value × Value)) : Prop where
  constructor : Value.lookup? (.text "constructor") entries = none ∨
    ∃ fields, Value.lookup? (.text "constructor") entries = some (.mapping fields)
  references : (effective entries "references" builtInReferences).isAbsent = true ∨
    ∃ items, effective entries "references" builtInReferences = .list items
  presenceClass :
    ∃ t, effective entries "presence_class" (.text builtIn.presenceClass) = .text t ∧ t ≠ []
  vulnerableClass :
    ∃ t, effective entries "vulnerable_class" (.text builtIn.vulnerableClass) = .text t ∧ t ≠ []
  access : ∃ names, effective (constructorOf entries) "access" builtInAccess = .list names ∧
    ∀ name ∈ names, ∃ flag, Names name flag

/-- What a signature takes from an entry: each field by itself, also of the constructor. -/
structure Overlaid (entries : List (Value × Value)) (s : Signature) : Prop where
  id : s.id = (effective entries "id" (.text builtIn.id)).shown
  cve : s.cve = (effective entries "cve" (.text builtIn.cve)).shown
  title : s.title = (effective entries "title" (.text builtIn.title)).shown
  presenceClass :
    .text s.presenceClass = effective entries "presence_class" (.text builtIn.presenceClass)
  vulnerableClass :
    .text s.vulnerableClass = effective entries "vulnerable_class" (.text builtIn.vulnerableClass)
  constructorName : s.constructorName =
    (effective (constructorOf entries) "name" (.text builtIn.constructorName)).shown
  constructorDescriptor : s.constructorDescriptor =
    (effective (constructorOf entries) "descriptor" (.text builtIn.constructorDescriptor)).shown
  requiredAccess : ∃ names, effective (constructorOf entries) "access" builtInAccess = .list names ∧
    ∀ i, s.requiredAccess.testBit i = true ↔
      ∃ name ∈ names, ∃ flag, Names name flag ∧ flag.testBit i = true
  recommendation :
    s.recommendation = (effective entries "recommendation" (.text builtIn.recommendation)).shown
  references : ∃ items, s.references = items.map Value.shown ∧
    ((effective entries "references" builtInReferences).isAbsent = true ∧ items = [] ∨
      effective entries "references" builtInReferences = .list items)

section Plain

theorem plain_builtInReferences : builtInReferences.Plain fieldCalls :=
  ⟨.list fun w hw => by
    obtain ⟨t, -, rfl⟩ := List.mem_map.1 hw
    exact .scalar (.text t), rfl⟩

theorem plain_builtInAccess : builtInAccess.Plain fieldCalls :=
  ⟨.list fun w hw => by
    rw [List.mem_singleton.1 hw]
    exact .scalar (.text _), rfl⟩

theorem plain_effective (h : Value.Plain fieldCalls (.mapping entries)) (hw : w.Plain fieldCalls) :
    (effective entries key w).Plain fieldCalls := by
  rw [effective]
  cases hgiven : Value.lookup? (.text key) entries with
  | none => exact hw
  | some given => exact (h.of_lookup? hgiven).mono (Nat.sub_le ..)

theorem plain_constructorOf (h : Value.Plain fieldCalls (.mapping entries)) :
    Value.Plain fieldCalls (.mapping (constructorOf entries)) := by
  rw [constructorOf]
  split
  · next hfields => exact (h.of_lookup? hfields).mono (Nat.sub_le ..)
  · exact ⟨.mapping (List.forall_mem_nil _) (List.forall_mem_nil _), rfl⟩

variable (h : Value.Plain fieldCalls (.mapping entries))
include h

theorem constructorEntries_of_plain : constructorEntries entries = .ok fields ↔
    (Value.lookup? (.text "constructor") entries = none ∨
      ∃ fields, Value.lookup? (.text "constructor") entries = some (.mapping fields)) ∧
      fields = constructorOf entries := by
  rw [constructorEntries_eq_ok_iff, constructorOf]
  cases hc : Value.lookup? (.text "constructor") entries with
  | none => simp
  | some c =>
    have hopened := (h.of_lookup? hc).jsonLike.opened_eq
    simp only [Option.some.injEq, exists_eq_left', hopened, reduceCtorEq, false_and, false_or]
    cases c <;> simp [eq_comm]

theorem textField_of_plain (key builtInText : Text) : textField entries key builtInText =
    .ok (effective entries key (.text builtInText)).shown := by
  rw [textField_eq]
  exact shownText_eq_ok_iff.2 ⟨(plain_effective h (Value.plain_text _ builtInText)).shown, rfl⟩

theorem eq_shown_of_textField (ht : textField entries key builtInText = .ok t) :
    t = (effective entries key (.text builtInText)).shown :=
  Except.ok.inj (ht.symm.trans (textField_of_plain h key builtInText))

theorem referencesField_of_plain : referencesField entries = .ok references ↔
    (effective entries "references" builtInReferences).isAbsent = true ∧ references = [] ∨
      (effective entries "references" builtInReferences).isAbsent = false ∧
        effective entries "references" builtInReferences = .list references := by
  rw [referencesField_eq_ok_iff,
    (plain_effective h plain_builtInReferences).jsonLike.opened_eq]

theorem accessField_of_plain {total : Nat} : accessField entries = .ok total ↔
    ∃ names, effective entries "access" builtInAccess = .list names ∧
      accessMask 0 names = .ok total := by
  rw [accessField_eq_ok_iff, (plain_effective h plain_builtInAccess).jsonLike.opened_eq]

theorem accepted_of_ofEntry (hs : ofEntry (.mapping entries) = .ok s) :
    Accepted entries ∧ Overlaid entries s := by
  obtain ⟨_, hentries, fields, hfields, references, hreferences, htells⟩ := ofEntry_eq_ok_iff.1 hs
  rw [entriesOf_mapping] at hentries
  cases hentries
  obtain ⟨hconstructor, rfl⟩ := (constructorEntries_of_plain h).1 hfields
  have hplain := plain_constructorOf h
  obtain ⟨hpresence, hpresence'⟩ := (classField_eq_ok_iff (by decide)).1 htells.presenceClass
  obtain ⟨hvulnerable, hvulnerable'⟩ := (classField_eq_ok_iff (by decide)).1 htells.vulnerableClass
  obtain ⟨names, hnames, hmask⟩ := (accessField_of_plain hplain).1 htells.requiredAccess
  obtain ⟨hshort, hshown⟩ := mapM_shownText_eq_ok_iff.1 htells.references
  have hreferences := (referencesField_of_plain h).1 hreferences
  have haccess := exists_accessMask_iff.1 ⟨_, hmask⟩
  exact ⟨
    { constructor := hconstructor
      references := hreferences.imp And.left fun hlist => ⟨references, hlist.2⟩
      presenceClass := ⟨_, hpresence, hpresence'⟩
      vulnerableClass := ⟨_, hvulnerable, hvulnerable'⟩
      access := ⟨names, hnames, fun name hname => (haccess name hname).2⟩ },
    { id := eq_shown_of_textField h htells.id
      cve := eq_shown_of_textField h htells.cve
      title := eq_shown_of_textField h htells.title
      presenceClass := hpresence.symm
      vulnerableClass := hvulnerable.symm
      constructorName := eq_shown_of_textField hplain htells.constructorName
      constructorDescriptor := eq_shown_of_textField hplain htells.constructorDescriptor
      requiredAccess := ⟨names, hnames, fun i => by simpa using testBit_accessMask hmask i⟩
      recommendation := eq_shown_of_textField h htells.recommendation
      references := ⟨references, hshown.symm, hreferences.imp_right And.right⟩ }⟩

theorem exists_of_accepted (haccepted : Accepted entries) :
    ∃ s, ofEntry (.mapping entries) = .ok s := by
  have hplain := plain_constructorOf h
  obtain ⟨presence, hpresence⟩ := haccepted.presenceClass
  obtain ⟨vulnerable, hvulnerable⟩ := haccepted.vulnerableClass
  obtain ⟨names, hnames, hflags⟩ := haccepted.access
  have hnamesPlain : Value.Plain fieldCalls (.list names) :=
    hnames ▸ plain_effective hplain plain_builtInAccess
  obtain ⟨total, hmask⟩ := exists_accessMask_iff.2 fun name hname =>
    ⟨(hnamesPlain.of_mem_list hname).shown, hflags name hname⟩
  obtain ⟨items, hitems, hshort⟩ : ∃ items, referencesField entries = .ok items ∧
      ∀ item ∈ items, item.showFault? itemCalls = none := by
    have hreferences : (effective entries "references" builtInReferences).Plain fieldCalls :=
      plain_effective h plain_builtInReferences
    cases habsent : (effective entries "references" builtInReferences).isAbsent with
    | true =>
      exact ⟨[], (referencesField_of_plain h).2 (.inl ⟨habsent, rfl⟩), List.forall_mem_nil _⟩
    | false =>
      rcases haccepted.references with habsent' | ⟨items, hlist⟩
      · rw [habsent] at habsent'
        cases habsent'
      · exact ⟨items, (referencesField_of_plain h).2 (.inr ⟨habsent, hlist⟩),
          fun item hitem => ((hlist ▸ hreferences).of_mem_list hitem).shown⟩
  let s : Signature :=
    { id := (effective entries "id" (.text builtIn.id)).shown
      cve := (effective entries "cve" (.text builtIn.cve)).shown
      title := (effective entries "title" (.text builtIn.title)).shown
      presenceClass := presence
      vulnerableClass := vulnerable
      constructorName :=
        (effective (constructorOf entries) "name" (.text builtIn.constructorName)).shown
      constructorDescriptor :=
        (effective (constructorOf entries) "descriptor" (.text builtIn.constructorDescriptor)).shown
      requiredAccess := total
      recommendation := (effective entries "recommendation" (.text builtIn.recommendation)).shown
      references := items.map Value.shown }
  refine ⟨s, ofEntry_eq_ok_iff.2 ⟨entries, entriesOf_mapping entries, constructorOf entries,
    (constructorEntries_of_plain h).2 ⟨haccepted.constructor, rfl⟩, items, hitems, ?_⟩⟩
  exact
    { presenceClass := (classField_eq_ok_iff (by decide)).2 hpresence
      vulnerableClass := (classField_eq_ok_iff (by decide)).2 hvulnerable
      id := textField_of_plain h _ _
      cve := textField_of_plain h _ _
      title := textField_of_plain h _ _
      constructorName := textField_of_plain hplain _ _
      constructorDescriptor := textField_of_plain hplain _ _
      requiredAccess := (accessField_of_plain hplain).2 ⟨names, hnames, hmask⟩
      recommendation := textField_of_plain h _ _
      references := mapM_shownText_eq_ok_iff.2 ⟨hshort, rfl⟩ }

end Plain

/-- The built-in signature as an entry. -/
def builtInEntry : Value :=
  .mapping
    [(.text "id", .text builtIn.id), (.text "cve", .text builtIn.cve),
      (.text "title", .text builtIn.title),
      (.text "presence_class", .text builtIn.presenceClass),
      (.text "vulnerable_class", .text builtIn.vulnerableClass),
      (.text "constructor", .mapping
        [(.text "name", .text builtIn.constructorName),
          (.text "descriptor", .text builtIn.constructorDescriptor),
          (.text "access", builtInAccess)]),
      (.text "recommendation", .text builtIn.recommendation),
      (.text "references", builtInReferences)]

theorem ofEntry_of_isAbsent (h : v.isAbsent = true) : ofEntry v = .ok builtIn := by
  have hentries : entriesOf v = .ok [] := by rw [entriesOf, if_pos h]
  rw [ofEntry, hentries]
  rfl

theorem signature_of_ofEntry_error (herror : ofEntry v = .error error)
    (hshown : ∀ fault, error ≠ .unshown fault) :
    Rules.signature [(rulesKey, v)] = .error (.rules (.entry error)) := by
  rw [signature_of_entry, herror]
  cases error with
  | unshown fault => exact absurd rfl (hshown fault)
  | _ => rfl

/-- An entry like those of JSON that can itself be shown gives a signature exactly when
it is nothing, or a mapping whose values pass the checks; and whenever it gives none, that is an
error of the rules. A signature has what the entry gives, and elsewhere what is built in, each field
by itself; nothing gives the built-in signature, and so does the built-in signature as an entry. -/
theorem ofEntry_overlay (hjson : v.JsonLike) (hshown : v.showFault? Value.maxCalls = none) :
    ((∃ s, ofEntry v = .ok s) ↔
      v.isAbsent = true ∨ ∃ entries, v = .mapping entries ∧ Accepted entries) ∧
    (∀ error, ofEntry v = .error error →
      Rules.signature [(rulesKey, v)] = .error (.rules (.entry error))) ∧
    (∀ s, ofEntry v = .ok s →
      v.isAbsent = true ∧ s = builtIn ∨ ∃ entries, v = .mapping entries ∧ Overlaid entries s) ∧
    ofEntry builtInEntry = .ok builtIn := by
  have hmapping : ∀ {s}, ofEntry v = .ok s → v.isAbsent = true ∧ s = builtIn ∨
      ∃ entries, v = .mapping entries ∧ Accepted entries ∧ Overlaid entries s := by
    intro s hs
    cases habsent : v.isAbsent with
    | true =>
      rw [ofEntry_of_isAbsent habsent] at hs
      exact .inl ⟨rfl, (Except.ok.inj hs).symm⟩
    | false =>
      obtain ⟨entries, hentries, -⟩ := ofEntry_eq_ok_iff.1 hs
      rcases entriesOf_eq_ok_iff.1 hentries with ⟨habsent', -⟩ | ⟨-, hopened⟩
      · rw [habsent] at habsent'
        cases habsent'
      · obtain rfl := hjson.opened_eq.symm.trans hopened
        exact .inr ⟨entries, rfl, accepted_of_ofEntry ⟨hjson, hshown⟩ hs⟩
  refine ⟨⟨?_, ?_⟩, ?_, ?_, rfl⟩
  · rintro ⟨s, hs⟩
    exact (hmapping hs).imp And.left fun ⟨entries, hv, haccepted, _⟩ => ⟨entries, hv, haccepted⟩
  · rintro (habsent | ⟨entries, rfl, haccepted⟩)
    · exact ⟨builtIn, ofEntry_of_isAbsent habsent⟩
    · exact exists_of_accepted ⟨hjson, hshown⟩ haccepted
  · intro error herror
    refine signature_of_ofEntry_error herror ?_
    rintro fault rfl
    exact ofEntry_ne_unshown ⟨hjson, hshown⟩ herror
  · intro s hs
    exact (hmapping hs).imp_right fun ⟨entries, hv, _, hoverlaid⟩ => ⟨entries, hv, hoverlaid⟩

/-- An entry that asks for two access flags, and for nothing else. -/
def accessEntry : Value :=
  .mapping [(.text "constructor", .mapping
    [(.text "access", .list [.text "private", .text "Static", .text "private"])])]

/-- An entry that gives access flags alone leaves the other fields of the constructor as they are
built in. -/
theorem ofEntry_overlay_access :
    accessEntry.JsonLike ∧ accessEntry.showFault? Value.maxCalls = none ∧
      ∃ s, ofEntry accessEntry = .ok s ∧ s = { builtIn with requiredAccess := 0x000A } ∧
        ∃ entries, accessEntry = .mapping entries ∧ Accepted entries ∧ Overlaid entries s := by
  have hscalar : ∀ t : Text, (Value.text t).JsonLike := fun t => .scalar (.text t)
  have hjson : accessEntry.JsonLike := by
    refine .mapping (by simp [Value.Scalar.text]) ?_
    simp only [List.forall_mem_singleton]
    refine .mapping (by simp [Value.Scalar.text]) ?_
    simp only [List.forall_mem_singleton]
    exact .list (by simp [hscalar])
  have hshown : accessEntry.showFault? Value.maxCalls = none := rfl
  have hs : ofEntry accessEntry = .ok { builtIn with requiredAccess := 0x000A } := rfl
  obtain ⟨haccepts, -, hoverlays, -⟩ := ofEntry_overlay hjson hshown
  refine ⟨hjson, hshown, _, hs, rfl, ?_⟩
  rcases haccepts.1 ⟨_, hs⟩ with habsent | ⟨entries, hentries, haccepted⟩
  · cases habsent
  rcases hoverlays _ hs with ⟨habsent, -⟩ | ⟨entries', hentries', hoverlaid⟩
  · cases habsent
  cases hentries
  cases hentries'
  exact ⟨_, rfl, haccepted, hoverlaid⟩

end Signature

end JndiScan

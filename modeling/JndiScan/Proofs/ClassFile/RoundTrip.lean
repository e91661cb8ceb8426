/-
The round trip of class files: what was written is read as the class that was written, up to what
the format does not keep, whatever octets follow it; and what was read is written as it was.
-/
import JndiScan.Proofs.Access
import JndiScan.Proofs.ClassFile.Writing

namespace JndiScan

theorem MemberKind.ofMethodName_ne_field (name : Text) : ofMethodName name ≠ .field := by
  rw [ofMethodName]
  split <;> decide

/-- The member as it is read again: its flags in sixteen bits, its kind told by its group. -/
def Member.readAs (kindOf : Text → MemberKind) (m : Member) : Member :=
  { m with accessFlags := Access.low16 m.accessFlags, kind := kindOf m.name }

/-- The class as it is read again: fields before all other members, an empty superclass as none. -/
def ClassDefinition.readAgain (d : ClassDefinition) : ClassDefinition where
  name := d.name
  superName := d.superName.filter fun s => !s.isEmpty
  members := d.fields.map (·.readAs fun _ => .field) ++
    d.methods.map (·.readAs MemberKind.ofMethodName)
  accessFlags := Access.low16 d.accessFlags
  interfaces := d.interfaces

theorem ClassDefinition.fields_readAgain (d : ClassDefinition) :
    d.readAgain.fields = d.fields.map (·.readAs fun _ => .field) := by
  have hnone : (d.methods.map (·.readAs MemberKind.ofMethodName)).filter (·.kind = .field) = [] := by
    simp only [List.filter_eq_nil_iff, List.mem_map]
    rintro _ ⟨m, -, rfl⟩
    simp [Member.readAs, MemberKind.ofMethodName_ne_field]
  have hall : (d.fields.map (·.readAs fun _ => .field)).filter (·.kind = .field) =
      d.fields.map (·.readAs fun _ => .field) := by
    rw [List.filter_eq_self]
    simp [Member.readAs]
  rw [fields, readAgain, List.filter_append, hall, hnone, List.append_nil]

theorem ClassDefinition.methods_readAgain (d : ClassDefinition) :
    d.readAgain.methods = d.methods.map (·.readAs MemberKind.ofMethodName) := by
  have hnone : (d.fields.map (·.readAs fun _ => .field)).filter (·.kind ≠ .field) = [] := by
    simp [Member.readAs]
  have hall : (d.methods.map (·.readAs MemberKind.ofMethodName)).filter (·.kind ≠ .field) =
      d.methods.map (·.readAs MemberKind.ofMethodName) := by
    rw [List.filter_eq_self]
    simp [Member.readAs, MemberKind.ofMethodName_ne_field]
  rw [methods, readAgain, List.filter_append, hall, hnone, List.nil_append]

namespace ClassFile

/-! ## The octets of a class -/

/-- The number of a superclass; zero stands for none. -/
def NamesSuper (slots : List Slot) (n : Nat) : Option Text → Prop
  | none => n = 0
  | some s => HasClass slots n s

theorem NamesSuper.mono {slots slots' : List Slot} {n : Nat} {name : Option Text}
    (hgrow : slots <+: slots') (h : NamesSuper slots n name) : NamesSuper slots' n name := by
  cases name with
  | none => exact h
  | some s => exact HasClass.mono hgrow h

/-- The slots, numbers and groups of members write the class. -/
structure WritesClass (slots : List Slot) (d : ClassDefinition) (this super : Nat)
    (interfaces : List Nat) (fields methods : Bytes) : Prop where
  count : slots.length + 1 ≤ 0xFFFF
  writable : ∀ slot ∈ slots, slot.Writable
  this_le : this ≤ 0xFFFF
  this_class : HasClass slots this d.name
  super_le : super ≤ 0xFFFF
  super_class : NamesSuper slots super d.readAgain.superName
  interfaces_count : interfaces.length ≤ 0xFFFF
  interfaces_le : ∀ n ∈ interfaces, n ≤ 0xFFFF
  interfaces_class : List.Forall₂ (fun t n => HasClass slots n t) d.interfaces interfaces
  fields_members : WritesMembers slots d.fields fields
  methods_members : WritesMembers slots d.methods methods

/-- The octets of a class up to its last method. -/
def classOctets (slots : List Slot) (flags this super : Nat) (interfaces : List Nat)
    (fields methods : Bytes) : Bytes :=
  Bytes.word32 magic ++ (Bytes.word16 0 ++ (Bytes.word16 writtenVersion ++
    ((Bytes.word16 (slots.length + 1) ++ (slots.map Slot.octets).flatten) ++
      (Bytes.word16 flags ++ (Bytes.word16 this ++ (Bytes.word16 super ++
        ((Bytes.word16 interfaces.length ++ (interfaces.map Bytes.word16).flatten) ++
          (fields ++ methods))))))))

/-! ## Reading -/

theorem Reads.members {slots : List Slot} {ms : List Member} {bs : Bytes}
    (kindOf : Text → MemberKind) (h : WritesMembers slots ms bs) :
    Reads (Reader.counted (readMember (poolOf slots) kindOf)) bs (ms.map (·.readAs kindOf)) := by
  obtain ⟨hlen, pieces, hall, rfl⟩ := h
  rw [← List.length_map (f := fun m : Member => m.readAs kindOf)] at hlen ⊢
  refine counted hlen ?_
  rw [List.forall₂_map_right_iff]
  refine hall.flip.imp ?_
  rintro bs m ⟨name, descriptor, hn, hd, hname, hdescriptor, rfl⟩
  exact member kindOf (Access.low16_le _) hn hd hname hdescriptor

theorem Reads.interfaces {slots : List Slot} {names : List Text} {numbers : List Nat}
    (hlen : numbers.length ≤ 0xFFFF) (hle : ∀ n ∈ numbers, n ≤ 0xFFFF)
    (h : List.Forall₂ (fun t n => HasClass slots n t) names numbers) :
    Reads (Reader.counted do return (← ClassFile.classAt (poolOf slots) (← Reader.u2)).getD [])
      (Bytes.word16 numbers.length ++ (numbers.map Bytes.word16).flatten) names := by
  rw [← h.length_eq] at hlen ⊢
  refine counted hlen ?_
  rw [List.forall₂_map_left_iff]
  refine List.Forall₂.imp ?_ ((List.forall₂_and_left _ _).2 ⟨hle, h.flip⟩)
  rintro n t ⟨hn, hclass⟩
  exact bind_last (u2 hn) (bind_last (classAt hclass) (pure t))

theorem Reads.superName {slots : List Slot} {n : Nat} {name : Option Text}
    (h : NamesSuper slots n name) : Reads (ClassFile.classAt (poolOf slots) n) [] name := by
  cases name with
  | none =>
    cases h
    exact pure none
  | some s => exact classAt h

/-- The octets of a class are read as that class. -/
theorem Reads.classFile {slots : List Slot} {d : ClassDefinition} {this super : Nat}
    {interfaces : List Nat} {fields methods : Bytes}
    (h : WritesClass slots d this super interfaces fields methods) (hname : d.name ≠ []) :
    Reads readClass
      (classOctets slots (Access.low16 d.accessFlags) this super interfaces fields methods)
      d.readAgain := by
  have hnonempty : ¬ d.name.isEmpty = true := by simpa using hname
  refine bind (u4 (by decide)) ?_
  rw [if_neg (by decide)]
  refine bind (u2 (by decide)) (bind (u2 (by decide)) ?_)
  refine bind (pool h.writable h.count) (bind (u2 (Access.low16_le _)) ?_)
  refine bind (u2 h.this_le) (bind_first (classAt h.this_class) ?_)
  rw [Option.getD_some, if_neg hnonempty]
  refine bind (u2 h.super_le) (bind_first (superName h.super_class) ?_)
  refine bind (Reads.interfaces h.interfaces_count h.interfaces_le h.interfaces_class) ?_
  exact bind (members _ h.fields_members) (bind_last (members _ h.methods_members) (pure _))

/-! ## Writing -/

theorem writes_superNumber (name : Option Text) :
    Writes (superNumber name)
      fun slots n => NamesSuper slots n (name.filter fun s => !s.isEmpty) := by
  intro cs slots n cs' hh hw
  cases name with
  | none =>
    cases hw
    exact ⟨slots, List.prefix_refl _, hh, rfl⟩
  | some s =>
    rw [superNumber] at hw
    by_cases hs : s.isEmpty = true
    · rw [if_pos hs] at hw
      cases hw
      rw [Option.filter_some_neg (by simp [hs])]
      exact ⟨slots, List.prefix_refl _, hh, rfl⟩
    · rw [if_neg hs] at hw
      rw [Option.filter_some_pos (by simp [hs])]
      exact writes_classNumber s _ _ _ _ hh hw

theorem mapM_field16_eq_ok {ns : List Nat} {cs cs' : Constants} {pieces : List Bytes}
    (h : (ns.mapM fun n => (liftM (field16 n) : Writer Bytes)) cs = .ok (pieces, cs')) :
    (∀ n ∈ ns, n ≤ 0xFFFF) ∧ pieces = ns.map Bytes.word16 ∧ cs' = cs := by
  induction ns generalizing cs' pieces with
  | nil =>
    cases h
    exact ⟨by simp, rfl, rfl⟩
  | cons n ns ih =>
    rw [List.mapM_cons] at h
    obtain ⟨piece, cs₁, hn, h₁⟩ := bind_eq_ok_iff.1 h
    obtain ⟨hle, rfl, rfl⟩ := field16_eq_ok_iff.1 hn
    obtain ⟨rest, cs₂, hns, h₂⟩ := bind_eq_ok_iff.1 h₁
    obtain ⟨hall, rfl, rfl⟩ := ih hns
    cases h₂
    exact ⟨List.forall_mem_cons.2 ⟨hle, hall⟩, rfl, rfl⟩

/-- The slots of all constants that a class needs. Each step keeps what the steps before it have
entered, so all that they gave is told by the slots after the last one. -/
theorem exists_slots {d : ClassDefinition} {this super : Nat} {numbers : Array Nat}
    {fields methods : Bytes} {cs₁ cs₂ cs₃ cs₄ cs₅ : Constants}
    (hthis : classNumber d.name {} = .ok (this, cs₁))
    (hsuper : superNumber d.superName cs₁ = .ok (super, cs₂))
    (hinterfaces : eachFrom classNumber #[] d.interfaces cs₂ = .ok (numbers, cs₃))
    (hfields : writeMembers d.fields cs₃ = .ok (fields, cs₄))
    (hmethods : writeMembers d.methods cs₄ = .ok (methods, cs₅)) :
    ∃ slots, Holds cs₅ slots ∧ HasClass slots this d.name ∧
      NamesSuper slots super d.readAgain.superName ∧
      List.Forall₂ (fun t n => HasClass slots n t) d.interfaces numbers.toList ∧
      WritesMembers slots d.fields fields ∧ WritesMembers slots d.methods methods := by
  obtain ⟨slots₁, hp₁, hh₁, hclass⟩ := writes_classNumber _ _ _ _ _ .empty hthis
  obtain ⟨slots₂, hp₂, hh₂, hsuperClass⟩ := writes_superNumber _ _ _ _ _ hh₁ hsuper
  obtain ⟨slots₃, hp₃, hh₃, new, rfl, hclasses⟩ :=
    writes_eachFrom writes_classNumber (fun _ _ _ _ => .mono) _ _ _ _ _ _ hh₂ hinterfaces
  obtain ⟨slots₄, hp₄, hh₄, hfieldMembers⟩ := writes_writeMembers _ _ _ _ _ hh₃ hfields
  obtain ⟨slots₅, hp₅, hh₅, hmethodMembers⟩ := writes_writeMembers _ _ _ _ _ hh₄ hmethods
  have hp₃₅ : slots₃ <+: slots₅ := hp₄.trans hp₅
  have hp₂₅ : slots₂ <+: slots₅ := hp₃.trans hp₃₅
  refine ⟨slots₅, hh₅, hclass.mono (hp₂.trans hp₂₅), hsuperClass.mono hp₂₅, ?_,
    hfieldMembers.mono hp₅, hmethodMembers⟩
  simpa using hclasses.imp fun _ _ => .mono hp₃₅

/-- What is written is the octets of the class, and a count of no attributes. Its constants are all
that were entered. -/
theorem exists_of_writeClass_eq_ok {d : ClassDefinition} {b : Bytes} {cs : Constants}
    (hw : writeClass d {} = .ok (b, cs)) :
    ∃ slots this super interfaces fields methods, Holds cs slots ∧
      WritesClass slots d this super interfaces fields methods ∧
      b = classOctets slots (Access.low16 d.accessFlags) this super interfaces fields methods ++
        Bytes.word16 0 := by
  obtain ⟨this, cs₁, hthis, hw₁⟩ := bind_eq_ok_iff.1 hw
  obtain ⟨super, cs₂, hsuper, hw₂⟩ := bind_eq_ok_iff.1 hw₁
  obtain ⟨interfaces, cs₃, hinterfaces, hw₃⟩ := bind_eq_ok_iff.1 hw₂
  obtain ⟨fields, cs₄, hfields, hw₄⟩ := bind_eq_ok_iff.1 hw₃
  obtain ⟨methods, cs₅, hmethods, hw₅⟩ := bind_eq_ok_iff.1 hw₄
  -- No step after these enters a constant.
  obtain ⟨cs₆, cs₇, hget, hw₆⟩ := bind_eq_ok_iff.1 hw₅
  cases hget
  obtain ⟨count, cs₈, hcount, hw₇⟩ := bind_eq_ok_iff.1 hw₆
  obtain ⟨hcountLe, rfl, rfl⟩ := field16_eq_ok_iff.1 hcount
  obtain ⟨thisField, cs₉, hthisField, hw₈⟩ := bind_eq_ok_iff.1 hw₇
  obtain ⟨hthisLe, rfl, rfl⟩ := field16_eq_ok_iff.1 hthisField
  obtain ⟨superField, cs₁₀, hsuperField, hw₉⟩ := bind_eq_ok_iff.1 hw₈
  obtain ⟨hsuperLe, rfl, rfl⟩ := field16_eq_ok_iff.1 hsuperField
  obtain ⟨interfaceCount, cs₁₁, hinterfaceCount, hw₁₀⟩ := bind_eq_ok_iff.1 hw₉
  obtain ⟨hinterfacesLen, rfl, rfl⟩ := field16_eq_ok_iff.1 hinterfaceCount
  obtain ⟨pieces, cs₁₂, hpieces, hw₁₁⟩ := bind_eq_ok_iff.1 hw₁₀
  obtain ⟨hinterfacesLe, rfl, rfl⟩ := mapM_field16_eq_ok hpieces
  cases hw₁₁
  obtain ⟨slots, hholds, hclass, hsuperClass, hclasses, hfieldMembers, hmethodMembers⟩ :=
    exists_slots hthis hsuper hinterfaces hfields hmethods
  refine ⟨slots, this, super, interfaces.toList, fields, methods, hholds, ?_, ?_⟩
  · exact
      { count := hholds.count ▸ hcountLe
        writable := hholds.writable
        this_le := hthisLe
        this_class := hclass
        super_le := hsuperLe
        super_class := hsuperClass
        interfaces_count := hinterfacesLen
        interfaces_le := hinterfacesLe
        interfaces_class := hclasses
        fields_members := hfieldMembers
        methods_members := hmethodMembers }
  · simp [classOctets, hholds.entries, hholds.count, magic]

theorem writeClass_of_write_eq_ok {d : ClassDefinition} {b : Bytes} (h : write d = .ok b) :
    ∃ cs, writeClass d {} = .ok (b, cs) := by
  rw [write] at h
  cases hw : writeClass d {} with
  | error e => rw [hw] at h; cases h
  | ok y =>
    rw [hw] at h
    cases h
    exact ⟨y.2, rfl⟩

theorem exists_of_write_eq_ok {d : ClassDefinition} {b : Bytes} (h : write d = .ok b) :
    ∃ slots this super interfaces fields methods,
      WritesClass slots d this super interfaces fields methods ∧
      b = classOctets slots (Access.low16 d.accessFlags) this super interfaces fields methods ++
        Bytes.word16 0 := by
  obtain ⟨cs, hw⟩ := writeClass_of_write_eq_ok h
  obtain ⟨slots, this, super, interfaces, fields, methods, -, hwrites⟩ :=
    exists_of_writeClass_eq_ok hw
  exact ⟨slots, this, super, interfaces, fields, methods, hwrites⟩

/-! ## Writing again -/

theorem writeMember_readAs (kindOf : Text → MemberKind) (m : Member) :
    writeMember (m.readAs kindOf) = writeMember m := by
  simp only [writeMember, Member.readAs, Access.low16_low16]

theorem writeMembers_map_readAs (kindOf : Text → MemberKind) (ms : List Member) :
    writeMembers (ms.map (·.readAs kindOf)) = writeMembers ms := by
  have heach : ∀ done, eachFrom writeMember done (ms.map (·.readAs kindOf)) =
      eachFrom writeMember done ms := by
    induction ms with
    | nil => exact fun _ => rfl
    | cons m ms ih =>
      intro done
      rw [List.map_cons, eachFrom, eachFrom, writeMember_readAs]
      simp only [ih]
  rw [writeMembers, writeMembers, List.length_map, heach]

theorem superNumber_filter (name : Option Text) :
    superNumber (name.filter fun s => !s.isEmpty) = superNumber name := by
  cases name with
  | none => rfl
  | some s =>
    by_cases hs : s.isEmpty = true
    · rw [Option.filter_some_neg (by simp [hs]), superNumber, superNumber, if_pos hs]
    · rw [Option.filter_some_pos (by simp [hs])]

/-- What was read is written as it was. -/
theorem write_readAgain (d : ClassDefinition) : write d.readAgain = write d := by
  have hclass : writeClass d.readAgain = writeClass d := by
    rw [writeClass, writeClass, d.fields_readAgain, d.methods_readAgain]
    simp only [writeMembers_map_readAs, ClassDefinition.readAgain, superNumber_filter,
      Access.low16_low16]
  rw [write, write, hclass]

/-- The round trip. A class that has a name and can be written is read from its octets, whatever
follows them, and is then written as the same octets. -/
theorem read_write {d : ClassDefinition} {b : Bytes} (hname : d.name ≠ []) (h : write d = .ok b)
    (rest : Bytes) : read (b ++ rest) = .ok d.readAgain ∧ write d.readAgain = .ok b := by
  obtain ⟨slots, this, super, interfaces, fields, methods, hwrites, rfl⟩ := exists_of_write_eq_ok h
  have hread := Reads.classFile hwrites hname 0 (Bytes.word16 0 ++ rest)
  refine ⟨?_, (write_readAgain d).trans h⟩
  rw [read, List.append_assoc, hread]

/-- A class with NUL, halves of surrogate pairs and a code point above 0xFFFF in its texts, an
empty superclass, one interface twice, and flags that do not fit. -/
def oddClass : ClassDefinition where
  name := [.ofNat 0, .ofNat 0xD800, .ofNat 0x10437]
  superName := some []
  members :=
    [⟨MemberKind.constructorName, [.ofNat 0xDC00], -1, .method⟩,
      ⟨[.ofNat 0], [.ofNat 0xDC00], 0x10009, .field⟩]
  accessFlags := -2
  interfaces := [[.ofNat 0], [.ofNat 0]]

/-- The octets of that class. -/
def oddOctets : Bytes :=
  [0xCA, 0xFE, 0xBA, 0xBE, 0, 0, 0, 50,
    0, 7, 1, 0, 9, 0xC0, 0x80, 0xED, 0xA0, 0x80, 0xF0, 0x90, 0x90, 0xB7, 7, 0, 1,
    1, 0, 2, 0xC0, 0x80, 7, 0, 3, 1, 0, 3, 0xED, 0xB0, 0x80, 1, 0, 6, 60, 105, 110, 105, 116, 62,
    0xFF, 0xFE, 0, 2, 0, 0, 0, 2, 0, 4, 0, 4,
    0, 1, 0, 9, 0, 3, 0, 5, 0, 0, 0, 1, 0xFF, 0xFF, 0, 6, 0, 5, 0, 0, 0, 0]

theorem write_oddClass : write oddClass = .ok oddOctets := by
  have hname : constantOctets [.ofNat 0, .ofNat 0xD800, .ofNat 0x10437] =
      [0xC0, 0x80, 0xED, 0xA0, 0x80, 0xF0, 0x90, 0x90, 0xB7] := by decide
  have hzero : constantOctets [.ofNat 0] = [0xC0, 0x80] := by decide
  have hhalf : constantOctets [.ofNat 0xDC00] = [0xED, 0xB0, 0x80] := by decide
  have hinit : constantOctets MemberKind.constructorName = [60, 105, 110, 105, 116, 62] := by
    decide
  simp +decide [write, writeClass, oddClass, oddOctets, ClassDefinition.fields, ClassDefinition.methods,
    superNumber, classNumber, textNumber, eachFrom, writeMembers, writeMember, field16,
    Std.HashMap.getElem_insert, Bytes.word16, Bytes.word32, Access.low16, writtenVersion,
    hname, hzero, hhalf, hinit, pure_apply, ↓bind_apply, get_apply,
    modifyGet_apply, ↓liftM_apply]

theorem read_write_oddClass :
    oddClass.name ≠ [] ∧ write oddClass = .ok oddOctets ∧
      read (oddOctets ++ [0, 1]) = .ok
        { name := [.ofNat 0, .ofNat 0xD800, .ofNat 0x10437]
          superName := none
          members := [⟨[.ofNat 0], [.ofNat 0xDC00], 9, .field⟩,
            ⟨MemberKind.constructorName, [.ofNat 0xDC00], 0xFFFF, .constructor⟩]
          accessFlags := 0xFFFE
          interfaces := [[.ofNat 0], [.ofNat 0]] } ∧
      write oddClass.readAgain = .ok oddOctets := by
  have hname : oddClass.name ≠ [] := by decide
  have hread := read_write hname write_oddClass [0, 1]
  exact ⟨hname, write_oddClass, hread⟩

end ClassFile

end JndiScan

/-
What can be read at all, and what becomes of it when it is written. A class that is read from
octets of any origin is one that a class file can hold: it has a name, its flags are of sixteen
bits, its fields come first and the names tell the kinds of its other members. Such a class is
written without loss, up to an empty name of its superclass, which is written as none.
-/
import JndiScan.Proofs.ClassFile.Accepting
import JndiScan.Proofs.ClassFile.Limits
import JndiScan.Proofs.ClassFile.RoundTrip

namespace JndiScan

theorem Access.low16_eq_self {flags : Int} (h : 0 ≤ flags ∧ flags ≤ 0xFFFF) :
    (low16 flags : Int) = flags := by
  rw [low16]
  omega

theorem MemberKind.ofMethodName_eq_constructor_iff {name : Text} :
    ofMethodName name = .constructor ↔ name = constructorName := by
  rw [ofMethodName]
  split <;> simp [*]

theorem MemberKind.eq_ofMethodName {kind : MemberKind} {name : Text} (hfield : kind ≠ .field)
    (h : kind = .constructor ↔ name = constructorName) : kind = ofMethodName name := by
  rw [ofMethodName]
  split
  · next heq => exact h.2 heq
  · next hne =>
    cases kind with
    | constructor => exact absurd (h.1 rfl) hne
    | method => rfl
    | field => exact absurd rfl hfield

theorem Member.readAs_eq_self {m : Member} {kindOf : Text → MemberKind}
    (hflags : 0 ≤ m.accessFlags ∧ m.accessFlags ≤ 0xFFFF) (hkind : m.kind = kindOf m.name) :
    m.readAs kindOf = m := by
  rw [readAs, Access.low16_eq_self hflags, ← hkind]

/-- A definition that a class file can hold as it is, but for an empty name of its superclass. -/
structure ClassDefinition.Storable (d : ClassDefinition) : Prop where
  name : d.name ≠ []
  flags : 0 ≤ d.accessFlags ∧ d.accessFlags ≤ 0xFFFF
  memberFlags : ∀ m ∈ d.members, 0 ≤ m.accessFlags ∧ m.accessFlags ≤ 0xFFFF
  fieldsFirst : ∃ fields others, d.members = fields ++ others ∧
    (∀ m ∈ fields, m.kind = .field) ∧ ∀ m ∈ others, m.kind ≠ .field
  constructors : ∀ m ∈ d.members, m.kind ≠ .field →
    (m.kind = .constructor ↔ m.name = MemberKind.constructorName)

namespace ClassDefinition.Storable

variable {d : ClassDefinition}

theorem members_eq (h : d.Storable) : d.members = d.fields ++ d.methods := by
  obtain ⟨fields, others, heq, hfields, hothers⟩ := h.fieldsFirst
  have hfirst : d.fields = fields := by
    rw [ClassDefinition.fields, heq, List.filter_append, List.filter_eq_self.2 (by simpa using hfields),
      List.filter_eq_nil_iff.2 (by simpa using hothers), List.append_nil]
  have hlast : d.methods = others := by
    rw [ClassDefinition.methods, heq, List.filter_append,
      List.filter_eq_nil_iff.2 (by simpa using hfields), List.filter_eq_self.2 (by simpa using hothers),
      List.nil_append]
  rw [hfirst, hlast, heq]

/-- Nothing but an empty name of the superclass is lost. -/
theorem readAgain_eq (h : d.Storable) :
    d.readAgain = { d with superName := d.superName.filter fun s => !s.isEmpty } := by
  have hfields : d.fields.map (·.readAs fun _ => .field) = d.fields := by
    refine (List.map_congr_left fun m hm => ?_).trans (List.map_id _)
    obtain ⟨hmem, hkind⟩ := List.mem_filter.1 hm
    exact Member.readAs_eq_self (h.memberFlags m hmem) (of_decide_eq_true hkind)
  have hmethods : d.methods.map (·.readAs MemberKind.ofMethodName) = d.methods := by
    refine (List.map_congr_left fun m hm => ?_).trans (List.map_id _)
    obtain ⟨hmem, hkind⟩ := List.mem_filter.1 hm
    have hkind := of_decide_eq_true hkind
    exact Member.readAs_eq_self (h.memberFlags m hmem)
      (MemberKind.eq_ofMethodName hkind (h.constructors m hmem hkind))
  rw [readAgain, hfields, hmethods, ← h.members_eq, Access.low16_eq_self h.flags]

end ClassDefinition.Storable

namespace ClassFile

/-- What is written of a definition is read as what the format keeps of it. -/
theorem read_of_write {d : ClassDefinition} {b : Bytes} (hname : d.name ≠ [])
    (h : write d = .ok b) : read b = .ok d.readAgain := by
  obtain ⟨slots, this, super, interfaces, fields, methods, hwrites, rfl⟩ := exists_of_write_eq_ok h
  rw [read, Reads.classFile hwrites hname 0 (Bytes.word16 0)]

/-! ## What is read -/

/-- A member that is read has flags of sixteen bits, and the kind that its group gives it. -/
theorem MemberLayout.Denotes.of_mem {cs : List Constant} {kindOf : Text → MemberKind}
    {ls : List MemberLayout} {ms : List Member} (h : List.Forall₂ (Denotes cs kindOf) ls ms)
    (hls : ∀ l ∈ ls, l.WellFormed) {m : Member} (hm : m ∈ ms) :
    (0 ≤ m.accessFlags ∧ m.accessFlags ≤ 0xFFFF) ∧ m.kind = kindOf m.name := by
  induction h with
  | nil => cases hm
  | @cons l m' ls ms hfirst _ ih =>
    rcases List.mem_cons.1 hm with rfl | hm
    · have hflags := (hls l (List.mem_cons_self ..)).accessFlags
      have heq := hfirst.accessFlags
      exact ⟨by omega, hfirst.kind⟩
    · exact ih (fun l hl => hls l (List.mem_cons_of_mem _ hl)) hm

/-- What the numbers of a class file lead to can be stored. -/
theorem Layout.Denotes.storable {f : Layout} {d : ClassDefinition} (hf : f.WellFormed)
    (h : f.Denotes d) : d.Storable := by
  obtain ⟨fields, methods, hmembers, hfields, hmethods⟩ := h.members
  have hfield := fun m hm => MemberLayout.Denotes.of_mem (m := m) hfields hf.fields hm
  have hmethod := fun m hm => MemberLayout.Denotes.of_mem (m := m) hmethods hf.methods hm
  have hflags := hf.accessFlags
  have heq := h.accessFlags
  refine ⟨h.name_ne_nil, by omega, ?_, ⟨fields, methods, hmembers, ?_, ?_⟩, ?_⟩
  · rw [hmembers, List.forall_mem_append]
    exact ⟨fun m hm => (hfield m hm).1, fun m hm => (hmethod m hm).1⟩
  · exact fun m hm => (hfield m hm).2
  · intro m hm
    rw [(hmethod m hm).2]
    exact MemberKind.ofMethodName_ne_field m.name
  · rw [hmembers, List.forall_mem_append]
    refine ⟨fun m hm hne => absurd (hfield m hm).2 hne, fun m hm _ => ?_⟩
    rw [(hmethod m hm).2]
    exact MemberKind.ofMethodName_eq_constructor_iff

/-- Writing what was read loses nothing. Whatever octets a class was read from, it has a name, its
flags are of sixteen bits, its fields precede all other members, and of these the constructors are
those with the name of constructors. Whenever it can be written, the same class is read again, but
that an empty name of the superclass has become none. -/
theorem storable_of_read {b : Bytes} {d : ClassDefinition} (h : read b = .ok d) :
    d.Storable ∧ ∀ b', write d = .ok b' →
      read b' = .ok { d with superName := if d.superName = some [] then none else d.superName } := by
  obtain ⟨c, hc⟩ := read_eq_ok_iff_readClass.1 h
  obtain ⟨_, -, f, hf, -, hd⟩ := Takes.readClass hc
  have hstorable := hd.storable hf
  refine ⟨hstorable, fun b' hwrite => ?_⟩
  have hsuper : (d.superName.filter fun s => !s.isEmpty) =
      if d.superName = some [] then none else d.superName := by
    cases d.superName with
    | none => rfl
    | some s => cases s <;> rfl
  rw [read_of_write hstorable.name hwrite, hstorable.readAgain_eq, hsuper]

/-- The octets of a class that no one would write: the name is a plain zero octet, which stands in
the pool twice, the superclass has an empty name, and of the interfaces one has the number zero. -/
def strayOctets : Bytes :=
  [0xCA, 0xFE, 0xBA, 0xBE, 0, 0, 0, 50,
    0, 6, 1, 0, 1, 0, 7, 0, 1, 1, 0, 0, 7, 0, 3, 1, 0, 1, 0,
    0xFF, 0xFF, 0, 2, 0, 4, 0, 3, 0, 0, 0, 4, 0, 2,
    0, 1, 0, 8, 0, 1, 0, 5, 0, 0, 0, 0]

/-- The class in those octets. -/
def strayClass : ClassDefinition where
  name := [.ofNat 0]
  superName := some []
  members := [⟨[.ofNat 0], [.ofNat 0], 8, .field⟩]
  accessFlags := 0xFFFF
  interfaces := [[], [], [.ofNat 0]]

/-- That class is written, and has no superclass when it is read again. -/
theorem storable_of_read_strayOctets :
    read strayOctets = .ok strayClass ∧ strayClass.Storable ∧
      ∃ b, write strayClass = .ok b ∧ read b = .ok { strayClass with superName := none } := by
  have hread : read strayOctets = .ok strayClass := by decide +kernel
  obtain ⟨hstorable, hagain⟩ := storable_of_read hread
  have hfits : Fits strayClass := ⟨by decide, by decide, by decide, by decide⟩
  refine ⟨hread, hstorable, ?_⟩
  rcases write_of_fits hfits with ⟨b, hb⟩ | ⟨t, ht, hlong, -⟩
  · exact ⟨b, hb, hagain b hb⟩
  · have hshort : ∀ t ∈ strayClass.texts, (constantOctets t).length ≤ 0xFFFF := by decide
    exact absurd hlong (Nat.not_lt.2 (hshort t ht))

end ClassFile

end JndiScan

/-
The grammar of class files, told apart from any reader. A `Layout` holds what stands in a file,
item by item, and `Layout.octets` are the octets that it takes. `Layout.WellFormed` says that its
numbers fit into their fields and that its constants fill the pool; `Layout.Denotes` says to which
class the numbers in it lead.
-/
import JndiScan.Bytes
import JndiScan.ClassDefinition
import JndiScan.ClassFile.Constant
import Mathlib.Data.List.Forall2

namespace JndiScan.ClassFile

/-! ## Constants -/

/-- A constant as it stands in a file: the octets of a text, a class with the number of its name, or
a constant of which only the size matters. -/
inductive Constant
  | text (raw : Bytes)
  | classRef (nameIndex : Nat)
  | plain (tag : UInt8) (payload : Bytes)

/-- The tags of the constants of which only the size matters, with the sizes of their payloads. -/
def plainSizes : List (Nat × Nat) :=
  [(3, 4), (4, 4), (5, 8), (6, 8), (8, 2), (9, 4), (10, 4), (11, 4), (12, 4), (15, 3), (16, 2),
    (17, 4), (18, 4), (19, 2), (20, 2)]

/-- The octets write the text: they are its UTF-8 form, halves of surrogate pairs included, once
every pair C0 80 is taken for a zero. -/
def WritesText (raw : Bytes) (t : Text) : Prop := plainZeros raw = t.toUtf8

namespace Constant

/-- The tag of a constant. -/
def tag : Constant → UInt8
  | text _ => 1
  | classRef _ => 7
  | plain tag _ => tag

/-- What follows the tag. -/
def body : Constant → Bytes
  | text raw => Bytes.word16 raw.length ++ raw
  | classRef nameIndex => Bytes.word16 nameIndex
  | plain _ payload => payload

/-- The octets of a constant. -/
def octets (c : Constant) : Bytes := c.tag :: c.body

/-- The constant is one of those that are known, and what it holds fits. -/
def WellFormed : Constant → Prop
  | text raw => raw.length ≤ 0xFFFF ∧ ∃ t, WritesText raw t
  | classRef nameIndex => nameIndex ≤ 0xFFFF
  | plain tag payload => (tag.toNat, payload.length) ∈ plainSizes

/-- How many numbers a constant takes: two for those of eight octets, one for all others. -/
def numbers (c : Constant) : Nat := if c.tag = 5 ∨ c.tag = 6 then 2 else 1

end Constant

/-- The constants with the numbers from `first` on fill a pool: there is a next one exactly as long
as its number is below the count. -/
inductive Fills (count : Nat) : Nat → List Constant → Prop
  | full {first : Nat} : count ≤ first → Fills count first []
  | next {first : Nat} {c : Constant} {cs : List Constant} :
    first < count → c.WellFormed → Fills count (first + c.numbers) cs → Fills count first (c :: cs)

/-- The constant with a number, when the numbers begin with `first`. -/
def constantAt (first number : Nat) : List Constant → Option Constant
  | [] => none
  | c :: cs => if number = first then some c else constantAt (first + c.numbers) number cs

/-- The text constant with a number writes the text. -/
def TextAt (cs : List Constant) (number : Nat) (t : Text) : Prop :=
  ∃ raw, constantAt 1 number cs = some (.text raw) ∧ WritesText raw t

/-- The class constant with a number has the name. -/
def ClassAt (cs : List Constant) (number : Nat) (t : Text) : Prop :=
  ∃ nameIndex, constantAt 1 number cs = some (.classRef nameIndex) ∧ TextAt cs nameIndex t

/-! ## Classes -/

/-- A count of two octets, and the octets of each item. -/
def countedOctets (octets : α → Bytes) (xs : List α) : Bytes :=
  Bytes.word16 xs.length ++ xs.flatMap octets

/-- An attribute: the number of its name, and its content. -/
structure AttributeLayout where
  nameIndex : Nat
  content : Bytes

namespace AttributeLayout

/-- The octets of an attribute. -/
def octets (a : AttributeLayout) : Bytes :=
  Bytes.word16 a.nameIndex ++ (Bytes.word32 a.content.length ++ a.content)

/-- The numbers of an attribute fit. -/
def WellFormed (a : AttributeLayout) : Prop :=
  a.nameIndex ≤ 0xFFFF ∧ a.content.length ≤ 0xFFFFFFFF

end AttributeLayout

/-- A field or method: its flags, the numbers of its texts, and its attributes. -/
structure MemberLayout where
  accessFlags : Nat
  nameIndex : Nat
  descriptorIndex : Nat
  attributes : List AttributeLayout

namespace MemberLayout

/-- The octets of a member. -/
def octets (m : MemberLayout) : Bytes :=
  Bytes.word16 m.accessFlags ++ (Bytes.word16 m.nameIndex ++ (Bytes.word16 m.descriptorIndex ++
    countedOctets AttributeLayout.octets m.attributes))

/-- The numbers of a member fit. -/
structure WellFormed (m : MemberLayout) : Prop where
  accessFlags : m.accessFlags ≤ 0xFFFF
  nameIndex : m.nameIndex ≤ 0xFFFF
  descriptorIndex : m.descriptorIndex ≤ 0xFFFF
  attributeCount : m.attributes.length ≤ 0xFFFF
  attributes : ∀ a ∈ m.attributes, a.WellFormed

/-- The numbers of a member lead to its texts, and its name tells its kind. -/
structure Denotes (cs : List Constant) (kindOf : Text → MemberKind) (l : MemberLayout)
    (m : Member) : Prop where
  accessFlags : m.accessFlags = l.accessFlags
  name : TextAt cs l.nameIndex m.name
  descriptor : TextAt cs l.descriptorIndex m.descriptor
  kind : m.kind = kindOf m.name

/-- Two members have one meaning: whatever their attributes, they have the same flags, and their
numbers lead to the same texts. -/
structure Agrees (cs cs' : List Constant) (l l' : MemberLayout) : Prop where
  accessFlags : l.accessFlags = l'.accessFlags
  name : ∀ t, TextAt cs l.nameIndex t ↔ TextAt cs' l'.nameIndex t
  descriptor : ∀ t, TextAt cs l.descriptorIndex t ↔ TextAt cs' l'.descriptorIndex t

end MemberLayout

/-- A class file up to its last method. -/
structure Layout where
  minor : Nat
  major : Nat
  count : Nat
  constants : List Constant
  accessFlags : Nat
  this : Nat
  super : Nat
  interfaces : List Nat
  fields : List MemberLayout
  methods : List MemberLayout

/-- A number names a superclass, or none when it is zero. -/
def SuperAt (cs : List Constant) (number : Nat) : Option Text → Prop
  | none => number = 0
  | some t => ClassAt cs number t

/-- A number names an interface, or the empty name when it is zero. -/
def InterfaceAt (cs : List Constant) (number : Nat) (t : Text) : Prop :=
  (number = 0 ∧ t = []) ∨ ClassAt cs number t

namespace Layout

/-- The octets of a class file. -/
def octets (f : Layout) : Bytes :=
  Bytes.word32 0xCAFEBABE ++ (Bytes.word16 f.minor ++ (Bytes.word16 f.major ++
    (Bytes.word16 f.count ++ (f.constants.flatMap Constant.octets ++
      (Bytes.word16 f.accessFlags ++ (Bytes.word16 f.this ++ (Bytes.word16 f.super ++
        (countedOctets Bytes.word16 f.interfaces ++
          (countedOctets MemberLayout.octets f.fields ++
            countedOctets MemberLayout.octets f.methods)))))))))

/-- The numbers of a class file fit, and its constants are as many as its count tells. -/
structure WellFormed (f : Layout) : Prop where
  minor : f.minor ≤ 0xFFFF
  major : f.major ≤ 0xFFFF
  count : f.count ≤ 0xFFFF
  constants : Fills f.count 1 f.constants
  accessFlags : f.accessFlags ≤ 0xFFFF
  this : f.this ≤ 0xFFFF
  super : f.super ≤ 0xFFFF
  interfaceCount : f.interfaces.length ≤ 0xFFFF
  interfaces : ∀ n ∈ f.interfaces, n ≤ 0xFFFF
  fieldCount : f.fields.length ≤ 0xFFFF
  fields : ∀ m ∈ f.fields, m.WellFormed
  methodCount : f.methods.length ≤ 0xFFFF
  methods : ∀ m ∈ f.methods, m.WellFormed

/-- The numbers of a class file lead to the class. -/
structure Denotes (f : Layout) (d : ClassDefinition) : Prop where
  accessFlags : d.accessFlags = f.accessFlags
  name : ClassAt f.constants f.this d.name
  name_ne_nil : d.name ≠ []
  superName : SuperAt f.constants f.super d.superName
  interfaces : List.Forall₂ (InterfaceAt f.constants) f.interfaces d.interfaces
  members : ∃ fields methods, d.members = fields ++ methods ∧
    List.Forall₂ (MemberLayout.Denotes f.constants fun _ => .field) f.fields fields ∧
    List.Forall₂ (MemberLayout.Denotes f.constants MemberKind.ofMethodName) f.methods methods

/-- Two class files have one meaning: whatever their versions, their attributes and their other
constants, they have the same flags, and their numbers lead to the same names and texts. -/
structure Agrees (f f' : Layout) : Prop where
  accessFlags : f.accessFlags = f'.accessFlags
  this : ∀ t, ClassAt f.constants f.this t ↔ ClassAt f'.constants f'.this t
  super : ∀ name, SuperAt f.constants f.super name ↔ SuperAt f'.constants f'.super name
  interfaces : List.Forall₂
    (fun n n' => ∀ t, InterfaceAt f.constants n t ↔ InterfaceAt f'.constants n' t)
    f.interfaces f'.interfaces
  fields : List.Forall₂ (MemberLayout.Agrees f.constants f'.constants) f.fields f'.fields
  methods : List.Forall₂ (MemberLayout.Agrees f.constants f'.constants) f.methods f'.methods

end Layout

end JndiScan.ClassFile

/-
The part of a class that the scan looks at: its name, its ancestors and the names, descriptors and
access flags of its members.
-/
import JndiScan.Text.Basic

namespace JndiScan

namespace Access

/-- The flag of public members. -/
def isPublic : Nat := 0x0001
/-- The flag of private members. -/
def isPrivate : Nat := 0x0002
/-- The flag of protected members. -/
def isProtected : Nat := 0x0004
/-- The flag of static members. -/
def isStatic : Nat := 0x0008
/-- The flag of final members. -/
def isFinal : Nat := 0x0010

/-- The low sixteen bits of flags, in two's complement when they are negative. -/
def low16 (flags : Int) : Nat := (flags % 0x10000).toNat

/-- Are all bits of `mask` set in `flags`? A negative number counts as its two's complement. -/
def hasAll (flags : Int) (mask : Nat) : Bool :=
  (flags % Nat.pow 2 (mask.log2 + 1)).toNat &&& mask == mask

end Access

/-- What a member is. -/
inductive MemberKind
  | constructor
  | method
  | field
  deriving DecidableEq, Repr

namespace MemberKind

/-- The name of all constructors. -/
def constructorName : Text := "<init>"

/-- The kind of a member that is not a field. -/
def ofMethodName (name : Text) : MemberKind :=
  if name = constructorName then constructor else method

/-- The label of a kind. -/
def label : MemberKind → Text
  | constructor => "CONSTRUCTOR"
  | method => "METHOD"
  | field => "FIELD"

end MemberKind

/-- A field, method or constructor. -/
structure Member where
  name : Text
  descriptor : Text
  accessFlags : Int
  kind : MemberKind
  deriving DecidableEq, Repr

namespace Member

/-- Is the member private? -/
def isPrivate (m : Member) : Bool := Access.hasAll m.accessFlags Access.isPrivate

/-- Is the member static? -/
def isStatic (m : Member) : Bool := Access.hasAll m.accessFlags Access.isStatic

end Member

/-- A class, interfaces and members in the order of its file. The name is in slash form. -/
structure ClassDefinition where
  name : Text
  superName : Option Text
  members : List Member := []
  accessFlags : Int := 1
  interfaces : List Text := []
  deriving DecidableEq, Repr

namespace ClassDefinition

/-- The constructors. -/
def constructors (d : ClassDefinition) : List Member := d.members.filter (·.kind = .constructor)

/-- The members that are not fields. -/
def methods (d : ClassDefinition) : List Member := d.members.filter (·.kind ≠ .field)

/-- The fields. -/
def fields (d : ClassDefinition) : List Member := d.members.filter (·.kind = .field)

end ClassDefinition

end JndiScan

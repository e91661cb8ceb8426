/-
Classes as a Dalvik file describes them, and the definitions they stand for: names in slash form,
descriptors without blanks, and of the access flags the sixteen bits that class files know.
-/
import JndiScan.ClassDefinition
import JndiScan.ClassName

namespace JndiScan.Dalvik

/-- A field or method. -/
structure RawMember where
  name : Text
  descriptor : Text
  accessFlags : Int
  deriving DecidableEq, Repr

/-- The interfaces of a class: names, some of which may be empty, or one text that holds them all
between blanks, perhaps in brackets. -/
inductive Interfaces
  | names (ns : List Text)
  | oneText (t : Text)
  deriving DecidableEq, Repr

/-- The names of the interfaces as they are written. -/
def Interfaces.toList : Interfaces → List Text
  | names ns => ns
  | oneText t =>
    (Text.trimWhere (fun c => c = .ofChar '(' || c = .ofChar ')') t).words

/-- A class. -/
structure RawClass where
  name : Text
  superName : Text
  accessFlags : Int
  interfaces : Interfaces
  fields : List RawMember
  methods : List RawMember
  deriving DecidableEq, Repr

namespace RawMember

/-- The member that a raw one stands for. -/
def toMember (m : RawMember) (kind : MemberKind) : Member :=
  { name := m.name, descriptor := ClassName.compactDescriptor m.descriptor
    accessFlags := Access.low16 m.accessFlags, kind }

end RawMember

namespace RawClass

/-- The definition that a raw class stands for, fields first. An empty name of a superclass stands
for none. -/
def toDefinition (c : RawClass) : ClassDefinition :=
  let superName := ClassName.slashForm c.superName
  { name := ClassName.slashForm c.name
    superName := if superName.isEmpty then none else some superName
    members := c.fields.map (·.toMember .field)
      ++ c.methods.map fun m => m.toMember (.ofMethodName m.name)
    accessFlags := Access.low16 c.accessFlags
    interfaces := (c.interfaces.toList.filter (!·.isEmpty)).map ClassName.slashForm }

end RawClass

end JndiScan.Dalvik

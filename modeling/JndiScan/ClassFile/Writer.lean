/-
Writing class files that hold structure only: no member has an attribute. Constants are shared, a
text and a class constant being entered where they are first needed. The format counts constants,
interfaces and members in sixteen bits; what does not fit is refused.
-/
import JndiScan.ClassDefinition
import JndiScan.ClassFile.Constant
import Std.Data.HashMap

namespace JndiScan.ClassFile

/-- Why a class cannot be written. -/
inductive WriteError
  /-- A text takes more octets than its length field can tell. -/
  | constantTooLong (t : Text)
  /-- A count or a number of a constant takes more than sixteen bits. -/
  | overflow
  deriving DecidableEq, Repr

/-- The wording of an error; of a long text its beginning is shown. -/
def WriteError.message : WriteError → Text
  | constantTooLong t => "constant too long: " ++ t.take 40 ++ "..."
  | overflow => "'H' format requires 0 <= number <= 65535"

/-- An octet string, or the reason why there is none. -/
abbrev Written := Except WriteError Bytes

/-- A number in a field of sixteen bits. -/
def field16 (n : Nat) : Written := if n ≤ 0xFFFF then .ok (Bytes.word16 n) else .error .overflow

/-- The constants entered so far, last first, and the numbers of the texts and classes among
them. -/
structure Constants where
  entries : List Bytes := []
  count : Nat := 0
  texts : Std.HashMap Text Nat := {}
  classes : Std.HashMap Text Nat := {}

/-- A step that may enter constants. -/
abbrev Writer := StateT Constants (Except WriteError)

/-- The number of a text constant, entered if it is new. -/
def textNumber (t : Text) : Writer Nat := fun cs =>
  match cs.texts[t]? with
  | some n => .ok (n, cs)
  | none =>
    let raw := constantOctets t
    if raw.length > 0xFFFF then .error (.constantTooLong t)
    else
      let n := cs.count + 1
      let entry := 1 :: Bytes.word16 raw.length ++ raw
      .ok (n, { cs with entries := entry :: cs.entries, count := n, texts := cs.texts.insert t n })

/-- The number of a class constant, entered after its name if it is new. -/
def classNumber (t : Text) : Writer Nat := do
  match (← get).classes[t]? with
  | some n => pure n
  | none =>
    let nameNumber ← textNumber t
    let nameField ← field16 nameNumber
    modifyGet fun cs =>
      let n := cs.count + 1
      (n, { cs with
        entries := (7 :: nameField) :: cs.entries, count := n, classes := cs.classes.insert t n })

/-- A member without attributes. -/
def writeMember (m : Member) : Writer Bytes := do
  let name ← textNumber m.name
  let descriptor ← textNumber m.descriptor
  let nameField ← field16 name
  let descriptorField ← field16 descriptor
  pure (Bytes.word16 (Access.low16 m.accessFlags) ++ nameField ++ descriptorField
    ++ Bytes.word16 0)

/-- The results of a step on each item, added to `done`. -/
def eachFrom (step : α → Writer β) (done : Array β) : List α → Writer (Array β)
  | [] => pure done
  | x :: xs => do
    let y ← step x
    eachFrom step (done.push y) xs

/-- A group of members with its count. -/
def writeMembers (ms : List Member) : Writer Bytes := do
  let count ← field16 ms.length
  let members ← eachFrom writeMember #[] ms
  pure (count ++ members.toList.flatten)

/-- The version written: any from 45 on would do, as there is no code. -/
def writtenVersion : Nat := 50

/-- The number of the superclass, zero when there is none. -/
def superNumber : Option Text → Writer Nat
  | none => pure 0
  | some s => if s.isEmpty then pure 0 else classNumber s

/-- A whole class. -/
def writeClass (d : ClassDefinition) : Writer Bytes := do
  let thisNumber ← classNumber d.name
  let superNumber ← superNumber d.superName
  let interfaceNumbers ← eachFrom classNumber #[] d.interfaces
  let fields ← writeMembers d.fields
  let methods ← writeMembers d.methods
  let cs ← get
  let poolCount ← field16 (cs.count + 1)
  let thisField ← field16 thisNumber
  let superField ← field16 superNumber
  let interfaceCount ← field16 interfaceNumbers.size
  let interfaces ← interfaceNumbers.toList.mapM fun n => field16 n
  pure (Bytes.word32 0xCAFEBABE ++ Bytes.word16 0 ++ Bytes.word16 writtenVersion ++ poolCount
    ++ cs.entries.reverse.flatten ++ Bytes.word16 (Access.low16 d.accessFlags) ++ thisField
    ++ superField ++ interfaceCount ++ interfaces.flatten ++ fields ++ methods ++ Bytes.word16 0)

/-- The octets of a class. -/
def write (d : ClassDefinition) : Written :=
  match writeClass d {} with
  | .ok (bs, _) => .ok bs
  | .error e => .error e

end JndiScan.ClassFile

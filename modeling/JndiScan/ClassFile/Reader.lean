/-
Reading class files. Only the structure is kept: names, access flags and descriptors; attributes
are measured and skipped. What follows the last method is not looked at.
-/
import JndiScan.ClassDefinition
import JndiScan.ClassFile.Constant

namespace JndiScan.ClassFile

/-- Why octets are no class file. -/
inductive ReadError
  /-- The file ends inside the item that starts at `offset`. -/
  | truncated (offset : Nat)
  | badMagic
  | unknownTag (tag index : Nat)
  | notText (index : Nat)
  | notClass (index : Nat)
  | invalidText (fault : Text.Utf8.Fault)
  | missingName
  deriving DecidableEq, Repr

/-- The wording of an error. -/
def ReadError.message : ReadError → Text
  | truncated offset => "truncated class file at offset " ++ .ofNat offset
  | badMagic => "bad magic number"
  | unknownTag tag index =>
    "unknown constant pool tag " ++ .ofNat tag ++ " at index " ++ .ofNat index
  | notText index => "constant #" ++ .ofNat index ++ " is not a Utf8 entry"
  | notClass index => "constant #" ++ .ofNat index ++ " is not a Class entry"
  | invalidText fault => "invalid utf8 constant: " ++ fault.message
  | missingName => "missing this_class"

/-- A place in a file: how much was read, and what is left. -/
structure Cursor where
  offset : Nat
  rest : Bytes

/-- A reader of one item: it moves a cursor on, or fails. -/
abbrev Reader := StateT Cursor (Except ReadError)

namespace Reader

/-- The next `n` octets. -/
def take (n : Nat) : Reader Bytes := fun c =>
  let piece := c.rest.take n
  if piece.length < n then .error (.truncated c.offset)
  else .ok (piece, ⟨c.offset + n, c.rest.drop n⟩)

/-- A number of one octet. -/
def u1 : Reader Nat := Bytes.bigEndian <$> take 1

/-- A number of two octets. -/
def u2 : Reader Nat := Bytes.bigEndian <$> take 2

/-- A number of four octets. -/
def u4 : Reader Nat := Bytes.bigEndian <$> take 4

/-- `n` items in a row, added to `done`. -/
def manyFrom (item : Reader α) (done : Array α) : Nat → Reader (Array α)
  | 0 => pure done
  | n + 1 => do
    let x ← item
    manyFrom item (done.push x) n

/-- A count of two octets and as many items. -/
def counted (item : Reader α) : Reader (List α) := do
  let n ← u2
  let xs ← manyFrom item #[] n
  pure xs.toList

end Reader

/-! ## The constant pool -/

/-- A number of the constant pool: a text, a class with the number of its name, or something that
is not looked up. -/
inductive Slot
  | text (t : Text)
  | classRef (nameIndex : Nat)
  | other
  deriving DecidableEq, Repr

/-- The constants by their numbers; number zero is no constant. -/
abbrev ConstantPool := Array Slot

/-- The payload sizes of the constants that are not looked up. -/
def payloadSize? : Nat → Option Nat
  | 3 | 4 | 9 | 10 | 11 | 12 | 17 | 18 => some 4
  | 5 | 6 => some 8
  | 8 | 16 | 19 | 20 => some 2
  | 15 => some 3
  | _ => none

/-- Constants of eight octets take two numbers. -/
def isWide (tag : Nat) : Bool := tag == 5 || tag == 6

/-- One constant after its tag, for the pool number `index`. -/
def readSlot (tag index : Nat) : Reader Slot :=
  if tag = 1 then do
    let length ← Reader.u2
    let raw ← Reader.take length
    match constantText raw with
    | .ok t => pure (.text t)
    | .error fault => throw (.invalidText fault)
  else if tag = 7 then Slot.classRef <$> Reader.u2
  else
    match payloadSize? tag with
    | some size => do
      let _ ← Reader.take size
      pure .other
    | none => throw (.unknownTag tag index)

/-- The constants with the numbers from `pool.size` on, `room` numbers at most but for a wide last
constant. -/
def readSlots (pool : ConstantPool) : Nat → Reader ConstantPool
  | 0 => pure pool
  | room + 1 => do
    let tag ← Reader.u1
    let slot ← readSlot tag pool.size
    if isWide tag then readSlots ((pool.push slot).push .other) (room - 1)
    else readSlots (pool.push slot) room
  termination_by room => room

/-- The constant pool with its count. A count of zero or one announces no constant. -/
def readPool : Reader ConstantPool := do
  let count ← Reader.u2
  readSlots #[.other] (count - 1)

/-- The text constant with a given number. -/
def textAt (pool : ConstantPool) (index : Nat) : Reader Text :=
  match pool[index]? with
  | some (.text t) => pure t
  | _ => throw (.notText index)

/-- The name of the class constant with a given number; number zero names nothing. -/
def classAt (pool : ConstantPool) (index : Nat) : Reader (Option Text) :=
  if index = 0 then pure none
  else
    match pool[index]? with
    | some (.classRef nameIndex) => some <$> textAt pool nameIndex
    | _ => throw (.notClass index)

/-! ## The class -/

/-- One attribute, skipped. -/
def skipAttribute : Reader Unit := do
  let _ ← Reader.u2
  let size ← Reader.u4
  let _ ← Reader.take size
  pure ()

/-- A member with its attributes. `kindOf` tells its kind from its name. -/
def readMember (pool : ConstantPool) (kindOf : Text → MemberKind) : Reader Member := do
  let accessFlags ← Reader.u2
  let name ← textAt pool (← Reader.u2)
  let descriptor ← textAt pool (← Reader.u2)
  let _ ← Reader.counted skipAttribute
  pure { name, descriptor, accessFlags, kind := kindOf name }

/-- The number that every class file begins with. -/
def magic : Nat := 0xCAFEBABE

/-- A whole class. -/
def readClass : Reader ClassDefinition := do
  if (← Reader.u4) ≠ magic then throw .badMagic
  let _ ← Reader.u2
  let _ ← Reader.u2
  let pool ← readPool
  let accessFlags ← Reader.u2
  let name := (← classAt pool (← Reader.u2)).getD []
  if name.isEmpty then throw .missingName
  let superName ← classAt pool (← Reader.u2)
  let interfaces ← Reader.counted do
    pure ((← classAt pool (← Reader.u2)).getD [])
  let fields ← Reader.counted (readMember pool fun _ => .field)
  let methods ← Reader.counted (readMember pool MemberKind.ofMethodName)
  pure { name, superName, members := fields ++ methods, accessFlags, interfaces }

/-- The class that octets begin with. -/
def read (bs : Bytes) : Except ReadError ClassDefinition :=
  match readClass ⟨0, bs⟩ with
  | .ok (d, _) => .ok d
  | .error e => .error e

end JndiScan.ClassFile

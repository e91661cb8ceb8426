/-
What a Dalvik file holds, as far as classes need it. Names are looked up when the item that needs
them is read, the names of the members of classes at the end. A number that stands for nothing
reads as a name that says so, unless there are no items of its type at all.
-/
import JndiScan.Dalvik.Class
import JndiScan.Dalvik.Item
import Std.Data.HashMap

namespace JndiScan.Dalvik

/-- The part of a field or method that does not depend on the class that has it. -/
structure MemberShape where
  name : Text
  descriptor : Text

/-- A prototype with the name of its return type. -/
structure Prototype where
  returnType : Text
  parameters : Nat

/-- A class with the numbers of its members. -/
structure ClassEntry where
  name : Text
  superName : Text
  accessFlags : Nat
  interfaces : List Text
  data : Option ClassData

/-- What was read up to some point. Tables that were not met are missing; lists of types, members
of classes and strings are known by their places. -/
structure Contents where
  stringPlaces : Option (Array Nat) := none
  types : Option (Array Nat) := none
  prototypes : Option (Array Prototype) := none
  fields : Option (Array MemberShape) := none
  methods : Option (Array MemberShape) := none
  classes : Option (Array ClassEntry) := none
  /-- The places of arrays of values. -/
  arrays : Option (Array Nat) := none
  hasAnnotationDirectories : Bool := false
  typeLists : Std.HashMap Nat (List Nat) := {}
  classData : Std.HashMap Nat ClassData := {}
  strings : Std.HashMap Nat Text := {}

namespace Contents

/-- A table of items of a type, which must have been met. -/
def table (type : ItemType) : Option α → Except Fault α
  | some items => .ok items
  | none => .error (.noItems type)

/-! ## Names -/

/-- What stands for a string that is not there. -/
def invalidString : Text := "AG:IS: invalid string"

/-- What stands for a type that is not there. -/
def invalidType : Text := "AG:ITI: invalid type"

/-- What stands for a field that is not there. -/
def invalidField : MemberShape :=
  { name := "AG:IFI:invalid_name", descriptor := "(AG:IFI:invalid_type)" }

/-- What stands for a method that is not there. -/
def invalidMethod : MemberShape :=
  { name := "AG:IMI:invalid_name", descriptor := "()AG:IMI:invalid_proto" }

/-- The string with a number. -/
def stringOf (cs : Contents) (number : Nat) : Except Fault Text := do
  let places ← table .stringId cs.stringPlaces
  pure (((places[number]?).bind (cs.strings[·]?)).getD invalidString)

/-- The name of the type with a number. -/
def typeOf (cs : Contents) (number : Nat) : Except Fault Text := do
  match (← table .typeId cs.types)[number]? with
  | some n => cs.stringOf n
  | none => pure invalidType

/-- The names of the types in the list at a place; there is no list at place zero. -/
def typesAt (cs : Contents) (place : Nat) : Except Fault (List Text) :=
  if place = 0 then .ok []
  else
    match cs.typeLists[place]? with
    | some ts => ts.mapM cs.typeOf
    | none => .error (.noTypeList place)

/-- The descriptor of the prototype with a number, with a blank between two parameters. -/
def descriptorOf (cs : Contents) (number : Nat) : Except Fault Text := do
  match (← table .prototypeId cs.prototypes)[number]? with
  | some p =>
    let parameters ← cs.typesAt p.parameters
    pure ("(" ++ Text.joinWith " " parameters ++ ")" ++ p.returnType)
  | none => throw .noPrototype

/-- The field with a number. -/
def fieldOf (cs : Contents) (number : Nat) : Except Fault MemberShape := do
  pure ((← table .fieldId cs.fields)[number]?.getD invalidField)

/-- The method with a number. -/
def methodOf (cs : Contents) (number : Nat) : Except Fault MemberShape := do
  pure ((← table .methodId cs.methods)[number]?.getD invalidMethod)

/-! ## Items with what they refer to -/

/-- The number of the name of a type. -/
def readType (cs : Contents) : Reader Nat := do
  let n ← Reader.u4
  let _ ← cs.stringOf n
  pure n

/-- A prototype. -/
def readPrototype (cs : Contents) : Reader Prototype := do
  let p ← Item.prototype
  let _ ← cs.stringOf p.shortForm
  pure { returnType := ← cs.typeOf p.returnType, parameters := p.parameters }

/-- A field. -/
def readField (cs : Contents) : Reader MemberShape := do
  let m ← Item.member
  let _ ← cs.typeOf m.owner
  let descriptor ← cs.typeOf m.type
  pure { name := ← cs.stringOf m.name, descriptor }

/-- A method. -/
def readMethod (cs : Contents) : Reader MemberShape := do
  let m ← Item.member
  let _ ← cs.typeOf m.owner
  let descriptor ← cs.descriptorOf m.type
  pure { name := ← cs.stringOf m.name, descriptor }

/-- A class. Its annotations and the values of its static fields are not needed, but they must be
there. -/
def readClass (cs : Contents) : Reader ClassEntry := do
  let c ← Item.classDefinition
  let name ← cs.typeOf c.type
  let superName ← cs.typeOf c.superType
  let interfaces ← cs.typesAt c.interfaces
  let data := if c.data = 0 then none else cs.classData[c.data]?
  if c.annotations ≠ 0 && !cs.hasAnnotationDirectories then
    throw (.noItems .annotationDirectory)
  if c.staticValues ≠ 0 then
    let arrays ← table .encodedArray cs.arrays
    if data.isSome && !arrays.contains c.staticValues then throw .noValues
  pure { name, superName, accessFlags := c.accessFlags, interfaces, data }

/-! ## Values -/

/-- Values in a row, after their count. -/
def readArray (value : Reader Unit) : Reader Unit := do
  Reader.pass value (← Reader.leb128)

/-- An annotation: its type, and values with names. -/
def readAnnotation (value : Reader Unit) : Reader Unit := do
  let _ ← Reader.leb128
  let count ← Reader.leb128
  Reader.pass (do
    let _ ← Reader.leb128
    value) count

/-- A value. Its first octet tells its kind and, for most kinds, its length. What it refers to is
looked up. `fuel` bounds how deep values lie in each other. -/
def readValue (cs : Contents) : Nat → Reader Unit
  | 0 => throw (.short 1)
  | fuel + 1 => do
    let b ← Reader.u1
    let width := b / 32 + 1
    let kind := b % 32
    if kind = 0x00 then
      let _ ← Reader.u1
    else if kind = 0x17 then
      let _ ← cs.stringOf (← Reader.upTo width)
    else if kind = 0x18 then
      let _ ← cs.typeOf (← Reader.upTo width)
    else if kind = 0x19 || kind = 0x1B then
      let _ ← cs.fieldOf (← Reader.upTo width)
    else if kind = 0x1A then
      let _ ← cs.methodOf (← Reader.upTo width)
    else if kind = 0x1C then readArray (cs.readValue fuel)
    else if kind = 0x1D then readAnnotation (cs.readValue fuel)
    else if 0x02 ≤ kind && kind < 0x17 then Reader.skip width

/-- A value that lies as deep as the octets allow. -/
def readAnyValue (cs : Contents) : Reader Unit := do
  cs.readValue ((← get).octets.size + 1)

/-! ## Everything of a type -/

/-- The contents with `count` items of a type, of which the first is at the cursor. Of classes the
first table counts, of other items the last one. -/
def readItems (cs : Contents) (type : ItemType) (count : Nat) : Reader Contents := do
  match type with
  | .stringId => do pure { cs with stringPlaces := ← Reader.many Reader.u4 count }
  | .typeId => do pure { cs with types := ← Reader.many cs.readType count }
  | .prototypeId => do pure { cs with prototypes := ← Reader.many cs.readPrototype count }
  | .fieldId => do pure { cs with fields := ← Reader.many cs.readField count }
  | .methodId => do pure { cs with methods := ← Reader.many cs.readMethod count }
  | .classDefinition => do
    let classes ← Reader.many cs.readClass count
    pure { cs with classes := cs.classes.getD classes }
  | .typeList => do
    let lists ← Reader.many (Reader.placed Item.typeList) count
    pure { cs with typeLists := lists.foldl (fun m (p, ts) => m.insert p ts) cs.typeLists }
  | .classData => do
    let data ← Reader.many (Reader.placed Item.classData) count
    pure { cs with classData := data.foldl (fun m (p, d) => m.insert p d) cs.classData }
  | .stringData => do
    let strings ← Reader.many (Reader.placed Item.string) count
    pure { cs with strings := strings.foldl (fun m (p, t) => m.insert p t) cs.strings }
  | .code => do
    Reader.pass Item.code count
    pure cs
  | .annotationData => do
    Reader.pass (do
      let _ ← Reader.u1
      readAnnotation cs.readAnyValue) count
    pure cs
  | .annotationSet | .annotationSetRefs => do
    Reader.pass Item.places count
    pure cs
  | .encodedArray => do
    let arrays ← Reader.many (Reader.placed (readArray cs.readAnyValue)) count
    pure { cs with arrays := arrays.map (·.1) }
  | .annotationDirectory => do
    Reader.pass Item.annotationDirectory count
    pure { cs with hasAnnotationDirectories := true }
  | .hiddenFlags => do
    Item.hiddenFlags
    pure cs
  | _ => pure cs

/-! ## Classes -/

/-- A member with its access flags. -/
def rawMember (find : Nat → Except Fault MemberShape) (m : Nat × Nat) : Except Fault RawMember := do
  let { name, descriptor } ← find m.1
  pure { name, descriptor, accessFlags := m.2 }

/-- The class of an entry. -/
def classOf (cs : Contents) (c : ClassEntry) : Except Fault RawClass := do
  let data := c.data.getD { fields := [], methods := [] }
  let fields ← data.fields.mapM (rawMember cs.fieldOf)
  let methods ← data.methods.mapM (rawMember cs.methodOf)
  pure { name := c.name, superName := c.superName, accessFlags := c.accessFlags
         interfaces := .names c.interfaces, fields, methods }

end Contents

end JndiScan.Dalvik

/-
Items as a Dalvik file writes them, without what they refer to.
-/
import JndiScan.Dalvik.ModifiedUtf8
import JndiScan.Dalvik.Reader

namespace JndiScan.Dalvik

open Reader (numberAt)

/-- A prototype: the number of its return type, and where its parameter types are. -/
structure PrototypeItem where
  shortForm : Nat
  returnType : Nat
  parameters : Nat

/-- A field or method of some class: the numbers of the class, of its type or prototype, and of its
name. -/
structure MemberItem where
  owner : Nat
  type : Nat
  name : Nat

/-- A class definition: numbers of types, and places of further items, where zero stands for
none. -/
structure ClassItem where
  type : Nat
  accessFlags : Nat
  superType : Nat
  interfaces : Nat
  annotations : Nat
  data : Nat
  staticValues : Nat

/-- The members of a class: numbers of fields and methods with access flags. -/
structure ClassData where
  fields : List (Nat × Nat)
  methods : List (Nat × Nat)

namespace Item

/-- A string: a length, which is not needed, and octets up to a zero. -/
def string : Reader Text := do
  let _ ← Reader.leb128
  pure (stringText (← Reader.zeroEnded [] (← get).octets.size))

/-- A prototype. -/
def prototype : Reader PrototypeItem := Reader.item 12 fun c =>
  { shortForm := numberAt c 0 4, returnType := numberAt c 4 4, parameters := numberAt c 8 4 }

/-- A field or method. -/
def member : Reader MemberItem := Reader.item 8 fun c =>
  { owner := numberAt c 0 2, type := numberAt c 2 2, name := numberAt c 4 4 }

/-- A class definition. -/
def classDefinition : Reader ClassItem := Reader.item 32 fun c =>
  { type := numberAt c 0 4, accessFlags := numberAt c 4 4, superType := numberAt c 8 4
    interfaces := numberAt c 12 4, annotations := numberAt c 20 4, data := numberAt c 24 4
    staticValues := numberAt c 28 4 }

/-- A list of types; one of odd length is followed by two octets. -/
def typeList : Reader (List Nat) := do
  let n ← Reader.u4
  let types ← Reader.many Reader.u2 n
  if n % 2 = 1 then Reader.skip 2
  pure types.toList

/-- Members with their numbers, each of which is given by its distance from the one before. The
flags of a method are followed by the place of its code. -/
def encodedMembers (hasCode : Bool) (count : Nat) : Reader (List (Nat × Nat)) := do
  let raw ← Reader.many (do
    let distance ← Reader.leb128
    let flags ← Reader.leb128
    if hasCode then
      let _ ← Reader.leb128
    pure (distance, flags)) count
  let step (s : Nat × List (Nat × Nat)) (m : Nat × Nat) : Nat × List (Nat × Nat) :=
    (s.1 + m.1, (s.1 + m.1, m.2) :: s.2)
  pure (raw.foldl step (0, [])).2.reverse

/-- The members of a class: static fields before the others, direct methods before the others. -/
def classData : Reader ClassData := do
  let staticFields ← Reader.leb128
  let instanceFields ← Reader.leb128
  let directMethods ← Reader.leb128
  let virtualMethods ← Reader.leb128
  let statics ← encodedMembers false staticFields
  let instances ← encodedMembers false instanceFields
  let directs ← encodedMembers true directMethods
  let virtuals ← encodedMembers true virtualMethods
  pure { fields := statics ++ instances, methods := directs ++ virtuals }

/-! ## Items that no class needs

They are read because a file in which they do not fit is refused. -/

/-- A handler of exceptions: pairs of a type and an address, and an address for everything else
when their number is not positive. -/
def handler : Reader Unit := do
  let count ← Reader.signedLeb128
  Reader.pass (do
    let _ ← Reader.leb128
    let _ ← Reader.leb128) count.natAbs
  if count ≤ 0 then
    let _ ← Reader.leb128

/-- The code of a method, which starts at a multiple of four. A table of exceptions starts at one
too. -/
def code : Reader Unit := do
  let position := (← get).position
  Reader.goTo (position + (4 - position % 4) % 4)
  let (tries, length) ← Reader.item 16 fun c => (numberAt c 6 2, numberAt c 12 4)
  Reader.skip (2 * length)
  if tries ≠ 0 then
    if length % 2 = 1 then
      let _ ← Reader.u2
    Reader.pass (Reader.item 8 fun _ => ()) tries
    Reader.pass handler (← Reader.leb128)

/-- A count and as many numbers of four octets. -/
def places : Reader Unit := do
  Reader.pass (Reader.item 4 fun _ => ()) (← Reader.u4)

/-- The annotations of a class: where those of the class are, and of its fields, methods and
parameters as many as three counts tell. -/
def annotationDirectory : Reader Unit := do
  let counts ← Reader.item 16 fun c => [numberAt c 4 4, numberAt c 8 4, numberAt c 12 4]
  counts.forM (Reader.pass (Reader.item 8 fun _ => ()))

/-- Takes the places of the flags of classes up to a position, and gives how many sets of flags
follow: the first place that tells of any is that of the first set, which is right behind the last
place. No set is needed for a place of zero, but one is there. -/
def flagPlaces (stop : Nat) (sets : Int) (seen : Nat) : Nat → Reader Int
  | 0 => pure sets
  | fuel + 1 => do
    if (← get).position < stop && (sets = 0 || seen < sets) then
      let place ← Reader.u4
      let sets := if sets = 0 && place ≠ 0 then ((place / 4 : Nat) : Int) - 1 else sets
      flagPlaces stop sets (seen + 1) fuel
    else pure sets

/-- A restriction of the use of a member, in three bits, below a group of interfaces. -/
def hiddenFlag : Reader Unit := do
  let flags ← Reader.leb128
  if flags % 8 = 7 then throw (.restriction 7)
  if flags / 8 > 2 then throw (.interfaceGroup (flags / 8))

/-- The flags of hidden members, in a section of a given size. -/
def hiddenFlags : Reader Unit := do
  let { octets, position } ← get
  let size ← Reader.u4
  let sets ← flagPlaces (position + size) 0 0 octets.size
  Reader.pass hiddenFlag sets.toNat

end Item

end JndiScan.Dalvik

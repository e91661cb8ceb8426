/-
The types of items in a Dalvik file. Items refer to each other through the tables of the file, so
the tables are read in an order in which what an item needs comes before it.
-/
import JndiScan.Text.Basic

namespace JndiScan.Dalvik

/-- What the map of a file tells the place of. -/
inductive ItemType
  | header
  | stringId
  | typeId
  | prototypeId
  | fieldId
  | methodId
  | classDefinition
  | callSite
  | methodHandle
  | map
  | typeList
  | annotationSetRefs
  | annotationSet
  | classData
  | code
  | stringData
  | debugInfo
  | annotationData
  | encodedArray
  | annotationDirectory
  | hiddenFlags
  deriving DecidableEq, Repr

namespace ItemType

/-- All types, in the order in which their items are read. -/
def inReadingOrder : List ItemType :=
  [header, map, stringData, stringId, typeId, fieldId, typeList, prototypeId, methodId,
    methodHandle, callSite, classData, debugInfo, code, annotationData, annotationSet,
    annotationSetRefs, encodedArray, annotationDirectory, classDefinition, hiddenFlags]

/-- The position in the reading order. -/
def rank (t : ItemType) : Nat := inReadingOrder.idxOf t

/-- The number that stands for a type. -/
def number : ItemType → Nat
  | header => 0x0
  | stringId => 0x1
  | typeId => 0x2
  | prototypeId => 0x3
  | fieldId => 0x4
  | methodId => 0x5
  | classDefinition => 0x6
  | callSite => 0x7
  | methodHandle => 0x8
  | map => 0x1000
  | typeList => 0x1001
  | annotationSetRefs => 0x1002
  | annotationSet => 0x1003
  | classData => 0x2000
  | code => 0x2001
  | stringData => 0x2002
  | debugInfo => 0x2003
  | annotationData => 0x2004
  | encodedArray => 0x2005
  | annotationDirectory => 0x2006
  | hiddenFlags => 0xF000

/-- The type that a number stands for. -/
def ofNumber? (n : Nat) : Option ItemType := inReadingOrder.find? (·.number = n)

/-- The name of a type. -/
def label : ItemType → Text
  | header => "HEADER_ITEM"
  | stringId => "STRING_ID_ITEM"
  | typeId => "TYPE_ID_ITEM"
  | prototypeId => "PROTO_ID_ITEM"
  | fieldId => "FIELD_ID_ITEM"
  | methodId => "METHOD_ID_ITEM"
  | classDefinition => "CLASS_DEF_ITEM"
  | callSite => "CALL_SITE_ITEM"
  | methodHandle => "METHOD_HANDLE_ITEM"
  | map => "MAP_LIST"
  | typeList => "TYPE_LIST"
  | annotationSetRefs => "ANNOTATION_SET_REF_LIST"
  | annotationSet => "ANNOTATION_SET_ITEM"
  | classData => "CLASS_DATA_ITEM"
  | code => "CODE_ITEM"
  | stringData => "STRING_DATA_ITEM"
  | debugInfo => "DEBUG_INFO_ITEM"
  | annotationData => "ANNOTATION_ITEM"
  | encodedArray => "ENCODED_ARRAY_ITEM"
  | annotationDirectory => "ANNOTATIONS_DIRECTORY_ITEM"
  | hiddenFlags => "HIDDENAPI_CLASS_DATA_ITEM"

/-- Do items of the type start at even positions, or at multiples of four? -/
def isAligned : ItemType → Bool
  | header | typeId | prototypeId | fieldId | methodId | classDefinition | typeList
  | annotationSetRefs | annotationSet | code | annotationDirectory => true
  | _ => false

/-- Where the first item is looked for if the map tells a place. -/
def start (t : ItemType) (place : Nat) : Nat :=
  if t.isAligned then place + place % 4 else place

end ItemType

end JndiScan.Dalvik

/-
What may be wrong with a Dalvik file.
-/
import JndiScan.Dalvik.ItemType
import JndiScan.Text.Quoted

namespace JndiScan.Dalvik

/-- Why octets are no Dalvik file. -/
inductive Fault
  | headerTooSmall
  | swapped
  | endianTag (tag : Nat)
  | magic (found : List UInt8)
  | checksum
  | headerSize (size : Nat)
  | tooManyTypes (count : Nat)
  | tooManyPrototypes (count : Nat)
  /-- There is no map, through which everything is found. -/
  | noMap
  | itemType (type : Nat)
  /-- An item of `size` octets goes beyond the end. -/
  | short (size : Nat)
  /-- Something refers to items of a type of which there are none. -/
  | noItems (type : ItemType)
  /-- No list of types starts at the place. -/
  | noTypeList (place : Nat)
  /-- A method refers to a prototype that is not there. -/
  | noPrototype
  /-- A class with members refers to values that are not there. -/
  | noValues
  /-- A restriction of the use of a member that there is not. -/
  | restriction (number : Nat)
  /-- A group of interfaces for a member that there is not. -/
  | interfaceGroup (number : Nat)
  /-- What a reader other than this one says. -/
  | other (message : Text)
  deriving DecidableEq, Repr

/-- The wording of a fault. -/
def Fault.message : Fault → Text
  | headerTooSmall => "Not a DEX file, Header too small."
  | swapped => "Byte swapped endian tag encountered!"
  | endianTag tag => "This is not a DEX file! Wrong endian tag: '0x" ++ Text.hex 8 tag ++ "'"
  | magic found => "This is not a DEX file! Wrong magic: " ++ Text.quotedOctets found
  | checksum => "Wrong Adler32 checksum for DEX file!"
  | headerSize size => "This is not a DEX file! Wrong header size: '" ++ .ofNat size ++ "'"
  | tooManyTypes count =>
    "DEX file contains too many (" ++ .ofNat count ++ ") TYPE_IDs to be valid!"
  | tooManyPrototypes count =>
    "DEX file contains too many (" ++ .ofNat count ++ ") PROTO_IDs to be valid!"
  | noMap => "'DEX' object has no attribute 'classes'"
  | itemType type => .ofNat type ++ " is not a valid TypeMapItem"
  | short size => "unpack requires a buffer of " ++ .ofNat size ++ " bytes"
  | noItems type => "<TypeMapItem." ++ type.label ++ ": " ++ .ofNat type.number ++ ">"
  | noTypeList place => .ofNat place
  | noPrototype => "'ProtoIdItemInvalid' object has no attribute 'get_parameters_off_value'"
  | noValues => "'NoneType' object has no attribute 'get_value'"
  | restriction number =>
    .ofNat number ++ " is not a valid HiddenApiClassDataItem.RestrictionApiFlag"
  | interfaceGroup number =>
    .ofNat number ++ " is not a valid HiddenApiClassDataItem.DomapiApiFlag"
  | other message => message

end JndiScan.Dalvik

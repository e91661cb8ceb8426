/-
Strings of Dalvik files. Octets that are UTF-8 read as such, unless the octet ED is among them, with
which halves of surrogate pairs begin. All others read as the modified form, in which halves of
surrogate pairs take three octets each and the code point zero takes two; here the octets after the
first one of a code point are not checked, and an octet that starts nothing stands for the code
point of its number. Octets that end within a code point have no text.
-/
import JndiScan.Bytes
import JndiScan.Text.Quoted
import JndiScan.Text.Utf8

namespace JndiScan.Dalvik

namespace ModifiedUtf8

/-- The code point of two octets. -/
def pair (b0 b1 : UInt8) : CodePoint := .ofNat (b0.toNat % 32 * 64 + Text.Utf8.low6 b1)

/-- The code point of three octets. -/
def triple (b0 b1 b2 : UInt8) : CodePoint :=
  .ofNat (b0.toNat % 16 * 4096 + Text.Utf8.low6 b1 * 64 + Text.Utf8.low6 b2)

/-- The code point of a high and a low half of a surrogate pair. -/
def joined (high low : CodePoint) : CodePoint :=
  .ofNat (0x10000 + high.val % 1024 * 1024 + low.val % 1024)

/-- Do three octets in a row, of which these are the first two, form a high half? -/
def startsHigh (b0 b1 : UInt8) : Bool := b0 == 0xED && b1 &&& 0xF0 == 0xA0

/-- Do three octets in a row, of which these are the first two, form a low half? -/
def startsLow (b0 b1 : UInt8) : Bool := b0 == 0xED && b1 &&& 0xF0 == 0xB0

/-- Reads octets; `done` holds what was read before, last first. -/
def decodeFrom (done : Text) : Bytes → Option Text
  | [] => some done.reverse
  | b0 :: r0 =>
    if b0 &&& 0xE0 = 0xC0 then
      match r0 with
      | [] => none
      | b1 :: r1 => decodeFrom (pair b0 b1 :: done) r1
    else if b0 &&& 0xF0 = 0xE0 then
      match r0 with
      | b1 :: b2 :: b3 :: b4 :: b5 :: r5 =>
        if startsHigh b0 b1 && startsLow b3 b4 then
          decodeFrom (joined (triple b0 b1 b2) (triple b3 b4 b5) :: done) r5
        else decodeFrom (triple b0 b1 b2 :: done) (b3 :: b4 :: b5 :: r5)
      | b1 :: b2 :: r2 => decodeFrom (triple b0 b1 b2 :: done) r2
      | _ => none
    else decodeFrom (CodePoint.ofOctet b0 :: done) r0

end ModifiedUtf8

/-- The text of a string, or one that says that there is none. -/
def stringText (octets : Bytes) : Text :=
  let plain : Option Text :=
    if octets.contains 0xED then none else (Text.ofUtf8 .strict octets).toOption
  (plain <|> ModifiedUtf8.decodeFrom [] octets).getD
    ("ANDROGUARD[INVALID_STRING] " ++ Text.quotedOctets octets)

end JndiScan.Dalvik

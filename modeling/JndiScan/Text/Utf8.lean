/-
UTF-8. Reading gives the text or the first fault, with the octets that it covers: a fault is
reported at the first octet that cannot start or continue a code point. The lenient form also
takes the three octets that a half of a surrogate pair would have; writing produces that form.
-/
import JndiScan.Text.Basic

namespace JndiScan.Text

namespace Utf8

/-- Why octets are not UTF-8. -/
inductive Reason
  | invalidStart
  | invalidContinuation
  | unexpectedEnd
  deriving DecidableEq, Repr

/-- The wording of a reason. -/
def Reason.message : Reason → Text
  | .invalidStart => "invalid start byte"
  | .invalidContinuation => "invalid continuation byte"
  | .unexpectedEnd => "unexpected end of data"

/-- A fault covers `length` octets from `position` on, the first of which is `octet`. -/
structure Fault where
  octet : UInt8
  position : Nat
  length : Nat
  reason : Reason
  deriving DecidableEq, Repr

/-- What is said of a fault. -/
def Fault.message (f : Fault) : Text :=
  let place : Text :=
    if f.length = 1 then
      "byte 0x" ++ hex 2 f.octet.toNat ++ " in position " ++ ofNat f.position
    else
      "bytes in position " ++ ofNat f.position ++ "-" ++ ofNat (f.position + f.length - 1)
  "'utf-8' codec can't decode " ++ place ++ ": " ++ f.reason.message

/-- Are halves of surrogate pairs taken? -/
inductive Mode
  | strict
  | lenient
  deriving DecidableEq, Repr

/-- An octet that continues a code point. -/
def isContinuation (b : UInt8) : Bool := 0x80 ≤ b && b ≤ 0xBF

/-- The second octets that may follow the first octet of three or four. -/
def isSecond (mode : Mode) (b0 b1 : UInt8) : Bool :=
  isContinuation b1
    && !(b0 == 0xE0 && b1 < 0xA0)
    && !(b0 == 0xED && b1 ≥ 0xA0 && mode == .strict)
    && !(b0 == 0xF0 && b1 < 0x90)
    && !(b0 == 0xF4 && b1 ≥ 0x90)

/-- The six payload bits of a continuing octet. -/
def low6 (b : UInt8) : Nat := b.toNat % 64

/-- Reads octets from `position` on; `done` holds what was read before, last first. A half of a
surrogate pair that is cut off is faulted at its first octet, as it is in the strict form. -/
def decodeFrom (mode : Mode) (done : Text) (position : Nat) : List UInt8 → Except Fault Text
  | [] => .ok done.reverse
  | b0 :: r0 =>
    if b0 < 0x80 then decodeFrom mode (CodePoint.ofOctet b0 :: done) (position + 1) r0
    else if b0 < 0xC2 then .error ⟨b0, position, 1, .invalidStart⟩
    else if b0 < 0xE0 then
      match r0 with
      | [] => .error ⟨b0, position, 1, .unexpectedEnd⟩
      | b1 :: r1 =>
        if isContinuation b1 then
          let c := CodePoint.ofNat (b0.toNat % 32 * 64 + low6 b1)
          decodeFrom mode (c :: done) (position + 2) r1
        else .error ⟨b0, position, 1, .invalidContinuation⟩
    else if b0 < 0xF0 then
      match r0 with
      | [] => .error ⟨b0, position, 1, .unexpectedEnd⟩
      | b1 :: r1 =>
        if isSecond mode b0 b1 then
          match r1 with
          | [] =>
            if isSecond .strict b0 b1 then .error ⟨b0, position, 2, .unexpectedEnd⟩
            else .error ⟨b0, position, 1, .invalidContinuation⟩
          | b2 :: r2 =>
            if isContinuation b2 then
              let c := CodePoint.ofNat (b0.toNat % 16 * 4096 + low6 b1 * 64 + low6 b2)
              decodeFrom mode (c :: done) (position + 3) r2
            else if isSecond .strict b0 b1 then
              .error ⟨b0, position, 2, .invalidContinuation⟩
            else .error ⟨b0, position, 1, .invalidContinuation⟩
        else .error ⟨b0, position, 1, .invalidContinuation⟩
    else if b0 < 0xF5 then
      match r0 with
      | [] => .error ⟨b0, position, 1, .unexpectedEnd⟩
      | b1 :: r1 =>
        if isSecond mode b0 b1 then
          match r1 with
          | [] => .error ⟨b0, position, 2, .unexpectedEnd⟩
          | b2 :: r2 =>
            if isContinuation b2 then
              match r2 with
              | [] => .error ⟨b0, position, 3, .unexpectedEnd⟩
              | b3 :: r3 =>
                if isContinuation b3 then
                  let c := CodePoint.ofNat
                    (b0.toNat % 8 * 262144 + low6 b1 * 4096 + low6 b2 * 64 + low6 b3)
                  decodeFrom mode (c :: done) (position + 4) r3
                else .error ⟨b0, position, 3, .invalidContinuation⟩
            else .error ⟨b0, position, 2, .invalidContinuation⟩
        else .error ⟨b0, position, 1, .invalidContinuation⟩
    else .error ⟨b0, position, 1, .invalidStart⟩

/-- The octets of one code point. -/
def encodeOne (c : CodePoint) : List UInt8 :=
  let n := c.val
  if n < 0x80 then [n.toUInt8]
  else if n < 0x800 then [(0xC0 + n / 64).toUInt8, (0x80 + n % 64).toUInt8]
  else if n < 0x10000 then
    [(0xE0 + n / 4096).toUInt8, (0x80 + n / 64 % 64).toUInt8, (0x80 + n % 64).toUInt8]
  else
    [(0xF0 + n / 262144).toUInt8, (0x80 + n / 4096 % 64).toUInt8, (0x80 + n / 64 % 64).toUInt8,
      (0x80 + n % 64).toUInt8]

end Utf8

/-- The text that octets encode. -/
def ofUtf8 (mode : Utf8.Mode) (bs : List UInt8) : Except Utf8.Fault Text :=
  Utf8.decodeFrom mode [] 0 bs

/-- The octets of a text; halves of surrogate pairs take three octets each. -/
def toUtf8 (t : Text) : List UInt8 := t.flatMap Utf8.encodeOne

end JndiScan.Text

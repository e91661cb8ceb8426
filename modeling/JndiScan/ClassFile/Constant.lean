/-
Text constants of class files. A constant is the UTF-8 form of its text, with halves of surrogate
pairs allowed and the code point zero written as the two octets C0 80. Reading also takes a plain
zero octet.
-/
import JndiScan.Bytes
import JndiScan.Text.Utf8

namespace JndiScan.ClassFile

/-- Every pair of octets C0 80 replaced by a zero octet. -/
def plainZeros : Bytes → Bytes
  | [] => []
  | [b] => [b]
  | b :: c :: rest =>
    if b = 0xC0 ∧ c = 0x80 then 0 :: plainZeros rest else b :: plainZeros (c :: rest)

/-- Every zero octet replaced by the pair C0 80. -/
def pairedZeros (bs : Bytes) : Bytes := bs.flatMap fun b => if b = 0 then [0xC0, 0x80] else [b]

/-- The text of a constant. -/
def constantText (raw : Bytes) : Except Text.Utf8.Fault Text :=
  Text.ofUtf8 .lenient (plainZeros raw)

/-- The octets of a constant. -/
def constantOctets (t : Text) : Bytes := pairedZeros t.toUtf8

end JndiScan.ClassFile

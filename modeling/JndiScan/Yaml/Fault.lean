/-
Why octets are no YAML document. Almost everything is told as malformed, without more words; a
few kinds of scalars have faults of their own, which only come to light when their values are
needed.
-/
import JndiScan.Rules.Stamp
import JndiScan.Text.Quoted
import JndiScan.Text.Utf8

namespace JndiScan.Yaml

/-- A part of a day or of a calendar that is out of its range. -/
inductive CalendarFault
  | year
  | month
  | day
  | hour
  | minute
  | second
  deriving DecidableEq, Repr

/-- The wording of a calendar fault. -/
def CalendarFault.message : CalendarFault → Text
  | year => "year 0 is out of range"
  | month => "month must be in 1..12"
  | day => "day is out of range for month"
  | hour => "hour must be in 0..23"
  | minute => "minute must be in 0..59"
  | second => "second must be in 0..59"

/-- A fault of a document. -/
inductive Fault
  | malformed
  | encoding (fault : Text.Utf8.Fault)
  /-- An escape names a number that no code point has; `huge` ones do not fit 31 bits. -/
  | codePoint (huge : Bool)
  | emptyNumber
  | integer (base : Nat) (t : Text)
  | longInteger (digits : Nat)
  | real (t : Text)
  /-- A group of sixty has a weight that is too large for a number with a fraction. -/
  | largeUnit
  | truth (t : Text)
  | instant
  /-- A timestamp is no scalar itself. -/
  | instantParts
  /-- A node stands for itself. -/
  | bottomless
  | calendar (fault : CalendarFault)
  | zone (seconds : Int)
  deriving DecidableEq, Repr

namespace Fault

/-- The wording of a fault; malformed documents have none that is told. -/
def message : Fault → Text
  | malformed => "<yaml>"
  | encoding fault => fault.message
  | codePoint false => "chr() arg not in range(0x110000)"
  | codePoint true => "Python int too large to convert to C int"
  | emptyNumber => "string index out of range"
  | integer base t =>
    "invalid literal for int() with base " ++ .ofNat base ++ ": " ++ t.quoted.take 200
  | longInteger digits =>
    "Exceeds the limit (4300 digits) for integer string conversion: value has " ++ .ofNat digits
      ++ " digits; use sys.set_int_max_str_digits() to increase the limit"
  | real t => "could not convert string to float: " ++ t.quoted
  | largeUnit => "int too large to convert to float"
  | truth t => t.quoted
  | instantParts => "expected string or bytes-like object, got 'list'"
  | bottomless => "maximum recursion depth exceeded"
  | instant => "'NoneType' object has no attribute 'groupdict'"
  | calendar fault => fault.message
  | zone seconds =>
    "offset must be a timedelta strictly between -timedelta(hours=24) and timedelta(hours=24), not "
      ++ Instant.spanQuoted seconds ++ "."

end Fault

end JndiScan.Yaml

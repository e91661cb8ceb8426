/-
A stream as the text of a document. It is handed on in pieces, so that a fault in a later piece only
comes to light when that piece is needed.
-/
import JndiScan.Text.Stream
import JndiScan.Yaml.Fault

namespace JndiScan.Yaml

/-- A text, and the fault that comes to light when more than the text is needed; without a fault the
text is all there is. -/
structure Source where
  text : Text
  stop : Option Fault := none

namespace Source

/-! ## Text -/

/-- May a code point be part of a document? -/
def isAllowed (c : CodePoint) : Bool :=
  let n := c.val
  n == 0x09 || n == 0x0A || n == 0x0D || (0x20 ≤ n && n ≤ 0x7E) || n == 0x85
    || (0xA0 ≤ n && n ≤ 0xD7FF) || (0xE000 ≤ n && n ≤ 0xFFFD) || 0x10000 ≤ n

/-! ## Pieces -/

/-- The number of code points that are handed on at a time. -/
def pieceLength : Nat := 4096

/-- How much of a text is handed on when only `n` code points of it are in order. The first two
pieces are handed on together. -/
def handedOn (n : Nat) : Nat := if n < 2 * pieceLength then 0 else n / pieceLength * pieceLength

/-- The source in a stream. -/
def ofStream (s : Text.Stream) : Source :=
  let allowed := s.text.takeWhile isAllowed
  let bad := decide (allowed.length < s.text.length)
  match s.stop with
  | some fault =>
    if bad && handedOn allowed.length < handedOn s.text.length then
      { text := s.text.take (handedOn allowed.length), stop := some .malformed }
    else { text := s.text.take (handedOn s.text.length), stop := some (.encoding fault) }
  | none =>
    if bad then { text := s.text.take (handedOn allowed.length), stop := some .malformed }
    else { text := s.text }

end Source

end JndiScan.Yaml

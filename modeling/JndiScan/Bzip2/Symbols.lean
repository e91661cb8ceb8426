/-
The symbols of a block. They are written in prefix codes; for each fifty symbols a selector tells
which of the codes of the block is used.
-/
import JndiScan.Bzip2.Bits
import JndiScan.PrefixCode

namespace JndiScan.Bzip2

/-! ## Prefix codes -/

/-- The largest length of a codeword. -/
def maxLength : Nat := 20

namespace Expand

/-- Reads a codeword. That there is none is told one bit after the longest possible one. -/
def symbol (c : PrefixCode) : Expand Nat := c.read bit corrupt (maxLength + 1)

/-- The length of a codeword, told by steps from the one before. Each step takes two bits. -/
def lengthFrom (length : Nat) : Nat → Expand Nat
  | 0 => throw .starved
  | fuel + 1 => do
    if length < 1 || maxLength < length then corrupt
    else if (← bit) = 0 then pure length
    else if (← bit) = 0 then lengthFrom (length + 1) fuel
    else lengthFrom (length - 1) fuel

/-- Reads `n` lengths, each told from the one before. -/
def lengthsFrom (length : Nat) : Nat → Expand (List Nat)
  | 0 => pure []
  | n + 1 => do
    let length ← lengthFrom length ((← get).bitCount + 1)
    pure (length :: (← lengthsFrom length n))

/-- Reads `count` codes of `n` symbols. -/
def codes (n : Nat) : Nat → Expand (List PrefixCode)
  | 0 => pure []
  | count + 1 => do
    let code := PrefixCode.ofLengths maxLength (← lengthsFrom (← bits 5) n)
    pure (code :: (← codes n count))

end Expand

/-! ## Selectors -/

/-- Moves the element at a position to the front. -/
def toFront (xs : List α) (i : Nat) : List α := (xs[i]?).toList ++ xs.eraseIdx i

/-- The number of ones before a zero, after those in `count`; at most `n` more may come. -/
def onesFrom (count : Nat) : Nat → Expand Nat
  | 0 => Expand.corrupt
  | n + 1 => do
    if (← Expand.bit) = 0 then pure count else onesFrom (count + 1) n

/-- Reads `n` selectors, of which each tells how recently its code was selected. -/
def ranks (codeCount : Nat) : Nat → Expand (List Nat)
  | 0 => pure []
  | n + 1 => do
    let rank ← onesFrom 0 codeCount
    pure (rank :: (← ranks codeCount n))

/-- What selectors select, the last selected ones first in `order`. -/
def selected : List α → List Nat → List α
  | _, [] => []
  | order, rank :: ranks =>
    let order := toFront order rank
    order.head?.toList ++ selected order ranks

/-- The number of selectors that count. -/
def maxSelectors : Nat := 18002

/-! ## Symbols -/

/-- The number of symbols for each selector. -/
def groupSize : Nat := 50

/-- The code in use, the number of symbols it is used for, and the codes after it. -/
structure Coding where
  code : PrefixCode := .ofLengths maxLength []
  left : Nat := 0
  more : List PrefixCode

/-- The next symbol. -/
def Coding.symbol (c : Coding) : Expand (Nat × Coding) :=
  if c.left = 0 then
    match c.more with
    | [] => Expand.corrupt
    | code :: more => do pure (← Expand.symbol code, { code, left := groupSize - 1, more })
  else do pure (← Expand.symbol c.code, { c with left := c.left - 1 })

/-- Reads how the symbols of a block are written, when there are `n` of them. -/
def readCoding (n : Nat) : Expand Coding := do
  let codeCount ← Expand.bits 3
  if codeCount < 2 || 6 < codeCount then Expand.corrupt
  else
    let selectorCount ← Expand.bits 15
    if selectorCount = 0 then Expand.corrupt
    else
      let ranks ← ranks codeCount selectorCount
      let codes ← Expand.codes n codeCount
      pure { more := selected codes (ranks.take maxSelectors) }

end JndiScan.Bzip2

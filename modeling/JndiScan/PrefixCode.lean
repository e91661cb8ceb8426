/-
Prefix codes given by the lengths of their codewords. Codewords of one length are consecutive
numbers in the order of their symbols, and shorter ones come first.
-/
namespace JndiScan

/-- A prefix code: how many codewords each length has, and the symbols in the order of their
codewords. -/
structure PrefixCode where
  counts : Array Nat
  symbols : Array Nat

namespace PrefixCode

/-- The symbols with codewords of one length. -/
def symbolsOfLength (lengths : List Nat) (length : Nat) : List Nat :=
  (lengths.zipIdx.filter fun (l, _) => l = length).map (·.2)

/-- The code with given lengths, none of which is above `longest`; length zero means no
codeword. -/
def ofLengths (longest : Nat) (lengths : List Nat) : PrefixCode :=
  let groups := (List.range (longest + 1)).map fun l =>
    if l = 0 then [] else symbolsOfLength lengths l
  { counts := (groups.map List.length).toArray, symbols := groups.flatten.toArray }

/-- The codewords that could be added, in units of the longest ones; nothing when there are too
many already. -/
def room? (c : PrefixCode) : Option Nat :=
  (c.counts.toList.drop 1).foldl (fun left? n =>
    match left? with
    | some left => if 2 * left < n then none else some (2 * left - n)
    | none => none) (some 1)

/-- The length of the longest codeword, zero when there is none. -/
def longest (c : PrefixCode) : Nat :=
  ((c.counts.toList.zipIdx.filter fun (n, l) => n ≠ 0 && l ≠ 0).map (·.2)).foldl max 0

/-- Does no codeword start with another one, and is every bit sequence used? A code without
codewords, or with a single one of one bit, is taken too when it is `partly` enough. -/
def isUsable (c : PrefixCode) (partly : Bool) : Bool :=
  match c.room? with
  | none => false
  | some 0 => true
  | some _ => c.longest = 0 || (partly && c.longest = 1)

/-- Reads on in a codeword: `code` is its value so far, `first` the first codeword of its length
and `index` the number of shorter codewords. That no codeword starts so is told after the last
bit. -/
@[specialize]
def symbolFrom [Monad m] (bit fail : m Nat) (c : PrefixCode) (length code first index : Nat) :
    Nat → m Nat
  | 0 => fail
  | more + 1 => do
    let code := 2 * code + (← bit)
    let count := c.counts.getD length 0
    if code < first + count then pure (c.symbols.getD (index + (code - first)) 0)
    else symbolFrom bit fail c (length + 1) code (2 * (first + count)) (index + count) more

/-- Reads a codeword, of which at most `n` bits are looked at. -/
@[specialize]
def read [Monad m] (bit fail : m Nat) (c : PrefixCode) (n : Nat) : m Nat :=
  symbolFrom bit fail c 1 0 0 0 n

end PrefixCode

end JndiScan

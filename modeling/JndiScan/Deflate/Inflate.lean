/-
Decompression of raw deflated data: blocks that are stored, or coded with the fixed codes or with
codes of their own, up to the last one. Data that end before that give what they hold.
-/
import JndiScan.Bytes
import JndiScan.Deflate.Bits
import JndiScan.PrefixCode
import JndiScan.Text.Basic

namespace JndiScan.Deflate

/-- The wording of a fault. -/
def Fault.message : Fault → Text
  | blockType => "invalid block type"
  | storedLengths => "invalid stored block lengths"
  | tooManySymbols => "too many length or distance symbols"
  | codeLengthCodes => "invalid code lengths set"
  | lengthRepeat => "invalid bit length repeat"
  | noEndOfBlock => "invalid code -- missing end-of-block"
  | literalCodes => "invalid literal/lengths set"
  | distanceCodes => "invalid distances set"
  | literalCode => "invalid literal/length code"
  | distanceCode => "invalid distance code"
  | distanceTooFar => "invalid distance too far back"

/-! ## The codes -/

/-- The base of each length symbol and the number of its extra bits. -/
def lengthSymbols : Array (Nat × Nat) := #[
  (3, 0), (4, 0), (5, 0), (6, 0), (7, 0), (8, 0), (9, 0), (10, 0), (11, 1), (13, 1), (15, 1),
  (17, 1), (19, 2), (23, 2), (27, 2), (31, 2), (35, 3), (43, 3), (51, 3), (59, 3), (67, 4),
  (83, 4), (99, 4), (115, 4), (131, 5), (163, 5), (195, 5), (227, 5), (258, 0)]

/-- The base of each distance symbol and the number of its extra bits. -/
def distanceSymbols : Array (Nat × Nat) := #[
  (1, 0), (2, 0), (3, 0), (4, 0), (5, 1), (7, 1), (9, 2), (13, 2), (17, 3), (25, 3), (33, 4),
  (49, 4), (65, 5), (97, 5), (129, 6), (193, 6), (257, 7), (385, 7), (513, 8), (769, 8),
  (1025, 9), (1537, 9), (2049, 10), (3073, 10), (4097, 11), (6145, 11), (8193, 12), (12289, 12),
  (16385, 13), (24577, 13)]

/-- The order in which the lengths of the code for code lengths are given. -/
def lengthOrder : List Nat := [16, 17, 18, 0, 8, 7, 9, 6, 10, 5, 11, 4, 12, 3, 13, 2, 14, 1, 15]

/-- The largest length of a codeword. -/
def maxLength : Nat := 15

/-- Reads a codeword. A bit sequence that no codeword starts with is a fault; of a code without
codewords one bit is read. -/
def Inflate.symbol (c : PrefixCode) (fault : Fault) : Inflate Nat :=
  c.read bit (fail fault) (max 1 c.longest)

/-- The code of literals and lengths, and the code of distances. -/
structure BlockCodes where
  literals : PrefixCode
  distances : PrefixCode

/-- The codes of blocks that bring none of their own. -/
def fixedCodes : BlockCodes :=
  { literals := .ofLengths maxLength (List.replicate 144 8 ++ List.replicate 112 9
      ++ List.replicate 24 7 ++ List.replicate 8 8)
    distances := .ofLengths maxLength (List.replicate 32 5) }

/-- A symbol of the code for code lengths; a code without codewords reads as length zero. -/
def lengthSymbol (c : PrefixCode) : Inflate Nat :=
  if c.longest = 0 then do
    let _ ← Inflate.bit
    pure 0
  else Inflate.symbol c .codeLengthCodes

/-- Reads code lengths until there are `total`, after those in `done`, which are held last first.
Each symbol gives at least one. -/
def codeLengthsFrom (c : PrefixCode) (total : Nat) (done : List Nat) : Nat → Inflate (List Nat)
  | 0 => pure done.reverse
  | fuel + 1 =>
    if total ≤ done.length then pure done.reverse
    else do
      let s ← lengthSymbol c
      if s < 16 then codeLengthsFrom c total (s :: done) fuel
      else
        let (value, count) ←
          if s = 16 then
            let extra ← Inflate.bits 2
            match done with
            | [] => Inflate.fail .lengthRepeat
            | previous :: _ => pure (previous, 3 + extra)
          else if s = 17 then do pure (0, 3 + (← Inflate.bits 3))
          else do pure (0, 11 + (← Inflate.bits 7))
        if total < done.length + count then Inflate.fail .lengthRepeat
        else codeLengthsFrom c total (List.replicate count value ++ done) fuel

/-- Reads `n` lengths of the code for code lengths. -/
def lengthsOfLengths (done : List Nat) : Nat → Inflate (List Nat)
  | 0 => pure done.reverse
  | n + 1 => do lengthsOfLengths ((← Inflate.bits 3) :: done) n

/-- The codes that a block brings. -/
def ownCodes : Inflate BlockCodes := do
  let header ← Inflate.bits 14
  let literalCount := header % 32 + 257
  let distanceCount := header / 32 % 32 + 1
  let lengthCount := header / 1024 + 4
  if literalCount > 286 || distanceCount > 30 then Inflate.fail .tooManySymbols
  else
    let given := lengthOrder.zip (← lengthsOfLengths [] lengthCount)
    let lengthCode := PrefixCode.ofLengths maxLength
      ((List.range 19).map fun i => (given.lookup i).getD 0)
    if !lengthCode.isUsable false then Inflate.fail .codeLengthCodes
    else
      let total := literalCount + distanceCount
      let lengths ← codeLengthsFrom lengthCode total [] total
      if lengths.getD 256 0 = 0 then Inflate.fail .noEndOfBlock
      else
        let literals := PrefixCode.ofLengths maxLength (lengths.take literalCount)
        if !literals.isUsable true then Inflate.fail .literalCodes
        else
          let distances := PrefixCode.ofLengths maxLength (lengths.drop literalCount)
          if !distances.isUsable true then Inflate.fail .distanceCodes
          else pure { literals, distances }

/-! ## The blocks -/

/-- Repeats octets from `distance` back. -/
def copy (distance : Nat) : Nat → Inflate Unit
  | 0 => pure ()
  | n + 1 => do
    modify fun s =>
      let octet := s.output.get! (s.output.size - distance)
      { s with output := s.output.push octet }
    copy distance n

/-- Reads a length that a symbol starts and the distance after it, and repeats what they tell. -/
def copyOf (codes : BlockCodes) (symbol : Nat) : Inflate Unit := do
  match lengthSymbols[symbol - 257]? with
  | none => Inflate.fail .literalCode
  | some (lengthBase, lengthExtra) =>
    let length := lengthBase + (← Inflate.bits lengthExtra)
    match distanceSymbols[(← Inflate.symbol codes.distances .distanceCode)]? with
    | none => Inflate.fail .distanceCode
    | some (distanceBase, distanceExtra) =>
      let distance := distanceBase + (← Inflate.bits distanceExtra)
      if distance > (← get).output.size then Inflate.fail .distanceTooFar
      else copy distance length

/-- The symbols of a coded block up to its end. Each takes at least one bit. -/
def codedBlock (codes : BlockCodes) : Nat → Inflate Unit
  | 0 => throw .starved
  | fuel + 1 => do
    let symbol ← Inflate.symbol codes.literals .literalCode
    if symbol < 256 then
      Inflate.emit symbol.toUInt8
      codedBlock codes fuel
    else if symbol = 256 then pure ()
    else
      copyOf codes symbol
      codedBlock codes fuel

/-- The octets of a stored block, as many as there are. -/
def storedOctets : Nat → Inflate Unit
  | 0 => pure ()
  | n + 1 => do
    Inflate.emit (← Inflate.bits 8).toUInt8
    storedOctets n

/-- A stored block. -/
def storedBlock : Inflate Unit := do
  Inflate.align
  let lengths ← Inflate.bits 32
  if lengths % 65536 + lengths / 65536 ≠ 65535 then Inflate.fail .storedLengths
  else storedOctets (lengths % 65536)

/-- Blocks up to the last one. Each takes at least three bits. -/
def blocks (bitCount : Nat) : Nat → Inflate Unit
  | 0 => throw .starved
  | fuel + 1 => do
    let last ← Inflate.bit
    let kind ← Inflate.bits 2
    if kind = 0 then storedBlock
    else if kind = 1 then codedBlock fixedCodes (bitCount + 1)
    else if kind = 2 then do codedBlock (← ownCodes) (bitCount + 1)
    else Inflate.fail .blockType
    if last = 1 then pure () else blocks bitCount fuel

/-- What a decompression gave, and whether the end of the data was reached. -/
structure Inflated where
  output : ByteArray
  complete : Bool

/-- Decompresses data. -/
def inflate (input : ByteArray) : Except Fault Inflated :=
  let bitCount := 8 * input.size
  match blocks bitCount (bitCount + 1) { input } with
  | .ok _ s => .ok { output := s.output, complete := true }
  | .error .starved s => .ok { output := s.output, complete := false }
  | .error (.faulty fault) _ => .error fault

end JndiScan.Deflate

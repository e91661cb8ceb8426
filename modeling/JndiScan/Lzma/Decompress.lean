/-
Decompression of LZMA data: octets, and repetitions of what came before, from a distance of their
own or one of the last four. Data may end with a mark, or where there are no more octets.
-/
import JndiScan.Bytes
import JndiScan.Lzma.RangeCoder

namespace JndiScan.Lzma

/-- What is told before the data: how many bits of an octet before and of the position choose the
kinds of bits, and how far back a distance may lead. -/
structure Properties where
  contextBits : Nat
  literalPositionBits : Nat
  positionBits : Nat
  reach : Nat

/-- The properties in five octets. -/
def Properties.ofBytes (bs : Bytes) : Except Fault Properties :=
  let packed := bs.fieldLE 0 1
  let contextBits := packed % 9
  let literalPositionBits := packed / 9 % 5
  if bs.length ≠ 5 || 225 ≤ packed || 4 < contextBits + literalPositionBits then .error .options
  else
    .ok { contextBits, literalPositionBits, positionBits := packed / 45
          reach := (max 4096 (bs.fieldLE 1 4) + 15) / 16 * 16 }

/-! ## The kinds of bits -/

/-- The number of things that may have come last. -/
def stages : Nat := 12

/-- Where the kinds for whether something is repeated start. -/
def matchKinds : Nat := 0

/-- Where the kinds for whether a distance is one of the last start. -/
def repeatKinds : Nat := matchKinds + 16 * stages

/-- Where the kinds for whether it is the last one start, and those for the two after it. -/
def whichKinds (i : Nat) : Nat := repeatKinds + stages * (i + 1)

/-- Where the kinds for whether one octet is repeated start. -/
def longKinds : Nat := whichKinds 3

/-- Where the kinds for the magnitudes of distances start. -/
def slotKinds : Nat := longKinds + 16 * stages

/-- Where the kinds for the lower bits of small distances start. -/
def nearKinds : Nat := slotKinds + 4 * 64

/-- Where the kinds for the lowest bits of other distances start. -/
def lowKinds : Nat := nearKinds + 115

/-- Where the kinds for lengths start. -/
def lengthKinds : Nat := lowKinds + 16

/-- The number of kinds for lengths. -/
def lengthKindCount : Nat := 2 + 2 * 128 + 256

/-- Where the kinds for lengths at a distance that is one of the last start. -/
def repeatLengthKinds : Nat := lengthKinds + lengthKindCount

/-- Where the kinds for octets start. -/
def octetKinds : Nat := repeatLengthKinds + lengthKindCount

/-- How likely bits are at first: all are as likely zero as one. -/
def initialOdds (p : Properties) : Array UInt32 :=
  Array.replicate (octetKinds + 768 * Nat.pow 2 (p.contextBits + p.literalPositionBits)) 1024

/-! ## Octets and repetitions -/

/-- What came last, told by a stage, and the last four distances, the last one first. -/
structure History where
  stage : Nat := 0
  last : Nat := 0
  second : Nat := 0
  third : Nat := 0
  fourth : Nat := 0

namespace History

/-- The stage after an octet. -/
def afterOctet (h : History) : History :=
  { h with
    stage := if h.stage < 4 then 0 else if h.stage < 10 then h.stage - 3 else h.stage - 6 }

/-- The stage after a repetition, which tells whether an octet came before it. -/
def afterRepetition (h : History) (afterOctet afterOther : Nat) : History :=
  { h with stage := if h.stage < 7 then afterOctet else afterOther }

end History

namespace Decompress

/-- The octet at a distance back. -/
def octetBack (distance : Nat) : Decompress UInt8 := do
  let output := (← get).output
  pure (output.get! (output.size - 1 - distance))

/-- Produces an octet. -/
def emit (b : UInt8) : Decompress Unit := modify fun s => { s with output := s.output.push b }

/-- Repeats `n` octets from a distance back. -/
def copy (distance : Nat) : Nat → Decompress Unit
  | 0 => pure ()
  | n + 1 => do
    emit (← octetBack distance)
    copy distance n

/-- Does a distance lead to an octet that is still held? -/
def reaches (p : Properties) (distance : Nat) : Decompress Bool := do
  pure (distance < min (← get).output.size p.reach)

/-- The bits of an octet that is read beside one at the last distance, as long as both agree. -/
def octetBeside (kind node beside : Nat) : Nat → Decompress Nat
  | 0 => pure node
  | n + 1 => do
    let hint := beside / Nat.pow 2 n % 2
    let b ← bit (kind + 256 * (1 + hint) + node)
    if b = hint then octetBeside kind (2 * node + b) beside n
    else treeFrom kind (2 * node + b) n

/-- An octet. -/
def octet (p : Properties) (h : History) : Decompress History := do
  let position := (← get).output.size
  let before ← if position = 0 then pure 0 else do pure (← octetBack 0).toNat
  let kind := octetKinds + 768 *
    (position % Nat.pow 2 p.literalPositionBits * Nat.pow 2 p.contextBits
      + before / Nat.pow 2 (8 - p.contextBits))
  let node ←
    if h.stage < 7 then treeFrom kind 1 8
    else do octetBeside kind 1 (← octetBack h.last).toNat 8
  emit (node - 256).toUInt8
  pure h.afterOctet

/-- The length of a repetition, by kinds that start at a number. -/
def length (kind place : Nat) : Decompress Nat := do
  if (← bit kind) = 0 then pure (2 + (← tree (kind + 2 + 8 * place) 3))
  else if (← bit (kind + 1)) = 0 then pure (10 + (← tree (kind + 130 + 8 * place) 3))
  else pure (18 + (← tree (kind + 258) 8))

/-- The distance of a repetition of a length. -/
def distance (length : Nat) : Decompress Nat := do
  let slot ← tree (slotKinds + 64 * min (length - 2) 3) 6
  if slot < 4 then pure slot
  else
    let lower := slot / 2 - 1
    let base := (2 + slot % 2) * Nat.pow 2 lower
    if slot < 14 then pure (base + (← reverseTree (nearKinds + base - slot) lower))
    else
      let middle ← plainFrom 0 (lower - 4)
      pure (base + middle * 16 + (← reverseTree lowKinds 4))

/-- The distance that marks the end of the data. -/
def endDistance : Nat := 0xFFFFFFFF

/-- A repetition at a distance of its own, or nothing at the end of the data. -/
def repetition (p : Properties) (h : History) (place : Nat) : Decompress (Option History) := do
  let n ← length lengthKinds place
  let d ← distance n
  if d = endDistance then
    normalize
    if (← get).code = 0 then pure none else corrupt
  else if !(← reaches p d) then corrupt
  else
    copy d n
    let h : History := { h with last := d, second := h.last, third := h.second, fourth := h.third }
    pure (some (h.afterRepetition 7 10))

/-- The last distances with one of them in front. -/
def recalled (h : History) : Decompress History := do
  if (← bit (whichKinds 1 + h.stage)) = 0 then pure { h with last := h.second, second := h.last }
  else if (← bit (whichKinds 2 + h.stage)) = 0 then
    pure { h with last := h.third, second := h.last, third := h.second }
  else pure { h with last := h.fourth, second := h.last, third := h.second, fourth := h.third }

/-- A repetition of a length of its own, at the last distance. -/
def repetitionAtLast (h : History) (place : Nat) : Decompress History := do
  copy h.last (← length repeatLengthKinds place)
  pure (h.afterRepetition 8 11)

/-- A repetition at one of the last distances. -/
def repetitionAgain (p : Properties) (h : History) (place : Nat) : Decompress History := do
  if !(← reaches p 0) then corrupt
  else if (← bit (whichKinds 0 + h.stage)) = 1 then repetitionAtLast (← recalled h) place
  else if (← bit (longKinds + 16 * h.stage + place)) = 1 then repetitionAtLast h place
  else
    copy h.last 1
    pure (h.afterRepetition 9 11)

/-- What comes next, or nothing at the end of the data. -/
def symbol (p : Properties) (h : History) : Decompress (Option History) := do
  let place := (← get).output.size % Nat.pow 2 p.positionBits
  if (← bit (matchKinds + 16 * h.stage + place)) = 0 then pure (some (← octet p h))
  else if (← bit (repeatKinds + h.stage)) = 0 then repetition p h place
  else pure (some (← repetitionAgain p h place))

/-- All that comes up to the end of the data. -/
def symbols (p : Properties) (h : History) : Nat → Decompress Unit
  | 0 => throw .starved
  | fuel + 1 => do
    match ← symbol p h with
    | some h => symbols p h fuel
    | none => pure ()

/-- The octets before the data. The first is zero. -/
def start : Decompress Unit := do
  takeOctet
  if (← get).code ≠ 0 then corrupt
  else
    takeOctet
    takeOctet
    takeOctet
    takeOctet

/-- The data. Between two octets of the input fewer than 400 bits are read. -/
def whole (p : Properties) : Decompress Unit := do
  start
  symbols p {} (400 * ((← get).input.size + 1))

end Decompress

/-- What data unpack to under certain properties, and whether they reach their end. -/
def decompress (properties data : Bytes) : Except Fault (Bytes × Bool) := do
  let p ← Properties.ofBytes properties
  match Decompress.whole p { input := ByteArray.mk data.toArray, odds := initialOdds p } with
  | .ok _ s => pure (s.output.toList, true)
  | .error .starved s => pure (s.output.toList, false)
  | .error (.faulty fault) _ => throw fault

end JndiScan.Lzma

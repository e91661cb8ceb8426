/-
The octets of a block. They are sorted by what follows them; runs are shortened before and after
the sorting, and each octet is told by how recently it came.
-/
import JndiScan.Bytes
import JndiScan.Bzip2.Symbols

namespace JndiScan.Bzip2

/-- Octets with `n` more of one kind. -/
def pushMany (bs : ByteArray) (b : UInt8) : Nat → ByteArray
  | 0 => bs
  | n + 1 => pushMany (bs.push b) b n

/-! ## The sorted block -/

/-- The weight that the digits of a run must stay below. -/
def maxWeight : Nat := 2097152

/-- The sorted octets, after those in `block`. The symbols 0 and 1 are the digits of the length of
a run of the octet in front, `run` is its length so far and `weight` what the next digit counts;
other symbols tell octets by their place in `recent`. -/
def sortedFrom (last capacity : Nat) (coding : Coding) (recent : List UInt8) (run weight : Nat)
    (block : ByteArray) : Nat → Expand ByteArray
  | 0 => throw .starved
  | fuel + 1 => do
    let (symbol, coding) ← coding.symbol
    if symbol < 2 then
      if maxWeight ≤ weight then Expand.corrupt
      else
        sortedFrom last capacity coding recent (run + (symbol + 1) * weight) (2 * weight) block fuel
    else if capacity < block.size + run then Expand.corrupt
    else
      let block := pushMany block (recent.headD 0) run
      if symbol = last then pure block
      else if capacity ≤ block.size then Expand.corrupt
      else
        let recent := toFront recent (symbol - 1)
        sortedFrom last capacity coding recent 0 1 (block.push (recent.headD 0)) fuel

/-- The octets that a block uses, of those in sixteen ranges of sixteen. -/
def usedOctets (first : Nat) : List Bool → Expand (List UInt8)
  | [] => pure []
  | false :: ranges => usedOctets (first + 16) ranges
  | true :: ranges => do
    let used ← Expand.flags 16
    let octets := (used.zipIdx.filter (·.1)).map fun (_, i) => (first + i).toUInt8
    pure (octets ++ (← usedOctets (first + 16) ranges))

/-- Reads a sorted block. -/
def readSorted (capacity : Nat) : Expand ByteArray := do
  let recent ← usedOctets 0 (← Expand.flags 16)
  if recent.isEmpty then Expand.corrupt
  else
    let coding ← readCoding (recent.length + 2)
    sortedFrom (recent.length + 1) capacity coding recent 0 1 .empty ((← get).bitCount + 1)

/-! ## Undoing the sorting -/

/-- How often each octet comes. -/
def counts (block : ByteArray) : Array Nat :=
  block.size.fold (fun i _ counts => counts.modify (block.get! i).toNat (· + 1))
    (Array.replicate 256 0)

/-- Where each octet starts among the octets in their order. -/
def starts (counts : Array Nat) : Array Nat :=
  (counts.foldl (fun (starts, n) count => (starts.push n, n + count)) (#[], 0)).1

/-- For each octet in the order of all, where it stands in the sorted block. -/
def places (block : ByteArray) : Array Nat :=
  (block.size.fold (fun i _ (places, starts) =>
    let b := (block.get! i).toNat
    (places.setIfInBounds (starts.getD b 0) i, starts.modify b (· + 1)))
    (Array.replicate block.size 0, starts (counts block))).1

/-- `n` octets from a place of a sorted block on. -/
def unsortedFrom (block : ByteArray) (places : Array Nat) (place : Nat) (done : ByteArray) :
    Nat → ByteArray
  | 0 => done
  | n + 1 =>
    unsortedFrom block places (places.getD place 0) (done.push (block.get! place)) n

/-- The octets of a block before the sorting, with one more than there are. -/
def unsorted (block : ByteArray) (origin : Nat) : ByteArray :=
  let places := places block
  unsortedFrom block places (places.getD origin 0) .empty (block.size + 1)

/-! ## Scrambled blocks -/

/-- The distances of the octets that a scrambled block changes. -/
def scrambleDistances : Array Nat := #[
  619, 720, 127, 481, 931, 816, 813, 233, 566, 247, 985, 724, 205, 454, 863, 491, 741, 242, 949,
  214, 733, 859, 335, 708, 621, 574, 73, 654, 730, 472, 419, 436, 278, 496, 867, 210, 399, 680, 480,
  51, 878, 465, 811, 169, 869, 675, 611, 697, 867, 561, 862, 687, 507, 283, 482, 129, 807, 591, 733,
  623, 150, 238, 59, 379, 684, 877, 625, 169, 643, 105, 170, 607, 520, 932, 727, 476, 693, 425, 174,
  647, 73, 122, 335, 530, 442, 853, 695, 249, 445, 515, 909, 545, 703, 919, 874, 474, 882, 500, 594,
  612, 641, 801, 220, 162, 819, 984, 589, 513, 495, 799, 161, 604, 958, 533, 221, 400, 386, 867,
  600, 782, 382, 596, 414, 171, 516, 375, 682, 485, 911, 276, 98, 553, 163, 354, 666, 933, 424, 341,
  533, 870, 227, 730, 475, 186, 263, 647, 537, 686, 600, 224, 469, 68, 770, 919, 190, 373, 294, 822,
  808, 206, 184, 943, 795, 384, 383, 461, 404, 758, 839, 887, 715, 67, 618, 276, 204, 918, 873, 777,
  604, 560, 951, 160, 578, 722, 79, 804, 96, 409, 713, 940, 652, 934, 970, 447, 318, 353, 859, 672,
  112, 785, 645, 863, 803, 350, 139, 93, 354, 99, 820, 908, 609, 772, 154, 274, 580, 184, 79, 626,
  630, 742, 653, 282, 762, 623, 680, 81, 927, 626, 789, 125, 411, 521, 938, 300, 821, 78, 343, 175,
  128, 250, 170, 774, 972, 275, 999, 639, 495, 78, 352, 126, 857, 956, 358, 619, 580, 124, 737, 594,
  701, 612, 669, 112, 134, 694, 363, 992, 809, 743, 168, 974, 944, 375, 748, 52, 600, 747, 642, 182,
  862, 81, 344, 805, 988, 739, 511, 655, 814, 334, 249, 515, 897, 955, 664, 981, 649, 113, 974, 459,
  893, 228, 433, 837, 553, 268, 926, 240, 102, 654, 459, 51, 686, 754, 806, 760, 493, 403, 415, 394,
  687, 700, 946, 670, 656, 610, 738, 392, 760, 799, 887, 653, 978, 321, 576, 617, 626, 502, 894,
  679, 243, 440, 680, 879, 194, 572, 640, 724, 926, 56, 204, 700, 707, 151, 457, 449, 797, 195, 791,
  558, 945, 679, 297, 59, 87, 824, 713, 663, 412, 693, 342, 606, 134, 108, 571, 364, 631, 212, 174,
  643, 304, 329, 343, 97, 430, 751, 497, 314, 983, 374, 822, 928, 140, 206, 73, 263, 980, 736, 876,
  478, 430, 305, 170, 514, 364, 692, 829, 82, 855, 953, 676, 246, 369, 970, 294, 750, 807, 827, 150,
  790, 288, 923, 804, 378, 215, 828, 592, 281, 565, 555, 710, 82, 896, 831, 547, 261, 524, 462, 293,
  465, 502, 56, 661, 821, 976, 991, 658, 869, 905, 758, 745, 193, 768, 550, 608, 933, 378, 286, 215,
  979, 792, 961, 61, 688, 793, 644, 986, 403, 106, 366, 905, 644, 372, 567, 466, 434, 645, 210, 389,
  550, 919, 135, 780, 773, 635, 389, 707, 100, 626, 958, 165, 504, 920, 176, 193, 713, 857, 265,
  203, 50, 668, 108, 645, 990, 626, 197, 510, 357, 358, 850, 858, 364, 936, 638]

/-- A block that is no longer scrambled: the lowest bit of some octets is changed back. -/
def unscramble (block : ByteArray) : ByteArray :=
  (block.size.fold (fun i _ (block, left, next) =>
    let (left, next) :=
      if left = 0 then (scrambleDistances.getD next 0, (next + 1) % scrambleDistances.size)
      else (left, next)
    (if left = 2 then block.set! i (block.get! i ^^^ 1) else block, left - 1, next))
    (block, 0, 0)).1

/-! ## Runs -/

/-- Octets with the runs in them written out, and whether they are sound. Four equal octets are
followed by the number of further ones; `after` is what follows the last octet, though a sound
block does not need it. `run` of the octets before are equal to `last`. -/
def writeOut (after last : UInt8) (run : Nat) (done : ByteArray) : List UInt8 → ByteArray × Bool
  | [] => if run = 4 then (pushMany done last after.toNat, false) else (done, true)
  | b :: bs =>
    if run = 4 then writeOut after last 0 (pushMany done last b.toNat) bs
    else if run ≠ 0 && b = last then writeOut after last (run + 1) (done.push b) bs
    else writeOut after b 1 (done.push b) bs

/-- The octets that a sorted block stands for, and whether they are sound. -/
def contentOf (block : ByteArray) (origin : Nat) (scrambled : Bool) : ByteArray × Bool :=
  let octets := unsorted block origin
  let octets := if scrambled then unscramble octets else octets
  writeOut (octets.get! block.size) 0 0 .empty (octets.toList.take block.size)

end JndiScan.Bzip2

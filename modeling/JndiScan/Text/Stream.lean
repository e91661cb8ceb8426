/-
The text that octets give when they are read as a stream. They are decoded in blocks, so a fault
only comes to light with the block that it stands in.
-/
import JndiScan.Bytes
import JndiScan.Text.Utf8

namespace JndiScan.Text

/-- A text, and the fault that is raised when more than the text is read; without a fault the text
is all there is. -/
structure Stream where
  text : Text
  stop : Option Utf8.Fault := none

namespace Stream

/-- Line ends of all systems as line feeds. A line feed right after a return adds nothing. -/
def withLineFeeds (afterReturn : Bool) : Text → Text
  | [] => []
  | c :: rest =>
    if c.val = 0x0D then .ofChar '\n' :: withLineFeeds true rest
    else if c.val = 0x0A && afterReturn then withLineFeeds false rest
    else c :: withLineFeeds false rest

/-! ## Blocks -/

/-- The number of octets that are decoded at a time. -/
def blockLength : Nat := 8192

/-- May more octets follow those of a block in which the first fault is that one? They may if the
block ends within a code point, or within a half of a surrogate pair, whose fault then is told with
the next block. -/
def isCutOff (block : Bytes) (fault : Utf8.Fault) : Bool :=
  fault.reason = .unexpectedEnd
    || (fault.octet == 0xED && fault.position + 2 = block.length
      && Utf8.isSecond .lenient fault.octet (block.getD (fault.position + 1) 0))

/-- The texts of blocks before a fault, last first, after those in `done`, and the fault. What is
cut off at the end of a block is `pending` until the next one, and the positions in a fault count
from the start of what is decoded together. -/
def decoded (done : List Text) (pending : Bytes) :
    (octets : Bytes) → List Text × Option Utf8.Fault
  | [] =>
    match ofUtf8 .strict pending with
    | .ok t => (t :: done, none)
    | .error fault => (done, some fault)
  | b :: rest =>
    let block := pending ++ b :: rest.take (blockLength - 1)
    let later := rest.drop (blockLength - 1)
    match ofUtf8 .strict block with
    | .ok t => decoded (t :: done) [] later
    | .error fault =>
      if isCutOff block fault then
        match ofUtf8 .strict (block.take fault.position) with
        | .ok t => decoded (t :: done) (block.drop fault.position) later
        | .error fault => (done, some fault)
      else (done, some fault)
  termination_by octets => octets.length
  decreasing_by all_goals simp only [List.length_drop, List.length_cons]; omega

/-- The stream of octets. A return at the end of what is decoded is not told apart yet from one
before a line feed, and does not count. -/
def ofOctets (octets : Bytes) : Stream :=
  let (blocks, stop) := decoded [] [] octets
  let raw : Text := blocks.reverse.flatten
  let cut := stop.isSome && raw.getLast? = some (.ofChar '\r')
  { text := withLineFeeds false (if cut then raw.dropLast else raw), stop }

end Stream

end JndiScan.Text

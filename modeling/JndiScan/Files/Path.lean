/-
Paths as texts. They are shown without superfluous slashes and dots. The names of a directory are
octets; as texts they are read as UTF-8, and a half of a surrogate pair from DC80 to DCFF stands for
an octet that is none. Other halves cannot be part of a path, and no more can a NUL. Two texts may
stand for the same octets, and then for one name.
-/
import JndiScan.Files.Fault
import JndiScan.Text.Utf8

namespace JndiScan.Path

/-- The slash. -/
def slash : CodePoint := .ofChar '/'

/-- Does a path start at the root? -/
def isAbsolute (p : Text) : Bool := p.head? = some slash

/-- The name of the directory itself. -/
def here : Text := "."

/-- The name of the directory above. -/
def above : Text := ".."

/-- The names of a path, without empty names and those of the directory itself. -/
def names (p : Text) : List Text :=
  (p.splitOn slash).filter fun n => !n.isEmpty && n ≠ here

/-- What a path starts with when it starts at the root: one slash, or two when there are exactly
two. -/
def rootOf (p : Text) : Text :=
  let slashes := (p.takeWhile (· = slash)).length
  if slashes = 0 then [] else if slashes = 2 then "//" else "/"

/-- A path as it is shown. -/
def shown (p : Text) : Text :=
  let t := rootOf p ++ Text.joinWith "/" (names p)
  if t.isEmpty then here else t

/-- A path below a directory; a path from the root is taken as it is. -/
def below (directory p : Text) : Text :=
  if isAbsolute p then shown p
  else if (names p).isEmpty then shown directory
  else if directory = here then shown p
  else
    let d := shown directory
    (if d.getLast? = some slash then d else d ++ "/") ++ Text.joinWith "/" (names p)

/-- The last name of a path. -/
def lastName (p : Text) : Text := (names p).getLast?.getD []

/-- The path of a list of names from the root. -/
def ofNames (ns : List Text) : Text := "/" ++ Text.joinWith "/" ns

/-- A half of a surrogate pair that stands for an octet. -/
def standsForOctet (c : CodePoint) : Bool := 0xDC80 ≤ c.val && c.val ≤ 0xDCFF

/-- The octets of a name. -/
def octets (t : Text) : List UInt8 :=
  t.flatMap fun c => if standsForOctet c then [c.val.toUInt8] else Text.Utf8.encodeOne c

/-- The number of octets of a name. -/
def octetLength (t : Text) : Nat := (octets t).length

/-- Are two texts one name of a directory? -/
def isSameName (a b : Text) : Bool := octets a == octets b

/-- The half of a surrogate pair that stands for an octet. -/
def standIn (b : UInt8) : CodePoint := .ofNat (0xDC00 + b.toNat)

/-- The text that octets are listed as. Where they are no UTF-8 they are told one by one; `fuel`
bounds the places where that happens. -/
def ofOctets (bs : List UInt8) : (fuel : Nat) → Text
  | 0 => bs.map standIn
  | fuel + 1 =>
    match Text.ofUtf8 .strict bs with
    | .ok t => t
    | .error fault =>
      let before := (Text.ofUtf8 .strict (bs.take fault.position)).toOption.getD []
      let rest := bs.drop fault.position
      before ++ (rest.take fault.length).map standIn ++ ofOctets (rest.drop fault.length) fuel

/-- The text that the system gives for a name, or for a path that it holds. -/
def listed (t : Text) : Text :=
  let bs := octets t
  ofOctets bs bs.length

/-- The most octets of a name. -/
def maxName : Nat := 255

/-- The most octets of a path. -/
def maxPath : Nat := 4095

/-- Can a text be part of a path? -/
def check (t : Text) : Except PathFault Unit :=
  if t.any fun c => c.isSurrogate && !standsForOctet c then .error .unencodable
  else if t.any fun c => c.val = 0 then .error .embeddedNull
  else .ok ()

end JndiScan.Path

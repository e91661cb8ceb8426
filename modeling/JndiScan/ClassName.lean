/-
Class names. One class is named with dots, with slashes, as a descriptor or as the name of its
file; the slash form stands for all of them. Names are compared from the end by whole segments, so
that a class is recognised after its package was moved below another one.
-/
import JndiScan.Text.Blank

namespace JndiScan.ClassName

/-- The text inside `L` and `;`, or the text itself when it is not enclosed so. -/
def unwrap (t : Text) : Text :=
  if t.startsWith "L" && t.endsWith ";" then (t.drop 1).dropLast else t

/-- The text without a final `.class`. -/
def dropFileEnding (t : Text) : Text :=
  if t.endsWith ".class" then t.take (t.length - 6) else t

/-- The slash form of a class name. -/
def slashForm (t : Text) : Text :=
  (dropFileEnding (unwrap t.trim)).replace (.ofChar '.') (.ofChar '/')

/-- Is `tail`, in slash form, a whole number of last segments of `name`? The empty name is the
tail of nothing. -/
def hasSuffix (name tail : Text) : Bool :=
  let name := slashForm name
  let tail := slashForm tail
  !tail.isEmpty && (name == tail || name.endsWith ("/" ++ tail))

/-- The number of opening brackets at the start of a descriptor, and what follows them. -/
def leadingDims : Text → Nat × Text
  | [] => (0, [])
  | c :: rest =>
    if c = .ofChar '[' then
      let (n, inner) := leadingDims rest
      (n + 1, inner)
    else (0, c :: rest)

/-- The number of bracket pairs at the end of a reversed dotted name, and what precedes them. -/
def trailingDims : Text → Nat × Text
  | [] => (0, [])
  | [c] => (0, [c])
  | c :: d :: rest =>
    if c = .ofChar ']' && d = .ofChar '[' then
      let (n, inner) := trailingDims rest
      (n + 1, inner)
    else (0, c :: d :: rest)

/-- The dotted name that a descriptor stands for, with a bracket pair for each array dimension;
the empty text stands for nothing. -/
def dotted? (t : Text) : Option Text :=
  if t.isEmpty then none
  else
    let (dims, inner) := leadingDims t
    let name := (unwrap inner).replace (.ofChar '/') (.ofChar '.')
    some (name ++ (List.replicate dims ("[]" : Text)).flatten)

/-- The descriptor of a dotted name; one that is a descriptor already stands for itself. -/
def descriptor? (t : Text) : Option Text :=
  if t.isEmpty then none
  else
    let (dims, back) := trailingDims t.reverse
    let name : Text := back.reverse
    if name.startsWith "L" && name.endsWith ";" then some t
    else
      let name : Text := name.replace (.ofChar '.') (.ofChar '/')
      some (Text.copies dims (.ofChar '[') ++ "L" ++ name ++ ";")

/-- A method descriptor as class files write it, without blanks between its parameters. -/
def compactDescriptor (t : Text) : Text := t.squeeze

end JndiScan.ClassName

/-
Wildcards over entry names. Two stars stand for any run of code points, one star for a run without
a slash, a question mark for one code point other than a slash, and all else for itself. A pattern
is cut from left to right, two stars first, and matches whole names only.
-/
import JndiScan.Text.Basic

namespace JndiScan

/-- One item of a pattern. -/
inductive Wildcard
  | anyRun
  | segmentRun
  | segmentOne
  | exact (c : CodePoint)
  deriving DecidableEq, Repr

namespace Wildcard

/-- The items of a pattern. -/
def ofText : Text → List Wildcard
  | [] => []
  | [c] =>
    if c = .ofChar '*' then [segmentRun] else if c = .ofChar '?' then [segmentOne] else [exact c]
  | c :: d :: rest =>
    if c = .ofChar '*' then
      if d = .ofChar '*' then anyRun :: ofText rest else segmentRun :: ofText (d :: rest)
    else if c = .ofChar '?' then segmentOne :: ofText (d :: rest)
    else exact c :: ofText (d :: rest)

/-- What can be left of a name after a run of code points that satisfy `p`. -/
def afterRun (p : CodePoint → Bool) : Text → List Text
  | [] => [[]]
  | c :: rest => (c :: rest) :: if p c then afterRun p rest else []

/-- What can be left of a name after the piece that one item stands for. -/
def after : Wildcard → Text → List Text
  | anyRun, name => afterRun (fun _ => true) name
  | segmentRun, name => afterRun (fun c => c != .ofChar '/') name
  | segmentOne, c :: rest => if c = .ofChar '/' then [] else [rest]
  | exact d, c :: rest => if c = d then [rest] else []
  | _, [] => []

/-- Do the items stand for the whole name? -/
def matchAll : List Wildcard → Text → Bool
  | [], name => name.isEmpty
  | w :: ws, name => (w.after name).any (matchAll ws)

end Wildcard

/-- Does a pattern match a name? -/
def Text.matchesPattern (name pattern : Text) : Bool :=
  Wildcard.matchAll (Wildcard.ofText pattern) name

end JndiScan

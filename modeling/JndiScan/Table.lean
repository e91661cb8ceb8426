/-
What the console shows of findings: a table with columns of limited width, and the verdict with the
places of the vulnerable classes.
-/
import JndiScan.Finding

namespace JndiScan

namespace Text

/-- The code points before an index; a negative index counts from the end. -/
def before (t : Text) (index : Int) : Text :=
  if 0 ≤ index then t.take index.toNat else t.take (t.length - index.natAbs)

/-- A text cut to a width, with three points in place of what is missing when there is room for
them. -/
def clip (t : Text) (width : Int) : Text :=
  if (t.length : Int) ≤ width then t
  else if width ≤ 3 then t.before width
  else t.before (width - 3) ++ "..."

end Text

namespace Table

/-- The headings of the columns. -/
def headings : List Text := ["SEV", "ID", "CLASS", "LOCATIONS"]

/-- The largest widths of the columns. -/
def maxWidths : List Nat := [8, 32, 80, 9]

/-- The cells of a finding. -/
def row (f : Finding) : List Text :=
  [f.severity.label, f.id, f.className, .ofNat f.locations.length]

/-- The width of each column: that of its widest cell, but not more than its largest width. -/
def widths (rows : List (List Text)) : List Nat :=
  let longest := rows.foldl (fun ws r => List.zipWith max ws (r.map List.length))
    (headings.map List.length)
  List.zipWith min longest maxWidths

/-- A line of cells, each cut or padded to its width. -/
def line (ws : List Nat) (cells : List Text) : Text :=
  Text.joinWith "  " (List.zipWith (fun (w : Nat) (t : Text) => (t.clip w).padRight w) ws cells)

/-- The lines of the table. -/
def lines (fs : List Finding) : List Text :=
  if fs.isEmpty then ["Findings: none"]
  else
    let rows := (Finding.sorted fs).map row
    let ws := widths rows
    let rule := Text.joinWith "  " (ws.map fun w => Text.copies w (.ofChar '-'))
    line ws headings :: rule :: rows.map (line ws)

end Table

namespace Finding

/-- The lines that tell the verdict, with a reference for further reading if there is one. -/
def verdictLines (fs : List Finding) (reference : Option Text) : List Text :=
  if !anyVulnerable fs then ["No vulnerable log4j found."]
  else
    let places : List Text := (vulnerableLocations fs).map fun p => "\t- " ++ p.text
    let more : List Text :=
      match reference with
      | some r => if r.isEmpty then [] else [[], "For more information see: " ++ r]
      | none => []
    let warning : Text := "WARNING: log4j < 2.15.0 vulnerable to CVE-2021-44228 found in:"
    warning :: places ++ more

end Finding

end JndiScan

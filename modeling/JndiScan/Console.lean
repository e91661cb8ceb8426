/-
What a run prints, line by line. Messages carry a mark of their kind; warnings are counted, and
details are printed only on request. The output is assumed to take every line: none is refused for
code points that the output has no octets for, and none is lost because the output was closed.
-/
import JndiScan.Text.Basic

namespace JndiScan

/-- The lines printed so far, the number of warnings among them, and whether details are wanted. -/
structure Console where
  verbose : Bool
  lines : Array Text := #[]
  warnings : Nat := 0
  deriving DecidableEq, Repr

namespace Console

/-- Prints a line. -/
def print (c : Console) (line : Text) : Console := { c with lines := c.lines.push line }

/-- Prints lines. -/
def printAll (c : Console) (lines : List Text) : Console := lines.foldl print c

/-- A message. -/
def info (c : Console) (message : Text) : Console := c.print ("[*] " ++ message)

/-- A message of success. -/
def success (c : Console) (message : Text) : Console := c.print ("[+] " ++ message)

/-- A warning. -/
def warn (c : Console) (message : Text) : Console :=
  { c with lines := c.lines.push ("[!] " ++ message), warnings := c.warnings + 1 }

/-- A detail. -/
def debug (c : Console) (message : Text) : Console :=
  if c.verbose then c.print ("[DBG] " ++ message) else c

/-- Everything printed: each line and a line end after it. -/
def text (c : Console) : Text := c.lines.toList.flatMap fun line => line ++ [.ofChar '\n']

end Console

end JndiScan

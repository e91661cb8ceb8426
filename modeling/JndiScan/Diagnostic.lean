/-
Diagnostics: what a scan keeps of the failures and limits that it met.
-/
import JndiScan.Text.Basic

namespace JndiScan

/-- Something that went wrong during a scan. A fatal one cost a whole branch. -/
structure Diagnostic where
  location : Text
  message : Text
  fatal : Bool := false
  deriving DecidableEq, Repr

end JndiScan

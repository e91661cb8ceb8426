/-
Limits of a scan. One may be asked for without saying what it is; the scan then goes as far as it
can without it.
-/

namespace JndiScan

/-- A limit. -/
inductive Limit
  | atMost (n : Int)
  /-- The limit was asked for and not said. -/
  | unsaid
  deriving DecidableEq, Repr

end JndiScan

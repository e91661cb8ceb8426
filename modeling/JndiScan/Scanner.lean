/-
Scanners: what looks at the pool of a run, tells on the console what it sees, and leaves findings
and figures. There is one, the check under the rules of the run.
-/
import JndiScan.Finding

namespace JndiScan

/-- The figures of one scanner. -/
structure ScannerStats where
  classes : Nat
  stage : Nat
  verdict : Verdict
  findings : Nat
  deriving DecidableEq, Repr

/-- What a scanner leaves. -/
structure ScannerResult where
  findings : List Finding
  stats : ScannerStats

/-- Why a scanner failed. -/
inductive ScannerError
  /-- The scanner has no way to run. -/
  | notImplemented
  | rules (error : Signature.EntryError)
  | other (message : Text)
  deriving Repr

/-- The wording of an error. -/
def ScannerError.message : ScannerError → Text
  | notImplemented => []
  | rules error => error.message
  | other message => message

/-- Work of a scanner, which may print. -/
abbrev ScannerWork := EStateM ScannerError Console

/-- A scanner. It is given the rules entry of the run, if the run holds one. -/
structure Scanner where
  name : Text := "base"
  run : Option Value → Pool → ScannerWork ScannerResult := fun _ _ => throw .notImplemented

namespace Scanner

/-- The check with a signature. -/
def check (s : Signature) (pool : Pool) : ScannerWork ScannerResult := do
  let result := pool.check s
  modify (·.debug ("check verdict=" ++ result.verdict.label ++ " stage=" ++ .ofNat result.stage
    ++ " lookups=" ++ .ofNat result.lookups.length ++ " managers="
    ++ .ofNat result.vulnerable.length))
  if result.verdict = .patched then modify (·.info Finding.patchedNote)
  let findings := Finding.ofCheck s result
  pure
    { findings
      stats := { classes := pool.size, stage := result.stage, verdict := result.verdict
                 findings := findings.length } }

/-- The scanner for lookups that load classes from afar. -/
def log4shell : Scanner where
  name := "log4shell"
  run entry pool :=
    match Signature.ofEntry (entry.getD .null) with
    | .ok s => check s pool
    | .error e => throw (.rules e)

end Scanner

end JndiScan

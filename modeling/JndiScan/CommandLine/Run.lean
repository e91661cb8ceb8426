/-
A run of the program: the arguments are read, the rules loaded, the target walked through, the
scanners run over the pool of what was found, and the outcome reported on the console and, if that
is asked for, in a file. When a scanner fails the report is written all the same, and no verdict is
given on the console.
-/
import JndiScan.CommandLine.Arguments
import JndiScan.Load
import JndiScan.Report
import JndiScan.Rules.Load
import JndiScan.Scanner
import JndiScan.Table

namespace JndiScan.CommandLine

/-- What a run depends on beside its arguments and the file system. -/
structure Environment where
  /-- The version of the reader of Dalvik files. -/
  dalvikVersion : Text
  /-- The moment of the run. -/
  timestamp : Text
  readYaml : Yaml.Reader := Yaml.read
  readDalvik : Dalvik.ClassReader := Dalvik.readClasses
  codecs : Zip.Codecs := {}
  scanners : List Scanner := [.log4shell]

/-- What breaks a run off. -/
inductive RunFault
  | rules (fault : Rules.LoadFault)
  | path (fault : PathFault)
  | scan (fault : Fault)
  deriving Repr

/-- The wording of a fault. -/
def RunFault.message : RunFault → Text
  | rules fault => fault.message
  | path fault => fault.message
  | scan fault => fault.message

/-- The state of a run: the console, the lines told apart from it as errors, and what the walk works
on. -/
structure RunState where
  console : Console := { verbose := false }
  errorLines : List Text := []
  session : Session

/-- A step of a run. -/
abbrev Run := EStateM RunFault RunState

namespace Run

/-- Prints on the console. -/
def tell (f : Console → Console) : Run Unit := modify fun s => { s with console := f s.console }

/-- A step that a path may break off. -/
def onPath (x : Except PathFault α) : Run α :=
  match x with
  | .ok a => pure a
  | .error fault => throw (.path fault)

/-! ## The steps -/

/-- The exit code of a run that did what it was asked for. -/
def success : Nat := 0

/-- The exit code of a run whose scanner failed. -/
def scannerFailed : Nat := 1

/-- The exit code of a run that could not begin. -/
def notBegun : Nat := 2

/-- A value that is given and not empty. -/
def given? (value : Option Text) : Option Text := value.filter fun t => !t.isEmpty

/-- The rules that are asked for, with their signature; nothing when they are wrong, which is
told. -/
def loadRules (env : Environment) (options : Options) : Run (Option (Rules × Signature)) := do
  let host := (← get).session.host
  let loaded : Except Rules.LoadFault (Rules × Signature) := do
    let rules ←
      match given? options.rules with
      | some path => Rules.load env.readYaml host [(Signature.rulesKey, path)]
      | none => Rules.loadBundled env.readYaml
    pure (rules, ← Rules.signature rules)
  match loaded with
  | .ok found => pure (some found)
  | .error (.rules error) => do
    tell (·.warn ("rules invalid error=" ++ error.message))
    pure none
  | .error fault => throw (.rules fault)

/-- The pool of a target, with what was met on the way. -/
def loadPool (env : Environment) (options : Options) (target : Text) : Run (Pool × Walk.Tally) := do
  let s ← get
  let decoding : Decoding :=
    { maxEntrySize := options.maxEntrySize, readDalvik := env.readDalvik, codecs := env.codecs }
  let r := Pool.load decoding options.limits target { console := s.console } s.session
  set { s with console := r.tally.console, session := r.world }
  match r.fault with
  | some fault => throw (.scan fault)
  | none => pure (r.value, r.tally)

/-- Runs a scanner. Its failure is told, and nothing is taken from it then. -/
def runScanner (entry : Option Value) (pool : Pool) (scanner : Scanner) :
    Run (Option (List Finding)) := do
  tell (·.debug ("scanner start name=" ++ scanner.name))
  match (scanner.run entry pool).run (← get).console with
  | .ok result console => do
    tell fun _ => console.debug ("scanner end name=" ++ scanner.name ++ " findings="
      ++ .ofNat result.findings.length)
    pure (some result.findings)
  | .error error console => do
    tell fun _ => console.warn ("scanner failed name=" ++ scanner.name ++ " error="
      ++ error.message)
    pure none

/-- The findings of the scanners, and the names of those that failed. -/
def runScanners (entry : Option Value) (pool : Pool) :
    List Scanner → Run (List Finding × List Text)
  | [] => pure ([], [])
  | scanner :: scanners => do
    let found ← runScanner entry pool scanner
    let (findings, failed) ← runScanners entry pool scanners
    match found with
    | some new => pure (new ++ findings, failed)
    | none => pure (findings, scanner.name :: failed)

/-- The number of findings of a severity. -/
def count (s : Severity) (findings : List Finding) : Nat :=
  ((Finding.severityCounts findings).lookup s).getD 0

/-- Tells the figures of a scan. -/
def tellFigures (pool : Pool) (tally : Walk.Tally) (findings : List Finding) : Run Unit := do
  tell fun c => c.info ("classes loaded=" ++ .ofNat pool.size ++ " entries="
    ++ .ofNat tally.entriesSeen ++ " diagnostics=" ++ .ofNat tally.diagnostics.size ++ " warnings="
    ++ .ofNat c.warnings)
  tell (·.info ("findings CRITICAL=" ++ .ofNat (count .critical findings) ++ " INFO="
    ++ .ofNat (count .info findings)))
  if tally.incomplete then
    tell (·.warn "a traversal limit was reached; the result may be incomplete")

/-- The report of a scan. -/
def report (env : Environment) (target : Text) (pool : Pool) (tally : Walk.Tally)
    (findings : List Finding) : Json :=
  Report.build
    { dalvikVersion := env.dalvikVersion, timestamp := env.timestamp, target
      classesScanned := pool.size, diagnostics := tally.diagnostics.toList
      incomplete := tally.incomplete } findings

/-- Writes the report where that is asked for. -/
def writeReport (options : Options) (report : Json) : Run Unit := do
  match given? options.out with
  | none => pure ()
  | some path => do
    let s ← get
    let host ← onPath (s.session.host.write path report.write.toUtf8)
    set { s with session := { s.session with host } }
    tell (·.success ("report json=" ++ path))

/-- Tells the findings and, unless a scanner failed, the verdict, and gives the exit code. -/
def conclude (signature : Signature) (findings : List Finding) (failed : List Text) : Run Nat := do
  tell (·.print [])
  tell (·.printAll (Table.lines findings))
  tell (·.print [])
  if failed.isEmpty then do
    tell (·.printAll (Finding.verdictLines findings signature.references.head?))
    pure success
  else do
    tell (·.warn ("no verdict; scanner failed name=" ++ Text.joinWith "," failed))
    pure scannerFailed

/-- Scans a target. -/
def scan (env : Environment) (options : Options) (rules : Rules) (signature : Signature)
    (target : Text) : Run Nat := do
  tell (·.info ("scanning path=" ++ target))
  let (pool, tally) ← loadPool env options target
  let entry := rules.lookup Signature.rulesKey
  let (findings, failed) ← runScanners entry pool env.scanners
  tellFigures pool tally findings
  writeReport options (report env target pool tally findings)
  conclude signature findings failed

/-- A run with its options. -/
def withOptions (env : Environment) (options : Options) : Run Nat := do
  match given? options.path with
  | none => do
    tell (·.print shortUsage)
    pure success
  | some path => do
    tell fun _ => { verbose := options.verbose }
    tell (·.info (Report.toolName ++ " v" ++ Report.toolVersion))
    match ← loadRules env options with
    | none => pure notBegun
    | some (rules, signature) =>
      let target := Path.shown path
      if ← onPath ((← get).session.host.exists? target) then
        scan env options rules signature target
      else do
        tell (·.warn ("path not found path=" ++ path))
        pure notBegun

/-- A run with its arguments. -/
def withArguments (env : Environment) (arguments : List Text) : Run Nat := do
  match Options.ofArguments arguments with
  | .ok options => withOptions env options
  | .error .help => do
    tell (·.printAll helpLines)
    pure success
  | .error (.wrong error) => do
    modify fun s => { s with errorLines := CommandLine.errorLines error }
    pure notBegun

end Run

/-- How a run ended: its exit code, or the fault that broke it off, and the state it left. -/
structure RunOutcome where
  code : Except RunFault Nat
  state : RunState

/-- A run of the program. -/
def run (env : Environment) (arguments : List Text) (session : Session) : RunOutcome :=
  match (Run.withArguments env arguments).run { session } with
  | .ok code state => { code := .ok code, state }
  | .error fault state => { code := .error fault, state }

end JndiScan.CommandLine

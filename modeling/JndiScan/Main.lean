/-
The program: its arguments, the disk and the clock are read, and what a run gives is printed and
written.
-/
import JndiScan.CommandLine.Run
import JndiScan.Disk
import JndiScan.Rules.Stamp
import Std.Time.DateTime.Timestamp

namespace JndiScan.CommandLine

/-- The present moment. -/
def now : IO Instant := do
  let nanoseconds := (← Std.Time.Timestamp.now).toNanosecondsSinceUnixEpoch.val
  let epoch := Day.number ⟨1970, 1, 1⟩ * 86400000000
  pure (.ofMicroseconds (epoch + (nanoseconds / 1000).toNat))

/-- What a run depends on here and now. -/
def environment : IO Environment := do
  pure { dalvikVersion := "4.1.4", timestamp := (← now).textWith "T" }

/-- The session of a run with these options: what its paths lead to is read from the disk. -/
def openSession (options : Options) : IO Session := do
  let host ← Disk.emptyHost
  let host ← options.path.toList.foldlM Disk.withTree host
  let host ← (options.rules.toList ++ options.out.toList).foldlM Disk.withPath host
  let scratch ← Disk.freePlace
  let host ← Disk.withPath host (Path.ofNames scratch.dropLast)
  pure { host, scratch }

/-- Prints texts line by line. -/
def printLines (output : IO.FS.Stream) (lines : List Text) : IO Unit := do
  let printed : Text := lines.flatMap fun line => line ++ [.ofChar '\n']
  output.write printed.toUtf8.toByteArray
  output.flush

/-- The exit code of a run that was broken off. -/
def brokenOff : UInt32 := 1

/-- Prints what a run said, and gives its exit code. -/
def tellOutcome (outcome : RunOutcome) : IO UInt32 := do
  printLines (← IO.getStdout) outcome.state.console.lines.toList
  printLines (← IO.getStderr) outcome.state.errorLines
  match outcome.code with
  | .ok code => pure code.toUInt32
  | .error fault => do
    printLines (← IO.getStderr) [fault.message]
    pure brokenOff

/-- A run of the program from its call to its exit code. -/
def start (arguments : List Text) : IO UInt32 := do
  let options := (Options.ofArguments arguments).toOption.getD {}
  let session ← openSession options
  let outcome := run (← environment) arguments session
  options.out.toList.forM (Disk.save session.host outcome.state.session.host)
  tellOutcome outcome

end JndiScan.CommandLine

/-- The program. -/
def main (arguments : List String) : IO UInt32 :=
  JndiScan.CommandLine.start (arguments.map JndiScan.Text.ofString)

/-
The options of the command line, and what is said about them.
-/
import JndiScan.Text.Quoted
import JndiScan.Walk.Limits

namespace JndiScan.CommandLine

/-- What a run is asked for. -/
structure Options where
  path : Option Text := none
  out : Option Text := none
  rules : Option Text := none
  limits : Walk.Limits := {}
  maxEntrySize : Limit := Walk.defaultEntrySize
  verbose : Bool := false
  deriving DecidableEq, Repr

/-- The options by what they set. -/
inductive Setting
  | help
  | out
  | rules
  | maxDepth
  | maxEntries
  | maxEntrySize
  | verbose
  deriving DecidableEq, Repr

namespace Setting

/-- The options in the order in which they are listed. -/
def all : List Setting := [help, out, rules, maxDepth, maxEntries, maxEntrySize, verbose]

/-- The word of an option. -/
def word : Setting → Text
  | help => "--help"
  | out => "--out"
  | rules => "--rules"
  | maxDepth => "--max-depth"
  | maxEntries => "--max-entries"
  | maxEntrySize => "--max-entry-size"
  | verbose => "--verbose"

/-- The letter of an option that has one. -/
def letter? : Setting → Option Text
  | help => some "-h"
  | _ => none

/-- All ways to write an option. -/
def words (s : Setting) : List Text := s.letter?.toList ++ [s.word]

/-- An option as messages name it. -/
def name (s : Setting) : Text := Text.joinWith "/" s.words

/-- Does a value follow the option? -/
def takesValue : Setting → Bool
  | help | verbose => false
  | _ => true

end Setting

/-- What is wrong with arguments. -/
inductive ArgumentError
  | ambiguous (argument : Text) (candidates : List Setting)
  | valueMissing (s : Setting)
  | valueIgnored (s : Setting) (value : Text)
  | notInteger (s : Setting) (value : Text)
  | unrecognized (arguments : List Text)
  deriving DecidableEq, Repr

namespace ArgumentError

/-- What is said of an option. -/
def about (s : Setting) (what : Text) : Text := "argument " ++ s.name ++ ": " ++ what

/-- The wording of an error. -/
def message : ArgumentError → Text
  | ambiguous argument candidates =>
    "ambiguous option: " ++ argument ++ " could match "
      ++ Text.joinWith ", " (candidates.map Setting.word)
  | valueMissing s => about s "expected one argument"
  | valueIgnored s value => about s ("ignored explicit argument " ++ value.quoted)
  | notInteger s value => about s ("invalid int value: " ++ value.quoted)
  | unrecognized arguments => "unrecognized arguments: " ++ Text.joinWith " " arguments

end ArgumentError

/-! ## Texts -/

/-- The name of the program. -/
def programName : Text := "l4sd"

/-- How the program is used, in lines. -/
def usageLines : List Text := [
  "usage: l4sd [-h] [--out OUT] [--rules RULES] [--max-depth MAX_DEPTH]",
  "            [--max-entries MAX_ENTRIES] [--max-entry-size MAX_ENTRY_SIZE]",
  "            [--verbose]",
  "            [path]"]

/-- What is shown on request. -/
def helpLines : List Text := usageLines ++ [
  [],
  "Detect log4j versions vulnerable to CVE-2021-44228 in class files, archives",
  "and Android packages",
  [],
  "positional arguments:",
  "  path                  File or directory to scan",
  [],
  "options:",
  "  -h, --help            show this help message and exit",
  "  --out OUT             JSON report output path",
  "  --rules RULES         Signature rules file (YAML)",
  "  --max-depth MAX_DEPTH",
  "                        Maximum container nesting depth",
  "  --max-entries MAX_ENTRIES",
  "                        Maximum number of entries visited",
  "  --max-entry-size MAX_ENTRY_SIZE",
  "                        Maximum uncompressed size in bytes of a nested entry",
  "  --verbose             Verbose output"]

/-- What is shown when there is nothing to scan. -/
def shortUsage : Text := "Usage: l4sd <jar-file|apk|class-file|directory>"

/-- What is shown of wrong arguments. -/
def errorLines (e : ArgumentError) : List Text :=
  usageLines ++ [programName ++ ": error: " ++ e.message]

end JndiScan.CommandLine

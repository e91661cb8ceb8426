/-
Reading the arguments of a run. Options may be abbreviated as long as only one is meant, a value
may follow an equals sign, and two dashes end the options. What looks like an option is told before
any option is taken.
-/
import JndiScan.CommandLine.Options
import JndiScan.Text.Digit

namespace JndiScan.CommandLine

/-- An argument by its looks. -/
inductive Argument
  | plain (t : Text)
  /-- The two dashes that end the options. -/
  | separator
  /-- An option, perhaps with a value in the same argument. -/
  | option (s : Setting) (value : Option Text)
  /-- The letter of an option, with what follows it in the same argument. -/
  | letter (s : Setting) (rest : Text)
  /-- What looks like an option and is none. -/
  | unknown (t : Text)
  deriving DecidableEq, Repr

namespace Argument

/-- The dash. -/
def dash : CodePoint := .ofChar '-'

/-- The dashes that end the options. -/
def separatorText : Text := "--"

/-- The option that is written in full. -/
def inFull? (t : Text) : Option Setting := Setting.all.find? fun s => s.words.contains t

/-- A text before and after its first equals sign, if it has one. -/
def splitEquals (t : Text) : Text × Option Text :=
  let before : Text := t.takeWhile (· ≠ .ofChar '=')
  match t.drop before.length with
  | [] => (before, none)
  | _ :: after => (before, some after)

/-- The options that a word may abbreviate. -/
def candidates (word : Text) : List Setting :=
  Setting.all.filter fun s => s.word.startsWith word

/-- Is an argument a negative number? A line end after it does not count. -/
def isNegativeNumber (t : Text) : Bool :=
  let isDigit (c : CodePoint) : Bool := (Text.digitValue? c).isSome
  let body : Text := t.drop 1
  let body : Text := if body.getLast? = some (.ofChar '\n') then body.dropLast else body
  match body.splitOn (.ofChar '.') with
  | [whole] => !whole.isEmpty && whole.all isDigit
  | [whole, fraction] => whole.all isDigit && !fraction.isEmpty && fraction.all isDigit
  | _ => false

/-- What an argument is that starts with a dash and is no option as it stands. -/
def unsure (t : Text) : Argument :=
  if isNegativeNumber t || t.contains (.ofChar ' ') then plain t else unknown t

/-- An argument with two dashes. -/
def ofLong (t : Text) : Except ArgumentError Argument :=
  let (word, value) := splitEquals t
  match candidates word with
  | [] => .ok (unsure t)
  | [s] => .ok (option s value)
  | several => .error (.ambiguous t several)

/-- The option of a letter. -/
def ofLetter? (c : CodePoint) : Option Setting :=
  Setting.all.find? fun s => s.letter? = some [dash, c]

/-- An argument with one dash, which may begin with the letter of an option. An equals sign after
the letter is skipped. -/
def ofShort (t : Text) : Argument :=
  match t with
  | _ :: c :: rest =>
    match ofLetter? c with
    | some s => letter s (if rest.head? = some (.ofChar '=') then rest.drop 1 else rest)
    | none => unsure t
  | _ => unsure t

/-- What an argument is. -/
def ofText (t : Text) : Except ArgumentError Argument :=
  if t.head? ≠ some dash then .ok (plain t)
  else
    match inFull? t with
    | some s => .ok (option s none)
    | none =>
      if t.length = 1 then .ok (plain t)
      else if !t.startsWith separatorText then .ok (ofShort t)
      else
        match splitEquals t with
        | (word, some value) =>
          match inFull? word with
          | some s => .ok (option s (some value))
          | none => ofLong t
        | _ => ofLong t

/-- What arguments are; after the separator they are plain. -/
def ofTexts : List Text → Except ArgumentError (List Argument)
  | [] => .ok []
  | t :: ts =>
    if t = separatorText then .ok (separator :: ts.map plain)
    else do
      let a ← ofText t
      pure (a :: (← ofTexts ts))

end Argument

/-! ## Taking arguments -/

/-- How reading arguments ends early. -/
inductive Stop
  | help
  | wrong (error : ArgumentError)
  deriving DecidableEq, Repr

/-- What was read of arguments: the options, whether the place of the path was passed, and the
arguments that nothing was made of. -/
structure Taken where
  options : Options := {}
  pathPassed : Bool := false
  extras : List Text := []

namespace Taken

/-- The integer that a value of an option writes. -/
def integer (s : Setting) (value : Text) : Except Stop Int :=
  match Text.intValue? value with
  | some n => .ok n
  | none => .error (.wrong (.notInteger s value))

/-- Does a value say nothing? Two dashes as a value do not. -/
def isUnsaid (value : Text) : Bool := value = Argument.separatorText

/-- The limit that a value of an option writes. -/
def limit (s : Setting) (value : Text) : Except Stop Limit :=
  if isUnsaid value then .ok .unsaid else (integer s value).map .atMost

/-- Takes an option with a value. -/
def setValue (taken : Taken) (s : Setting) (value : Text) : Except Stop Taken := do
  let o := taken.options
  let said := if isUnsaid value then none else some value
  let o ←
    match s with
    | .out => pure { o with out := said }
    | .rules => pure { o with rules := said }
    | .maxDepth => do pure { o with limits := { o.limits with maxDepth := ← limit s value } }
    | .maxEntries => do pure { o with limits := { o.limits with maxEntries := ← limit s value } }
    | .maxEntrySize => do pure { o with maxEntrySize := ← limit s value }
    | .help | .verbose => pure o
  pure { taken with options := o }

/-- Takes an option without a value. -/
def setFlag (taken : Taken) (s : Setting) : Except Stop Taken :=
  match s with
  | .help => .error .help
  | .verbose => .ok { taken with options := { taken.options with verbose := true } }
  | _ => .ok taken

/-- The options whose letters follow the letter of an option. -/
def letters (s : Setting) (rest : Text) : Except Stop (List Setting) :=
  match rest with
  | [] => .error (.wrong (.valueIgnored s rest))
  | c :: more =>
    match Argument.ofLetter? c with
    | none => .error (.wrong (.valueIgnored s rest))
    | some next => if more.isEmpty then .ok [next] else (letters next more).map (next :: ·)

/-- Takes options whose letters follow each other: all of them have to be in order before the first
one is taken. -/
def setLetters (taken : Taken) (s : Setting) (rest : Text) : Except Stop Taken := do
  (s :: (← letters s rest)).foldlM setFlag taken

/-- Takes an option with what its own argument says. -/
def setOption (taken : Taken) (s : Setting) (value : Text) : Except Stop Taken :=
  if s.takesValue then taken.setValue s value else .error (.wrong (.valueIgnored s value))

/-- The arguments from here on. Before each run of other arguments, or at the end, the place of the
path is passed once; it takes one argument and the separator beside it. -/
def takeAll (taken : Taken) : List Argument → Except Stop Taken
  | [] => .ok taken
  | .unknown t :: rest => takeAll { taken with extras := taken.extras ++ [t] } rest
  | .letter s letters :: rest => do takeAll (← taken.setLetters s letters) rest
  | .option s none :: rest =>
    if !s.takesValue then do takeAll (← taken.setFlag s) rest
    else
      match rest with
      | .plain t :: rest => do takeAll (← taken.setValue s t) rest
      | _ => .error (.wrong (.valueMissing s))
  | .option s (some value) :: rest => do takeAll (← taken.setOption s value) rest
  | .plain t :: rest =>
    if taken.pathPassed then takeAll { taken with extras := taken.extras ++ [t] } rest
    else
      let taken :=
        { taken with options := { taken.options with path := some t }, pathPassed := true }
      match rest with
      | .separator :: rest => takeAll taken rest
      | rest => takeAll taken rest
  | .separator :: rest =>
    if taken.pathPassed then
      takeAll { taken with extras := taken.extras ++ [Argument.separatorText] } rest
    else
      match rest with
      | .plain t :: rest =>
        takeAll { taken with options := { taken.options with path := some t }, pathPassed := true }
          rest
      | rest => takeAll { taken with pathPassed := true } rest

end Taken

/-- The options that arguments ask for. -/
def Options.ofArguments (ts : List Text) : Except Stop Options := do
  let arguments ← (Argument.ofTexts ts).mapError .wrong
  let taken ← ({} : Taken).takeAll arguments
  if taken.extras.isEmpty then pure taken.options else throw (.wrong (.unrecognized taken.extras))

end JndiScan.CommandLine

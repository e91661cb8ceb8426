/-
The tokens of a document. Nested blocks are told by indentation, and their starts and ends are
tokens of their own. Whether a node is the key of a mapping is only known when the colon after it
is met; a key token is then put before the node, and before that the start of the mapping if
there is none at that column.
-/
import JndiScan.Yaml.Property
import JndiScan.Yaml.ScalarText

namespace JndiScan.Yaml

/-- A token. -/
inductive Token
  | directive (d : Directive)
  | documentStart
  | documentEnd
  | blockSequenceStart
  | blockMappingStart
  | blockEnd
  | flowSequenceStart
  | flowSequenceEnd
  | flowMappingStart
  | flowMappingEnd
  | blockEntry
  | flowEntry
  | key
  | value
  | reference (name : Text)
  | anchor (name : Text)
  | tag (handle : Option Text) (suffix : Text)
  | scalar (plain : Bool) (t : Text)
  deriving DecidableEq, Repr

namespace Token

/-- A node that may turn out to be a key: the number of its first token and where it starts. One
that starts its block has to be a key. -/
structure PossibleKey where
  token : Nat
  required : Bool
  index : Nat
  line : Nat
  column : Nat

/-- The state of reading tokens. -/
structure State where
  cursor : Cursor
  tokens : Array Token := #[]
  /-- The number of brackets that are open. -/
  flowLevel : Nat := 0
  /-- The column of the innermost block, and those of the blocks around it. -/
  indent : Int := -1
  indents : List Int := []
  /-- May a key start here? -/
  allowKey : Bool := true
  /-- The possible keys by the numbers of open brackets. -/
  keys : List (Nat × PossibleKey) := []
  /-- The number of tokens that nothing further on can change. -/
  settled : Nat := 0

/-- A step of reading tokens. -/
abbrev Reader := EStateM Fault State

namespace Reader

/-- Reads at the cursor. -/
def scan (x : Scan α) : Reader α := fun s =>
  match x s.cursor with
  | .ok a cursor => .ok a { s with cursor }
  | .error fault cursor => .error fault { s with cursor }

/-- The document is malformed here. -/
def malformed : Reader α := throw .malformed

/-- Adds a token. -/
def emit (t : Token) : Reader Unit := modify fun s => { s with tokens := s.tokens.push t }

/-- Puts a token before the token of a number. -/
def insertAt (number : Nat) (t : Token) : Reader Unit :=
  modify fun s => { s with tokens := s.tokens.insertIdxIfInBounds number t }

/-- Says whether a key may start here. -/
def setAllowKey (b : Bool) : Reader Unit := modify fun s => { s with allowKey := b }

/-- Is no bracket open? -/
def inBlock : Reader Bool := return (← get).flowLevel == 0

/-! ## Possible keys -/

/-- The longest distance between a key and its colon. -/
def maxKeyLength : Nat := 1024

/-- Forgets the possible keys that end before this place: keys end in the line where they start.
A required one must not be forgotten. -/
def forgetStaleKeys : Reader Unit := do
  let s ← get
  let isStale (k : PossibleKey) : Bool :=
    k.line != s.cursor.line || s.cursor.index - k.index > maxKeyLength
  if s.keys.any fun k => isStale k.2 && k.2.required then malformed
  else set { s with keys := s.keys.filter fun k => !isStale k.2 }

/-- Forgets the possible key at this level. -/
def forgetKey : Reader Unit := do
  let s ← get
  if s.keys.any fun k => k.1 == s.flowLevel && k.2.required then malformed
  else set { s with keys := s.keys.filter fun k => k.1 != s.flowLevel }

/-- Notes that a key may start here. -/
def noteKey : Reader Unit := do
  if (← get).allowKey then do
    forgetKey
    modify fun s =>
      let k : PossibleKey :=
        { token := s.tokens.size
          required := s.flowLevel == 0 && s.indent == (s.cursor.column : Int)
          index := s.cursor.index, line := s.cursor.line, column := s.cursor.column }
      { s with keys := (s.flowLevel, k) :: s.keys }

/-! ## Blocks -/

/-- Ends the blocks that are indented more than a column. -/
def endBlocks (column : Int) : List Int → Reader Unit
  | [] => pure ()
  | outer :: indents => do
    let s ← get
    if s.indent > column then do
      set { s with indent := outer, indents, tokens := s.tokens.push .blockEnd }
      endBlocks column indents

/-- Ends the blocks that are indented more than a column, unless a bracket is open. -/
def unwind (column : Int) : Reader Unit := do
  if ← inBlock then endBlocks column (← get).indents

/-- Begins a block at a column, and tells whether there was none. -/
def indentTo (column : Nat) : Reader Bool := do
  let s ← get
  if s.indent < (column : Int) then do
    set { s with indent := (column : Int), indents := s.indent :: s.indents }
    pure true
  else pure false

/-- Begins a block at this column with a token, if there is none. Outside of brackets a new entry
may only come where a key may. -/
def beginEntry (t : Token) : Reader Unit := do
  let s ← get
  if s.flowLevel = 0 then
    if !s.allowKey then malformed
    else if ← indentTo s.cursor.column then emit t

/-! ## Tokens -/

/-- A token of `n` code points. -/
def sign (t : Token) (n : Nat := 1) : Reader Unit := do
  scan (Scan.skip n)
  emit t

/-- Passes blanks, comments and line ends, and a byte order mark at the start. After a line end a
key may start. -/
def toNextToken : Nat → Reader Unit
  | 0 => malformed
  | fuel + 1 => do
    let c := (← get).cursor
    if c.index = 0 && c.peek.val = 0xFEFF then scan Scan.skip
    scan Scan.blanks
    scan Scan.comment
    let b ← scan Scan.lineBreak
    if !b.isEmpty then do
      if ← inBlock then setAllowKey true
      toNextToken fuel

/-- A directive, or a sign at the boundary of documents, which ends all blocks. -/
def boundary (x : Reader Unit) : Reader Unit := do
  unwind (-1)
  forgetKey
  setAllowKey false
  x

/-- An opening bracket. -/
def flowStart (t : Token) : Reader Unit := do
  noteKey
  modify fun s => { s with flowLevel := s.flowLevel + 1, allowKey := true }
  sign t

/-- A closing bracket. -/
def flowEnd (t : Token) : Reader Unit := do
  if ← inBlock then malformed
  else do
    forgetKey
    modify fun s => { s with flowLevel := s.flowLevel - 1, allowKey := false }
    sign t

/-- A comma. -/
def flowEntrySign : Reader Unit := do
  setAllowKey true
  forgetKey
  sign .flowEntry

/-- A dash. -/
def blockEntrySign : Reader Unit := do
  beginEntry .blockSequenceStart
  setAllowKey true
  forgetKey
  sign .blockEntry

/-- A question mark. -/
def keySign : Reader Unit := do
  beginEntry .blockMappingStart
  setAllowKey (← inBlock)
  forgetKey
  sign .key

/-- A colon: the possible key before it is a key. -/
def valueSign : Reader Unit := do
  let s ← get
  match s.keys.lookup s.flowLevel with
  | some k => do
    set { s with keys := s.keys.filter fun k => k.1 != s.flowLevel }
    insertAt k.token .key
    if ← inBlock then
      if ← indentTo k.column then insertAt k.token .blockMappingStart
    setAllowKey false
  | none => do
    beginEntry .blockMappingStart
    setAllowKey (← inBlock)
    forgetKey
  sign .value

/-- What may be a key of its own, or stand at the start of one. -/
def node (x : Scan Token) : Reader Unit := do
  noteKey
  setAllowKey false
  emit (← scan x)

/-- A block scalar. -/
def blockScalar (folded : Bool) : Reader Unit := do
  setAllowKey true
  forgetKey
  let t ← scan (ScalarText.block folded (← get).indent)
  emit (.scalar false t)

/-- A plain scalar. After its line a key may start. -/
def plainScalar : Reader Unit := do
  noteKey
  let s ← get
  let (t, newLine) ← scan (ScalarText.plain (s.flowLevel != 0) (s.indent + 1).toNat)
  setAllowKey newLine
  emit (.scalar true t)

/-- Does a plain scalar start here? -/
def startsPlain (inFlow : Bool) (c : Cursor) : Bool :=
  let ch := c.peek
  !(isGap ch || isOneOf "-?:,[]\x7b\x7d#&*!|>'\"%@`" ch)
    || (!isGap (c.peek 1) && (ch = .ofChar '-' || (!inFlow && isOneOf "?:" ch)))

/-- Is a sign an indicator here? Inside brackets it always is. -/
def isIndicator (inFlow : Bool) (c : Cursor) : Bool := inFlow || isGap (c.peek 1)

/-- The token here. -/
def token : Reader Unit := do
  scan (Scan.need 2)
  let s ← get
  let c := s.cursor
  let inFlow := s.flowLevel != 0
  let ch := c.peek
  let starts (x : Char) : Bool := ch = .ofChar x
  if starts '%' && c.column = 0 then
    boundary do emit (.directive (← scan Property.directive))
  else if starts '-' && c.column = 0 && c.atSeparator then boundary (sign .documentStart 3)
  else if starts '.' && c.column = 0 && c.atSeparator then boundary (sign .documentEnd 3)
  else if starts '[' then flowStart .flowSequenceStart
  else if ch.val = 0x7B then flowStart .flowMappingStart
  else if starts ']' then flowEnd .flowSequenceEnd
  else if ch.val = 0x7D then flowEnd .flowMappingEnd
  else if starts ',' then flowEntrySign
  else if starts '-' && isGap (c.peek 1) then blockEntrySign
  else if starts '?' && isIndicator inFlow c then keySign
  else if starts ':' && isIndicator inFlow c then valueSign
  else if starts '*' then node do pure (.reference (← Property.anchor))
  else if starts '&' then node do pure (.anchor (← Property.anchor))
  else if starts '!' then node do
    let (handle, suffix) ← Property.tag
    pure (.tag handle suffix)
  else if starts '|' && !inFlow then blockScalar false
  else if starts '>' && !inFlow then blockScalar true
  else if starts '\'' then node do pure (.scalar false (← ScalarText.quoted false))
  else if starts '"' then node do pure (.scalar false (← ScalarText.quoted true))
  else if startsPlain inFlow c then plainScalar
  else malformed

/-- Counts the tokens that are settled: those before the first possible key. -/
def settle : Reader Unit := modify fun s =>
  { s with settled := s.keys.foldl (fun n k => min n k.2.token) s.tokens.size }

/-- All tokens from here on. -/
def tokens : Nat → Reader Unit
  | 0 => malformed
  | fuel + 1 => do
    forgetStaleKeys
    settle
    toNextToken (← scan Scan.bound)
    forgetStaleKeys
    let c := (← get).cursor
    unwind c.column
    if c.rest.isEmpty then do
      unwind (-1)
      forgetKey
    else do
      token
      tokens fuel

end Reader

/-- The tokens of a source, and the fault after them if one ends the reading. Only what is settled
comes before a fault. -/
def ofSource (source : Source) : List Token × Option Fault :=
  let start : State := { cursor := { rest := source.text, stop := source.stop } }
  match Reader.tokens (source.text.length + 2) start with
  | .ok () s => (s.tokens.toList, none)
  | .error fault s => (s.tokens.toList.take s.settled, some fault)

end Token

end JndiScan.Yaml

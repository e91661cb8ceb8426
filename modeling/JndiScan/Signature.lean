/-
The signature of the classes that the scan looks for, and its overlay by a rules entry: what the
entry gives replaces what is built in, and the result is checked.
-/
import JndiScan.ClassDefinition
import JndiScan.Rules.Value
import JndiScan.Text.LowerCase

namespace JndiScan

/-- What the scan looks for: a class whose presence matters, and a constructor of another class
that only vulnerable releases declare. -/
structure Signature where
  id : Text
  cve : Text
  title : Text
  presenceClass : Text
  vulnerableClass : Text
  constructorName : Text
  constructorDescriptor : Text
  requiredAccess : Nat
  recommendation : Text
  references : List Text
  deriving DecidableEq, Repr

namespace Signature

/-- The built-in signature. -/
def builtIn : Signature :=
  { id := "LOG4SHELL_CVE_2021_44228"
    cve := "CVE-2021-44228"
    title := "log4j < 2.15.0 vulnerable to CVE-2021-44228"
    presenceClass := "org/apache/logging/log4j/core/lookup/JndiLookup"
    vulnerableClass := "org/apache/logging/log4j/core/net/JndiManager"
    constructorName := MemberKind.constructorName
    constructorDescriptor := "(Ljava/lang/String;Ljavax/naming/Context;)V"
    requiredAccess := Access.isPrivate
    recommendation := "Upgrade log4j-core to 2.17.1 or later."
    references := ["https://logging.apache.org/log4j/2.x/security.html"] }

/-- The name under which rules hold the entry of the signature. -/
def rulesKey : Text := "log4shell"

/-- Why a rules entry gives no signature. -/
inductive EntryError
  | notMapping
  | constructorNotMapping
  | referencesNotList
  | emptyClassName (key : Text)
  | accessNotList
  | unknownAccess (name : Value)
  /-- A text would be that of a value which cannot be shown. -/
  | unshown (fault : Value.ShowFault)
  deriving Repr, BEq

/-- The wording of an error. -/
def EntryError.message : EntryError → Text
  | notMapping => "Invalid " ++ rulesKey ++ " rules"
  | constructorNotMapping => "constructor must be a mapping"
  | referencesNotList => "references must be a list"
  | emptyClassName key => key ++ " must be a non-empty string"
  | accessNotList => "constructor.access must be a list"
  | unknownAccess name => "Unknown access flag " ++ name.quoted
  | unshown fault => fault.message

/-- The calls that may be open when a field is shown. -/
def fieldCalls : Nat := Value.maxCalls

/-- The calls that may be open when an item of a field is shown. -/
def itemCalls : Nat := fieldCalls - 1

/-- A value as a text, if it can be shown by as many calls. -/
def shownText (calls : Nat) (v : Value) : Except EntryError Text :=
  match v.showFault? calls with
  | some fault => .error (.unshown fault)
  | none => .ok v.shown

/-- The access flags by their names. -/
def accessFlags : List (Text × Nat) :=
  [("public", Access.isPublic), ("private", Access.isPrivate), ("protected", Access.isProtected),
    ("static", Access.isStatic), ("final", Access.isFinal)]

/-- The flag that a text names, in any case of letters. -/
def accessFlag? (name : Text) : Option Nat := accessFlags.lookup name.lower

/-- All flags of a list of names, added to `mask`. -/
def accessMask (mask : Nat) : List Value → Except EntryError Nat
  | [] => .ok mask
  | name :: names => do
    match accessFlag? (← shownText itemCalls name) with
    | some flag => accessMask (mask ||| flag) names
    | none => .error (.unknownAccess name)

/-- The entries of a mapping; nothing and the like have none. -/
def entriesOf (v : Value) : Except EntryError (List (Value × Value)) :=
  if v.isAbsent then .ok []
  else
    match v.opened with
    | .mapping entries => .ok entries
    | _ => .error .notMapping

/-- The text of a value of an entry, or a built-in text. -/
def textField (entries : List (Value × Value)) (key builtIn : Text) : Except EntryError Text :=
  match Value.lookup? (.text key) entries with
  | some v => shownText fieldCalls v
  | none => .ok builtIn

/-- The entries of the constructor. -/
def constructorEntries (entries : List (Value × Value)) :
    Except EntryError (List (Value × Value)) :=
  match Value.lookup? (.text "constructor") entries with
  | none => .ok []
  | some v =>
    match v.opened with
    | .mapping fields => .ok fields
    | _ => .error .constructorNotMapping

/-- The references of an entry; nothing and the like stand for none. -/
def referencesField (entries : List (Value × Value)) : Except EntryError (List Value) :=
  match Value.lookup? (.text "references") entries with
  | none => .ok (builtIn.references.map .text)
  | some v =>
    if v.isAbsent then .ok []
    else
      match v.opened with
      | .list items => .ok items
      | _ => .error .referencesNotList

/-- A class name of an entry, which must be a text and not empty. -/
def classField (entries : List (Value × Value)) (key builtIn : Text) : Except EntryError Text :=
  match Value.lookup? (.text key) entries with
  | none => .ok builtIn
  | some (.text t) => if t.isEmpty then .error (.emptyClassName key) else .ok t
  | some _ => .error (.emptyClassName key)

/-- The access flags that a constructor entry requires. -/
def accessField (fields : List (Value × Value)) : Except EntryError Nat :=
  match Value.lookup? (.text "access") fields with
  | none => .ok builtIn.requiredAccess
  | some v =>
    match v.opened with
    | .list names => accessMask 0 names
    | _ => .error .accessNotList

/-- The built-in signature overlaid by a rules entry. -/
def ofEntry (entry : Value) : Except EntryError Signature := do
  let entries ← entriesOf entry
  let fields ← constructorEntries entries
  let references ← referencesField entries
  let presenceClass ← classField entries "presence_class" builtIn.presenceClass
  let vulnerableClass ← classField entries "vulnerable_class" builtIn.vulnerableClass
  pure
    { id := ← textField entries "id" builtIn.id
      cve := ← textField entries "cve" builtIn.cve
      title := ← textField entries "title" builtIn.title
      presenceClass
      vulnerableClass
      constructorName := ← textField fields "name" builtIn.constructorName
      constructorDescriptor := ← textField fields "descriptor" builtIn.constructorDescriptor
      requiredAccess := ← accessField fields
      recommendation := ← textField entries "recommendation" builtIn.recommendation
      references := ← references.mapM (shownText itemCalls) }

end Signature

end JndiScan

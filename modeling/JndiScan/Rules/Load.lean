/-
Loading rules: documents that hold a list or a mapping under the name of the rules.
-/
import JndiScan.Files.Host
import JndiScan.Rules.Bundled
import JndiScan.Signature
import JndiScan.Yaml.Read

namespace JndiScan

/-- Loaded rules by their names. -/
abbrev Rules := List (Text × Value)

namespace Rules

/-- What is wrong with rules. -/
inductive RuleError
  | unreadable (name path : Text) (error : FileError)
  | malformed (name path : Text)
  | missing (name : Text)
  | invalid (name : Text)
  | entry (error : Signature.EntryError)
  deriving Repr

/-- The wording of an error. -/
def RuleError.message : RuleError → Text
  | unreadable name path error =>
    "Cannot read " ++ name ++ " rules from " ++ path ++ ": " ++ error.message
  | malformed name path =>
    "Malformed " ++ name ++ " rules in " ++ path ++ ": " ++ Yaml.Fault.malformed.message
  | missing name => "Missing " ++ name ++ " rules"
  | invalid name => "Invalid " ++ name ++ " rules"
  | entry error => error.message

/-- Why rules are not loaded: they are wrong, or their path or a value in them is one that nothing
can be said about. -/
inductive LoadFault
  | rules (error : RuleError)
  | path (fault : PathFault)
  | document (fault : Yaml.Fault)
  /-- A text of the signature would be that of a value which cannot be shown. -/
  | unshown (fault : Value.ShowFault)
  deriving Repr

/-- The wording of a fault. -/
def LoadFault.message : LoadFault → Text
  | rules error => error.message
  | path fault => fault.message
  | document fault => fault.message
  | unshown fault => fault.message

/-- The rules of a name in the value of a document. -/
def ofDocument (name : Text) (v : Value) : Except RuleError Value :=
  match v.opened with
  | .mapping entries =>
    match Value.lookup? (.text name) entries with
    | none => .error (.missing name)
    | some rules =>
      match rules.opened with
      | .list _ | .mapping _ => .ok rules
      | _ => .error (.invalid name)
  | _ => .error (.missing name)

section Reading

variable (readYaml : Yaml.Reader)

/-- The rules of a name in the octets of a document. -/
def ofOctets (name path : Text) (octets : Bytes) : Except LoadFault Value :=
  match readYaml (.ofOctets octets) with
  | .ok v => (ofDocument name v).mapError .rules
  | .error .malformed => .error (.rules (.malformed name path))
  | .error fault => .error (.document fault)

/-- The rules of a name in the file at a path. -/
def loadOne (host : Host) (name path : Text) : Except LoadFault Value :=
  match host.read path with
  | .ok octets => ofOctets readYaml name path octets
  | .error (.file error) => .error (.rules (.unreadable name path error))
  | .error fault => .error (.path fault)

/-- The rules of several names, each in a file of its own. -/
def load (host : Host) (paths : List (Text × Text)) : Except LoadFault Rules :=
  paths.mapM fun (name, path) => do pure (name, ← loadOne readYaml host name path)

/-- The rules that are used when no file is given. -/
def loadBundled : Except LoadFault Rules := do
  pure [(Signature.rulesKey, ← ofOctets readYaml Signature.rulesKey [] bundledOctets)]

end Reading

/-- The signature that rules tell. -/
def signature (rules : Rules) : Except LoadFault Signature :=
  match Signature.ofEntry ((rules.lookup Signature.rulesKey).getD .null) with
  | .ok signature => .ok signature
  | .error (.unshown fault) => .error (.unshown fault)
  | .error error => .error (.rules (.entry error))

end Rules

end JndiScan

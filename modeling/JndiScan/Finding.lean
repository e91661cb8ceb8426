/-
Findings: what a check tells the reader of a report, one finding for each vulnerable class, or one
for each class whose presence matters when none is vulnerable.
-/
import JndiScan.Check
import JndiScan.Console

namespace JndiScan

/-- How serious a finding is. -/
inductive Severity
  | info
  | low
  | medium
  | high
  | critical
  deriving DecidableEq, Repr

namespace Severity

/-- All severities, the least serious first. -/
def all : List Severity := [info, low, medium, high, critical]

/-- The label of a severity. -/
def label : Severity → Text
  | info => "INFO"
  | low => "LOW"
  | medium => "MEDIUM"
  | high => "HIGH"
  | critical => "CRITICAL"

/-- The rank of a severity in lists, the most serious first. -/
def rank : Severity → Nat
  | critical => 0
  | high => 1
  | medium => 2
  | low => 3
  | info => 4

end Severity

/-- How certain a finding is. -/
inductive Confidence
  | low
  | medium
  | high
  deriving DecidableEq, Repr

/-- The label of a confidence. -/
def Confidence.label : Confidence → Text
  | low => "LOW"
  | medium => "MEDIUM"
  | high => "HIGH"

/-- One step of the evidence for a finding. -/
structure Evidence where
  kind : Text
  description : Text
  member : Option Text := none
  notes : Option Text := none
  deriving DecidableEq, Repr

/-- A finding. -/
structure Finding where
  id : Text
  title : Text
  description : Text
  severity : Severity
  confidence : Confidence
  className : Text
  vulnerableConstructor : Bool
  locations : List Provenance
  evidence : List Evidence
  recommendation : Text
  references : List Text
  fingerprint : Option Text := none
  cve : Option Text := none
  deriving DecidableEq, Repr

namespace Finding

/-- Does any finding tell a vulnerable class? -/
def anyVulnerable (fs : List Finding) : Bool := fs.any (·.vulnerableConstructor)

/-- The places of the vulnerable classes, each once, in the order of their texts. -/
def vulnerableLocations (fs : List Finding) : List Provenance :=
  Text.sortBy Provenance.text
    ((fs.filter (·.vulnerableConstructor)).flatMap (·.locations)).eraseDups

/-- Is `a` listed before `b`, or are they listed alike? Severity counts first, then the
identifier, then the class name. -/
def listedBefore (a b : Finding) : Bool :=
  if a.severity.rank ≠ b.severity.rank then a.severity.rank < b.severity.rank
  else if a.id ≠ b.id then Text.le a.id b.id
  else Text.le a.className b.className

/-- The findings in the order of lists. -/
def sorted (fs : List Finding) : List Finding := fs.mergeSort listedBefore

/-- The number of findings of each severity, the least serious first. -/
def severityCounts (fs : List Finding) : List (Severity × Nat) :=
  Severity.all.map fun s => (s, (fs.filter (·.severity = s)).length)

/-- The fingerprint of a finding: the one it carries, or its identifier and class name. -/
def identity (f : Finding) : Text :=
  match f.fingerprint with
  | some t => if t.isEmpty then f.id ++ "|" ++ f.className else t
  | none => f.id ++ "|" ++ f.className

/-! ## The findings of a check -/

/-- What is said of a class that is there without the vulnerable constructor. -/
def patchedNote : Text := "JndiLookup class found, but no pre-2.15.0 constructor found."

/-- The identifier of the findings that tell presence alone. -/
def presenceId : Text := "JNDI_LOOKUP_PRESENT"

/-- The dotted name of a class of the pool. -/
def classNameOf (e : PoolEntry) : Text :=
  match ClassName.dotted? e.name with
  | some t => if t.isEmpty then e.name else t
  | none => e.name

/-- The finding for a vulnerable class. -/
def ofVulnerable (s : Signature) (lookups : List PoolEntry) (e : PoolEntry) (ms : List Member) :
    Finding :=
  let className := classNameOf e
  let presence : List Evidence := lookups.map fun lookup =>
    { kind := "PRESENCE", description := "JndiLookup class present"
      notes := ClassName.dotted? lookup.name }
  let constructors : List Evidence := ms.map fun m =>
    { kind := "CONSTRUCTOR", description := "Pre-2.15.0 JndiManager constructor"
      member := some (e.name ++ "->" ++ m.name ++ m.descriptor) }
  { id := s.id
    title := s.title
    description := className
      ++ " declares the private (String, Context) constructor removed in log4j 2.15.0."
    severity := .critical
    confidence := .high
    className
    vulnerableConstructor := true
    locations := e.sortedPlaces
    evidence := presence ++ constructors
    recommendation := s.recommendation
    references := s.references
    fingerprint := some (s.id ++ "|" ++ e.name)
    cve := some s.cve }

/-- The finding for a class that is there while none is vulnerable. -/
def ofPresence (s : Signature) (e : PoolEntry) : Finding :=
  let className := classNameOf e
  { id := presenceId
    title := "JndiLookup present without pre-2.15.0 JndiManager"
    description := patchedNote
    severity := .info
    confidence := .medium
    className
    vulnerableConstructor := false
    locations := e.sortedPlaces
    evidence := [{ kind := "NOTE", description := patchedNote, notes := some className }]
    recommendation := []
    references := s.references
    fingerprint := some (presenceId ++ "|" ++ e.name) }

/-- The findings of a check. -/
def ofCheck (s : Signature) (r : CheckResult) : List Finding :=
  match r.verdict with
  | .vulnerable => r.vulnerable.map fun (e, ms) => ofVulnerable s r.lookups e ms
  | .patched => r.lookups.map (ofPresence s)
  | .notPresent => []

end Finding

end JndiScan

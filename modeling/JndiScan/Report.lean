/-
The report of a scan as a JSON value: the tool and its target, a summary, the findings in the order
of lists, and the diagnostics in the order in which they arose.
-/
import JndiScan.Diagnostic
import JndiScan.Finding
import JndiScan.Json.Writer

namespace JndiScan

/-- What a report tells beside the findings. -/
structure ReportHeader where
  /-- The version of the reader of Dalvik files. -/
  dalvikVersion : Text
  /-- The moment of the report. -/
  timestamp : Text
  target : Text
  classesScanned : Int
  diagnostics : List Diagnostic
  incomplete : Bool := false

namespace Report

/-- The name of the tool. -/
def toolName : Text := "log4shell-detector"

/-- The version of the tool. -/
def toolVersion : Text := "0.1.0"

/-- The version of the form of reports. -/
def schemaVersion : Text := "0.1.0"

/-- A text or nothing. -/
def optional : Option Text → Json
  | some t => .text t
  | none => .null

/-- A number. -/
def number (n : Nat) : Json := .int n

/-- The verdict that findings amount to. -/
def verdict (fs : List Finding) : Verdict :=
  if Finding.anyVulnerable fs then .vulnerable
  else if fs.isEmpty then .notPresent
  else .patched

/-- A place. -/
def location (p : Provenance) : Json :=
  .object [("path", .text p.text), ("segments", .list (p.parts.map .text)),
    ("depth", number p.depth), ("container", .text p.container),
    ("converted_from_dex", .bool p.converted)]

/-- A step of evidence. -/
def evidence (e : Evidence) : Json :=
  .object [("kind", .text e.kind), ("description", .text e.description),
    ("member", optional e.member), ("notes", optional e.notes)]

/-- A finding. An empty identifier of a vulnerability, or no references, are left out. -/
def finding (f : Finding) : Json :=
  let cve : List (Text × Json) :=
    match f.cve with
    | some t => if t.isEmpty then [] else [("cve", .text t)]
    | none => []
  let references : List (Text × Json) :=
    if f.references.isEmpty then [] else [("references", .list (f.references.map .text))]
  let fields : List (Text × Json) := [
    ("id", .text f.id), ("title", .text f.title), ("description", .text f.description),
    ("severity", .text f.severity.label), ("confidence", .text f.confidence.label),
    ("class_name", .text f.className), ("class_desc", optional (ClassName.descriptor? f.className)),
    ("vulnerable_constructor", .bool f.vulnerableConstructor),
    ("locations", .list (f.locations.map location)), ("evidence", .list (f.evidence.map evidence)),
    ("recommendation", .text f.recommendation), ("fingerprint", .text f.identity)]
  .object (fields ++ cve ++ references)

/-- A diagnostic. -/
def diagnostic (d : Diagnostic) : Json :=
  .object [("location", .text d.location), ("message", .text d.message), ("fatal", .bool d.fatal)]

/-- The numbers of findings by severity. -/
def severityCounts (fs : List Finding) : Json :=
  .object ((Finding.severityCounts fs).map fun (s, n) => (s.label, number n))

/-- The report. -/
def build (h : ReportHeader) (fs : List Finding) : Json :=
  .object [
    ("schema_version", .text schemaVersion),
    ("tool", .object [("name", .text toolName), ("version", .text toolVersion),
      ("timestamp", .text h.timestamp), ("androguard_version", .text h.dalvikVersion)]),
    ("target", .text h.target),
    ("summary", .object [("verdict", .text (verdict fs).label),
      ("classes_scanned", .int h.classesScanned), ("findings_by_severity", severityCounts fs),
      ("diagnostics", number h.diagnostics.length), ("incomplete", .bool h.incomplete)]),
    ("findings", .list ((Finding.sorted fs).map finding)),
    ("diagnostics", .list (h.diagnostics.map diagnostic))]

end Report

end JndiScan

/-
Written reports read back. A report is written in ASCII, and what is read of it is the report with
its texts joined: where a text of a class file holds the two halves of a code point one after the
other, the report that is read holds the code point. All other reports are read back as they were,
and no two of them are written alike.
-/
import JndiScan.ClassFile.Constant
import JndiScan.Proofs.Json.RoundTrip
import JndiScan.Report

namespace JndiScan

/-! ## The texts of a report -/

/-- What a report tells of a place. -/
def Provenance.told (p : Provenance) : List Text := p.text :: p.container :: p.parts

/-- What a report tells of a step of evidence. -/
def Evidence.told (e : Evidence) : List Text :=
  e.kind :: e.description :: (e.member.toList ++ e.notes.toList)

/-- What a report tells of a finding. -/
def Finding.told (f : Finding) : List Text :=
  [f.id, f.title, f.description, f.className, f.recommendation, f.identity]
    ++ (ClassName.descriptor? f.className).toList ++ f.cve.toList ++ f.references
    ++ f.locations.flatMap Provenance.told ++ f.evidence.flatMap Evidence.told

/-- What a report tells beside the findings. -/
def ReportHeader.told (h : ReportHeader) : List Text :=
  [h.dalvikVersion, h.timestamp, h.target] ++ h.diagnostics.flatMap fun d => [d.location, d.message]

namespace Report

open Json (apart_text apart_list apart_object)

theorem apart_optional {t : Option Text} : (optional t).Apart ↔ ∀ u ∈ t.toList, u.Apart := by
  cases t <;> simp [optional]

theorem apart_location {p : Provenance} : (location p).Apart ↔ ∀ t ∈ p.told, t.Apart := by
  simp +decide [location, Provenance.told, number]
  tauto

theorem apart_evidence {e : Evidence} : (evidence e).Apart ↔ ∀ t ∈ e.told, t.Apart := by
  simp +decide [evidence, Evidence.told, apart_optional, or_imp, forall_and]

theorem apart_severity (s : Severity) : s.label.Apart := by
  cases s <;> decide

theorem apart_confidence (c : Confidence) : c.label.Apart := by
  cases c <;> decide

theorem apart_references {ts : List Text} :
    (∀ field ∈ (if ts.isEmpty then [] else [("references", .list (ts.map .text))] :
      List (Text × Json)), field.1.Apart ∧ field.2.Apart) ↔ ∀ t ∈ ts, t.Apart := by
  cases ts <;> simp +decide

/-- An empty identifier and empty references, which are left out, hold no pair. -/
theorem apart_finding {f : Finding} : (finding f).Apart ↔ ∀ t ∈ f.told, t.Apart := by
  rw [finding, Finding.told]
  rcases f.cve with _ | _ | ⟨c, t⟩
  all_goals
    simp only [apart_object, List.forall_mem_append, apart_references, List.forall_mem_flatMap]
    simp +decide [apart_severity, apart_confidence, apart_optional, apart_location, apart_evidence]
    tauto

theorem apart_diagnostic {d : Diagnostic} :
    (diagnostic d).Apart ↔ ∀ t ∈ [d.location, d.message], t.Apart := by
  simp +decide [diagnostic]

theorem apart_build {h : ReportHeader} {fs : List Finding} :
    (build h fs).Apart ↔ (∀ t ∈ h.told, t.Apart) ∧ ∀ f ∈ fs, ∀ t ∈ f.told, t.Apart := by
  have hsorted : ∀ f, f ∈ Finding.sorted fs ↔ f ∈ fs := fun f => List.mem_mergeSort
  have hverdict : (verdict fs).label.Apart := by cases verdict fs <;> decide
  have hcounts : (severityCounts fs).Apart := by
    simp [severityCounts, apart_object, Finding.severityCounts, apart_severity, number]
  simp only [ReportHeader.told, List.forall_mem_append, List.forall_mem_flatMap]
  simp +decide [build, number, hverdict, hcounts, apart_finding, apart_diagnostic, hsorted]
  tauto

/-! ## Reading -/

/-- A written report is ASCII, and it is read with its texts joined: as it was when none of the
texts that it tells holds a high half directly before a low one, and only then. Reports are written
alike exactly when they are the same once joined. -/
theorem read_write_build (h : ReportHeader) (fs : List Finding) :
    Text.ofUtf8 .strict (build h fs).write.toUtf8 = .ok (build h fs).write ∧
      Json.read (build h fs).write = some (build h fs).joined ∧
      (Json.read (build h fs).write = some (build h fs) ↔
        (∀ t ∈ h.told, t.Apart) ∧ ∀ f ∈ fs, ∀ t ∈ f.told, t.Apart) ∧
      ∀ h' fs', (build h fs).write = (build h' fs').write ↔
        (build h fs).joined = (build h' fs').joined := by
  refine ⟨Json.ofUtf8_toUtf8_write .strict _, Json.read_write_joined _, ?_, fun h' fs' =>
    Json.write_eq_write_iff⟩
  rw [Json.read_write_eq_self_iff, apart_build]

/-- A header that tells nothing. -/
def emptyHeader : ReportHeader where
  dalvikVersion := []
  timestamp := []
  target := []
  classesScanned := 0
  diagnostics := []

/-- A finding that tells the name of a class alone. -/
def naming (className : Text) : Finding where
  id := []
  title := []
  description := []
  severity := .info
  confidence := .medium
  className
  vulnerableConstructor := false
  locations := []
  evidence := []
  recommendation := []
  references := []

/-- A class file names a class by two halves. The report that tells it is not the one that tells the
code point of both, but it is written as that one, so it is not read back. -/
theorem halves_written_as_pair :
    ClassFile.constantText [0xED, 0xA0, 0xBD, 0xED, 0xB8, 0x80] =
        .ok [.ofNat 0xD83D, .ofNat 0xDE00] ∧
      build emptyHeader [naming [.ofNat 0xD83D, .ofNat 0xDE00]] ≠
        build emptyHeader [naming [.ofNat 0x1F600]] ∧
      (build emptyHeader [naming [.ofNat 0xD83D, .ofNat 0xDE00]]).write =
        (build emptyHeader [naming [.ofNat 0x1F600]]).write ∧
      Json.read (build emptyHeader [naming [.ofNat 0xD83D, .ofNat 0xDE00]]).write ≠
        some (build emptyHeader [naming [.ofNat 0xD83D, .ofNat 0xDE00]]) := by
  have hparsed : ClassFile.constantText [0xED, 0xA0, 0xBD, 0xED, 0xB8, 0x80] =
      .ok [.ofNat 0xD83D, .ofNat 0xDE00] := by rfl
  have halike : (build emptyHeader [naming [.ofNat 0xD83D, .ofNat 0xDE00]]).write =
      (build emptyHeader [naming [.ofNat 0x1F600]]).write := by
    simp only [build, Finding.sorted, List.mergeSort_singleton]
    decide +kernel
  have hpair : ¬ (build emptyHeader [naming [.ofNat 0xD83D, .ofNat 0xDE00]]).Apart := by
    rw [apart_build]
    rintro ⟨-, h⟩
    have hname : Text.Apart [.ofNat 0xD83D, .ofNat 0xDE00] :=
      h _ List.mem_cons_self _ (by simp [naming, Finding.told])
    revert hname
    decide
  have hapart : (build emptyHeader [naming [.ofNat 0x1F600]]).Apart := by
    rw [apart_build]
    decide
  refine ⟨hparsed, fun h => hpair (h ▸ hapart), halike, ?_⟩
  rwa [Ne, Json.read_write_eq_self_iff]

end Report

end JndiScan

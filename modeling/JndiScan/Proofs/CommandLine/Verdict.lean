/-
The verdict of a run that writes a report, told twice: by the report and on the console. The two
agree as long as the scanner returns. When it fails the console withholds the verdict, and the
report, which is made of no findings then, states that nothing is there.
-/
import JndiScan.Proofs.CommandLine.Steps
import JndiScan.Proofs.Files.Usable
import JndiScan.Proofs.Walk.Preorder
import Mathlib.Data.List.Permutation

namespace JndiScan.CommandLine.Run

open Finding (Silent allClear warning)

variable {env : Environment} {options : Options} {rules : Rules} {signature : Signature}
variable {out path : Text} {scanner : Scanner} {arguments : List Text} {session : Session}
variable {r : Walk.Outcome Pool Session} {found : ScannerResult} {error : ScannerError}
variable {console : Console} {lines : List Text}

/-! ## What a run tells last -/

theorem warning_mem_append_iff (h : ∀ line ∈ lines, Silent line) {last : List Text} :
    warning ∈ lines ++ last ↔ warning ∈ last := by
  rw [List.mem_append, or_iff_right (Finding.warning_notMem h)]

theorem allClear_mem_append_iff (h : ∀ line ∈ lines, Silent line) {last : List Text} :
    allClear ∈ lines ++ last ↔ allClear ∈ last := by
  rw [List.mem_append, or_iff_right (Finding.allClear_notMem h)]

/-- When a scanner failed, what is told last is no verdict. -/
theorem silent_of_mem_ending {name : Text} {names : List Text} {findings : List Finding} :
    ∀ line ∈ ending signature findings (name :: names), Silent line :=
  List.forall_mem_singleton.2 (Console.silent_marked rfl)

theorem stated_scanReport (env : Environment) (target : Text) (scanner : Scanner) (rules : Rules)
    (r : Walk.Outcome Pool Session) :
    Report.stated (scanReport env target scanner rules r) =
      some (.text (Report.verdict (taken scanner (scanResult scanner rules r)).1).label) :=
  Report.stated_build _ _

theorem stated_eq_vulnerable_iff {report : Json} {findings : List Finding}
    (h : Report.stated report = some (.text (Report.verdict findings).label)) :
    Report.stated report = some (.text (Verdict.label .vulnerable)) ↔
      Finding.anyVulnerable findings = true := by
  rw [h, Option.some.injEq, Json.text.injEq, Verdict.label_injective.eq_iff,
    Finding.verdict_eq_vulnerable_iff]

/-- The two places where a run with one scanner tells its verdict. The report states that something
vulnerable was found exactly when the console warns. When the scanner returns the report states the
verdict of its findings, and the console says that nothing was found if that is not the case. When
the scanner fails neither line is printed, and the report states that nothing is there. -/
theorem report_states_verdict (hone : env.scanners = [scanner])
    (hoptions : Options.ofArguments arguments = .ok options)
    (hpath : given? options.path = some path) (hout : given? options.out = some out) {code : Nat}
    (hcode : (run env arguments session).code = .ok code) (hbegun : code ≠ notBegun) :
    ∃ rules signature r report lines,
      rulesOf env session.host options = .ok (rules, signature) ∧
      scanLoad env options (Path.shown path) (opening options session) = r ∧ r.fault = none ∧
      let result := scanResult scanner rules r
      let state := (run env arguments session).state
      r.world.host.write out report.write.toUtf8 = .ok state.session.host ∧
      state.console.lines.toList = (leftBy result).lines.toList ++ lines ∧
      (Report.stated report = some (.text (Verdict.label .vulnerable)) ↔ warning ∈ lines) ∧
      ((∃ found console, result = .ok found console ∧ code = success ∧
          Report.stated report = some (.text (Report.verdict found.findings).label) ∧
          (allClear ∈ lines ↔ Report.verdict found.findings ≠ .vulnerable)) ∨
        ∃ error console, result = .error error console ∧ code = scannerFailed ∧
          Report.stated report = some (.text (Verdict.label .notPresent)) ∧ allClear ∉ lines) := by
  obtain ⟨⟨rules, signature, hrules⟩, htarget⟩ := begun_of_code hoptions hpath hcode hbegun
  rw [run_eq_scan hoptions hpath hrules htarget] at hcode ⊢
  generalize hr : scanLoad env options (Path.shown path) (opening options session) = r
  have hfault : r.fault = none := by
    cases hfault : r.fault with
    | none => rfl
    | some fault =>
      rw [← hr] at hfault
      obtain ⟨s', hscan⟩ := scan_of_fault rules signature hfault
      rw [hscan] at hcode
      cases hcode
  generalize hreport : scanReport env (Path.shown path) scanner rules r = report
  cases hwrite : r.world.host.write out report.write.toUtf8 with
  | error fault =>
    rw [← hreport] at hwrite
    obtain ⟨s', hscan⟩ :=
      scan_of_unwritten signature hone hout hr hfault hwrite
    rw [hscan] at hcode
    cases hcode
  | ok host =>
    rw [← hreport] at hwrite
    obtain ⟨c, lines, hscan, hlines, hsilent⟩ :=
      scan_of_written signature hone hout hr hfault hwrite
    rw [hscan] at hcode ⊢
    have hstated := stated_scanReport env (Path.shown path) scanner rules r
    rw [hreport] at hstated hwrite
    refine ⟨rules, signature, r, report, _, hrules, rfl, hfault, hwrite, hlines, ?_, ?_⟩
    · rw [warning_mem_append_iff hsilent, stated_eq_vulnerable_iff hstated]
      cases hresult : scanResult scanner rules r with
      | ok found console => exact Finding.warning_mem_verdictLines_iff.symm
      | error error console =>
        exact iff_of_false (fun h => nomatch h) (Finding.warning_notMem silent_of_mem_ending)
    · rw [allClear_mem_append_iff hsilent]
      cases hresult : scanResult scanner rules r with
      | ok found console =>
        rw [hresult] at hstated hcode
        refine .inl ⟨found, console, rfl, (Except.ok.inj hcode).symm, hstated, ?_⟩
        rw [Ne, Finding.verdict_eq_vulnerable_iff, Bool.not_eq_true]
        exact Finding.allClear_mem_verdictLines_iff
      | error error console =>
        rw [hresult] at hstated hcode
        exact .inr ⟨error, console, rfl, (Except.ok.inj hcode).symm, hstated,
          Finding.allClear_notMem silent_of_mem_ending⟩

/-! ## A scanner that fails -/

/-- A scanner that breaks off. -/
def brokenScanner : Scanner := { name := "log4shell", run := fun _ _ => throw (.other "boom") }

/-- An environment with that scanner alone. -/
def brokenEnvironment : Environment :=
  { dalvikVersion := "4.1.4", timestamp := "2026-01-01T00:00:00+00:00", scanners := [brokenScanner] }

/-- A rules document that changes nothing. -/
def plainRules : Bytes := ("log4shell: \x7b\x7d" : Text).toUtf8

/-- An empty directory beside the rules document. -/
def emptyTarget : Session where
  host := { root := .directory [
    ("R", .directory [("T", .directory []), ("rules.yml", .file plainRules)])] }
  scratch := ["scratch"]

/-- Arguments that ask for a report. -/
def reportArguments : List Text :=
  [("/R/T" : Text), "--rules", "/R/rules.yml", "--out", "/R/report.json"]

/-- What these arguments ask for. -/
def reportOptions : Options :=
  { path := some ("/R/T" : Text), out := some ("/R/report.json" : Text)
    rules := some ("/R/rules.yml" : Text) }

theorem ofArguments_reportArguments : Options.ofArguments reportArguments = .ok reportOptions := by
  rfl

theorem exists_rulesOf_emptyTarget :
    ∃ rules signature,
      rulesOf brokenEnvironment emptyTarget.host reportOptions = .ok (rules, signature) := by
  have hread : emptyTarget.host.read "/R/rules.yml" = .ok plainRules := by cbv
  have hsignature :
      ((Rules.ofOctets Yaml.read Signature.rulesKey "/R/rules.yml" plainRules).bind fun v =>
        Rules.signature [(Signature.rulesKey, v)]).toOption.isSome = true := by decide +kernel
  have hload : Rules.load Yaml.read emptyTarget.host [(Signature.rulesKey, "/R/rules.yml")] =
      (Rules.ofOctets Yaml.read Signature.rulesKey "/R/rules.yml" plainRules).map
        fun v => [(Signature.rulesKey, v)] := by
    simp only [Rules.load, List.mapM_cons, List.mapM_nil, Rules.loadOne, hread]
    cases Rules.ofOctets Yaml.read Signature.rulesKey "/R/rules.yml" plainRules <;> rfl
  have hgiven : given? reportOptions.rules = some ("/R/rules.yml" : Text) := by rfl
  cases hvalue : Rules.ofOctets Yaml.read Signature.rulesKey "/R/rules.yml" plainRules with
  | error fault =>
    rw [hvalue] at hsignature
    cases hsignature
  | ok v =>
    rw [hvalue] at hsignature hload
    cases hfound : Rules.signature [(Signature.rulesKey, v)] with
    | error fault =>
      rw [Except.bind, hfound] at hsignature
      cases hsignature
    | ok signature =>
      refine ⟨[(Signature.rulesKey, v)], signature, ?_⟩
      have hreader : brokenEnvironment.readYaml = Yaml.read := rfl
      simp only [rulesOf, hgiven, hreader, hload]
      show (Rules.signature [(Signature.rulesKey, v)] >>= fun signature =>
        .ok ([(Signature.rulesKey, v)], signature)) = _
      rw [hfound]
      rfl

/-- The console when the walk through that target begins. -/
def beforeWalk : Console :=
  (opening reportOptions emptyTarget).console.info ("scanning path=" ++ Path.shown "/R/T")

/-- What is loaded from that target: nothing is met in an empty directory. -/
def emptyLoad : Walk.Outcome Pool Session where
  value := {}
  tally := { console := beforeWalk }
  world := emptyTarget

theorem scanLoad_emptyTarget :
    scanLoad brokenEnvironment reportOptions (Path.shown "/R/T")
      (opening reportOptions emptyTarget) = emptyLoad := by
  have hroots : Walk.roots emptyTarget.host (Path.shown "/R/T") = .ok [] := by cbv
  have hstart : ∀ tally, Walk.start (Path.shown "/R/T") tally emptyTarget =
      .ok { world := emptyTarget, tally, roots := [] } := by
    intro tally
    rw [Walk.start, hroots]
    rfl
  simp only [scanLoad, load, Pool.load, Walk.foldPath, opening, hstart]
  rw [Walk.fold_of_ended (by simp) rfl]
  rfl

/-- The place of the report. -/
def reportPlace : List Text := ["R", "report.json"]

theorem write_emptyTarget (content : Bytes) :
    emptyTarget.host.write "/R/report.json" content =
      .ok (emptyTarget.host.put (.file content) reportPlace) := by
  have husable : Host.Usable reportPlace := by decide
  exact husable.write (by rfl) (.inl (by rfl)) content

/-- The run with the scanner that fails: its code, its report and its last lines. -/
theorem run_brokenScanner :
    ∃ rules signature lines,
      let report := scanReport brokenEnvironment (Path.shown "/R/T") brokenScanner rules emptyLoad
      let o := run brokenEnvironment reportArguments emptyTarget
      o.code = .ok scannerFailed ∧
      o.state.session.host = emptyTarget.host.put (.file report.write.toUtf8) reportPlace ∧
      o.state.console.lines.toList = beforeWalk.lines.toList ++
        (lines ++ ending signature [] [brokenScanner.name]) ∧ ∀ line ∈ lines, Silent line := by
  obtain ⟨rules, signature, hrules⟩ := exists_rulesOf_emptyTarget
  have htarget : emptyTarget.host.exists? (Path.shown "/R/T") = .ok true := by cbv
  have hone : brokenEnvironment.scanners = [brokenScanner] := rfl
  obtain ⟨c, lines, hscan, hlines, hsilent⟩ := scan_of_written signature hone (by rfl)
    scanLoad_emptyTarget rfl (write_emptyTarget (scanReport brokenEnvironment (Path.shown "/R/T")
      brokenScanner rules emptyLoad).write.toUtf8)
  refine ⟨rules, signature, lines, ?_⟩
  dsimp only
  rw [run_eq_scan ofArguments_reportArguments (by rfl) hrules htarget, hscan]
  exact ⟨rfl, rfl, hlines, hsilent⟩

/-- The report of a run whose scanner failed states that nothing is there, while the console says
neither that nor the contrary. -/
theorem clean_report_of_failure :
    ∃ report, let o := run brokenEnvironment reportArguments emptyTarget
      o.code = .ok scannerFailed ∧
      o.state.session.host = emptyTarget.host.put (.file report.write.toUtf8) reportPlace ∧
      Report.stated report = some (.text (Verdict.label .notPresent)) ∧
      allClear ∉ o.state.console.lines.toList ∧ warning ∉ o.state.console.lines.toList := by
  obtain ⟨rules, signature, lines, hcode, hhost, hlines, hsilent⟩ := run_brokenScanner
  have hbefore : ∀ line ∈ beforeWalk.lines.toList, Silent line :=
    List.forall_mem_cons.2 ⟨Console.silent_marked rfl,
      List.forall_mem_singleton.2 (Console.silent_marked rfl)⟩
  have hall : ∀ line ∈ (run brokenEnvironment reportArguments emptyTarget).state.console.lines.toList,
      Silent line := by
    rw [hlines, List.forall_mem_append, List.forall_mem_append]
    exact ⟨hbefore, hsilent, silent_of_mem_ending⟩
  exact ⟨_, hcode, hhost, stated_scanReport _ _ _ _ _, Finding.allClear_notMem hall,
    Finding.warning_notMem hall⟩

/-- The two places where the verdict is told, for that run. -/
theorem report_states_verdict_brokenScanner :
    (run brokenEnvironment reportArguments emptyTarget).code = .ok scannerFailed ∧
    scannerFailed ≠ notBegun ∧
    ∃ (before : Host) (report : Json) (lines : List Text),
      before.write "/R/report.json" report.write.toUtf8 =
        .ok (run brokenEnvironment reportArguments emptyTarget).state.session.host ∧
      Report.stated report = some (.text (Verdict.label .notPresent)) ∧
      warning ∉ lines ∧ allClear ∉ lines := by
  have hone : brokenEnvironment.scanners = [brokenScanner] := rfl
  obtain ⟨-, -, -, hcode, -⟩ := run_brokenScanner
  obtain ⟨rules, signature, r, report, lines, -, -, -, hwrite, -, hwarning, hends⟩ :=
    report_states_verdict hone ofArguments_reportArguments (by rfl) (by rfl) hcode (by decide)
  refine ⟨hcode, by decide, r.world.host, report, lines, hwrite, ?_⟩
  rcases hends with ⟨_, _, -, hsuccess, -⟩ | ⟨_, _, -, -, hstated, hclear⟩
  · exact absurd hsuccess (by decide)
  · refine ⟨hstated, fun hmem => ?_, hclear⟩
    rw [← hwarning, hstated, Option.some.injEq, Json.text.injEq] at hmem
    exact absurd hmem (by decide)

end JndiScan.CommandLine.Run

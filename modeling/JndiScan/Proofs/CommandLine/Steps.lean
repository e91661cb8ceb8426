/-
What a run does, step by step, and what it prints on its way. Until the verdict it prints lines
only that cannot be taken for one; then the verdict, or that there is none.
-/
import JndiScan.CommandLine.Run
import JndiScan.Proofs.Effect
import JndiScan.Proofs.Report.Table

namespace JndiScan

open Finding (Silent)

namespace Console

variable {c c' c'' : Console}

/-! ## Lines that tell no verdict -/

/-- From one console to another only lines are printed that cannot be taken for a verdict. -/
def Silently (c c' : Console) : Prop :=
  ∃ lines, c'.lines.toList = c.lines.toList ++ lines ∧ ∀ line ∈ lines, Silent line

theorem Silently.refl (c : Console) : c.Silently c := ⟨[], by simp, List.forall_mem_nil _⟩

theorem Silently.trans (h : c.Silently c') (h' : c'.Silently c'') : c.Silently c'' := by
  obtain ⟨lines, hlines, hsilent⟩ := h
  obtain ⟨lines', hlines', hsilent'⟩ := h'
  refine ⟨lines ++ lines', by rw [hlines', hlines, List.append_assoc], fun line hmem => ?_⟩
  exact (List.mem_append.1 hmem).elim (hsilent line) (hsilent' line)

theorem silently_print {line : Text} (h : Silent line) (c : Console) : c.Silently (c.print line) :=
  ⟨[line], by simp [print], List.forall_mem_singleton.2 h⟩

theorem toList_printAll (lines : List Text) (c : Console) :
    (c.printAll lines).lines.toList = c.lines.toList ++ lines := by
  induction lines generalizing c with
  | nil => simp [printAll]
  | cons line lines ih =>
    have hrest := ih (c.print line)
    rw [printAll] at hrest
    rw [printAll, List.foldl_cons, hrest]
    simp [print]

theorem silently_printAll {lines : List Text} (h : ∀ line ∈ lines, Silent line) (c : Console) :
    c.Silently (c.printAll lines) :=
  ⟨lines, toList_printAll lines c, h⟩

/-- Messages begin with the bracket of their mark. -/
theorem silent_marked {mark message : Text} (h : mark.head? = some (.ofChar '[')) :
    Silent (mark ++ message) := by
  refine Silent.of_head? (c := .ofChar '[') ?_ (by decide) (by decide)
  rw [List.head?_append, h]
  rfl

theorem silently_info (message : Text) (c : Console) : c.Silently (c.info message) :=
  silently_print (silent_marked rfl) c

theorem silently_success (message : Text) (c : Console) : c.Silently (c.success message) :=
  silently_print (silent_marked rfl) c

theorem toList_warn (message : Text) (c : Console) :
    (c.warn message).lines.toList = c.lines.toList ++ ["[!] " ++ message] := by
  simp [warn]

theorem silently_warn (message : Text) (c : Console) : c.Silently (c.warn message) :=
  ⟨_, toList_warn message c, List.forall_mem_singleton.2 (silent_marked rfl)⟩

theorem silently_debug (message : Text) (c : Console) : c.Silently (c.debug message) := by
  rw [debug]
  split
  · exact silently_print (silent_marked rfl) c
  · exact .refl c

end Console

namespace CommandLine.Run

variable {env : Environment} {options : Options} {rules : Rules} {signature : Signature}
variable {target out : Text} {s : RunState} {scanner : Scanner}

/-! ## The steps of a run -/

/-- The rules that options ask for, with their signature. -/
def rulesOf (env : Environment) (host : Host) (options : Options) :
    Except Rules.LoadFault (Rules × Signature) := do
  let rules ←
    match given? options.rules with
    | some path => Rules.load env.readYaml host [(Signature.rulesKey, path)]
    | none => Rules.loadBundled env.readYaml
  pure (rules, ← Rules.signature rules)

theorem loadRules_apply (env : Environment) (options : Options) (s : RunState) :
    loadRules env options s = match rulesOf env s.session.host options with
      | .ok found => .ok (some found) s
      | .error (.rules error) =>
        .ok none { s with console := s.console.warn ("rules invalid error=" ++ error.message) }
      | .error fault => .error (.rules fault) s := by
  have hstep : loadRules env options s = (match rulesOf env s.session.host options with
      | .ok found => (pure (some found) : Run (Option (Rules × Signature)))
      | .error (.rules error) => do
        tell (·.warn ("rules invalid error=" ++ error.message))
        pure none
      | .error fault => throw (RunFault.rules fault)) s := rfl
  rw [hstep]
  cases rulesOf env s.session.host options with
  | ok found => rfl
  | error fault => cases fault <;> rfl

/-- The pool that a run loads from a target. -/
def load (env : Environment) (options : Options) (target : Text) (console : Console)
    (session : Session) : Walk.Outcome Pool Session :=
  let decoding : Decoding :=
    { maxEntrySize := options.maxEntrySize, readDalvik := env.readDalvik, codecs := env.codecs }
  Pool.load decoding options.limits target { console } session

theorem loadPool_apply (env : Environment) (options : Options) (target : Text) (s : RunState) :
    loadPool env options target s =
      let r := load env options target s.console s.session
      let s' := { s with console := r.tally.console, session := r.world }
      match r.fault with
      | some fault => .error (.scan fault) s'
      | none => .ok (r.value, r.tally) s' := by
  have hstep : loadPool env options target s =
      (match (load env options target s.console s.session).fault with
      | some fault => (throw (RunFault.scan fault) : Run (Pool × Walk.Tally))
      | none => pure ((load env options target s.console s.session).value,
          (load env options target s.console s.session).tally))
        { s with
          console := (load env options target s.console s.session).tally.console
          session := (load env options target s.console s.session).world } := rfl
  rw [hstep]
  dsimp only
  cases (load env options target s.console s.session).fault <;> rfl

/-- What a scanner makes of a pool, after its start was told. -/
def scanned (scanner : Scanner) (entry : Option Value) (pool : Pool) (console : Console) :
    EStateM.Result ScannerError Console ScannerResult :=
  (scanner.run entry pool).run (console.debug ("scanner start name=" ++ scanner.name))

/-- The findings that are taken from a scanner, and its name if it failed. -/
def taken (scanner : Scanner) :
    EStateM.Result ScannerError Console ScannerResult → List Finding × List Text
  | .ok result _ => (result.findings, [])
  | .error _ _ => ([], [scanner.name])

/-- The console as a scanner leaves it. -/
def leftBy : EStateM.Result ScannerError Console ScannerResult → Console
  | .ok _ console => console
  | .error _ console => console

theorem tell_apply (f : Console → Console) (s : RunState) :
    tell f s = .ok () { s with console := f s.console } := rfl

theorem get_apply (s : RunState) : (get : Run RunState) s = .ok s s := rfl

theorem runScanner_of_ok {entry : Option Value} {pool : Pool} {result : ScannerResult}
    {console : Console} (h : scanned scanner entry pool s.console = .ok result console) :
    ∃ c, runScanner entry pool scanner s = .ok (some result.findings) { s with console := c } ∧
      console.Silently c := by
  rw [scanned] at h
  refine ⟨_, ?_, Console.silently_debug ("scanner end name=" ++ scanner.name ++ " findings="
    ++ .ofNat result.findings.length) console⟩
  simp only [runScanner, work_bind_apply, tell_apply, get_apply, h]
  rfl

theorem runScanner_of_error {entry : Option Value} {pool : Pool} {error : ScannerError}
    {console : Console} (h : scanned scanner entry pool s.console = .error error console) :
    ∃ c, runScanner entry pool scanner s = .ok none { s with console := c } ∧
      console.Silently c := by
  rw [scanned] at h
  refine ⟨_, ?_, Console.silently_warn ("scanner failed name=" ++ scanner.name ++ " error="
    ++ error.message) console⟩
  simp only [runScanner, work_bind_apply, tell_apply, get_apply, h]
  rfl

theorem runScanners_single (entry : Option Value) (pool : Pool) (scanner : Scanner)
    (s : RunState) :
    ∃ c, runScanners entry pool [scanner] s =
        .ok (taken scanner (scanned scanner entry pool s.console)) { s with console := c } ∧
      (leftBy (scanned scanner entry pool s.console)).Silently c := by
  cases h : scanned scanner entry pool s.console with
  | ok result console =>
    obtain ⟨c, hrun, hsilent⟩ := runScanner_of_ok h
    refine ⟨c, ?_, hsilent⟩
    rw [runScanners, work_bind_apply, hrun]
    show EStateM.Result.ok (result.findings ++ [], []) _ = _
    rw [List.append_nil]
    rfl
  | error error console =>
    obtain ⟨c, hrun, hsilent⟩ := runScanner_of_error h
    refine ⟨c, ?_, hsilent⟩
    rw [runScanners, work_bind_apply, hrun]
    rfl

theorem tellFigures_apply (pool : Pool) (tally : Walk.Tally) (findings : List Finding)
    (s : RunState) :
    ∃ c, tellFigures pool tally findings s = .ok () { s with console := c } ∧
      s.console.Silently c := by
  have hfigures : ∀ classes counts, s.console.Silently ((s.console.info classes).info counts) :=
    fun classes counts => (Console.silently_info classes _).trans (Console.silently_info counts _)
  rw [tellFigures]
  by_cases h : tally.incomplete = true
  · rw [if_pos h]
    exact ⟨_, rfl, (hfigures _ _).trans (Console.silently_warn _ _)⟩
  · rw [if_neg h]
    exact ⟨_, rfl, hfigures _ _⟩

theorem writeReport_apply (h : given? options.out = some out) (report : Json) (s : RunState) :
    writeReport options report s =
      match s.session.host.write out report.write.toUtf8 with
      | .ok host =>
        .ok () { s with
          session := { s.session with host }
          console := s.console.success ("report json=" ++ out) }
      | .error fault => .error (.path fault) s := by
  simp only [writeReport, h, work_bind_apply, get_apply]
  cases s.session.host.write out report.write.toUtf8 <;> rfl

/-- What is said last: the verdict, or that there is none. -/
def ending (signature : Signature) (findings : List Finding) (failed : List Text) : List Text :=
  if failed.isEmpty then Finding.verdictLines findings signature.references.head?
  else ["[!] " ++ ("no verdict; scanner failed name=" ++ Text.joinWith "," failed)]

/-- The exit code of a run that came to its end. -/
def exitCode (failed : List Text) : Nat := if failed.isEmpty then success else scannerFailed

theorem conclude_apply (signature : Signature) (findings : List Finding) (failed : List Text)
    (s : RunState) :
    ∃ c lines, conclude signature findings failed s = .ok (exitCode failed) { s with console := c } ∧
      c.lines.toList = s.console.lines.toList ++ (lines ++ ending signature findings failed) ∧
      ∀ line ∈ lines, Silent line := by
  obtain ⟨lines, hlines, hsilent⟩ := ((Console.silently_print Finding.silent_nil s.console).trans
    (Console.silently_printAll Table.silent_of_mem_lines _)).trans
    (Console.silently_print Finding.silent_nil _)
  rw [conclude]
  by_cases h : failed.isEmpty = true
  · rw [if_pos h, exitCode, if_pos h, ending, if_pos h]
    refine ⟨_, lines, rfl, ?_, hsilent⟩
    rw [Console.toList_printAll, hlines, List.append_assoc]
  · rw [if_neg h, exitCode, if_neg h, ending, if_neg h]
    refine ⟨_, lines, rfl, ?_, hsilent⟩
    rw [Console.toList_warn, hlines, List.append_assoc]

/-! ## Whole scans -/

/-- What a scan loads from its target. -/
def scanLoad (env : Environment) (options : Options) (target : Text) (s : RunState) :
    Walk.Outcome Pool Session :=
  load env options target (s.console.info ("scanning path=" ++ target)) s.session

/-- What the scanner of a run makes of what was loaded. -/
def scanResult (scanner : Scanner) (rules : Rules) (r : Walk.Outcome Pool Session) :
    EStateM.Result ScannerError Console ScannerResult :=
  scanned scanner (rules.lookup Signature.rulesKey) r.value r.tally.console

/-- The report of what was loaded, with what is taken from the scanner. -/
def scanReport (env : Environment) (target : Text) (scanner : Scanner) (rules : Rules)
    (r : Walk.Outcome Pool Session) : Json :=
  report env target r.value r.tally (taken scanner (scanResult scanner rules r)).1

variable {r : Walk.Outcome Pool Session}

theorem scan_of_fault (rules : Rules) (signature : Signature) {fault : Fault}
    (h : (scanLoad env options target s).fault = some fault) :
    ∃ s', scan env options rules signature target s = .error (.scan fault) s' := by
  rw [scanLoad] at h
  simp only [scan, work_bind_apply, tell_apply, loadPool_apply, h]
  exact ⟨_, rfl⟩

/-- A scan whose target was walked through comes to its report. -/
theorem scan_of_loaded (rules : Rules) (signature : Signature) (hone : env.scanners = [scanner])
    (hr : scanLoad env options target s = r) (h : r.fault = none) :
    ∃ c, (leftBy (scanResult scanner rules r)).Silently c ∧
      scan env options rules signature target s =
        (writeReport options (scanReport env target scanner rules r) >>= fun _ =>
          conclude signature (taken scanner (scanResult scanner rules r)).1
            (taken scanner (scanResult scanner rules r)).2)
          { s with console := c, session := r.world } := by
  obtain ⟨c, hrun, hsilent⟩ := runScanners_single (rules.lookup Signature.rulesKey) r.value scanner
    { s with console := r.tally.console, session := r.world }
  obtain ⟨c', hfigures, hsilent'⟩ := tellFigures_apply r.value r.tally
    (taken scanner (scanResult scanner rules r)).1 { s with console := c, session := r.world }
  refine ⟨c', hsilent.trans hsilent', ?_⟩
  rw [scanLoad] at hr
  rw [scanResult] at hfigures
  simp only [scan, scanReport, scanResult, work_bind_apply, tell_apply, loadPool_apply, hr, h, hone,
    hrun, hfigures]

theorem scan_of_unwritten (signature : Signature) (hone : env.scanners = [scanner])
    (hout : given? options.out = some out)
    (hr : scanLoad env options target s = r) (h : r.fault = none) {fault : PathFault}
    (hwrite : r.world.host.write out (scanReport env target scanner rules r).write.toUtf8 =
      .error fault) :
    ∃ s', scan env options rules signature target s = .error (.path fault) s' := by
  obtain ⟨c, -, hscan⟩ := scan_of_loaded rules signature hone hr h
  rw [hscan, work_bind_apply, writeReport_apply hout]
  simp only [hwrite]
  exact ⟨_, rfl⟩

theorem scan_of_written (signature : Signature) (hone : env.scanners = [scanner])
    (hout : given? options.out = some out)
    (hr : scanLoad env options target s = r) (h : r.fault = none) {host : Host}
    (hwrite : r.world.host.write out (scanReport env target scanner rules r).write.toUtf8 =
      .ok host) :
    ∃ c lines, scan env options rules signature target s =
        .ok (exitCode (taken scanner (scanResult scanner rules r)).2)
          { s with console := c, session := { r.world with host } } ∧
      c.lines.toList = (leftBy (scanResult scanner rules r)).lines.toList ++ (lines ++
        ending signature (taken scanner (scanResult scanner rules r)).1
          (taken scanner (scanResult scanner rules r)).2) ∧
      ∀ line ∈ lines, Silent line := by
  obtain ⟨c, hsilent, hscan⟩ := scan_of_loaded rules signature hone hr h
  obtain ⟨before, hbefore, hsilent⟩ :=
    hsilent.trans (Console.silently_success ("report json=" ++ out) c)
  obtain ⟨c', lines, hconclude, hlines, hsilent'⟩ := conclude_apply signature
    (taken scanner (scanResult scanner rules r)).1 (taken scanner (scanResult scanner rules r)).2
    { s with console := c.success ("report json=" ++ out), session := { r.world with host } }
  refine ⟨c', before ++ lines, ?_, ?_, fun line hmem => ?_⟩
  · rw [hscan, work_bind_apply, writeReport_apply hout]
    simp only [hwrite]
    exact hconclude
  · rw [hlines, hbefore]
    simp only [List.append_assoc]
  · exact (List.mem_append.1 hmem).elim (hsilent line) (hsilent' line)

/-! ## Whole runs -/

/-- The state in which a run begins its scan. -/
def opening (options : Options) (session : Session) : RunState :=
  { console := ({ verbose := options.verbose } : Console).info
      (Report.toolName ++ " v" ++ Report.toolVersion)
    session }

/-- How a step that ends a run ends it. -/
def outcomeOf : EStateM.Result RunFault RunState Nat → RunOutcome
  | .ok code state => { code := .ok code, state }
  | .error fault state => { code := .error fault, state }

variable {arguments : List Text} {session : Session} {path : Text}

theorem run_eq (env : Environment) (arguments : List Text) (session : Session) :
    run env arguments session = outcomeOf (withArguments env arguments { session }) := rfl

/-- With rules and a target that is there a run scans the target. -/
theorem run_eq_scan (hoptions : Options.ofArguments arguments = .ok options)
    (hpath : given? options.path = some path)
    (hrules : rulesOf env session.host options = .ok (rules, signature))
    (htarget : session.host.exists? (Path.shown path) = .ok true) :
    run env arguments session =
      outcomeOf (scan env options rules signature (Path.shown path) (opening options session)) := by
  have hwith : withArguments env arguments { session } =
      scan env options rules signature (Path.shown path) (opening options session) := by
    simp only [withArguments, hoptions, withOptions, hpath, work_bind_apply, tell_apply,
      loadRules_apply, hrules, get_apply, htarget]
    rfl
  rw [run_eq, hwith]

/-- A run that does not end as one that could not begin had rules, and a target that is there. -/
theorem begun_of_code (hoptions : Options.ofArguments arguments = .ok options)
    (hpath : given? options.path = some path) {code : Nat}
    (hcode : (run env arguments session).code = .ok code) (hbegun : code ≠ notBegun) :
    (∃ rules signature, rulesOf env session.host options = .ok (rules, signature)) ∧
      session.host.exists? (Path.shown path) = .ok true := by
  rw [run_eq] at hcode
  simp only [withArguments, hoptions, withOptions, hpath, work_bind_apply, tell_apply,
    loadRules_apply] at hcode
  cases hrules : rulesOf env session.host options with
  | error fault =>
    rw [hrules] at hcode
    cases fault with
    | rules error =>
      cases hcode
      exact absurd rfl hbegun
    | _ => cases hcode
  | ok found =>
    refine ⟨⟨found.1, found.2, rfl⟩, ?_⟩
    simp only [hrules, work_bind_apply, get_apply] at hcode
    cases htarget : session.host.exists? (Path.shown path) with
    | error fault =>
      rw [htarget] at hcode
      cases hcode
    | ok found =>
      rw [htarget] at hcode
      cases found with
      | true => rfl
      | false =>
        cases hcode
        exact absurd rfl hbegun

end CommandLine.Run

end JndiScan

/-
All outputs of a scan tell one verdict: the matcher by its answer, the report by the findings and
whether one of them tells a vulnerable class, the console by the lines that it prints of them, and
the listing of places by the places of these findings. There is one finding for each class that the
verdict rests on.
-/
import JndiScan.Proofs.Check.Growth
import JndiScan.Proofs.Check.Order
import JndiScan.Proofs.Text.Order
import JndiScan.Report
import JndiScan.Scanner
import JndiScan.Table

namespace JndiScan

/-- The verdict that a report states. -/
def Report.stated (report : Json) : Option Json :=
  (report.field? "summary").bind (·.field? "verdict")

@[simp] theorem Report.stated_build (header : ReportHeader) (fs : List Finding) :
    Report.stated (Report.build header fs) = some (.text (Report.verdict fs).label) := rfl

theorem Verdict.label_injective : Function.Injective Verdict.label := by
  intro v v' h
  cases v <;> cases v' <;> first | rfl | exact absurd h (by decide)

namespace Pool

/-- Items that tell their keys are listed once each. -/
theorem ListsKeys.nodup_map {P : Text → Prop} {R : Text → α → Prop} {xs : List α}
    (h : ListsKeys P R xs) {keyOf : α → Text} (hkey : ∀ k x, R k x → keyOf x = k) :
    (xs.map keyOf).Nodup := by
  obtain ⟨keys, hlt, -, hall⟩ := h
  have heq : xs.map keyOf = keys := by
    induction hall with
    | nil => rfl
    | cons hR _ ih => rw [List.map_cons, hkey _ _ hR, ih hlt.of_cons]
  rw [heq]
  refine hlt.imp fun {a b} hab hne => ?_
  have hself : compare b b = .eq := Std.ReflCmp.compare_self
  rw [hne, hself] at hab
  cases hab

/-- Items with different keys have different names, since a name tells the key. -/
theorem ListsKeys.nodup_names {P : Text → Prop} {R : Text → α → Prop} {xs : List α}
    (h : ListsKeys P R xs) {entryOf : α → PoolEntry} (hkey : ∀ k x, R k x → (entryOf x).key = k) :
    (xs.map fun x => (entryOf x).name).Nodup := by
  have hkeys := h.nodup_map hkey
  refine List.Nodup.of_map ClassName.slashForm ?_
  rw [List.map_map]
  exact hkeys

end Pool

namespace Finding

variable {s : Signature} {r : CheckResult} {fs : List Finding} {e : PoolEntry}

/-! ## The findings of a check -/

/-- A finding tells a class of the pool: it carries its name and all of its places. -/
structure Tells (severity : Severity) (flag : Bool) (e : PoolEntry) (f : Finding) : Prop where
  severity : f.severity = severity
  flag : f.vulnerableConstructor = flag
  className : f.className = classNameOf e
  /-- The places of the entry, each once, in the order of their texts. -/
  locations : f.locations.Perm e.places
  sorted : f.locations.Pairwise fun p q => Text.le p.text q.text = true
  fingerprint : f.fingerprint = some (f.id ++ "|" ++ e.name)

theorem tells_ofVulnerable (s : Signature) (lookups : List PoolEntry) (e : PoolEntry)
    (ms : List Member) : Tells .critical true e (ofVulnerable s lookups e ms) where
  severity := rfl
  flag := rfl
  className := rfl
  locations := Text.sortBy_perm ..
  sorted := Text.pairwise_sortBy ..
  fingerprint := rfl

theorem tells_ofPresence (s : Signature) (e : PoolEntry) :
    Tells .info false e (ofPresence s e) where
  severity := rfl
  flag := rfl
  className := rfl
  locations := Text.sortBy_perm ..
  sorted := Text.pairwise_sortBy ..
  fingerprint := rfl

/-- Each finding is known by the fingerprint that it carries. -/
theorem Tells.identity_eq {severity : Severity} {flag : Bool} {f : Finding}
    (h : Tells severity flag e f) : f.identity = f.id ++ "|" ++ e.name := by
  have hne : (f.id ++ ("|" : Text) ++ e.name).isEmpty = false := by
    simp [Text.ofString]
  simp only [identity, h.fingerprint, hne, Bool.false_eq_true, if_false]

theorem Tells.fingerprint_eq_identity {severity : Severity} {flag : Bool} {f : Finding}
    (h : Tells severity flag e f) : f.fingerprint = some f.identity := by
  rw [h.fingerprint, h.identity_eq]

theorem ofCheck_of_notPresent (h : r.verdict = .notPresent) : ofCheck s r = [] := by
  simp only [ofCheck, h]

theorem ofCheck_of_patched (h : r.verdict = .patched) :
    ofCheck s r = r.lookups.map (ofPresence s) := by
  simp only [ofCheck, h]

theorem ofCheck_of_vulnerable (h : r.verdict = .vulnerable) :
    ofCheck s r = r.vulnerable.map fun found => ofVulnerable s r.lookups found.1 found.2 := by
  simp only [ofCheck, h]

/-- Without a vulnerable class there is one finding for each class whose presence matters. -/
theorem forall₂_ofCheck_patched (h : r.verdict = .patched) :
    List.Forall₂ (Tells .info false) r.lookups (ofCheck s r) := by
  rw [ofCheck_of_patched h, List.forall₂_map_right_iff, List.forall₂_same]
  exact fun e _ => tells_ofPresence s e

/-- With one there is one finding for each vulnerable class. -/
theorem forall₂_ofCheck_vulnerable (h : r.verdict = .vulnerable) :
    List.Forall₂ (fun found => Tells .critical true found.1) r.vulnerable (ofCheck s r) := by
  rw [ofCheck_of_vulnerable h, List.forall₂_map_right_iff, List.forall₂_same]
  exact fun found _ => tells_ofVulnerable s r.lookups found.1 found.2

/-! ## The verdict in the findings -/

theorem anyVulnerable_eq_true_iff : anyVulnerable fs = true ↔ ∃ f ∈ fs, f.vulnerableConstructor := by
  simp [anyVulnerable]

/-- Where all findings carry the flag, one of them does as soon as there is one. -/
theorem anyVulnerable_of_forall {flag : Bool} (hne : fs ≠ [])
    (h : ∀ f ∈ fs, f.vulnerableConstructor = flag) : anyVulnerable fs = flag := by
  obtain ⟨f, rest, rfl⟩ := List.exists_cons_of_ne_nil hne
  cases flag with
  | true => exact anyVulnerable_eq_true_iff.2 ⟨f, List.mem_cons_self .., h f (List.mem_cons_self ..)⟩
  | false =>
    rw [Bool.eq_false_iff, Ne, anyVulnerable_eq_true_iff]
    rintro ⟨g, hg, hflag⟩
    rw [h g hg] at hflag
    cases hflag

theorem forall_flag_ofCheck_patched (h : r.verdict = .patched) :
    ∀ f ∈ ofCheck s r, f.vulnerableConstructor = false := by
  rw [ofCheck_of_patched h, List.forall_mem_map]
  exact fun e _ => rfl

theorem forall_flag_ofCheck_vulnerable (h : r.verdict = .vulnerable) :
    ∀ f ∈ ofCheck s r, f.vulnerableConstructor = true := by
  rw [ofCheck_of_vulnerable h, List.forall_mem_map]
  exact fun found _ => rfl

/-- The report makes of the findings the verdict that they were made of. -/
theorem verdict_ofCheck (pool : Pool) (s : Signature) :
    Report.verdict (ofCheck s (pool.check s)) = (pool.check s).verdict := by
  rcases pool.check_cases s with ⟨hv, -⟩ | ⟨hv, hl, -⟩ | ⟨hv, -, hne, -⟩
  · rw [ofCheck_of_notPresent hv, hv]
    rfl
  · have hnonempty : ofCheck s (pool.check s) ≠ [] := by
      rw [ofCheck_of_patched hv]
      exact fun hnil => hl (List.map_eq_nil_iff.1 hnil)
    have hflag := anyVulnerable_of_forall hnonempty (forall_flag_ofCheck_patched hv)
    simp [Report.verdict, hflag, hnonempty, hv]
  · have hnonempty : ofCheck s (pool.check s) ≠ [] := by
      rw [ofCheck_of_vulnerable hv]
      exact fun hnil => hne (List.map_eq_nil_iff.1 hnil)
    have hflag := anyVulnerable_of_forall hnonempty (forall_flag_ofCheck_vulnerable hv)
    simp [Report.verdict, hflag, hv]

theorem verdict_eq_vulnerable_iff : Report.verdict fs = .vulnerable ↔ anyVulnerable fs = true := by
  rw [Report.verdict]
  split
  · next h => exact iff_of_true rfl h
  · next h =>
    refine iff_of_false ?_ h
    split <;> simp

/-! ## The verdict on the console -/

/-- What is printed when a finding tells a vulnerable class. -/
def warning : Text := "WARNING: log4j < 2.15.0 vulnerable to CVE-2021-44228 found in:"

/-- What is printed when none does. -/
def allClear : Text := "No vulnerable log4j found."

theorem verdictLines_of_not (h : anyVulnerable fs = false) (reference : Option Text) :
    verdictLines fs reference = [allClear] := by
  simp only [verdictLines, h]
  rfl

/-- Below the warning there are the places and perhaps a reference, none of which reads like the
line that is printed of a clean target. -/
theorem verdictLines_of_vulnerable (h : anyVulnerable fs = true) (reference : Option Text) :
    ∃ more, verdictLines fs reference = warning :: more ∧ allClear ∉ more := by
  have hplace : ∀ p ∈ vulnerableLocations fs, ("\t- " : Text) ++ p.text ≠ allClear := by
    intro p _ heq
    have hhead : some (CodePoint.ofChar '\t') = some (CodePoint.ofChar 'N') :=
      congrArg List.head? heq
    exact absurd hhead (by decide)
  have hreference : ∀ t : Text, ("For more information see: " : Text) ++ t ≠ allClear := by
    intro t heq
    have hhead : some (CodePoint.ofChar 'F') = some (CodePoint.ofChar 'N') :=
      congrArg List.head? heq
    exact absurd hhead (by decide)
  have hnil : allClear ≠ [] := by decide
  refine ⟨_, by simp only [verdictLines, h]; rfl, fun hmem => ?_⟩
  rcases List.mem_append.1 hmem with hmem | hmem
  · obtain ⟨p, hp, heq⟩ := List.mem_map.1 hmem
    exact hplace p hp heq
  · cases reference with
    | none => exact List.not_mem_nil hmem
    | some t =>
      dsimp only at hmem
      split at hmem
      · exact List.not_mem_nil hmem
      · rcases List.mem_pair.1 hmem with heq | heq
        · exact hnil heq
        · exact hreference t heq.symm

theorem warning_mem_verdictLines_iff {reference : Option Text} :
    warning ∈ verdictLines fs reference ↔ anyVulnerable fs = true := by
  cases h : anyVulnerable fs with
  | false =>
    rw [verdictLines_of_not h]
    exact iff_of_false (by decide) (by decide)
  | true =>
    obtain ⟨more, hlines, -⟩ := verdictLines_of_vulnerable h reference
    rw [hlines]
    exact iff_of_true (List.mem_cons_self ..) rfl

theorem allClear_mem_verdictLines_iff {reference : Option Text} :
    allClear ∈ verdictLines fs reference ↔ anyVulnerable fs = false := by
  cases h : anyVulnerable fs with
  | false =>
    rw [verdictLines_of_not h]
    exact iff_of_true (List.mem_cons_self ..) rfl
  | true =>
    obtain ⟨more, hlines, hmore⟩ := verdictLines_of_vulnerable h reference
    rw [hlines, List.mem_cons]
    refine iff_of_false (fun hmem => ?_) (by decide)
    rcases hmem with heq | hmem
    · exact absurd heq (by decide)
    · exact hmore hmem

/-! ## The places of the findings -/

theorem vulnerableLocations_of_forall_not (h : ∀ f ∈ fs, f.vulnerableConstructor = false) :
    vulnerableLocations fs = [] := by
  have hnone : fs.filter (·.vulnerableConstructor) = [] := by
    rw [List.filter_eq_nil_iff]
    intro f hf
    rw [h f hf]
    exact Bool.false_ne_true
  rw [vulnerableLocations, hnone, List.flatMap_nil, List.eraseDups_nil, Text.sortBy,
    List.mergeSort_nil]

theorem vulnerableLocations_of_forall (h : ∀ f ∈ fs, f.vulnerableConstructor = true) :
    vulnerableLocations fs = Text.sortBy Provenance.text (fs.flatMap (·.locations)).eraseDups := by
  rw [vulnerableLocations, List.filter_eq_self.2 h]

/-- Findings name the places of the classes that they tell, and no others. -/
theorem mem_flatMap_locations {p : Provenance} (h : r.verdict = .vulnerable) :
    p ∈ (ofCheck s r).flatMap (·.locations) ↔
      p ∈ r.vulnerable.flatMap fun found => found.1.places := by
  have hplaces : ∀ e : PoolEntry, p ∈ e.sortedPlaces ↔ p ∈ e.places := fun e =>
    (Text.sortBy_perm Provenance.text e.places).mem_iff
  rw [ofCheck_of_vulnerable h, List.flatMap_map]
  simp only [List.mem_flatMap, ofVulnerable, hplaces]

theorem vulnerableLocations_perm (pool : Pool) (s : Signature) :
    (vulnerableLocations (ofCheck s (pool.check s))).Perm (pool.check s).places := by
  rcases pool.check_cases s with ⟨hv, -, -, hp⟩ | ⟨hv, -, -, hp⟩ | ⟨hv, -, -, hp⟩
  · rw [ofCheck_of_notPresent hv, vulnerableLocations_of_forall_not (List.forall_mem_nil _), hp]
  · rw [vulnerableLocations_of_forall_not (forall_flag_ofCheck_patched hv), hp]
  · rw [vulnerableLocations_of_forall (forall_flag_ofCheck_vulnerable hv), hp]
    refine (Text.sortBy_perm ..).trans ?_
    refine (List.perm_ext_iff_of_nodup (Pool.nodup_eraseDups _) (Pool.nodup_eraseDups _)).2 ?_
    intro p
    rw [List.mem_eraseDups, List.mem_eraseDups]
    exact mem_flatMap_locations hv

/-! ## Findings are told apart -/

/-- Findings of one identifier have different fingerprints when their classes have different
names. -/
theorem nodup_map_identity {id : Text} {xs : List α} {entryOf : α → PoolEntry}
    {findingOf : α → Finding}
    (hfinding : ∀ x, (findingOf x).identity = id ++ "|" ++ (entryOf x).name)
    (hnames : (xs.map fun x => (entryOf x).name).Nodup) :
    ((xs.map findingOf).map identity).Nodup := by
  have hmap : (xs.map findingOf).map identity =
      (xs.map fun x => (entryOf x).name).map fun name => id ++ "|" ++ name := by
    simp only [List.map_map, Function.comp_def, hfinding]
  rw [hmap]
  exact hnames.map fun _ _ => List.append_cancel_left

/-- Every finding of a check carries its fingerprint. -/
theorem fingerprint_of_mem_ofCheck {f : Finding} (hf : f ∈ ofCheck s r) :
    f.fingerprint = some f.identity := by
  cases hv : r.verdict with
  | notPresent =>
    rw [ofCheck_of_notPresent hv] at hf
    cases hf
  | patched =>
    rw [ofCheck_of_patched hv] at hf
    obtain ⟨e, -, rfl⟩ := List.mem_map.1 hf
    exact (tells_ofPresence s e).fingerprint_eq_identity
  | vulnerable =>
    rw [ofCheck_of_vulnerable hv] at hf
    obtain ⟨found, -, rfl⟩ := List.mem_map.1 hf
    exact (tells_ofVulnerable s _ found.1 found.2).fingerprint_eq_identity

theorem nodup_identity_ofCheck (os : List Occurrence) (s : Signature) :
    ((ofCheck s ((Pool.ofOccurrences os).check s)).map identity).Nodup := by
  generalize hr : (Pool.ofOccurrences os).check s = r
  cases hv : r.verdict with
  | notPresent =>
    rw [ofCheck_of_notPresent hv]
    exact List.nodup_nil
  | patched =>
    have hlist := Pool.listsKeys_withSuffix os s.presenceClass
    rw [← Pool.lookups_eq, hr] at hlist
    rw [ofCheck_of_patched hv]
    refine nodup_map_identity (fun e => (tells_ofPresence s e).identity_eq) ?_
    exact hlist.nodup_names fun _ _ => Pool.EntryUnder.key_eq
  | vulnerable =>
    have hlist := Pool.listsKeys_vulnerable os s
    rw [hr] at hlist
    rw [ofCheck_of_vulnerable hv]
    refine nodup_map_identity (fun found => (tells_ofVulnerable s _ found.1 found.2).identity_eq) ?_
    exact hlist.nodup_names fun _ _ hentry => hentry.1.key_eq

end Finding

namespace Pool

open Finding (vulnerableLocations anyVulnerable verdictLines Tells)

/-- The places that the findings list, as they are shown, are those of the check in order. -/
theorem map_text_vulnerableLocations (pool : Pool) (s : Signature) :
    (vulnerableLocations (Finding.ofCheck s (pool.check s))).map Provenance.text =
      Text.sortBy id ((pool.check s).places.map Provenance.text) := by
  have hperm := (Finding.vulnerableLocations_perm pool s).map Provenance.text
  rw [← Text.sortBy_id_congr hperm, vulnerableLocations, Text.map_sortBy]
  exact (Text.sortBy_id_congr (Text.sortBy_perm id _)).symm

/-- Under rules that give a signature the scanner returns what the check with it finds. -/
theorem exists_run_log4shell {entry : Option Value} {s : Signature} (pool : Pool)
    (console : Console) (h : Signature.ofEntry (entry.getD .null) = .ok s) :
    ∃ console', (Scanner.log4shell.run entry pool).run console = .ok
      { findings := Finding.ofCheck s (pool.check s)
        stats := { classes := pool.size, stage := (pool.check s).stage
                   verdict := (pool.check s).verdict
                   findings := (Finding.ofCheck s (pool.check s)).length } } console' := by
  have hcheck : Scanner.log4shell.run entry pool = Scanner.check s pool := by
    simp only [Scanner.log4shell, h]
  rw [hcheck, Scanner.check]
  by_cases hv : (pool.check s).verdict = .patched
  · simp only [hv, if_true]
    exact ⟨_, rfl⟩
  · simp only [hv, if_false]
    exact ⟨_, rfl⟩

/-! ## One verdict -/

/-- All outputs tell one verdict. Under rules that give a signature the scanner returns, and of the
findings that it leaves the report states the verdict of the check; one of them tells a vulnerable
class, the console warns, and the check finds something vulnerable, all or none of these; the places
that are listed are those of the check. There is one finding for each class that the verdict rests
on and no other, it names all places of the class, and no two have one fingerprint. -/
theorem findings_tell_check (os : List Occurrence) (entry : Option Value) (s : Signature)
    (console : Console) (h : Signature.ofEntry (entry.getD .null) = .ok s) :
    let r := (ofOccurrences os).check s
    ∃ result console',
      (Scanner.log4shell.run entry (ofOccurrences os)).run console = .ok result console' ∧
      (∀ header, Report.stated (Report.build header result.findings) =
        some (.text r.verdict.label)) ∧
      result.stats.verdict = r.verdict ∧
      (anyVulnerable result.findings = true ↔ r.verdict = .vulnerable) ∧
      (∀ reference,
        (Finding.warning ∈ verdictLines result.findings reference ↔ r.verdict = .vulnerable) ∧
        (Finding.allClear ∈ verdictLines result.findings reference ↔ r.verdict ≠ .vulnerable)) ∧
      (vulnerableLocations result.findings).map Provenance.text =
        Text.sortBy id (r.places.map Provenance.text) ∧
      (r.verdict = .vulnerable →
        List.Forall₂ (fun found => Tells .critical true found.1) r.vulnerable result.findings) ∧
      (r.verdict = .patched → List.Forall₂ (Tells .info false) r.lookups result.findings) ∧
      (r.verdict = .notPresent → result.findings = []) ∧
      (∀ f ∈ result.findings, f.fingerprint = some f.identity) ∧
      (result.findings.map Finding.identity).Nodup := by
  intro r
  have hverdict : Report.verdict (Finding.ofCheck s r) = r.verdict :=
    Finding.verdict_ofCheck (ofOccurrences os) s
  have hany : anyVulnerable (Finding.ofCheck s r) = true ↔ r.verdict = .vulnerable := by
    rw [← Finding.verdict_eq_vulnerable_iff, hverdict]
  obtain ⟨console', hrun⟩ := exists_run_log4shell (ofOccurrences os) console h
  refine ⟨_, console', hrun, fun header => ?_, rfl, hany, fun reference => ⟨?_, ?_⟩, ?_, ?_, ?_, ?_,
    fun f => Finding.fingerprint_of_mem_ofCheck, Finding.nodup_identity_ofCheck os s⟩
  · rw [Report.stated_build, hverdict]
  · rw [Finding.warning_mem_verdictLines_iff, hany]
  · rw [Finding.allClear_mem_verdictLines_iff, ← Bool.not_eq_true, hany]
  · exact map_text_vulnerableLocations (ofOccurrences os) s
  · exact Finding.forall₂_ofCheck_vulnerable
  · exact Finding.forall₂_ofCheck_patched
  · exact Finding.ofCheck_of_notPresent

/-- An old release is told by its one finding, with the built-in signature. -/
theorem findings_tell_check_oldManager :
    Signature.ofEntry ((none : Option Value).getD .null) = .ok .builtIn ∧
    ∃ result console',
      (Scanner.log4shell.run none (ofOccurrences [lookupClass, oldManager])).run
        { verbose := false } = .ok result console' ∧
      (∀ header, Report.stated (Report.build header result.findings) =
        some (.text (Verdict.label .vulnerable))) ∧
      anyVulnerable result.findings = true ∧
      (vulnerableLocations result.findings).map Provenance.text = [("/old.jar" : Text)] ∧
      result.findings.length = 1 := by
  have hrules : Signature.ofEntry ((none : Option Value).getD .null) = .ok .builtIn := by rfl
  have hverdict : ((ofOccurrences [lookupClass, oldManager]).check .builtIn).verdict =
      .vulnerable := by decide +kernel
  have hplaces : ((ofOccurrences [lookupClass, oldManager]).check .builtIn).places =
      [oldManager.place] := by decide +kernel
  have hcount : ((ofOccurrences [lookupClass, oldManager]).check .builtIn).vulnerable.length = 1 := by
    decide +kernel
  obtain ⟨result, console', hrun, hreport, -, hany, -, hlist, hfound, -⟩ :=
    findings_tell_check [lookupClass, oldManager] none .builtIn { verbose := false } hrules
  rw [hverdict] at hreport hany
  refine ⟨hrules, result, console', hrun, hreport, hany.2 rfl, ?_, ?_⟩
  · rw [hlist, hplaces, List.map_singleton, Text.sortBy, List.mergeSort_singleton]
    rfl
  · rw [← (hfound hverdict).length_eq, hcount]

end Pool

end JndiScan

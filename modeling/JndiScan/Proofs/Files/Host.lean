/-
Following paths that are names from the root on, where no link is met: they lead where their names
say. What such a path reads, makes and writes is what stands, or is put, at its place.
-/
import JndiScan.Files.Host
import JndiScan.Proofs.Effect
import JndiScan.Proofs.Files.Path
import JndiScan.Proofs.Files.Tree

namespace JndiScan.Host

open JndiScan.Path (Plain)

variable {host host' : Host} {links : Nat} {place names : List Text} {name : Text}
variable {entries : List (Text × FileTree)} {t : FileTree}

theorem bind_eq_ok_iff {x : Except ε α} {f : α → Except ε β} {y : β} :
    (x >>= f) = .ok y ↔ ∃ a, x = .ok a ∧ f a = .ok y := by
  cases x with
  | error e => simp [bind, Except.bind]
  | ok a => simp [bind, Except.bind]

theorem mapError_eq_ok_iff {x : Except ε α} {f : ε → ε'} {y : α} :
    x.mapError f = .ok y ↔ x = .ok y := by
  cases x <;> simp [Except.mapError]

theorem bind_eq_error_iff {x : Except ε α} {f : α → Except ε β} {e : ε} :
    (x >>= f) = .error e ↔ x = .error e ∨ ∃ a, x = .ok a ∧ f a = .error e := by
  cases x with
  | error e' => simp [bind, Except.bind]
  | ok a => simp [bind, Except.bind]

theorem mapError_eq_error_iff {x : Except ε α} {f : ε → ε'} {e' : ε'} :
    x.mapError f = .error e' ↔ ∃ e, x = .error e ∧ f e = e' := by
  cases x <;> simp [Except.mapError]

theorem steps_ofNames (hns : names ≠ []) (h : ∀ n ∈ names, Plain n) :
    steps (Path.ofNames names) = names := by
  obtain ⟨init, n, rfl⟩ : ∃ init n, names = init ++ [n] :=
    ⟨_, _, (List.dropLast_append_getLast hns).symm⟩
  have hn : Plain n := h n (List.mem_append_right _ (List.mem_singleton_self n))
  have hlast : ((Path.ofNames (init ++ [n])).splitOn Path.slash).getLast? = some n := by
    rw [Path.splitOn_ofNames hns h, ← List.cons_append, List.getLast?_concat]
  have hdirectory : ¬ (some n = some [] || some n = some Path.here) = true := by
    simp [hn.ne_nil, hn.ne_here]
  rw [steps, Path.names_ofNames h]
  simp only [hlast, if_neg hdirectory, List.append_nil]

/-! ## Following names -/

/-- No link stands on the way from a place along names, nor at its end. -/
def NoLink (host : Host) (place names : List Text) : Prop :=
  ∀ way, way <+: names → ∀ target, host.root.at? (place ++ way) ≠ some (.link target)

theorem NoLink.tail (h : NoLink host place (name :: names)) :
    NoLink host (place ++ [name]) names := by
  intro way hway target
  rw [List.append_assoc]
  exact h _ (List.cons_prefix_cons.2 ⟨rfl, hway⟩) target

theorem follow_cons (hd : host.root.at? place.reverse = some (.directory entries))
    (hn : Plain name) :
    follow host links place (name :: names) =
      if Path.octetLength name > Path.maxName then .error .nameTooLong
      else match FileTree.lookup name entries with
        | none => if names.isEmpty then .ok (.absent (name :: place).reverse) else .error .notFound
        | some (.link target) =>
          match links with
          | 0 => .error .tooManyLinks
          | left + 1 => follow host left (if Path.isAbsolute target then [] else place)
            (steps target ++ names)
        | some _ => follow host links (name :: place) names := by
  rw [follow, hd]
  exact (if_neg hn.ne_here).trans (if_neg hn.ne_above)

theorem lookup_eq_at? (hd : host.root.at? place = some (.directory entries)) (name : Text) :
    FileTree.lookup name entries = host.root.at? (place ++ [name]) := by
  rw [FileTree.at?_append, hd]
  show _ = (FileTree.lookup name entries).bind _
  cases FileTree.lookup name entries <;> rfl

/-- Names that lead to a directory are followed to it, whatever comes after them. -/
theorem follow_append (hn : ∀ n ∈ names, Plain n)
    (hlength : ∀ n ∈ names, Path.octetLength n ≤ Path.maxName)
    (hd : host.root.at? (place.reverse ++ names) = some (.directory entries)) (rest : List Text) :
    follow host links place (names ++ rest) = follow host links (names.reverse ++ place) rest := by
  induction names generalizing place with
  | nil => rfl
  | cons name names ih =>
    have hsplit : place.reverse ++ name :: names = (name :: place).reverse ++ names := by simp
    obtain ⟨above, habove⟩ := FileTree.at?_of_append (List.cons_ne_nil name names) hd
    have hnext :
        ∃ entries', host.root.at? (place.reverse ++ [name]) = some (.directory entries') := by
      rw [← List.reverse_cons]
      rw [hsplit] at hd
      by_cases hnil : names = []
      · rw [hnil, List.append_nil] at hd
        exact ⟨_, hd⟩
      · exact FileTree.at?_of_append hnil hd
    obtain ⟨entries', hnext⟩ := hnext
    rw [List.cons_append, follow_cons habove (hn name (List.mem_cons_self ..)),
      if_neg (Nat.not_lt.2 (hlength name (List.mem_cons_self ..))), lookup_eq_at? habove, hnext]
    simp only
    rw [ih (fun n hmem => hn n (List.mem_cons_of_mem _ hmem))
      (fun n hmem => hlength n (List.mem_cons_of_mem _ hmem)) (hsplit ▸ hd)]
    simp

/-- The last of names is looked up in the directory that the others lead to. -/
theorem follow_concat {init : List Text} {last : Text} (hn : ∀ n ∈ init ++ [last], Plain n)
    (hlength : ∀ n ∈ init ++ [last], Path.octetLength n ≤ Path.maxName)
    (hd : host.root.at? (place.reverse ++ init) = some (.directory entries))
    (hlink : ∀ target, host.root.at? (place.reverse ++ (init ++ [last])) ≠ some (.link target)) :
    follow host links place (init ++ [last]) =
      .ok (if host.root.at? (place.reverse ++ (init ++ [last])) = none
        then .absent (place.reverse ++ (init ++ [last]))
        else .present (place.reverse ++ (init ++ [last]))) := by
  have hmem : last ∈ init ++ [last] := List.mem_append_right _ (List.mem_singleton_self last)
  have hrev : (init.reverse ++ place).reverse = place.reverse ++ init := by simp
  have hd' : host.root.at? (init.reverse ++ place).reverse = some (.directory entries) := hrev ▸ hd
  rw [follow_append (fun n hi => hn n (List.mem_append_left _ hi))
    (fun n hi => hlength n (List.mem_append_left _ hi)) hd, follow_cons hd' (hn last hmem),
    if_neg (Nat.not_lt.2 (hlength last hmem)), lookup_eq_at? hd', hrev, List.append_assoc]
  cases hat : host.root.at? (place.reverse ++ (init ++ [last])) with
  | none => simp
  | some t =>
    cases t with
    | link target => exact absurd hat (hlink target)
    | file content => simp [follow]
    | directory entries' => simp [follow]

/-- Names are followed to what stands at their place, unless it is a link. -/
theorem follow_of_at? (hn : ∀ n ∈ names, Plain n)
    (hlength : ∀ n ∈ names, Path.octetLength n ≤ Path.maxName)
    (ht : host.root.at? (place.reverse ++ names) = some t) (hlink : ∀ target, t ≠ .link target) :
    follow host links place names = .ok (.present (place.reverse ++ names)) := by
  by_cases hnil : names = []
  · rw [hnil, follow, List.append_nil]
  · obtain ⟨init, last, rfl⟩ : ∃ init last, names = init ++ [last] :=
      ⟨_, _, (List.dropLast_append_getLast hnil).symm⟩
    have hinit := ht
    rw [← List.append_assoc] at hinit
    obtain ⟨entries, hd⟩ := FileTree.at?_of_append (List.cons_ne_nil last []) hinit
    have hlast :
        ∀ target, host.root.at? (place.reverse ++ (init ++ [last])) ≠ some (.link target) := by
      rw [ht]
      exact fun target heq => hlink target (Option.some.inj heq)
    rw [follow_concat hn hlength hd hlast, ht, if_neg (Option.some_ne_none t)]

/-- Where names lead when no link is met: to what stands at their place, or to a last name that its
directory does not hold. All of the names are short enough. -/
theorem follow_eq_ok (hn : ∀ n ∈ names, Plain n) (hlink : NoLink host place.reverse names)
    (hplace : ∃ t, host.root.at? place.reverse = some t) {landing : Landing}
    (h : follow host links place names = .ok landing) :
    (∀ n ∈ names, Path.octetLength n ≤ Path.maxName) ∧
    ((landing = .present (place.reverse ++ names) ∧
        ∃ t, host.root.at? (place.reverse ++ names) = some t) ∨
      ∃ init last entries, names = init ++ [last] ∧
        landing = .absent (place.reverse ++ names) ∧
        host.root.at? (place.reverse ++ init) = some (.directory entries) ∧
        host.root.at? (place.reverse ++ names) = none) := by
  induction names generalizing place with
  | nil =>
    rw [follow] at h
    cases h
    rw [List.append_nil]
    exact ⟨fun _ hmem => absurd hmem List.not_mem_nil, .inl ⟨rfl, hplace⟩⟩
  | cons name names ih =>
    have hname := hn name (List.mem_cons_self ..)
    obtain ⟨t, ht⟩ := hplace
    cases t with
    | file content => rw [follow, ht] at h; cases h
    | link target => rw [follow, ht] at h; cases h
    | directory entries =>
      have hassoc : (name :: place).reverse ++ names = place.reverse ++ name :: names := by simp
      rw [follow_cons ht hname] at h
      split at h
      · cases h
      · next hle =>
        have hle := Nat.not_lt.1 hle
        rw [lookup_eq_at? ht] at h
        cases hu : host.root.at? (place.reverse ++ [name]) with
        | none =>
          rw [hu] at h
          cases names with
          | nil =>
            cases h
            refine ⟨fun n hmem => List.mem_singleton.1 hmem ▸ hle,
              .inr ⟨[], name, entries, rfl, ?_, ?_, hu⟩⟩
            · rw [List.reverse_cons]
            · rwa [List.append_nil]
          | cons next names => cases h
        | some u =>
          rw [hu] at h
          have hnext : follow host links (name :: place) names = .ok landing := by
            cases u with
            | link target => exact absurd hu (hlink [name] (by simp) target)
            | file content => exact h
            | directory entries' => exact h
          obtain ⟨hlength, hcases⟩ := ih (fun n hmem => hn n (List.mem_cons_of_mem _ hmem))
            (by rw [List.reverse_cons]; exact hlink.tail) ⟨u, by rw [List.reverse_cons]; exact hu⟩
            hnext
          refine ⟨fun n hmem => ?_, ?_⟩
          · rcases List.mem_cons.1 hmem with rfl | hmem
            · exact hle
            · exact hlength n hmem
          · rw [hassoc] at hcases
            rcases hcases with hpresent | ⟨init, last, entries', rfl, hlanding, hinit, habsent⟩
            · exact .inl hpresent
            · refine .inr ⟨name :: init, last, entries', rfl, hlanding, ?_, habsent⟩
              rwa [List.reverse_cons, List.append_assoc] at hinit

/-! ## Reading -/

/-- Names that make a path which the system takes, when they are written from the root on. -/
structure Usable (names : List Text) : Prop where
  ne_nil : names ≠ []
  plain : ∀ n ∈ names, Plain n
  checked : Path.check (Path.ofNames names) = .ok ()
  path_le : Path.octetLength (Path.ofNames names) ≤ Path.maxPath
  name_le : ∀ n ∈ names, Path.octetLength n ≤ Path.maxName

instance (names : List Text) : Decidable (Usable names) :=
  decidable_of_iff
    (names ≠ [] ∧ (∀ n ∈ names, Plain n) ∧ Path.check (Path.ofNames names) = .ok () ∧
      Path.octetLength (Path.ofNames names) ≤ Path.maxPath ∧
      ∀ n ∈ names, Path.octetLength n ≤ Path.maxName)
    ⟨fun ⟨hne, hplain, hchecked, hpath, hname⟩ => ⟨hne, hplain, hchecked, hpath, hname⟩,
      fun h => ⟨h.ne_nil, h.plain, h.checked, h.path_le, h.name_le⟩⟩

theorem isEmpty_ofNames (names : List Text) : (Path.ofNames names).isEmpty = false := rfl

theorem locate_eq_ok_iff {landing : Landing} :
    host.locate (Path.ofNames names) = .ok landing ↔
      Path.check (Path.ofNames names) = .ok () ∧
        Path.octetLength (Path.ofNames names) ≤ Path.maxPath ∧
        host.follow maxLinks [] (steps (Path.ofNames names)) = .ok landing := by
  rw [locate, bind_eq_ok_iff, Path.isAbsolute_ofNames, isEmpty_ofNames]
  simp only [if_true, if_false, Bool.false_eq_true]
  by_cases hpath : Path.octetLength (Path.ofNames names) ≤ Path.maxPath
  · simp only [Nat.not_lt.2 hpath, hpath, if_false, true_and]
    cases host.follow maxLinks [] (steps (Path.ofNames names)) with
    | ok found =>
      simp only [Except.ok.injEq]
      exact ⟨fun ⟨_, h⟩ => h, fun h => ⟨(), h⟩⟩
    | error e => simp
  · simp [hpath, Nat.not_le.1 hpath]

/-- A file is read by the names of its place. -/
theorem read_of_at? (h : Usable names) {content : Bytes}
    (ht : host.root.at? names = some (.file content)) :
    host.read (Path.ofNames names) = .ok content := by
  have hfollow : host.follow maxLinks [] names = .ok (.present names) :=
    follow_of_at? h.plain h.name_le ht fun _ heq => by cases heq
  have hlocate : host.locate (Path.ofNames names) = .ok (.present names) :=
    locate_eq_ok_iff.2 ⟨h.checked, h.path_le, by rwa [steps_ofNames h.ne_nil h.plain]⟩
  have hfind : host.find (Path.ofNames names) = .ok (.file content) :=
    bind_eq_ok_iff.2 ⟨_, hlocate, by simp only [ht]⟩
  exact bind_eq_ok_iff.2 ⟨_, hfind, rfl⟩

theorem steps_slash_ofNames (hns : names ≠ []) (h : ∀ n ∈ names, Plain n) :
    steps (Path.slash :: Path.ofNames names) = names := by
  have hsplit : Text.splitOn Path.slash (Path.slash :: Path.ofNames names) = [] :: [] :: names := by
    rw [Text.splitOn, if_pos rfl, Path.splitOn_ofNames hns h]
  have hsteps := steps_ofNames hns h
  rw [steps, Path.splitOn_ofNames hns h] at hsteps
  rw [steps, hsplit, Path.names_slash_cons]
  exact hsteps

/-- So it is with one slash more, as long as the path is not too long for the system. -/
theorem read_slash_of_at? (h : Usable names) {content : Bytes}
    (ht : host.root.at? names = some (.file content))
    (hpath : Path.octetLength (Path.slash :: Path.ofNames names) ≤ Path.maxPath) :
    host.read (Path.slash :: Path.ofNames names) = .ok content := by
  have hfollow : host.follow maxLinks [] names = .ok (.present names) :=
    follow_of_at? h.plain h.name_le ht fun _ heq => by cases heq
  have hchecked : Path.check (Path.slash :: Path.ofNames names) = .ok () :=
    (Path.check_append_iff (t := [Path.slash])).2 ⟨rfl, h.checked⟩
  have hlocate : host.locate (Path.slash :: Path.ofNames names) = .ok (.present names) := by
    refine bind_eq_ok_iff.2 ⟨(), hchecked, ?_⟩
    rw [steps_slash_ofNames h.ne_nil h.plain]
    simp only [Path.isAbsolute, List.head?_cons, decide_true, if_true, List.isEmpty_cons,
      Bool.false_eq_true, if_false, Nat.not_lt.2 hpath, hfollow]
  have hfind : host.find (Path.slash :: Path.ofNames names) = .ok (.file content) :=
    bind_eq_ok_iff.2 ⟨_, hlocate, by simp only [ht]⟩
  exact bind_eq_ok_iff.2 ⟨_, hfind, rfl⟩

/-! ## Writing -/

theorem exists_at?_root (host : Host) : ∃ t, host.root.at? (([] : List Text).reverse) = some t :=
  ⟨host.root, rfl⟩

theorem parts_ofNames (hns : names ≠ []) (h : ∀ n ∈ names, Plain n) :
    (((Path.ofNames names).splitOn Path.slash).filter fun n => !n.isEmpty) = names := by
  rw [Path.splitOn_ofNames hns h, List.filter_cons_of_neg (by simp)]
  exact List.filter_eq_self.2 fun n hn => by simp [(h n hn).ne_nil]

/-- Where no link is met, a file is written at the place that its names say: its directory is there,
and nothing but perhaps an old file stands at the place. -/
theorem placeToWrite_eq_ok {init : List Text} {last : Text}
    (h : ∀ n ∈ init ++ [last], Plain n) (hlink : NoLink host [] (init ++ [last]))
    {links : Nat} {found : List Text}
    (hplace : placeToWrite host place (Path.ofNames (init ++ [last])) links = .ok found) :
    found = init ++ [last] ∧ (∀ n ∈ init ++ [last], Path.octetLength n ≤ Path.maxName) ∧
      (∃ entries, host.root.at? init = some (.directory entries)) ∧
      (host.root.at? (init ++ [last]) = none ∨
        ∃ content, host.root.at? (init ++ [last]) = some (.file content)) := by
  have hlast : Plain last := h last (List.mem_append_right _ (List.mem_singleton_self last))
  have hinit : ∀ n ∈ init, Plain n := fun n hn => h n (List.mem_append_left _ hn)
  have hend : ¬ (last = Path.here || last = Path.above) = true := by
    simp [hlast.ne_here, hlast.ne_above]
  have hhere : init.filter (· ≠ Path.here) = init :=
    List.filter_eq_self.2 fun n hn => by simp [(hinit n hn).ne_here]
  cases links with
  | zero => rw [placeToWrite] at hplace; cases hplace
  | succ links =>
    rw [placeToWrite, parts_ofNames (by simp) h, Path.isAbsolute_ofNames] at hplace
    simp only [List.getLast?_concat, Option.getD_some, List.dropLast_concat, if_neg hend, hhere,
      if_true] at hplace
    obtain ⟨landing, hfollow, hplace⟩ := bind_eq_ok_iff.1 hplace
    have hway : NoLink host ([] : List Text).reverse init :=
      fun way hw => hlink way (hw.trans (List.prefix_append init [last]))
    obtain ⟨hlength, hpresent | ⟨_, _, _, -, habsent, -⟩⟩ :=
      follow_eq_ok hinit hway (exists_at?_root host) hfollow
    · obtain ⟨rfl, t, ht⟩ := hpresent
      rw [List.reverse_nil, List.nil_append] at ht
      simp only [List.reverse_nil, List.nil_append, ht] at hplace
      cases t with
      | file content => cases hplace
      | link target => cases hplace
      | directory entries =>
        simp only at hplace
        split at hplace
        · cases hplace
        · split at hplace
          · cases hplace
          · next hle =>
            have hname : ∀ n ∈ init ++ [last], Path.octetLength n ≤ Path.maxName := by
              intro n hn
              rcases List.mem_append.1 hn with hn | hn
              · exact hlength n hn
              · rw [List.mem_singleton.1 hn]
                exact Nat.not_lt.1 hle
            rw [lookup_eq_at? ht] at hplace
            cases hold : host.root.at? (init ++ [last]) with
            | none =>
              rw [hold] at hplace
              cases hplace
              exact ⟨rfl, hname, ⟨entries, ht⟩, .inl rfl⟩
            | some old =>
              rw [hold] at hplace
              cases old with
              | directory inside => cases hplace
              | link target => exact absurd hold (hlink _ List.prefix_rfl target)
              | file content =>
                cases hplace
                exact ⟨rfl, hname, ⟨entries, ht⟩, .inr ⟨content, rfl⟩⟩
    · rw [habsent] at hplace
      cases hplace

/-- What writing a file by the names of its place does, where no link is met. -/
theorem write_eq_ok (hns : names ≠ []) (h : ∀ n ∈ names, Plain n) (hlink : NoLink host [] names)
    {content : Bytes} (hwrite : host.write (Path.ofNames names) content = .ok host') :
    Usable names ∧ host' = host.put (.file content) names ∧
      (∃ entries, host.root.at? names.dropLast = some (.directory entries)) ∧
      (host.root.at? names = none ∨ ∃ old, host.root.at? names = some (.file old)) := by
  obtain ⟨init, last, rfl⟩ : ∃ init last, names = init ++ [last] :=
    ⟨_, _, (List.dropLast_append_getLast hns).symm⟩
  obtain ⟨⟨⟩, hcheck, hwrite⟩ := bind_eq_ok_iff.1 hwrite
  rw [isEmpty_ofNames] at hwrite
  simp only [Bool.false_eq_true, if_false] at hwrite
  by_cases hpath : Path.octetLength (Path.ofNames (init ++ [last])) ≤ Path.maxPath
  · simp only [Nat.not_lt.2 hpath, if_false] at hwrite
    cases hplace : placeToWrite host host.workingDirectory.reverse
        (Path.ofNames (init ++ [last])) (maxLinks + 1) with
    | error e => rw [hplace] at hwrite; cases hwrite
    | ok found =>
      rw [hplace] at hwrite
      obtain ⟨rfl, hlength, hdirectory, hold⟩ := placeToWrite_eq_ok h hlink hplace
      cases hwrite
      refine ⟨⟨hns, h, hcheck, hpath, hlength⟩, rfl, ?_, hold⟩
      rwa [List.dropLast_concat]
  · simp only [Nat.not_le.1 hpath, if_true] at hwrite
    cases hwrite

/-- Where the names of a place lead when no link is met: to what stands there, or to a last name that
its directory does not hold. -/
theorem locate_ofNames_eq_ok (h : ∀ n ∈ names, Plain n) (hlink : NoLink host [] names)
    {landing : Landing} (hlocate : host.locate (Path.ofNames names) = .ok landing) :
    (landing = .present names ∧ ∃ t, host.root.at? names = some t) ∨
      names ≠ [] ∧ landing = .absent names ∧
        (∃ entries, host.root.at? names.dropLast = some (.directory entries)) ∧
        host.root.at? names = none := by
  obtain ⟨-, -, hfollow⟩ := locate_eq_ok_iff.1 hlocate
  by_cases hns : names = []
  · -- The path is a slash, which asks for the root as a directory.
    subst hns
    have hroot : host.root.at? ([] : List Text).reverse = some host.root := rfl
    rw [show steps (Path.ofNames []) = [Path.here] from rfl, follow, hroot] at hfollow
    cases hr : host.root with
    | file content => rw [hr] at hfollow; cases hfollow
    | link target => rw [hr] at hfollow; cases hfollow
    | directory entries =>
      rw [hr] at hfollow
      simp only [if_true, follow] at hfollow
      cases hfollow
      exact .inl ⟨rfl, _, rfl⟩
  · rw [steps_ofNames hns h] at hfollow
    obtain ⟨-, hpresent | ⟨init, last, entries, rfl, habsent, hd, hat⟩⟩ :=
      follow_eq_ok h hlink (exists_at?_root host) hfollow
    · exact .inl hpresent
    · refine .inr ⟨hns, habsent, ⟨entries, ?_⟩, hat⟩
      rwa [List.dropLast_concat]

/-- What making a directory by the names of its place does, where no link is met: nothing, or a new
one is put where nothing stood. -/
theorem makeDirectory_eq_ok (h : ∀ n ∈ names, Plain n) (hlink : NoLink host [] names)
    (hmake : host.makeDirectory (Path.ofNames names) = .ok host') :
    (host' = host ∧ ∃ entries, host.root.at? names = some (.directory entries)) ∨
      names ≠ [] ∧ host' = host.put (.directory []) names ∧
      (∃ entries, host.root.at? names.dropLast = some (.directory entries)) ∧
      host.root.at? names = none := by
  obtain ⟨landing, hlocate, hmake⟩ := bind_eq_ok_iff.1 hmake
  obtain ⟨rfl, t, ht⟩ | ⟨hns, rfl, hd, habsent⟩ := locate_ofNames_eq_ok h hlink hlocate
  · simp only [ht] at hmake
    cases t with
    | directory entries => cases hmake; exact .inl ⟨rfl, entries, ht⟩
    | file content => cases hmake
    | link target => cases hmake
  · cases hmake
    exact .inr ⟨hns, rfl, hd, habsent⟩

/-! ## Work in steps -/

section Work

variable {question : Host → Except ε α} {f : Host → Except ε Host} {fault : ε}

@[simp] theorem ask_eq_ok_iff {answer : α} :
    ask question host = .ok answer host' ↔ question host = .ok answer ∧ host = host' := by
  rw [ask]
  cases question host <;> simp

@[simp] theorem ask_eq_error_iff :
    ask question host = .error fault host' ↔ question host = .error fault ∧ host = host' := by
  rw [ask]
  cases question host <;> simp

@[simp] theorem change_eq_ok_iff : change f host = .ok () host' ↔ f host = .ok host' := by
  rw [change]
  cases f host <;> simp

@[simp] theorem change_eq_error_iff :
    change f host = .error fault host' ↔ f host = .error fault ∧ host = host' := by
  rw [change]
  cases f host <;> simp

theorem preserves_ask {P : Host → Prop} (question : Host → Except ε α) :
    Preserves P (ask question) := by
  intro host h
  rw [ask]
  split <;> exact h

theorem preserves_change {P : Host → Prop} {f : Host → Except ε Host}
    (hf : ∀ host host', P host → f host = .ok host' → P host') : Preserves P (change f) := by
  intro host h
  rw [change]
  split
  · next host' heq => exact hf host host' h heq
  · exact h

end Work

/-- What the directory at a path and those above it are made by: directories are made one by one.
Either the first is made, or those above it are made before it, or it cannot be made. -/
theorem makeMissing_succ (names : List Text) (calls : Nat) (host : Host) :
    (∃ host', host.makeDirectory (Path.ofNames names) = .ok host' ∧
      makeMissing names (calls + 1) host = .ok () host') ∨
    (∃ path, host.makeDirectory (Path.ofNames names) = .error (.file (.system .notFound path)) ∧
      makeMissing names (calls + 1) host =
        (makeMissing names.dropLast calls >>= fun _ =>
          change (·.makeDirectory (Path.ofNames names))) host) ∨
    ∃ fault, (∀ path, fault ≠ .file (.system .notFound path)) ∧
      host.makeDirectory (Path.ofNames names) = .error fault ∧
      makeMissing names (calls + 1) host = .error fault host := by
  rw [makeMissing]
  cases hmake : host.makeDirectory (Path.ofNames names) with
  | ok host' =>
    have hchange : change (·.makeDirectory (Path.ofNames names)) host = .ok () host' :=
      change_eq_ok_iff.2 hmake
    exact .inl ⟨host', rfl, by simp only [hchange]⟩
  | error fault =>
    have hchange : change (·.makeDirectory (Path.ofNames names)) host = .error fault host :=
      change_eq_error_iff.2 ⟨hmake, rfl⟩
    by_cases hmissing : ∃ path, fault = .file (.system .notFound path)
    · obtain ⟨path, rfl⟩ := hmissing
      exact .inr (.inl ⟨path, rfl, by simp only [hchange]⟩)
    · have hother : ∀ path, fault ≠ .file (.system .notFound path) := fun path heq =>
        hmissing ⟨path, heq⟩
      refine .inr (.inr ⟨fault, hother, rfl, ?_⟩)
      simp only [hchange]
      split
      · next h => cases h; exact absurd rfl (hother _)
      · rfl

/-- What making one directory preserves, making those that are missing preserves. -/
theorem preserves_makeMissing {P : Host → Prop} {all : List Text}
    (hstep : ∀ ns, ns <+: all → ∀ host host', P host →
      host.makeDirectory (Path.ofNames ns) = .ok host' → P host')
    {calls : Nat} (hnames : names <+: all) : Preserves P (makeMissing names calls) := by
  induction calls generalizing names with
  | zero => exact .throw _
  | succ calls ih =>
    intro host h
    rcases makeMissing_succ names calls host with
      ⟨host', hmake, heq⟩ | ⟨_, -, heq⟩ | ⟨_, -, -, heq⟩
    · rw [heq]
      exact hstep names hnames host host' h hmake
    · have habove := ih ((List.dropLast_prefix names).trans hnames)
      rw [heq]
      exact habove.bind (fun _ _ _ _ _ => preserves_change (hstep names hnames)) host h
    · rw [heq]
      exact h

theorem preserves_makeDirectories {P : Host → Prop}
    (hstep : ∀ ns, ns <+: names → ∀ host host', P host →
      host.makeDirectory (Path.ofNames ns) = .ok host' → P host') :
    Preserves P (makeDirectories names) :=
  fun host h => preserves_makeMissing hstep List.prefix_rfl host h

/-! ## Resolving -/

section Resolve

variable {opened : List (List Text)} {known : List (List Text × List Text)} {todo : List Step}
variable {fuel : Nat} {found : List Text}

/-- A name under which no link stands is added to the place. -/
theorem resolveFrom_name (hname : name ≠ Path.above)
    (hlink : ∀ target, host.root.at? (place.reverse ++ [name]) ≠ some (.link target)) :
    host.resolveFrom place opened known (.name name :: todo) (fuel + 1) =
      Path.check name >>= fun _ => host.resolveFrom (name :: place) opened known todo fuel := by
  rw [resolveFrom, if_neg hname]
  congr 1
  funext _
  simp only
  split
  · next target hat =>
    rw [List.reverse_cons] at hat
    exact absurd hat (hlink target)
  · rfl

/-- Where no link is met, a place is resolved to the names that lead to it, when they can be part of
a path. -/
theorem resolveFrom_of_noLink (hn : ∀ n ∈ names, Plain n) (hlink : NoLink host place.reverse names)
    (hfuel : names.length < fuel) :
    host.resolveFrom place opened known (names.map .name) fuel =
      names.forM Path.check >>= fun _ => .ok (place.reverse ++ names) := by
  induction names generalizing place fuel with
  | nil =>
    obtain ⟨fuel, rfl⟩ := Nat.exists_eq_succ_of_ne_zero (Nat.ne_of_gt hfuel)
    rw [List.map_nil, resolveFrom, List.append_nil]
    rfl
  | cons name names ih =>
    obtain ⟨fuel, rfl⟩ := Nat.exists_eq_succ_of_ne_zero (Nat.ne_of_gt (Nat.zero_lt_of_lt hfuel))
    have hrest := ih (fun n hmem => hn n (List.mem_cons_of_mem _ hmem))
      (by rw [List.reverse_cons]; exact hlink.tail) (Nat.lt_of_succ_lt_succ hfuel)
    have hassoc : (name :: place).reverse ++ names = place.reverse ++ name :: names := by simp
    rw [List.map_cons, resolveFrom_name (hn name (List.mem_cons_self ..)).ne_above
      (hlink [name] (by simp)), hrest, hassoc, List.forM, bind_assoc]

/-- What holds of the names of links' targets, wherever they stand. -/
def TargetNames (host : Host) (P : Text → Prop) : Prop :=
  ∀ place target, host.root.at? place = some (.link target) →
    ∀ n ∈ Path.names (Path.listed target), n ≠ Path.above → P n

theorem forall_mem_extend {P : Text → Prop} (hplace : ∀ n ∈ place, P n)
    (hnames : ∀ n ∈ names, n ≠ Path.above → P n) : ∀ n ∈ extend place names, P n := by
  induction names generalizing place with
  | nil => exact hplace
  | cons name names ih =>
    rw [extend, List.foldl_cons]
    refine ih ?_ fun n hn => hnames n (List.mem_cons_of_mem _ hn)
    intro n hn
    split at hn
    · exact hplace n (List.mem_of_mem_drop hn)
    · next hne =>
      rcases List.mem_cons.1 hn with rfl | hn
      · exact hnames n (List.mem_cons_self ..) hne
      · exact hplace n hn

theorem forall_mem_namesOf {P : Text → Prop} {steps : List Step}
    (h : ∀ n, Step.name n ∈ steps → n ≠ Path.above → P n) :
    ∀ n ∈ namesOf steps, n ≠ Path.above → P n := by
  intro n hn
  obtain ⟨step, hstep, heq⟩ := List.mem_filterMap.1 hn
  cases step with
  | name _ => cases heq; exact h n hstep
  | linkEnd _ => cases heq

/-- The names that are left to go when a link is opened: those of its target come first. -/
theorem TargetNames.of_opened {P : Text → Prop} (htargets : TargetNames host P) {link : List Text}
    {target : Text} (hat : host.root.at? link.reverse = some (.link target)) {rest : List Step}
    (hrest : ∀ n, Step.name n ∈ rest → n ≠ Path.above → P n) :
    ∀ n, Step.name n ∈ (Path.names (Path.listed target)).map .name ++ .linkEnd link :: rest →
      n ≠ Path.above → P n := by
  intro n hn hne
  rcases List.mem_append.1 hn with hn | hn
  · obtain ⟨_, htarget, heq⟩ := List.mem_map.1 hn
    cases heq
    exact htargets _ target hat n htarget hne
  · rcases List.mem_cons.1 hn with heq | hn
    · cases heq
    · exact hrest n hn hne

/-- What holds of the names of a path and of links' targets holds of the names of the place that
the path stands for. -/
theorem resolveFrom_all {P : Text → Prop} (htargets : TargetNames host P)
    (hplace : ∀ n ∈ place, P n) (hknown : ∀ x ∈ known, ∀ n ∈ x.2, P n)
    (htodo : ∀ n, Step.name n ∈ todo → n ≠ Path.above → P n)
    (h : host.resolveFrom place opened known todo fuel = .ok found) : ∀ n ∈ found, P n := by
  induction fuel generalizing place opened known todo with
  | zero =>
    rw [resolveFrom] at h
    cases h
    simpa using hplace
  | succ fuel ih =>
    cases todo with
    | nil =>
      rw [resolveFrom] at h
      cases h
      simpa using hplace
    | cons first rest =>
      have hrest : ∀ n, Step.name n ∈ rest → n ≠ Path.above → P n :=
        fun n hn => htodo n (List.mem_cons_of_mem _ hn)
      cases first with
      | linkEnd link =>
        rw [resolveFrom] at h
        refine ih hplace (fun x hx => ?_) hrest h
        rcases List.mem_cons.1 hx with rfl | hx
        · exact hplace
        · exact hknown x hx
      | name n =>
        rw [resolveFrom] at h
        by_cases hn : n = Path.above
        · rw [if_pos hn] at h
          exact ih (fun n hmem => hplace n (List.mem_of_mem_drop hmem)) hknown hrest h
        · rw [if_neg hn] at h
          obtain ⟨⟨⟩, -, h⟩ := bind_eq_ok_iff.1 h
          simp only at h
          have hnext : ∀ m ∈ n :: place, P m := by
            intro m hm
            rcases List.mem_cons.1 hm with rfl | hm
            · exact htodo m (List.mem_cons_self ..) hn
            · exact hplace m hm
          cases hat : host.root.at? (n :: place).reverse with
          | none => rw [hat] at h; exact ih hnext hknown hrest h
          | some t =>
            rw [hat] at h
            cases t with
            | file content => exact ih hnext hknown hrest h
            | directory entries => exact ih hnext hknown hrest h
            | link target =>
              simp only at h
              split at h
              · next resolved hlookup =>
                obtain ⟨before, after, hsplit, -⟩ := List.lookup_eq_some_iff.1 hlookup
                have hmem : (n :: place, resolved) ∈ known := by rw [hsplit]; simp
                exact ih (hknown _ hmem) hknown hrest h
              · split at h
                · cases h
                  intro m hm
                  exact forall_mem_extend hnext (forall_mem_namesOf hrest) m (List.mem_reverse.1 hm)
                · split at h
                  · cases h
                  · refine ih ?_ hknown (htargets.of_opened hat hrest) h
                    split
                    · exact fun _ hmem => absurd hmem List.not_mem_nil
                    · exact hplace

theorem resolveFrom_of_resolve {p : Text} (hp : Path.isAbsolute p = true)
    (h : host.resolve p = .ok found) :
    host.resolveFrom [] [] [] ((Path.names p).map .name)
      ((Path.names p).length + host.root.linkWeight + 1) = .ok found := by
  rw [resolve, hp] at h
  obtain ⟨place, hplace, h⟩ := bind_eq_ok_iff.1 h
  rw [if_pos rfl] at hplace
  split at h <;> cases h <;> exact hplace

/-- A path on which no link is met stands for its names. -/
theorem resolve_of_noLink {p : Text} (hp : Path.isAbsolute p = true) (hnames : Path.names p = names)
    (hn : ∀ n ∈ names, Plain n) (hlink : NoLink host [] names) (h : host.resolve p = .ok found) :
    found = names := by
  have hfrom := resolveFrom_of_resolve hp h
  rw [hnames, resolveFrom_of_noLink hn hlink (by omega)] at hfrom
  obtain ⟨⟨⟩, -, hfound⟩ := bind_eq_ok_iff.1 hfrom
  cases hfound
  rfl

theorem resolve_all {P : Text → Prop} (htargets : TargetNames host P) {p : Text}
    (hp : Path.isAbsolute p = true) (hnames : ∀ n ∈ Path.names p, n ≠ Path.above → P n)
    (h : host.resolve p = .ok found) : ∀ n ∈ found, P n := by
  refine resolveFrom_all htargets (fun _ hmem => absurd hmem List.not_mem_nil)
    (fun _ hmem => absurd hmem List.not_mem_nil) (fun n hn => ?_) (resolveFrom_of_resolve hp h)
  obtain ⟨_, hmem, heq⟩ := List.mem_map.1 hn
  cases heq
  exact hnames n hmem

/-- A path stands for a place whose names are names of entries. -/
theorem plain_of_resolve {p : Text} (hp : Path.isAbsolute p = true)
    (h : host.resolve p = .ok found) : ∀ n ∈ found, Plain n :=
  resolve_all (fun _ _ _ _ => Path.plain_of_mem_names) hp (fun _ => Path.plain_of_mem_names) h

end Resolve

end JndiScan.Host

/-
What is refused, and with what answer. The system is asked about texts that can be paths alone, so
of these it tells errors of its own, and of all others nothing but that they are no paths. To
resolve a path is the other way around: what the system says on the way is not told, unless links
lead back to themselves. Where no link is met, a path is resolved exactly when its names can be parts
of one.
-/
import JndiScan.Proofs.Files.Host

namespace JndiScan

/-- Is the fault an error of the system? -/
def PathFault.IsSystem (fault : PathFault) : Prop := ∃ error, fault = .file error

namespace Path

variable {ns : List Text} {t : Text} {fault : PathFault}

/-- A text that is no path is refused without the system. -/
theorem not_isSystem_of_check (h : check t = .error fault) : ¬ fault.IsSystem := by
  rintro ⟨error, rfl⟩
  rw [check] at h
  split at h
  · cases h
  · split at h <;> cases h

theorem forM_check_eq_ok_iff : ns.forM check = .ok () ↔ ∀ n ∈ ns, check n = .ok () := by
  induction ns with
  | nil => exact iff_of_true rfl (List.forall_mem_nil _)
  | cons n ns ih =>
    rw [List.forall_mem_cons, ← ih, List.forM, Host.bind_eq_ok_iff]
    constructor
    · rintro ⟨⟨⟩, hn, hns⟩
      exact ⟨hn, hns⟩
    · rintro ⟨hn, hns⟩
      exact ⟨(), hn, hns⟩

end Path

namespace Host

variable {host : Host} {names : List Text} {fault : PathFault}

/-! ## The system -/

theorem isSystem_of_locate {p : Text} (hcheck : Path.check p = .ok ())
    (h : host.locate p = .error fault) : fault.IsSystem := by
  rw [locate, hcheck] at h
  simp only [bind, Except.bind] at h
  split at h
  · cases h
  · cases h
    exact ⟨_, rfl⟩

theorem isSystem_of_makeDirectory {p : Text} (hcheck : Path.check p = .ok ())
    (h : host.makeDirectory p = .error fault) : fault.IsSystem := by
  rw [makeDirectory] at h
  cases hlocate : host.locate p with
  | error fault' =>
    rw [hlocate] at h
    cases h
    exact isSystem_of_locate hcheck hlocate
  | ok landing =>
    rw [hlocate] at h
    cases landing with
    | absent place => cases h
    | present place =>
      simp only [bind, Except.bind] at h
      split at h
      · cases h
      · cases h
        exact ⟨_, rfl⟩

/-- Making directories is refused by the system, or its calls are nested too deep. -/
theorem isSystem_or_tooDeep_of_makeDirectories {host' : Host}
    (hcheck : ∀ n ∈ names, Path.check n = .ok ())
    (h : makeDirectories names host = .error fault host') :
    fault.IsSystem ∨ fault = .tooDeep .making := by
  have hone : ∀ {ns : List Text} {host : Host} {fault : PathFault},
      (∀ n ∈ ns, Path.check n = .ok ()) →
      host.makeDirectory (Path.ofNames ns) = .error fault → fault.IsSystem :=
    fun hns => isSystem_of_makeDirectory (Path.check_ofNames_iff.2 hns)
  rw [makeDirectories] at h
  generalize host.nesting.making = calls at h
  induction calls generalizing names fault host' with
  | zero =>
    cases h
    exact .inr rfl
  | succ calls ih =>
    rcases makeMissing_succ names calls host with
      ⟨_, -, heq⟩ | ⟨_, -, heq⟩ | ⟨fault', -, hmake, heq⟩
    · rw [heq] at h
      cases h
    · rw [heq, work_bind_eq_error_iff] at h
      rcases h with h | ⟨_, between, -, h⟩
      · exact ih (fun n hn => hcheck n (List.mem_of_mem_dropLast hn)) h
      · exact .inl (hone hcheck (change_eq_error_iff.1 h).1)
    · rw [heq] at h
      cases h
      exact .inl (hone hcheck hmake)

theorem isSystem_of_write {p : Text} {content : Bytes} (hcheck : Path.check p = .ok ())
    (h : host.write p content = .error fault) : fault.IsSystem := by
  rw [write, hcheck] at h
  simp only [bind, Except.bind] at h
  split at h
  · cases h
  · cases h
    exact ⟨_, rfl⟩

/-! ## The depth of what is made -/

/-- Names that lead to a directory are followed to it, unless one of them is too long. -/
theorem follow_of_directory {links : Nat} {place : List Text} {entries : List (Text × FileTree)}
    (hn : ∀ n ∈ names, Path.Plain n)
    (hd : host.root.at? (place.reverse ++ names) = some (.directory entries)) :
    host.follow links place names = .ok (.present (place.reverse ++ names)) ∨
      host.follow links place names = .error .nameTooLong := by
  by_cases hlength : ∀ n ∈ names, Path.octetLength n ≤ Path.maxName
  · exact .inl (follow_of_at? hn hlength hd fun _ heq => by cases heq)
  · refine .inr ?_
    induction names generalizing place with
    | nil => exact absurd (List.forall_mem_nil _) hlength
    | cons name names ih =>
      have hname := hn name (List.mem_cons_self ..)
      obtain ⟨above, habove⟩ := FileTree.at?_of_append (List.cons_ne_nil name names) hd
      rw [follow_cons habove hname]
      split
      · rfl
      · next hle =>
        have hnames : ¬ ∀ n ∈ names, Path.octetLength n ≤ Path.maxName := fun h =>
          hlength (List.forall_mem_cons.2 ⟨Nat.not_lt.1 hle, h⟩)
        have hne : names ≠ [] := fun hnil => hnames (hnil ▸ List.forall_mem_nil _)
        have hd' : host.root.at? ((name :: place).reverse ++ names) = some (.directory entries) := by
          simpa using hd
        obtain ⟨inside, hnext⟩ := FileTree.at?_of_append hne hd'
        rw [List.reverse_cons] at hnext
        rw [lookup_eq_at? habove, hnext]
        exact ih (fun n hmem => hn n (List.mem_cons_of_mem _ hmem)) hd' hnames

theorem makeDirectory_ne_tooDeep {p : Text} (work : NestedWork) :
    host.makeDirectory p ≠ .error (.tooDeep work) := by
  intro h
  cases hcheck : Path.check p with
  | ok =>
    obtain ⟨_, heq⟩ := isSystem_of_makeDirectory hcheck h
    cases heq
  | error fault =>
    have hlocate : host.locate p = .error fault := by
      rw [locate, hcheck]
      rfl
    rw [makeDirectory, hlocate] at h
    cases h
    rw [Path.check] at hcheck
    split at hcheck
    · cases hcheck
    · split at hcheck <;> cases hcheck

/-- A directory that is there is not missing. -/
theorem makeDirectory_ne_notFound {entries : List (Text × FileTree)} (hns : names ≠ [])
    (hn : ∀ n ∈ names, Path.Plain n) (hd : host.root.at? names = some (.directory entries))
    (path : Text) :
    host.makeDirectory (Path.ofNames names) ≠ .error (.file (.system .notFound path)) := by
  intro h
  have hfollow : host.follow maxLinks [] names = .ok (.present names) ∨
      host.follow maxLinks [] names = .error .nameTooLong := follow_of_directory hn hd
  rw [makeDirectory, locate, isEmpty_ofNames, Path.isAbsolute_ofNames, steps_ofNames hns hn] at h
  cases hcheck : Path.check (Path.ofNames names) with
  | error fault =>
    rw [hcheck] at h
    cases h
    exact Path.not_isSystem_of_check hcheck ⟨_, rfl⟩
  | ok =>
    rw [hcheck] at h
    simp only [bind, Except.bind, Bool.false_eq_true, if_false, if_true] at h
    split at h
    · next fault hlocate =>
      cases h
      split at hlocate
      · cases hlocate
      · next e he =>
        cases hlocate
        split at he
        · cases he
        · rcases hfollow with heq | heq <;> cases heq.symm.trans he
    · next landing hlocate =>
      split at hlocate
      · next found hfound =>
        cases hlocate
        split at hfound
        · cases hfound
        · rcases hfollow with heq | heq
          · cases heq.symm.trans hfound
            simp only [hd] at h
            cases h
          · cases heq.symm.trans hfound
      · cases hlocate

/-- Below a directory that is there, directories are made as long as there are calls for them. -/
theorem makeMissing_ne_tooDeep {calls : Nat} {up rest : List Text} (hne : up ≠ [])
    (hn : ∀ n ∈ up, Path.Plain n) (hup : ∃ entries, host.root.at? up = some (.directory entries))
    (hcalls : rest.length < calls) (work : NestedWork) (host' : Host) :
    makeMissing (up ++ rest) calls host ≠ .error (.tooDeep work) host' := by
  induction calls generalizing rest host' with
  | zero => exact absurd hcalls (Nat.not_lt_zero _)
  | succ calls ih =>
    intro h
    rcases makeMissing_succ (up ++ rest) calls host with
      ⟨_, -, heq⟩ | ⟨path, hmissing, heq⟩ | ⟨fault, -, hmake, heq⟩
    · cases heq.symm.trans h
    · have hrest : rest ≠ [] := by
        rintro rfl
        obtain ⟨entries, hd⟩ := hup
        rw [List.append_nil] at hmissing
        exact makeDirectory_ne_notFound hne hn hd path hmissing
      rw [heq, List.dropLast_append_of_ne_nil hrest, work_bind_eq_error_iff] at h
      rcases h with h | ⟨_, between, -, h⟩
      · have hpos := List.length_pos_iff.2 hrest
        refine ih ?_ _ h
        rw [List.length_dropLast]
        omega
      · exact makeDirectory_ne_tooDeep work (change_eq_error_iff.1 h).1
    · cases heq.symm.trans h
      exact makeDirectory_ne_tooDeep work hmake

/-! ## Resolving -/

section Resolve

variable {place : List Text} {opened : List (List Text)} {known : List (List Text × List Text)}
variable {todo : List Step} {p : Text}

theorem not_isSystem_of_resolveFrom {fuel : Nat}
    (h : host.resolveFrom place opened known todo fuel = .error fault) : ¬ fault.IsSystem := by
  induction fuel generalizing place opened known todo with
  | zero => cases h
  | succ fuel ih =>
    cases todo with
    | nil => cases h
    | cons first rest =>
      cases first with
      | linkEnd link => exact ih h
      | name n =>
        rw [resolveFrom] at h
        split at h
        · exact ih h
        · cases hcheck : Path.check n with
          | error fault' =>
            rw [hcheck] at h
            cases h
            exact Path.not_isSystem_of_check hcheck
          | ok =>
            rw [hcheck] at h
            simp only [bind, Except.bind] at h
            split at h
            · split at h
              · exact ih h
              · split at h
                · cases h
                · split at h
                  · cases h
                    rintro ⟨_, heq⟩
                    cases heq
                  · exact ih h
            · exact ih h

/-- What keeps a path from being resolved is no error of the system. -/
theorem not_isSystem_of_resolve (h : host.resolve p = .error fault) : ¬ fault.IsSystem := by
  rw [resolve] at h
  simp only [bind, Except.bind] at h
  split at h
  · next fault' hfrom =>
    cases h
    exact not_isSystem_of_resolveFrom hfrom
  · split at h
    · cases h
      rintro ⟨_, heq⟩
      cases heq
    · cases h
    · cases h
    · next other _ hne _ =>
      cases h
      rintro ⟨error, rfl⟩
      exact hne error rfl

/-- A place that a path stands for can be told by a path. -/
theorem check_of_resolve (h : host.resolve p = .ok place) :
    ∀ n ∈ place, Path.check n = .ok () := by
  refine Path.check_ofNames_iff.1 ?_
  cases hcheck : Path.check (Path.ofNames place) with
  | ok => rfl
  | error fault =>
    have hlocate : host.locate (Path.ofNames place) = .error fault := by
      rw [locate, hcheck]
      rfl
    obtain ⟨found, -, h⟩ := bind_eq_ok_iff.1 h
    split at h
    · cases h
    · next heq =>
      cases h
      cases hlocate.symm.trans heq
      exact absurd ⟨_, rfl⟩ (Path.not_isSystem_of_check hcheck)
    · next heq =>
      cases h
      cases hlocate.symm.trans heq
    · cases h

/-- Where no link is met, there are not too many of them. -/
theorem follow_ne_tooManyLinks {links : Nat} (hn : ∀ n ∈ names, Path.Plain n)
    (hlink : NoLink host place.reverse names) :
    host.follow links place names ≠ .error .tooManyLinks := by
  induction names generalizing place with
  | nil =>
    rw [follow]
    exact fun heq => by cases heq
  | cons name names ih =>
    by_cases hd : ∃ entries, host.root.at? place.reverse = some (.directory entries)
    · obtain ⟨entries, hd⟩ := hd
      have hnext : host.follow links (name :: place) names ≠ .error .tooManyLinks :=
        ih (fun n hmem => hn n (List.mem_cons_of_mem _ hmem))
          (by rw [List.reverse_cons]; exact hlink.tail)
      rw [follow_cons hd (hn name (List.mem_cons_self ..)), lookup_eq_at? hd]
      split
      · exact fun heq => by cases heq
      · split
        · split <;> exact fun heq => by cases heq
        · next target hat => exact absurd hat (hlink [name] (by simp) target)
        · exact hnext
    · rw [follow]
      split
      · next entries hat => exact absurd ⟨entries, hat⟩ hd
      · exact fun heq => by cases heq

theorem locate_ne_tooManyLinks (hns : names ≠ []) (hn : ∀ n ∈ names, Path.Plain n)
    (hlink : NoLink host [] names) (path : Text) :
    host.locate (Path.ofNames names) ≠ .error (.file (.system .tooManyLinks path)) := by
  have hfollow : host.follow maxLinks [] names ≠ .error .tooManyLinks :=
    follow_ne_tooManyLinks hn hlink
  intro h
  rw [locate, isEmpty_ofNames, Path.isAbsolute_ofNames, steps_ofNames hns hn] at h
  cases hcheck : Path.check (Path.ofNames names) with
  | error fault =>
    rw [hcheck] at h
    cases h
    exact Path.not_isSystem_of_check hcheck ⟨_, rfl⟩
  | ok =>
    rw [hcheck] at h
    simp only [bind, Except.bind, Bool.false_eq_true, if_false, if_true] at h
    split at h
    · cases h
    · next error herror =>
      cases h
      split at herror
      · cases herror
      · exact hfollow herror

/-- Where no link is met on the way, what stands for a place is exactly what can be a path. -/
theorem resolve_eq_ok_iff (hp : Path.isAbsolute p = true) (hnames : Path.names p = names)
    (hns : names ≠ []) (hn : ∀ n ∈ names, Path.Plain n) (hlink : NoLink host [] names) :
    (∃ place, host.resolve p = .ok place) ↔ Path.check p = .ok () := by
  have hfrom : host.resolveFrom [] [] [] ((Path.names p).map .name)
      ((Path.names p).length + host.root.linkWeight + 1) =
      names.forM Path.check >>= fun _ => .ok names := by
    rw [hnames]
    exact resolveFrom_of_noLink hn hlink (by omega)
  rw [Path.check_iff_names, hnames]
  constructor
  · rintro ⟨place, h⟩
    have h' := resolveFrom_of_resolve hp h
    rw [hfrom] at h'
    obtain ⟨⟨⟩, hall, -⟩ := bind_eq_ok_iff.1 h'
    exact Path.forM_check_eq_ok_iff.1 hall
  · intro hall
    rw [Path.forM_check_eq_ok_iff.2 hall] at hfrom
    refine ⟨names, ?_⟩
    rw [resolve, if_pos hp]
    refine bind_eq_ok_iff.2 ⟨names, hfrom, ?_⟩
    split
    · next path heq => exact absurd heq (locate_ne_tooManyLinks hns hn hlink path)
    · rfl
    · rfl
    · next fault _ hne heq =>
      obtain ⟨error, rfl⟩ := isSystem_of_locate (Path.check_ofNames_iff.2 hall) heq
      exact absurd rfl (hne error)

end Resolve

end Host

end JndiScan

/-
What goes well at a usable path. Its place is found when its directory is there and no link is met;
then it stands for its names, and a file can be written there unless a directory is in the way.
Directories can be made there one below the other, as long as there are calls for them.
-/
import JndiScan.Proofs.Files.Refusal

namespace JndiScan

namespace Host.Usable

variable {host : Host} {names : List Text} {entries : List (Text × FileTree)}

/-- The way to a usable place is usable. -/
theorem of_append {more : List Text} (h : Usable (names ++ more)) (hne : names ≠ []) :
    Usable names := by
  by_cases hmore : more = []
  · rwa [hmore, List.append_nil] at h
  · have hsplit : Path.ofNames (names ++ more) = Path.ofNames names ++ Path.ofNames more :=
      Path.ofNames_append hne hmore
    refine ⟨hne, fun n hn => h.plain n (List.mem_append_left _ hn), ?_, ?_,
      fun n hn => h.name_le n (List.mem_append_left _ hn)⟩
    · exact (Path.check_append_iff.1 (hsplit ▸ h.checked)).1
    · have hpath := h.path_le
      rw [hsplit, Path.octetLength, Path.octets_append, List.length_append] at hpath
      exact (Nat.le_add_right _ _).trans hpath

theorem concat (h : Usable names) {n : Text} (hn : Path.Plain n) (hcheck : Path.check n = .ok ())
    (hname : Path.octetLength n ≤ Path.maxName)
    (hpath : Path.octetLength (Path.ofNames names) + 1 + Path.octetLength n ≤ Path.maxPath) :
    Usable (names ++ [n]) := by
  refine ⟨by simp, ?_, ?_, ?_, ?_⟩
  · exact fun m hm => (List.mem_append.1 hm).elim (h.plain m) fun hm => List.mem_singleton.1 hm ▸ hn
  · rw [Path.check_ofNames_iff, List.forall_mem_append, List.forall_mem_singleton]
    exact ⟨Path.check_ofNames_iff.1 h.checked, hcheck⟩
  · exact (Path.octetLength_ofNames_concat h.ne_nil n).trans_le hpath
  · exact fun m hm =>
      (List.mem_append.1 hm).elim (h.name_le m) fun hm => List.mem_singleton.1 hm ▸ hname

theorem locate (h : Usable names)
    (hd : host.root.at? names.dropLast = some (.directory entries))
    (hlink : ∀ target, host.root.at? names ≠ some (.link target)) :
    host.locate (Path.ofNames names) =
      .ok (if host.root.at? names = none then .absent names else .present names) := by
  obtain ⟨init, last, rfl⟩ : ∃ init last, names = init ++ [last] :=
    ⟨_, _, (List.dropLast_append_getLast h.ne_nil).symm⟩
  rw [List.dropLast_concat] at hd
  refine locate_eq_ok_iff.2 ⟨h.checked, h.path_le, ?_⟩
  rw [steps_ofNames h.ne_nil h.plain]
  exact follow_concat h.plain h.name_le hd hlink

/-- A file that is found at a usable path is read. -/
theorem read (h : Usable names) (hd : host.root.at? names.dropLast = some (.directory entries))
    {content : Bytes} (hfile : host.root.at? names = some (.file content)) :
    host.read (Path.ofNames names) = .ok content := by
  have hplace := h.locate hd fun target hlink => nomatch hlink.symm.trans hfile
  rw [if_neg (by rw [hfile]; exact Option.some_ne_none _)] at hplace
  have hfound : host.find (Path.ofNames names) = .ok (.file content) :=
    bind_eq_ok_iff.2 ⟨_, hplace, by simp only [hfile]⟩
  exact bind_eq_ok_iff.2 ⟨_, hfound, rfl⟩

/-- A usable path stands for its names when no link is met. -/
theorem resolve (h : Usable names) (hlink : NoLink host [] names) :
    host.resolve (Path.ofNames names) = .ok names := by
  obtain ⟨place, hplace⟩ := (resolve_eq_ok_iff (Path.isAbsolute_ofNames names)
    (Path.names_ofNames h.plain) h.ne_nil h.plain hlink).2 h.checked
  rw [hplace, resolve_of_noLink (Path.isAbsolute_ofNames names) (Path.names_ofNames h.plain)
    h.plain hlink hplace]

/-- Nothing is done to make a directory that is there, if that can be asked at all. -/
theorem makeDirectories (h : Usable names)
    (hd : host.root.at? names = some (.directory entries)) (hcalls : 0 < host.nesting.making) :
    Host.makeDirectories names host = .ok () host := by
  have hsplit : host.root.at? (names.dropLast ++ [names.getLast h.ne_nil]) =
      some (.directory entries) := by rwa [List.dropLast_append_getLast]
  obtain ⟨_, habove⟩ := FileTree.at?_of_append (List.cons_ne_nil _ []) hsplit
  have hmake : host.makeDirectory (Path.ofNames names) = .ok host := by
    have hlocate := h.locate habove (by simp [hd])
    rw [if_neg (by simp [hd])] at hlocate
    exact bind_eq_ok_iff.2 ⟨_, hlocate, by simp only [hd]; rfl⟩
  obtain ⟨calls, hsucc⟩ := Nat.exists_eq_succ_of_ne_zero (Nat.ne_of_gt hcalls)
  rw [Host.makeDirectories, hsucc]
  rcases makeMissing_succ names calls host with
    ⟨_, hmade, heq⟩ | ⟨_, hmissing, -⟩ | ⟨_, -, hfailed, -⟩
  · cases hmake.symm.trans hmade
    exact heq
  · cases hmake.symm.trans hmissing
  · cases hmake.symm.trans hfailed

/-- A file is written at a usable path that no directory and no link is in the way of. -/
theorem write (h : Usable names)
    (hd : host.root.at? names.dropLast = some (.directory entries))
    (hold : host.root.at? names = none ∨ ∃ old, host.root.at? names = some (.file old))
    (content : Bytes) :
    host.write (Path.ofNames names) content = .ok (host.put (.file content) names) := by
  obtain ⟨init, last, rfl⟩ : ∃ init last, names = init ++ [last] :=
    ⟨_, _, (List.dropLast_append_getLast h.ne_nil).symm⟩
  have hmem : last ∈ init ++ [last] := List.mem_append_right _ (List.mem_singleton_self last)
  have hlast : Path.Plain last := h.plain last hmem
  have hinit : ∀ n ∈ init, n ∈ init ++ [last] := fun n hn => List.mem_append_left _ hn
  rw [List.dropLast_concat] at hd
  have hend : ¬ (last = Path.here || last = Path.above) = true := by
    simp [hlast.ne_here, hlast.ne_above]
  have hhere : init.filter (· ≠ Path.here) = init :=
    List.filter_eq_self.2 fun n hn => by simp [(h.plain n (hinit n hn)).ne_here]
  have hway : host.follow maxLinks [] init = .ok (.present init) :=
    follow_of_at? (fun n hn => h.plain n (hinit n hn)) (fun n hn => h.name_le n (hinit n hn)) hd
      fun _ heq => by cases heq
  have hplace : placeToWrite host host.workingDirectory.reverse
      (Path.ofNames (init ++ [last])) (maxLinks + 1) = .ok (init ++ [last]) := by
    rw [placeToWrite, parts_ofNames h.ne_nil h.plain, Path.isAbsolute_ofNames]
    simp only [List.getLast?_concat, Option.getD_some, List.dropLast_concat, if_neg hend, hhere,
      if_true, hway]
    refine bind_eq_ok_iff.2 ⟨_, rfl, ?_⟩
    simp only [hd, if_neg (Path.getLast?_ofNames_ne h.ne_nil h.plain),
      if_neg (Nat.not_lt.2 (h.name_le last hmem)), lookup_eq_at? hd]
    rcases hold with hold | ⟨old, hold⟩
    · rw [hold]
      rfl
    · rw [hold]
      rfl
  rw [Host.write, h.checked]
  simp only [isEmpty_ofNames, Bool.false_eq_true, if_false, if_neg (Nat.not_lt.2 h.path_le), hplace]
  rfl

/-! ## Directories one below the other -/

section Missing

variable {up rest : List Text} {first : Text}

/-- A directory is made in its own directory, where nothing stands yet. -/
theorem makeDirectory (h : Usable names)
    (hd : host.root.at? names.dropLast = some (.directory entries))
    (habsent : host.root.at? names = none) :
    host.makeDirectory (Path.ofNames names) = .ok (host.put (.directory []) names) := by
  have hlocate := h.locate hd (by simp [habsent])
  rw [if_pos habsent] at hlocate
  exact bind_eq_ok_iff.2 ⟨_, hlocate, rfl⟩

/-- No directory is made further below a name that its directory does not hold. -/
theorem makeDirectory_of_missing (h : Usable (up ++ first :: rest)) (hrest : rest ≠ [])
    (hd : host.root.at? up = some (.directory entries))
    (habsent : host.root.at? (up ++ [first]) = none) :
    host.makeDirectory (Path.ofNames (up ++ first :: rest)) =
      .error (.file (.system .notFound (Path.ofNames (up ++ first :: rest)))) := by
  have hup : ∀ n ∈ up, n ∈ up ++ first :: rest := fun n hn => List.mem_append_left _ hn
  have hfirst : first ∈ up ++ first :: rest := List.mem_append_right _ (List.mem_cons_self ..)
  have hd' : host.root.at? up.reverse.reverse = some (.directory entries) := by
    rwa [List.reverse_reverse]
  have hfollow : host.follow maxLinks [] (up ++ first :: rest) = .error .notFound := by
    have hin : host.root.at? (([] : List Text).reverse ++ up) = some (.directory entries) := hd
    have hway : host.follow maxLinks [] (up ++ first :: rest) =
        host.follow maxLinks (up.reverse ++ []) (first :: rest) :=
      follow_append (fun n hn => h.plain n (hup n hn)) (fun n hn => h.name_le n (hup n hn)) hin _
    rw [hway, List.append_nil, follow_cons hd' (h.plain first hfirst),
      if_neg (Nat.not_lt.2 (h.name_le first hfirst)), lookup_eq_at? hd', List.reverse_reverse,
      habsent]
    simp only [List.isEmpty_eq_false_iff.2 hrest, Bool.false_eq_true, if_false]
  have hlocate : host.locate (Path.ofNames (up ++ first :: rest)) =
      .error (.file (.system .notFound (Path.ofNames (up ++ first :: rest)))) := by
    rw [Host.locate, h.checked, steps_ofNames h.ne_nil h.plain, Path.isAbsolute_ofNames]
    simp only [isEmpty_ofNames, Bool.false_eq_true, if_false, if_true,
      if_neg (Nat.not_lt.2 h.path_le), hfollow]
    rfl
  exact bind_eq_error_iff.2 (.inl hlocate)

/-- Where directories are missing one below the other, each is made in a call of its own. -/
theorem exists_makeMissing {calls : Nat} (h : Usable (up ++ first :: rest))
    (hd : host.root.at? up = some (.directory entries))
    (habsent : host.root.at? (up ++ [first]) = none) (hcalls : rest.length < calls) :
    ∃ host', makeMissing (up ++ first :: rest) calls host = .ok () host' ∧
      host'.root.at? (up ++ first :: rest) = some (.directory []) := by
  induction rest using List.reverseRecOn generalizing calls with
  | nil =>
    obtain ⟨calls, rfl⟩ := Nat.exists_eq_succ_of_ne_zero (Nat.ne_of_gt hcalls)
    have habove : host.root.at? (up ++ [first]).dropLast = some (.directory entries) := by
      rwa [List.dropLast_concat]
    have hmake := h.makeDirectory habove habsent
    refine ⟨host.put (.directory []) (up ++ [first]), ?_, FileTree.at?_put_self hd _⟩
    rcases makeMissing_succ (up ++ [first]) calls host with
      ⟨_, hmade, heq⟩ | ⟨_, hmissing, -⟩ | ⟨_, -, hfailed, -⟩
    · cases hmake.symm.trans hmade
      exact heq
    · cases hmake.symm.trans hmissing
    · cases hmake.symm.trans hfailed
  | append_singleton init last ih =>
    obtain ⟨calls, rfl⟩ := Nat.exists_eq_succ_of_ne_zero (Nat.ne_of_gt (Nat.zero_lt_of_lt hcalls))
    have hsplit : up ++ first :: (init ++ [last]) = (up ++ first :: init) ++ [last] := by simp
    have hinit : Usable (up ++ first :: init) := (hsplit ▸ h).of_append (by simp)
    have hshort : init.length < calls := by
      rw [List.length_append, List.length_singleton] at hcalls
      omega
    obtain ⟨between, hbetween, hat⟩ := ih hinit hshort
    have habove : between.root.at? (up ++ first :: (init ++ [last])).dropLast =
        some (.directory []) := by
      rwa [hsplit, List.dropLast_concat]
    have hnew : between.root.at? (up ++ first :: (init ++ [last])) = none := by
      rw [hsplit, FileTree.at?_append, hat]
      rfl
    have hmake := h.makeDirectory habove hnew
    have hmissing := h.makeDirectory_of_missing (by simp) hd habsent
    refine ⟨between.put (.directory []) (up ++ first :: (init ++ [last])), ?_,
      hsplit ▸ FileTree.at?_put_self hat _⟩
    rcases makeMissing_succ (up ++ first :: (init ++ [last])) calls host with
      ⟨_, hmade, -⟩ | ⟨_, -, heq⟩ | ⟨_, hother, hfailed, -⟩
    · cases hmissing.symm.trans hmade
    · rw [heq, hsplit, List.dropLast_concat]
      rw [hsplit] at hmake
      exact work_bind_eq_ok_iff.2 ⟨(), between, hbetween, change_eq_ok_iff.2 hmake⟩
    · cases hmissing.symm.trans hfailed
      exact absurd rfl (hother _)

/-- Where more of them are missing than there are calls, none is made. -/
theorem makeMissing_eq_tooDeep {calls : Nat} (h : Usable (up ++ first :: rest))
    (hd : host.root.at? up = some (.directory entries))
    (habsent : host.root.at? (up ++ [first]) = none) (hcalls : calls ≤ rest.length) :
    makeMissing (up ++ first :: rest) calls host = .error (.tooDeep .making) host := by
  induction calls generalizing rest with
  | zero => rfl
  | succ calls ih =>
    have hrest : rest ≠ [] := List.ne_nil_of_length_pos (Nat.zero_lt_of_lt hcalls)
    have hsplit : up ++ first :: rest = (up ++ first :: rest.dropLast) ++ [rest.getLast hrest] := by
      rw [List.append_assoc, List.cons_append, List.dropLast_append_getLast]
    have hinit : Usable (up ++ first :: rest.dropLast) := (hsplit ▸ h).of_append (by simp)
    have habove := ih hinit (by rw [List.length_dropLast]; omega)
    have hmissing := h.makeDirectory_of_missing hrest hd habsent
    rcases makeMissing_succ (up ++ first :: rest) calls host with
      ⟨_, hmade, -⟩ | ⟨_, -, heq⟩ | ⟨_, hother, hfailed, -⟩
    · cases hmissing.symm.trans hmade
    · rw [heq, hsplit, List.dropLast_concat]
      exact work_bind_eq_error_iff.2 (.inl habove)
    · cases hmissing.symm.trans hfailed
      exact absurd rfl (hother _)

end Missing

end Host.Usable

end JndiScan

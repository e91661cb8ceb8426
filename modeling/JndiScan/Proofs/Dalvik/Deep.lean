/-
Classes with long names. The directories above a class file are made in one call for each that is
missing, so a class whose name has too many segments ends its conversion. And classes whose names
lengthen step by step are all written, but leave directories nested too deep to be removed again.
-/
import JndiScan.Proofs.Dalvik.Transparency
import JndiScan.Proofs.Files.Usable

namespace JndiScan.Dalvik.Conversion

variable {before host host' : Host} {scratch there missing way : List Text} {first file : Text}
variable {d : ClassDefinition} {entries : List (Text × FileTree)}

/-! ## One class below directories -/

/-- A class whose file lies below directories in the directory of a conversion, and that can be
written there. -/
structure Lies (scratch way : List Text) (file : Text) (d : ClassDefinition) : Prop where
  below : Path.below (Path.ofNames scratch) (fileName d) = Path.ofNames (scratch ++ way ++ [file])
  usable : Host.Usable (scratch ++ way ++ [file])
  writable : ∃ octets, ClassFile.write d = .ok octets

theorem Lies.placeOf_eq (hd : Lies scratch way file d) (h : During before scratch host) :
    placeOf scratch d host = .ok (scratch ++ way ++ [file]) := by
  have hlink : Host.NoLink host [] (scratch ++ way ++ [file]) := by
    rw [List.append_assoc]
    exact h.noLink (way ++ [file])
  have hresolve := hd.usable.resolve hlink
  refine Host.bind_eq_ok_iff.2 ⟨_, Host.mapError_eq_ok_iff.2 (hd.below ▸ hresolve), ?_⟩
  have hbelow : (scratch.isPrefixOf (scratch ++ way ++ [file]) &&
      scratch.length < (scratch ++ way ++ [file]).length) = true := by simp
  rw [if_pos hbelow]
  rfl

/-- Of the directories on the way of a class, those up to one are there, and the next is not. -/
structure Lacks (scratch there : List Text) (first : Text) (host : Host) : Prop where
  directory : ∃ entries, host.root.at? (scratch ++ there) = some (.directory entries)
  absent : host.root.at? (scratch ++ there ++ [first]) = none

theorem Lies.usable_way (hd : Lies scratch (there ++ first :: missing) file d) :
    Host.Usable (scratch ++ there ++ first :: missing) := by
  have husable := hd.usable.of_append (by simp)
  rwa [← List.append_assoc] at husable

/-- Where there is a call for each directory that is missing, they are made and the class is
written. -/
theorem exists_writeClass (hd : Lies scratch (there ++ first :: missing) file d)
    (h : During before scratch host) (hlacks : Lacks scratch there first host)
    (hcalls : missing.length < host.nesting.making) :
    ∃ host' octets, writeClass scratch d host = .ok () host' ∧
      host'.root.at? (scratch ++ there ++ first :: missing) =
        some (.directory [(file, .file octets)]) := by
  obtain ⟨entries, hthere⟩ := hlacks.directory
  obtain ⟨octets, hoctets⟩ := hd.writable
  obtain ⟨between, hmake, hat⟩ := hd.usable_way.exists_makeMissing hthere hlacks.absent hcalls
  have hway : scratch ++ (there ++ first :: missing) = scratch ++ there ++ first :: missing :=
    (List.append_assoc ..).symm
  have hplace : (scratch ++ (there ++ first :: missing) ++ [file]).dropLast =
      scratch ++ there ++ first :: missing := by
    rw [List.dropLast_concat, hway]
  have hnew : between.root.at? (scratch ++ (there ++ first :: missing) ++ [file]) = none := by
    rw [hway, FileTree.at?_append, hat]
    rfl
  have hwrite := hd.usable.write (hplace ▸ hat) (.inl hnew) octets
  refine ⟨_, octets, writeClass_eq_ok (hd.placeOf_eq h) (hplace ▸ hmake) hoctets hwrite, ?_⟩
  rw [hway]
  exact FileTree.at?_put_append (by simp) hat [file] _

/-- Where there are more directories missing than calls, nothing is made of them. -/
theorem makeDirectories_eq_tooDeep (hd : Lies scratch (there ++ first :: missing) file d)
    (hlacks : Lacks scratch there first host) (hcalls : host.nesting.making ≤ missing.length) :
    Host.makeDirectories (scratch ++ (there ++ first :: missing) ++ [file]).dropLast host =
      .error (.tooDeep .making) host := by
  obtain ⟨entries, hthere⟩ := hlacks.directory
  rw [List.dropLast_concat, ← List.append_assoc]
  exact hd.usable_way.makeMissing_eq_tooDeep hthere hlacks.absent hcalls

/-! ## Names of many segments -/

/-- The name of a directory. -/
def letter : Text := "a"

/-- So many directories, each in the one before. -/
def nested (n : Nat) : List Text := List.replicate n letter

theorem length_nested (n : Nat) : (nested n).length = n := List.length_replicate

/-- A name of so many segments, and one more. -/
def deepName : Nat → Text
  | 0 => letter
  | n + 1 => letter ++ Path.slash :: deepName n

theorem segments_deepName (n : Nat) :
    segments (bare (deepName n)) = nested n ++ [fileName (bare letter)] := by
  induction n with
  | zero => decide
  | succ n ih =>
    have hfirst : ∀ t : Text, Path.names (letter ++ Path.slash :: t) = letter :: Path.names t := by
      intro t
      show Path.names (.ofChar 'a' :: Path.slash :: t) = _
      rw [Path.names, Text.splitOn, if_neg (by decide), Text.splitOn, if_pos rfl]
      rfl
    have hname : fileName (bare (deepName (n + 1))) =
        letter ++ Path.slash :: fileName (bare (deepName n)) :=
      List.append_assoc letter (Path.slash :: deepName n) ".class"
    rw [segments, hname, hfirst]
    exact congrArg (letter :: ·) ih

theorem deepName_ne_nil (n : Nat) : deepName n ≠ [] := by
  cases n <;> exact List.cons_ne_nil _ _

theorem dot_not_mem_deepName (n : Nat) : .ofChar '.' ∉ deepName n := by
  induction n with
  | zero => decide
  | succ n ih =>
    have hfirst : .ofChar '.' ∉ letter ++ [Path.slash] := by decide
    rw [deepName, ← List.singleton_append, ← List.append_assoc, List.mem_append, not_or]
    exact ⟨hfirst, ih⟩

theorem isAbsolute_deepName (n : Nat) : Path.isAbsolute (fileName (bare (deepName n))) = false := by
  cases n <;> rfl

theorem length_constantOctets_deepName (n : Nat) :
    (ClassFile.constantOctets (deepName n)).length = 2 * n + 1 := by
  induction n with
  | zero => decide
  | succ n ih =>
    have hfirst : ∀ t, ClassFile.constantOctets (letter ++ Path.slash :: t) =
        0x61 :: 0x2F :: ClassFile.constantOctets t := fun _ => rfl
    rw [deepName, hfirst, List.length_cons, List.length_cons, ih]
    omega

theorem usable_nested {n : Nat} (h : Host.Usable scratch)
    (hpath : Path.octetLength (Path.ofNames scratch) + 2 * n ≤ Path.maxPath) :
    Host.Usable (scratch ++ nested n) ∧ Path.octetLength (Path.ofNames (scratch ++ nested n)) =
      Path.octetLength (Path.ofNames scratch) + 2 * n := by
  induction n with
  | zero =>
    have hnil : scratch ++ nested 0 = scratch := List.append_nil scratch
    rw [hnil]
    exact ⟨h, rfl⟩
  | succ n ih =>
    obtain ⟨husable, hlength⟩ := ih (by omega)
    have hone : Path.octetLength letter = 1 := by decide
    have hsplit : scratch ++ nested (n + 1) = scratch ++ nested n ++ [letter] := by
      rw [nested, List.replicate_succ', List.append_assoc, nested]
    rw [hsplit]
    refine ⟨husable.concat (by decide) (by decide) (by decide) ?_, ?_⟩
    · rw [hlength, hone]
      omega
    · rw [Path.octetLength_ofNames_concat husable.ne_nil, hlength, hone]
      omega

/-- A class with such a name can be written as far as its path goes. -/
theorem lies_deepName {n : Nat} (hfree : Free before scratch) (h : Host.Usable scratch)
    (hpath : Path.octetLength (Path.ofNames scratch) + 2 * n + 8 ≤ Path.maxPath) :
    Lies scratch (nested n) (fileName (bare letter)) (bare (deepName n)) where
  below := by
    rw [below_segments hfree (dot_not_mem_deepName n) (isAbsolute_deepName n), segments_deepName,
      List.append_assoc]
  usable := by
    obtain ⟨husable, hlength⟩ := usable_nested (n := n) h (by omega)
    have hseven : Path.octetLength (fileName (bare letter)) = 7 := by decide
    exact husable.concat (by decide) (by decide) (by decide) (by omega)
  writable := by
    refine exists_write_bare ?_
    have hmax : Path.maxPath = 4095 := rfl
    rw [length_constantOctets_deepName]
    omega

/-! ## Classes that leave too many directories -/

theorem lacks_begun (hfree : Free before scratch) (first : Text) :
    Lacks scratch [] first (before.put (.directory []) scratch) := by
  have hat := hfree.at?_put (.directory [])
  refine ⟨⟨[], (List.append_nil scratch).symm ▸ hat⟩, ?_⟩
  rw [List.append_nil, FileTree.at?_append, hat]
  rfl

/-- Above the file of a class whose name has more segments than there are calls to make
directories, none is made. -/
theorem makeDirectories_deepName {n : Nat} (hfree : Free before scratch) (h : Host.Usable scratch)
    (hpath : Path.octetLength (Path.ofNames scratch) + 2 * n + 8 ≤ Path.maxPath)
    (hn : before.nesting.making < n) :
    ∃ place, placeOf scratch (bare (deepName n)) (before.put (.directory []) scratch) = .ok place ∧
      Host.makeDirectories place.dropLast (before.put (.directory []) scratch) =
        .error (.tooDeep .making) (before.put (.directory []) scratch) := by
  obtain ⟨n, rfl⟩ := Nat.exists_eq_succ_of_ne_zero (Nat.ne_of_gt (Nat.zero_lt_of_lt hn))
  have hlies : Lies scratch ([] ++ letter :: nested n) (fileName (bare letter))
      (bare (deepName (n + 1))) := lies_deepName hfree h hpath
  exact ⟨_, hlies.placeOf_eq hfree.during, makeDirectories_eq_tooDeep hlies
    (lacks_begun hfree letter) ((length_nested n).symm ▸ Nat.le_of_lt_succ hn)⟩

/-- Of two classes the second lies below the first. Where there are calls for the directories of
either, both are written, and the directories lie one in another down to the second. -/
theorem exists_writeClasses_deep {m n : Nat} (hfree : Free before scratch)
    (h : Host.Usable scratch)
    (hpath : Path.octetLength (Path.ofNames scratch) + 2 * (m + 1 + (n + 1)) + 8 ≤ Path.maxPath)
    (hm : m < before.nesting.making) (hn : n < before.nesting.making) :
    ∃ host, writeClasses scratch [bare (deepName (m + 1)), bare (deepName (m + 1 + (n + 1)))]
        (before.put (.directory []) scratch) = .ok () host ∧
      ∃ entries, host.root.at? (scratch ++ nested (m + 1 + (n + 1))) =
        some (.directory entries) := by
  have hsplit : nested (m + 1 + (n + 1)) = nested (m + 1) ++ letter :: nested n := by
    rw [nested, List.replicate_add]
    rfl
  have hc : Lies scratch (nested (m + 1)) (fileName (bare letter)) (bare (deepName (m + 1))) :=
    lies_deepName hfree h (by omega)
  have hc : Lies scratch ([] ++ letter :: nested m) (fileName (bare letter))
      (bare (deepName (m + 1))) := hc
  have hd : Lies scratch (nested (m + 1) ++ letter :: nested n) (fileName (bare letter))
      (bare (deepName (m + 1 + (n + 1)))) := hsplit ▸ lies_deepName hfree h hpath
  obtain ⟨first, octets, hfirst, hat⟩ :=
    exists_writeClass hc hfree.during (lacks_begun hfree letter)
      ((length_nested m).symm ▸ hm)
  have hat : first.root.at? (scratch ++ nested (m + 1)) =
      some (.directory [(fileName (bare letter), .file octets)]) := by
    rwa [List.append_nil] at hat
  have hbetween := writeClass_during hfree.during hfirst
  have hlacks : Lacks scratch (nested (m + 1)) letter first := by
    refine ⟨⟨_, hat⟩, ?_⟩
    rw [FileTree.at?_append, hat]
    rfl
  obtain ⟨second, _, hsecond, hat'⟩ := exists_writeClass hd hbetween hlacks
    (by rw [hbetween.nesting_eq, length_nested]; exact hn)
  refine ⟨second, ?_, _, by rw [hsplit, ← List.append_assoc]; exact hat'⟩
  exact work_bind_eq_ok_iff.2 ⟨(), first, hfirst, work_bind_eq_ok_iff.2 ⟨(), second, hsecond, rfl⟩⟩

/-- A directory with too many others one in another is not removed. -/
theorem canRemove_eq_false {n : Nat}
    (hat : host.root.at? (scratch ++ nested n) = some (.directory entries))
    (hn : host.nesting.removing ≤ n) : host.canRemove scratch = false := by
  rw [FileTree.at?_append] at hat
  obtain ⟨t, ht, hbelow⟩ := Option.bind_eq_some_iff.1 hat
  have hdepth := FileTree.length_lt_depth hbelow
  rw [length_nested] at hdepth
  rw [Host.canRemove, ht]
  exact decide_eq_false (by omega)

/-! ## Two classes in an empty host -/

/-- Classes whose names have 600 and 1100 segments. -/
def deepClasses : List ClassDefinition := [bare (deepName 599), bare (deepName 1099)]

theorem exact_deepClasses : ∀ d ∈ deepClasses, d.Exact := by
  intro d hd
  rcases List.mem_pair.1 hd with rfl | rfl
  · exact exact_bare (deepName_ne_nil _) (dot_not_mem_deepName _)
  · exact exact_bare (deepName_ne_nil _) (dot_not_mem_deepName _)

theorem contained_map_ofDefinition {ds : List ClassDefinition} (hds : ∀ d ∈ ds, d.Exact)
    (host : Host) :
    contained (decodingOf (ds.map .ofDefinition)).readDalvik dalvikFile host = .ok ds := by
  show Except.ok ((ds.map .ofDefinition).map RawClass.toDefinition) = Except.ok ds
  rw [map_toDefinition_of_renders (renders_map_ofDefinition ds) hds]

/-- They are written, and the directory with them cannot be removed. -/
theorem exists_writeClasses_deepClasses :
    ∃ host, writeClasses emptyHost.scratch deepClasses
        (emptyHost.host.put (.directory []) emptyHost.scratch) = .ok () host ∧
      host.canRemove emptyHost.scratch = false := by
  have hpath : Path.octetLength (Path.ofNames emptyHost.scratch) + 2 * (598 + 1 + (499 + 1)) + 8 ≤
      Path.maxPath := by decide +kernel
  obtain ⟨host, hwrite, entries, hat⟩ := exists_writeClasses_deep (m := 598) (n := 499)
    free_emptyHost usable_emptyHost hpath (by decide) (by decide)
  have hnesting : host.nesting = emptyHost.host.nesting :=
    (writeClasses_during free_emptyHost.during hwrite).nesting_eq
  exact ⟨host, hwrite, canRemove_eq_false hat (by rw [hnesting]; decide)⟩

/-- So their entries are given, and then removing the directory raises a fault. -/
theorem exists_start_deepClasses :
    ∃ name left s₁, names deepClasses = name :: left ∧
      start (decodingOf (deepClasses.map .ofDefinition)).readDalvik dalvikFile emptyHost =
        .ok (name :: left) s₁ ∧
      s₁.scratch = emptyHost.scratch ∧ During emptyHost.host emptyHost.scratch s₁.host ∧
      removeFault? s₁ = some (.path (.tooDeep .removing)) := by
  obtain ⟨host, hwrite, hcannot⟩ := exists_writeClasses_deepClasses
  obtain ⟨name, left, hnames⟩ : ∃ name left, names deepClasses = name :: left :=
    List.exists_cons_of_length_pos (by
      rw [names, (Text.sortBy_perm id _).length_eq, List.length_map]
      decide)
  have hconverted : converted (decodingOf (deepClasses.map .ofDefinition)).readDalvik dalvikFile
      emptyHost.host emptyHost.scratch = .ok (name :: left) host := by
    rw [← hnames]
    exact converted_of_written (contained_map_ofDefinition exact_deepClasses _) hwrite
  exact ⟨name, left, _, hnames, start_of_converted hconverted, rfl,
    writeClasses_during free_emptyHost.during hwrite,
    removeFault?_eq_some_iff.2 ⟨hcannot, rfl⟩⟩

end JndiScan.Dalvik.Conversion

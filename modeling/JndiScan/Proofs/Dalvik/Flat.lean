/-
Conversions that go well. Where every class has its file in the directory of the conversion itself,
as classes without a package have, nothing is in the way of any of them. When the names make paths
and the definitions can be written, the conversion ends well, and its directory can be removed.
-/
import JndiScan.Proofs.Dalvik.Depth
import JndiScan.Proofs.Files.Usable

namespace JndiScan.Dalvik.Conversion

open Host (bind_eq_ok_iff mapError_eq_ok_iff)

variable {before host : Host} {scratch : List Text}
variable {d : ClassDefinition} {ds : List ClassDefinition} {name : Text} {octets : Bytes}

theorem slash_not_mem_fileName (h : Path.slash ∉ d.name) : Path.slash ∉ fileName d := by
  have hending : Path.slash ∉ (".class" : Text) := by decide
  rw [fileName, List.mem_append, not_or]
  exact ⟨h, hending⟩

theorem plain_fileName (h : Path.slash ∉ d.name) : Path.Plain (fileName d) := by
  have hlength : 6 ≤ (fileName d).length := by
    rw [fileName, List.length_append]
    exact Nat.le_add_left 6 _
  refine ⟨?_, slash_not_mem_fileName h, ?_, ?_⟩
  all_goals
    intro heq
    rw [heq] at hlength
    exact absurd hlength (by decide)

theorem isAbsolute_fileName (h : Path.slash ∉ d.name) : Path.isAbsolute (fileName d) = false := by
  rw [Path.isAbsolute, decide_eq_false_iff_not]
  exact fun hhead => slash_not_mem_fileName h (List.mem_of_head? hhead)

theorem segments_eq (h : Path.slash ∉ d.name) : segments d = [fileName d] := by
  rw [segments, Path.names, Text.splitOn_of_not_mem (slash_not_mem_fileName h)]
  exact Path.filter_plain fun n hn => List.mem_singleton.1 hn ▸ plain_fileName h

theorem narrow_of_slash_not_mem {before : Host} {n : Nat} (hdot : .ofChar '.' ∉ d.name)
    (h : Path.slash ∉ d.name) (hn : 0 < n) : Narrow before n d where
  noDot := hdot
  clear habsolute := by
    rw [isAbsolute_fileName h] at habsolute
    cases habsolute
  length_le := by rwa [segments_eq h]

/-- A class whose file lies in the directory of a conversion itself, under a name, and that can be
written there. -/
structure Flat (scratch : List Text) (name : Text) (d : ClassDefinition) : Prop where
  below : Path.below (Path.ofNames scratch) (fileName d) = Path.ofNames (scratch ++ [name])
  usable : Host.Usable (scratch ++ [name])
  writable : ∃ octets, ClassFile.write d = .ok octets

/-- So do classes without a package. -/
theorem flat_of_noSlash (hfree : Free before scratch) (hdot : .ofChar '.' ∉ d.name)
    (hslash : Path.slash ∉ d.name) (husable : Host.Usable (scratch ++ [fileName d]))
    (hwritable : ∃ octets, ClassFile.write d = .ok octets) : Flat scratch (fileName d) d where
  below := by rw [below_segments hfree hdot (isAbsolute_fileName hslash), segments_eq hslash]
  usable := husable
  writable := hwritable

/-- The directory of a conversion holds nothing but files. -/
def HoldsFiles (scratch : List Text) (host : Host) : Prop :=
  ∀ n, host.root.at? (scratch ++ [n]) = none ∨
    ∃ content, host.root.at? (scratch ++ [n]) = some (.file content)

theorem holdsFiles_start (hfree : Free before scratch) :
    HoldsFiles scratch (before.put (.directory []) scratch) := by
  intro n
  rw [FileTree.at?_append, hfree.at?_put]
  exact .inl rfl

theorem HoldsFiles.put (hfiles : HoldsFiles scratch host) (h : During before scratch host)
    (name : Text) (octets : Bytes) :
    HoldsFiles scratch (host.put (.file octets) (scratch ++ [name])) := by
  obtain ⟨entries, -, hat⟩ := h.exists_at?
  intro n
  by_cases hkey : Path.key (scratch ++ [n]) = Path.key (scratch ++ [name])
  · rw [FileTree.at?_congr hkey]
    exact .inr ⟨octets, FileTree.at?_put_self hat _⟩
  · have happart : ∀ {a b : Text}, Path.key (scratch ++ [a]) ≠ Path.key (scratch ++ [b]) →
        ¬ Path.key (scratch ++ [a]) <+: Path.key (scratch ++ [b]) :=
      fun hne hbegins => hne (hbegins.eq_of_length (by simp [Path.key]))
    have hkept : (host.put (.file octets) (scratch ++ [name])).root.at? (scratch ++ [n]) =
        host.root.at? (scratch ++ [n]) :=
      FileTree.at?_put_of_apart (happart (Ne.symm hkey)) (happart hkey) _ _
    rw [hkept]
    exact hfiles n

/-- Nothing is in the way of such a class. -/
theorem writeClass_flat (h : During before scratch host) (hfiles : HoldsFiles scratch host)
    (hcalls : 0 < host.nesting.making) (hd : Flat scratch name d)
    (hoctets : ClassFile.write d = .ok octets) :
    writeClass scratch d host = .ok () (host.put (.file octets) (scratch ++ [name])) := by
  obtain ⟨entries, -, hat⟩ := h.exists_at?
  have habove : host.root.at? (scratch ++ [name]).dropLast = some (.directory entries) := by
    rwa [List.dropLast_concat]
  have husable : Host.Usable scratch := hd.usable.of_append h.free.ne_nil
  have hplace : placeOf scratch d host = .ok (scratch ++ [name]) := by
    have hresolve := hd.usable.resolve (h.noLink [name])
    refine bind_eq_ok_iff.2 ⟨_, mapError_eq_ok_iff.2 (hd.below ▸ hresolve), ?_⟩
    have hbelow : (scratch.isPrefixOf (scratch ++ [name]) &&
        scratch.length < (scratch ++ [name]).length) = true := by simp
    rw [if_pos hbelow]
    rfl
  have hmake : Host.makeDirectories (scratch ++ [name]).dropLast host = .ok () host := by
    rw [List.dropLast_concat]
    exact husable.makeDirectories hat hcalls
  exact writeClass_eq_ok hplace hmake hoctets (hd.usable.write habove (hfiles name) octets)

/-- Of two classes with one file the second is written over the first. -/
theorem writeClasses_oneFile {c : ClassDefinition} {name' : Text} (h : Nests before scratch 1 host)
    (hfiles : HoldsFiles scratch host) (hcalls : 0 < host.nesting.making) (hc : Flat scratch name c)
    (hd : Flat scratch name' d) (hkey : Path.key [name] = Path.key [name'])
    (hoctets : ClassFile.write d = .ok octets) :
    ∃ after, writeClasses scratch [c, d] host = .ok () after ∧ Nests before scratch 1 after ∧
      after.root.at? (scratch ++ [name]) = some (.file octets) := by
  obtain ⟨old, hold⟩ := hc.writable
  have hfirst := writeClass_flat h.during hfiles hcalls hc hold
  have hbetween := h.put_file name old
  have hsecond := writeClass_flat hbetween.during (hfiles.put h.during _ _) hcalls hd hoctets
  obtain ⟨entries, -, hat⟩ := hbetween.during.exists_at?
  refine ⟨_, ?_, hbetween.put_file name' octets, ?_⟩
  · exact work_bind_eq_ok_iff.2 ⟨_, _, hfirst, work_bind_eq_ok_iff.2 ⟨_, _, hsecond, rfl⟩⟩
  · have hplace : Path.key (scratch ++ [name]) = Path.key (scratch ++ [name']) := by
      rw [Path.key_append, Path.key_append, hkey]
    rw [FileTree.at?_congr hplace]
    exact FileTree.at?_put_self hat _

theorem exists_writeClasses_flat (h : Nests before scratch 1 host)
    (hfiles : HoldsFiles scratch host) (hcalls : 0 < host.nesting.making)
    (hds : ∀ d ∈ ds, ∃ name, Flat scratch name d) :
    ∃ after, writeClasses scratch ds host = .ok () after ∧ Nests before scratch 1 after := by
  induction ds generalizing host with
  | nil => exact ⟨host, rfl, h⟩
  | cons d ds ih =>
    obtain ⟨name, hd⟩ := hds d (List.mem_cons_self ..)
    obtain ⟨octets, hoctets⟩ := hd.writable
    have hwrite := writeClass_flat h.during hfiles hcalls hd hoctets
    obtain ⟨after, hafter, hnests⟩ := ih (h.put_file name octets) (hfiles.put h.during _ _) hcalls
      fun d hmem => hds d (List.mem_cons_of_mem _ hmem)
    exact ⟨after, work_bind_eq_ok_iff.2 ⟨(), _, hwrite, hafter⟩, hnests⟩

/-- A conversion of such classes ends well, and its directory can be removed. -/
theorem exists_start_flat {s : Session} {readClasses : ClassReader} {e : Entry}
    (hfree : Free s.host s.scratch) (hmaking : 0 < s.host.nesting.making)
    (hremoving : 0 < s.host.nesting.removing)
    (hcontained : contained readClasses e (s.host.put (.directory []) s.scratch) = .ok ds)
    (hds : ∀ d ∈ ds, ∃ name, Flat s.scratch name d) :
    ∃ s₁, start readClasses e s = .ok (names ds) s₁ ∧ removeFault? s₁ = none := by
  obtain ⟨after, hafter, hnests⟩ := exists_writeClasses_flat (.begun hfree Nat.one_pos)
    (holdsFiles_start hfree) hmaking hds
  exact ⟨_, start_of_converted (converted_of_written hcontained hafter),
    if_pos (hnests.canRemove hremoving)⟩

end JndiScan.Dalvik.Conversion

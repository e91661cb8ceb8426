/-
How deep a conversion nests directories. They are nested no deeper than the longest way from the
directory of the conversion to a file in it, and where the name of a class leads through no link
that way is no longer than the name has segments. So with names that are not too long the directory
can be removed again, whatever else comes of the conversion.
-/
import JndiScan.Proofs.Dalvik.Conversion
import JndiScan.Proofs.Files.Depth

namespace JndiScan.Dalvik.Conversion

variable {before host : Host} {scratch : List Text} {n : Nat}
variable {d : ClassDefinition} {ds : List ClassDefinition}

/-! ## Names that are not too long -/

/-- A class whose name has at most so many segments and leads through no link. -/
structure Narrow (before : Host) (n : Nat) (d : ClassDefinition) : Prop where
  noDot : .ofChar '.' ∉ d.name
  clear : Clear before d
  length_le : (segments d).length ≤ n

/-- The way to the file of such a class is not longer. -/
theorem Narrow.length_inside_le (hd : Narrow before n d) (h : During before scratch host)
    {inside : List Text} (hplace : placeOf scratch d host = .ok (scratch ++ inside)) :
    inside.length ≤ n := by
  have hway := eq_wayTo_of_resolve h hd.noDot hd.clear (placeOf_eq_ok hplace).1
  have hlength := congrArg List.length hway
  have hle := hd.length_le
  rw [wayTo, List.length_append] at hlength
  split at hlength
  · omega
  · rw [List.length_append] at hlength
    omega

/-! ## Directories that are not nested too deep -/

/-- The directory of a conversion, with others in it nested no deeper than so many. -/
structure Nests (before : Host) (scratch : List Text) (n : Nat) (host : Host) : Prop where
  during : During before scratch host
  depth_le : ∃ t, host.root.at? scratch = some t ∧ t.depth ≤ n

namespace Nests

theorem begun (h : Free before scratch) (hn : 0 < n) :
    Nests before scratch n (before.put (.directory []) scratch) :=
  ⟨h.during, _, h.at?_put _, hn⟩

theorem put (h : Nests before scratch n host) {new : FileTree} (hnew : FileTree.LinkFree new)
    {inside : List Text} (hinside : inside ≠ []) (hdepth : inside.length + new.depth ≤ n) :
    Nests before scratch n (host.put new (scratch ++ inside)) := by
  obtain ⟨t, hat, hle⟩ := h.depth_le
  refine ⟨h.during.put hnew hinside, _,
    FileTree.at?_put_append h.during.free.ne_nil hat inside new, ?_⟩
  exact (FileTree.depth_put_le new inside t).trans (Nat.max_le.2 ⟨hle, hdepth⟩)

theorem put_file (h : Nests before scratch 1 host) (name : Text) (octets : Bytes) :
    Nests before scratch 1 (host.put (.file octets) (scratch ++ [name])) :=
  h.put (FileTree.linkFree_file octets) (List.cons_ne_nil name []) (Nat.le_refl 1)

/-- Such a directory can be removed when the system removes that many nested in one another. -/
theorem canRemove (h : Nests before scratch n host) (hn : n ≤ before.nesting.removing) :
    host.canRemove scratch = true := by
  obtain ⟨t, hat, hle⟩ := h.depth_le
  rw [Host.canRemove, hat, h.during.nesting_eq]
  exact decide_eq_true (hle.trans hn)

end Nests

theorem preserves_writeClass_nests (hd : Narrow before n d) :
    Preserves (Nests before scratch n) (writeClass scratch d) := by
  refine (Host.preserves_ask _).bind fun place host _ h hask => ?_
  obtain ⟨hplace, -⟩ := Host.ask_eq_ok_iff.1 hask
  obtain ⟨hresolve, inside, hinside, rfl⟩ := placeOf_eq_ok hplace
  have hlength := hd.length_inside_le h.during hplace
  have hplain := Host.plain_of_resolve
    (Path.isAbsolute_below h.during.free.ne_nil h.during.free.plain _) hresolve
  have hmakes : Preserves (Nests before scratch n)
      (Host.makeDirectories (scratch ++ inside).dropLast) := by
    refine Host.preserves_makeDirectories fun way hway host host' h hmake => ?_
    rw [List.dropLast_append_of_ne_nil hinside] at hway
    have hbelow : ∀ m ∈ scratch ++ inside.dropLast, Path.Plain m := fun m hm =>
      hplain m ((List.prefix_append_right_inj scratch).2 (List.dropLast_prefix inside) |>.subset hm)
    obtain rfl | ⟨rest, hrest, hbegins, rfl⟩ := h.during.makeDirectory_cases hbelow hway hmake
    · exact h
    · refine h.put FileTree.linkFree_directory_nil hrest ?_
      have hshort := hbegins.length_le
      rw [List.length_dropLast] at hshort
      have hpos := List.length_pos_iff.2 hrest
      rw [FileTree.depth, FileTree.depths]
      omega
  refine (hmakes.adaptExcept _).bind fun _ _ _ _ _ => ?_
  refine (Host.preserves_ask _).bind fun octets _ _ _ _ => Preserves.adaptExcept ?_ _
  refine Host.preserves_change fun host host' h hwrite => ?_
  obtain ⟨-, rfl, -, -⟩ :=
    Host.write_eq_ok (by simp [hinside]) hplain (h.during.noLink inside) hwrite
  exact h.put (FileTree.linkFree_file octets) hinside hlength

theorem preserves_writeClasses_nests (hds : ∀ d ∈ ds, Narrow before n d) :
    Preserves (Nests before scratch n) (writeClasses scratch ds) := by
  induction ds with
  | nil => exact .pure ()
  | cons d ds ih =>
    obtain ⟨hd, hds⟩ := List.forall_mem_cons.1 hds
    exact (preserves_writeClass_nests hd).bind fun _ _ _ _ _ => ih hds

/-- The classes of an entry, if they can be read, have names with at most so many segments, which
lead through no link. -/
def HoldsNarrow (readClasses : ClassReader) (e : Entry) (before : Host) (scratch : List Text)
    (n : Nat) : Prop :=
  ∀ ds, contained readClasses e (before.put (.directory []) scratch) = .ok ds →
    ∀ d ∈ ds, Narrow before n d

/-- Whatever comes of a conversion, its directory can be removed after such classes. -/
theorem nests_converted (hfree : Free before scratch) (hn : 0 < n) {readClasses : ClassReader}
    {e : Entry} (hnarrow : HoldsNarrow readClasses e before scratch n) :
    Nests before scratch n (stateOf (converted readClasses e before scratch)) := by
  unfold converted
  cases hds : contained readClasses e (before.put (.directory []) scratch) with
  | error reason =>
    simp only [hds]
    exact .begun hfree hn
  | ok ds =>
    have hkept := preserves_writeClasses_nests (hnarrow ds hds) _ (Nests.begun hfree hn)
    simp only [hds]
    cases hwrite : writeClasses scratch ds (before.put (.directory []) scratch) <;>
      rw [hwrite] at hkept <;> exact hkept

end JndiScan.Dalvik.Conversion

/-
Where a conversion changes the host. Converting is done here once more, with every change kept, and
kept also where the conversion fails: each of them is below the directory of the conversion,
whatever the classes are named. A class whose name leads anywhere else is refused, before anything
is made for it; what is told of it is lost where the directory cannot be removed.
-/
import JndiScan.Proofs.Dalvik.Recovery
import JndiScan.Proofs.Files.Changes

namespace JndiScan.Dalvik.Conversion

open Host (Change Trail Tracing)

/-! ## Conversions with their changes -/

/-- Writes the file of a class and keeps the changes. -/
def traceClass (directory : List Text) (d : ClassDefinition) : Tracing ClassFault Unit := do
  let place ← Tracing.ask (placeOf directory d)
  EStateM.adaptExcept .path (Tracing.makeDirectories place.dropLast)
  let octets ← Tracing.ask fun _ => (ClassFile.write d).mapError .unwritable
  EStateM.adaptExcept .path (Tracing.write (Path.ofNames place) octets)

/-- Writes the files of classes one after the other and keeps the changes. -/
def traceClasses (directory : List Text) : List ClassDefinition → Tracing ClassFault Unit
  | [] => pure ()
  | d :: ds => traceClass directory d >>= fun _ => traceClasses directory ds

/-- The changes of a conversion in its new directory, with the names of the class files or the
trouble that it ends in. -/
def traced (readClasses : ClassReader) (e : Entry) (host : Host) (scratch : List Text) :
    EStateM.Result Trouble Trail (List Text) :=
  let host := host.put (.directory []) scratch
  match contained readClasses e host with
  | .error reason => .error (.ofReason e.place reason) { host }
  | .ok ds =>
    match traceClasses scratch ds { host } with
    | .error fault t => .error (.ofClass e.place fault) t
    | .ok _ t => .ok (names ds) t

section Same

variable (directory : List Text) (t : Trail)

theorem forget_traceClass (d : ClassDefinition) :
    Trail.forget (traceClass directory d t) = writeClass directory d t.host := by
  refine Tracing.forget_bind t (Tracing.forget_ask t _) fun place t => ?_
  refine Tracing.forget_bind t
    (Tracing.forget_adaptExcept t (Tracing.forget_makeDirectories t _)) fun _ t => ?_
  refine Tracing.forget_bind t (Tracing.forget_ask t _) fun octets t => ?_
  exact Tracing.forget_adaptExcept t (Tracing.forget_write t _ octets)

theorem forget_traceClasses (ds : List ClassDefinition) :
    Trail.forget (traceClasses directory ds t) = writeClasses directory ds t.host := by
  induction ds generalizing t with
  | nil => rfl
  | cons d ds ih =>
    exact Tracing.forget_bind t (forget_traceClass directory t d) fun _ t => ih t

/-- Keeping the changes of a conversion changes nothing else. -/
theorem forget_traced (readClasses : ClassReader) (e : Entry) (host : Host)
    (scratch : List Text) :
    Trail.forget (traced readClasses e host scratch) = converted readClasses e host scratch := by
  unfold converted traced
  cases hcontained : contained readClasses e (host.put (.directory []) scratch) with
  | error reason => simp only [hcontained]; rfl
  | ok ds =>
    have hforget := forget_traceClasses scratch { host := host.put (.directory []) scratch } ds
    simp only [hcontained, ← hforget]
    cases traceClasses scratch ds { host := host.put (.directory []) scratch } <;> rfl

end Same

/-! ## Changes below the directory -/

/-- A place is strictly below a directory. -/
def Below (directory place : List Text) : Prop :=
  ∃ inside, inside ≠ [] ∧ (∀ n ∈ inside, Path.Plain n) ∧ place = directory ++ inside

variable {before : Host} {scratch : List Text}

/-- The changes of a conversion so far are below its directory, and there are no others. -/
structure Confined (before : Host) (scratch : List Text) (t : Trail) : Prop where
  during : During before scratch t.host
  below : ∀ change ∈ t.changes, Below scratch change.place
  replayed : t.host = t.changes.foldl Change.apply (before.put (.directory []) scratch)

namespace Confined

variable {t : Trail} {inside : List Text}

theorem begun (h : Free before scratch) :
    Confined before scratch { host := before.put (.directory []) scratch } where
  during := h.during
  below := List.forall_mem_nil _
  replayed := rfl

theorem add (h : Confined before scratch t) {change : Change}
    (hduring : During before scratch (change.apply t.host)) (hbelow : Below scratch change.place) :
    Confined before scratch (t.add change) where
  during := hduring
  below := by
    rw [Trail.add, List.forall_mem_append, List.forall_mem_singleton]
    exact ⟨h.below, hbelow⟩
  replayed := by
    rw [Trail.add, List.foldl_append, ← h.replayed]
    rfl

theorem add_made (h : Confined before scratch t) (hne : inside ≠ [])
    (hplain : ∀ n ∈ inside, Path.Plain n) :
    Confined before scratch (t.add (.made (scratch ++ inside))) :=
  h.add (h.during.put FileTree.linkFree_directory_nil hne) ⟨inside, hne, hplain, rfl⟩

theorem add_written (h : Confined before scratch t) (hne : inside ≠ [])
    (hplain : ∀ n ∈ inside, Path.Plain n) (content : Bytes) :
    Confined before scratch (t.add (.written (scratch ++ inside) content)) :=
  h.add (h.during.put (FileTree.linkFree_file content) hne) ⟨inside, hne, hplain, rfl⟩

end Confined

section Preserves

variable {inside way : List Text}

/-- A directory that is made on the way to something in the directory of the conversion. -/
theorem confined_makeDirectory (hplain : ∀ n ∈ scratch ++ inside, Path.Plain n)
    (hway : way <+: scratch ++ inside) :
    Preserves (Confined before scratch) (Tracing.makeDirectory (Path.ofNames way)) := by
  refine Tracing.preserves_makeDirectory (fun n hn => hplain n (hway.subset hn))
    (fun t ht up hup => ht.during.noLink inside up (hup.trans hway)) fun t ht habsent => ?_
  obtain ⟨entries, -, hat⟩ := ht.during.exists_at?
  rcases List.prefix_or_prefix_of_prefix hway (List.prefix_append scratch inside) with
    ⟨rest, rfl⟩ | ⟨rest, rfl⟩
  · -- What is above the directory of the conversion is there.
    rw [FileTree.at?_append, habsent] at hat
    cases hat
  · refine ht.add_made ?_ fun n hn => hplain n (hway.subset (List.mem_append_right _ hn))
    rintro rfl
    rw [List.append_nil, hat] at habsent
    cases habsent

theorem confined_traceClass (d : ClassDefinition) :
    Preserves (Confined before scratch) (traceClass scratch d) := by
  refine (Tracing.preserves_ask _).bind fun place t t' ht hask => ?_
  have hplace : placeOf scratch d t.host = .ok place := by
    rw [Tracing.ask] at hask
    cases hx : placeOf scratch d t.host <;> rw [hx] at hask <;> cases hask
    rfl
  obtain ⟨hresolve, inside, hinside, rfl⟩ := placeOf_eq_ok hplace
  have hplain : ∀ n ∈ scratch ++ inside, Path.Plain n := Host.plain_of_resolve
    (Path.isAbsolute_below ht.during.free.ne_nil ht.during.free.plain _) hresolve
  have hdirectories : Preserves (Confined before scratch)
      (Tracing.makeDirectories (scratch ++ inside).dropLast) :=
    Tracing.preserves_makeDirectories fun ns hns =>
      confined_makeDirectory hplain (hns.trans (List.dropLast_prefix _))
  refine (hdirectories.adaptExcept _).bind fun _ _ _ _ _ => ?_
  refine (Tracing.preserves_ask _).bind fun octets _ _ _ _ => Preserves.adaptExcept ?_ _
  exact Tracing.preserves_write (by simp [hinside]) hplain
    (fun t ht => ht.during.noLink inside)
    fun t ht => ht.add_written hinside (fun n hn => hplain n (List.mem_append_right _ hn)) octets

theorem confined_traceClasses (ds : List ClassDefinition) :
    Preserves (Confined before scratch) (traceClasses scratch ds) := by
  induction ds with
  | nil => exact .pure ()
  | cons d ds ih => exact (confined_traceClass d).bind fun _ _ _ _ _ => ih

/-- Whatever comes of a conversion, it has made changes below its directory alone. -/
theorem confined_traced (h : Free before scratch) (readClasses : ClassReader) (e : Entry) :
    Confined before scratch (stateOf (traced readClasses e before scratch)) := by
  unfold traced
  cases hcontained : contained readClasses e (before.put (.directory []) scratch) with
  | error reason =>
    simp only [hcontained]
    exact .begun h
  | ok ds =>
    have hkept := confined_traceClasses ds _ (Confined.begun h)
    simp only [hcontained]
    cases hx : traceClasses scratch ds { host := before.put (.directory []) scratch } <;>
      rw [hx] at hkept <;> exact hkept

end Preserves

/-! ## Names that lead out -/

section Outside

variable {host : Host} {d : ClassDefinition} {earlier later : List ClassDefinition}

/-- A class whose file would stand anywhere else is refused. -/
theorem placeOf_of_not_below (h : Free before scratch) {place : List Text}
    (hresolve : host.resolve (Path.below (Path.ofNames scratch) (fileName d)) = .ok place)
    (hplace : ¬ Below scratch place) : placeOf scratch d host = .error (.outside d.name) := by
  cases hfound : placeOf scratch d host with
  | ok found =>
    obtain ⟨hfound, inside, hne, rfl⟩ := placeOf_eq_ok hfound
    cases hresolve.symm.trans hfound
    have hplain := Host.plain_of_resolve (Path.isAbsolute_below h.ne_nil h.plain _) hresolve
    exact absurd ⟨inside, hne, fun n hn => hplain n (List.mem_append_right _ hn), rfl⟩ hplace
  | error failure =>
    obtain ⟨fault, hfault, -⟩ | rfl := placeOf_eq_error hfound
    · cases hresolve.symm.trans hfault
    · rfl

/-- A conversion that comes to such a class ends there. -/
theorem converted_of_not_below (h : Free before scratch) {readClasses : ClassReader} {e : Entry}
    (hcontained : contained readClasses e (before.put (.directory []) scratch) =
      .ok (earlier ++ d :: later))
    (hearlier : writeClasses scratch earlier (before.put (.directory []) scratch) = .ok () host)
    {place : List Text}
    (hresolve : host.resolve (Path.below (Path.ofNames scratch) (fileName d)) = .ok place)
    (hplace : ¬ Below scratch place) :
    converted readClasses e before scratch =
      .error (.ofReason e.place (.classNotWritten (.outside d.name))) host := by
  have hclass : writeClass scratch d host = .error (.outside d.name) host :=
    work_bind_eq_error_iff.2 (.inl (Host.ask_eq_error_iff.2
      ⟨placeOf_of_not_below h hresolve hplace, rfl⟩))
  have hwrite : writeClasses scratch (earlier ++ d :: later)
      (before.put (.directory []) scratch) = .error (.outside d.name) host :=
    writeClasses_eq_error_iff.2 ⟨earlier, d, later, host, rfl, hearlier, hclass⟩
  exact converted_of_unwritten hcontained hwrite

end Outside

/-- A class, and another one whose dots make its name start at the root. -/
def leadingOut : List RawClass :=
  [.ofDefinition (bare "A"), { RawClass.ofDefinition (bare "B") with name := "L.etc.Evil;" }]

theorem resolve_evil {host : Host} (h : During emptyHost.host emptyHost.scratch host) :
    host.resolve "/etc/Evil.class" = .ok ["etc", "Evil.class"] := by
  have hlink : Host.NoLink host [] ["etc", "Evil.class"] := by
    intro way _ target hat
    have hbefore := h.at?_link hat
    cases way <;> cases hbefore
  have husable : Host.Usable ["etc", "Evil.class"] := by decide
  exact husable.resolve hlink

theorem not_below_evil : ¬ Below emptyHost.scratch ["etc", "Evil.class"] := by
  rintro ⟨inside, -, -, heq⟩
  cases heq

end JndiScan.Dalvik.Conversion

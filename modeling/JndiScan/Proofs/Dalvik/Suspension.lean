/-
A conversion in use. It is asked for one entry after the other, and may be left at any time. All
that can fail but one comes before the first entry, so a conversion gives nothing, or it gives the
entries of all classes; while it waits to be asked the files of the classes stand as they are. What
can fail later is to remove the directory: after the last entry, or when the conversion is left. It
does so exactly when directories are nested too deep in it, and then it stays.
-/
import JndiScan.Proofs.Dalvik.Deep

namespace JndiScan

/-! ## Containers in use -/

/-- What a container answers when it is asked for its next entry. -/
inductive Answer
  | gives (x : Entry)
  | ends
  | fails (trouble : Trouble)

/-- The answer of a container after its last entry: it has ended, or leaving it raises a fault. -/
def Answer.over : Option Fault → Answer
  | none => .ends
  | some fault => .fails (.aborted fault)

theorem Answer.over_ne_gives (raised : Option Fault) (x : Entry) :
    Answer.over raised ≠ .gives x := by
  cases raised <;> exact nofun

/-- A container in use and the session it works on. It has no position once it has ended or failed,
or was left. -/
structure InUse where
  position : Option Position
  session : Session

namespace InUse

/-- A container that waits at a position. -/
def waiting (p : Position) (s : Session) : InUse := { position := some p, session := s }

/-- A container that is over. -/
def finished (s : Session) : InUse := { position := none, session := s }

variable (D : Decoding)

/-- The container is asked for its next entry. When it is over it answers that it has ended. -/
def ask (c : InUse) : Answer × InUse :=
  match c.position with
  | none => (.ends, c)
  | some p =>
    match D.pull p c.session with
    | .ok (some (x, p)) s => (.gives x, waiting p s)
    | .ok none s => (.ends, finished s)
    | .error trouble s => (.fails trouble, finished s)

/-- The container after it was asked so many times. -/
def after (c : InUse) : Nat → InUse
  | 0 => c
  | k + 1 => (c.ask D).2.after k

/-- The answers of the container that is asked so many times. -/
def answers (c : InUse) : Nat → List Answer
  | 0 => []
  | k + 1 => (c.ask D).1 :: (c.ask D).2.answers k

/-- The container is left. -/
def left (c : InUse) : InUse :=
  match c.position with
  | none => c
  | some p => finished (Decoding.close p c.session)

/-- The fault that leaving the container raises, if it raises one. -/
def leftFault? (c : InUse) : Option Fault :=
  c.position.bind fun p => Decoding.closeFault? p c.session

/-- The container fails when it is first asked, and has ended then. -/
def FailsAtOnce (c : InUse) : Prop :=
  ∃ trouble, ∀ k, c.answers D (k + 1) = .fails trouble :: List.replicate k .ends

/-- The container gives certain entries, one after the other, then a last answer, and has ended
then. -/
def GivesAll (c : InUse) (xs : List Entry) (last : Answer) : Prop :=
  ∀ k, c.answers D k =
    (xs.map Answer.gives ++ [last]).take k ++ List.replicate (k - (xs.length + 1)) .ends

section Asked

variable {D}

theorem answers_finished (s : Session) (k : Nat) :
    (finished s).answers D k = List.replicate k .ends := by
  induction k with
  | zero => rfl
  | succ k ih => rw [List.replicate_succ, ← ih]; rfl

theorem after_finished (s : Session) (k : Nat) : (finished s).after D k = finished s := by
  induction k with
  | zero => rfl
  | succ k ih => exact ih

/-- After its last entry a conversion removes its directory. -/
theorem ask_converted_nil (s : Session) (place : Provenance) :
    (waiting (.converted place []) s).ask D =
      (.over (Dalvik.Conversion.removeFault? s), finished (Dalvik.Conversion.remove s)) := by
  unfold ask waiting
  cases hgoes : Dalvik.Conversion.removeFault? s with
  | none => simp only [Decoding.pull_converted_nil D place hgoes, Answer.over]
  | some fault => simp only [Decoding.pull_converted_nil_of_some D place hgoes, Answer.over]

/-- A conversion that went well gives the entries of its class files. -/
theorem givesAll_converted (s : Session) (place : Provenance) (names : List Text) :
    (waiting (.converted place names) s).GivesAll D
      (names.map (Dalvik.Conversion.entry s.scratch place))
      (.over (Dalvik.Conversion.removeFault? s)) := by
  intro k
  induction k generalizing names with
  | zero => rw [List.take_zero, Nat.zero_sub]; rfl
  | succ k ih =>
    cases names with
    | nil =>
      rw [answers, ask_converted_nil, answers_finished]
      simp
    | cons name names =>
      have hgives : (waiting (.converted place (name :: names)) s).answers D (k + 1) =
        .gives (Dalvik.Conversion.entry s.scratch place name) ::
          (waiting (.converted place names) s).answers D k := rfl
      rw [hgives, ih, List.map_cons, List.map_cons, List.cons_append, List.take_succ_cons,
        List.length_cons, Nat.add_sub_add_right, List.cons_append]

/-- It waits until it is asked after its last entry, and removes its directory then. -/
theorem after_converted (s : Session) (place : Provenance) (names : List Text) (k : Nat) :
    (∃ names', (waiting (.converted place names) s).after D k =
      waiting (.converted place names') s) ∨
      names.length < k ∧
        (waiting (.converted place names) s).after D k = finished (Dalvik.Conversion.remove s) := by
  induction k generalizing names with
  | zero => exact .inl ⟨names, rfl⟩
  | succ k ih =>
    cases names with
    | nil =>
      rw [after, ask_converted_nil]
      exact .inr ⟨Nat.succ_pos k, after_finished _ k⟩
    | cons name names =>
      rcases ih names with hwaits | ⟨hlt, hover⟩
      · exact .inl hwaits
      · exact .inr ⟨Nat.succ_lt_succ hlt, hover⟩

theorem after_length_converted (s : Session) (place : Provenance) (names : List Text) :
    (waiting (.converted place names) s).after D (names.length + 1) =
      finished (Dalvik.Conversion.remove s) := by
  induction names with
  | nil => rw [after, List.length_nil, ask_converted_nil, after]
  | cons name names ih => exact ih

end Asked

end InUse

namespace Dalvik.Conversion

open InUse (waiting finished FailsAtOnce GivesAll)

variable {D : Decoding} {s : Session} {e : Entry}
variable {before host host' after : Host} {scratch : List Text}
variable {d : ClassDefinition} {ds : List ClassDefinition}

/-! ## Files that stay -/

/-- Where a file stands, a file stands after a class is written. -/
theorem exists_file_of_writeClass (h : During before scratch host) {place : List Text}
    (hfile : ∃ octets, host.root.at? place = some (.file octets))
    (hwrite : writeClass scratch d host = .ok () host') :
    ∃ octets, host'.root.at? place = some (.file octets) := by
  obtain ⟨old, hold⟩ := hfile
  obtain ⟨inside, octets, between, hw⟩ := exists_written h.free hwrite
  by_cases hkey : Path.key place = Path.key (scratch ++ inside)
  · obtain ⟨husable, rfl, ⟨entries, habove⟩, -⟩ := hw.put h
    refine ⟨octets, ?_⟩
    rw [FileTree.at?_congr hkey]
    exact FileTree.at?_put husable.ne_nil habove (.file octets)
  · exact ⟨old, hw.at?_of_file h hold hkey⟩

theorem exists_file_of_writeClasses (h : During before scratch host) {place : List Text}
    (hfile : ∃ octets, host.root.at? place = some (.file octets))
    (hwrite : writeClasses scratch ds host = .ok () host') :
    ∃ octets, host'.root.at? place = some (.file octets) := by
  induction ds generalizing host with
  | nil =>
    cases hwrite
    exact hfile
  | cons d ds ih =>
    obtain ⟨⟨⟩, between, hfirst, hrest⟩ := work_bind_eq_ok_iff.1 hwrite
    exact ih (writeClass_during h hfirst) (exists_file_of_writeClass h hfile hfirst) hrest

/-- The system follows the name of a class to its file: a name from the root on leads through no
link, which the system could follow otherwise than it was resolved, and is not too long as it is
shown. -/
structure Followed (before : Host) (d : ClassDefinition) : Prop where
  clear : Clear before d
  path_le : Path.isAbsolute (fileName d) = true →
    Path.octetLength (Path.shown (fileName d)) ≤ Path.maxPath

/-- So a file is read by the name of its class. -/
theorem Followed.read (hd : Followed before d) (hfree : Free before scratch)
    (hdot : .ofChar '.' ∉ d.name) (husable : Host.Usable (wayTo scratch d)) {octets : Bytes}
    (hfile : host.root.at? (wayTo scratch d) = some (.file octets)) :
    host.read (Path.below (Path.ofNames scratch) (fileName d)) = .ok octets := by
  by_cases habsolute : Path.isAbsolute (fileName d) = true
  · have hway : wayTo scratch d = Path.names (fileName d) := if_pos habsolute
    rw [hway] at husable hfile
    have hpath := hd.path_le habsolute
    rw [Path.below, if_pos habsolute]
    rcases Path.shown_eq habsolute with heq | heq <;> rw [heq] at hpath ⊢
    · exact Host.read_of_at? husable hfile
    · exact Host.read_slash_of_at? husable hfile hpath
  · have hway : wayTo scratch d = scratch ++ segments d := if_neg habsolute
    rw [hway] at husable hfile
    rw [below_segments hfree hdot (by simpa using habsolute)]
    exact Host.read_of_at? husable hfile

/-- The file of every class can be read when all are written, be it that of a later class. -/
theorem exists_content_entry (h : During before scratch host) (hd : d ∈ ds)
    (hdot : .ofChar '.' ∉ d.name) (hfollowed : Followed before d)
    (hwrite : writeClasses scratch ds host = .ok () after) (place : Provenance)
    (hs : At after scratch s) :
    ∃ octets, (entry scratch place (fileName d)).content s.host = .ok octets := by
  obtain ⟨earlier, later, rfl⟩ := List.append_of_mem hd
  obtain ⟨first, second, hfirst, hsecond, hrest⟩ := exists_of_writeClasses_append hwrite
  have hduring := writeClasses_during h hfirst
  obtain ⟨inside, octets, between, hw⟩ := exists_written h.free hsecond
  obtain ⟨husable, hput, ⟨entries, habove⟩, -⟩ := hw.put hduring
  have hfile : second.root.at? (scratch ++ inside) = some (.file octets) := by
    rw [hput]
    exact FileTree.at?_put husable.ne_nil habove (.file octets)
  obtain ⟨content, hcontent⟩ := exists_file_of_writeClasses (writeClass_during hduring hsecond)
    ⟨octets, hfile⟩ hrest
  rw [eq_wayTo_of_resolve hduring hdot hfollowed.clear hw.resolved] at husable hcontent
  refine ⟨content, ?_⟩
  rw [Entry.content, entry, hs.1]
  simp only [hfollowed.read h.free hdot husable hcontent]
  rfl

/-! ## Conversions in use -/

/-- A Dalvik file of which nothing was taken yet. -/
def unasked (e : Entry) (s : Session) : InUse := waiting (.dalvikStart e) s

section InUse

variable {trouble : Trouble} {found : List Text}

/-- A conversion that comes to nothing fails at once. -/
theorem ask_of_converted_error (h : converted D.readDalvik e s.host s.scratch = .error trouble host) :
    (unasked e s).ask D =
      (.fails (troubleAfter trouble (reached s e host)), finished (remove (reached s e host))) := by
  have hpull := Decoding.pull_dalvikStart_of_error (start_of_converted_error h)
  unfold InUse.ask unasked waiting
  simp only [hpull]

/-- A conversion that goes well is asked like one that holds its class files. -/
theorem ask_of_start {s₁ : Session} (h : start D.readDalvik e s = .ok found s₁) :
    (unasked e s).ask D = (waiting (.converted e.place found) s₁).ask D := by
  have hpull := Decoding.pull_dalvikStart h
  unfold InUse.ask unasked waiting
  simp only [hpull]

/-- So are its answers. -/
theorem answers_of_start {s₁ : Session} (h : start D.readDalvik e s = .ok found s₁) (k : Nat) :
    (unasked e s).answers D k = (waiting (.converted e.place found) s₁).answers D k := by
  cases k with
  | zero => rfl
  | succ k => rw [InUse.answers, ask_of_start h, ← InUse.answers]

theorem after_of_start {s₁ : Session} (h : start D.readDalvik e s = .ok found s₁) (k : Nat) :
    (unasked e s).after D (k + 1) = (waiting (.converted e.place found) s₁).after D (k + 1) := by
  rw [InUse.after, ask_of_start h, ← InUse.after]

end InUse

/-- The session that a conversion comes to before its directory is removed. -/
def come (D : Decoding) (e : Entry) (s : Session) : Session :=
  reached s e (stateOf (converted D.readDalvik e s.host s.scratch))

/-- Once it was asked, a conversion waits with what it came to, or it has tried to remove its
directory; and if that raised a fault, it has answered with it. -/
theorem after_unasked (D : Decoding) (e : Entry) (s : Session) (k : Nat) :
    (∃ left, (unasked e s).after D (k + 1) = waiting (.converted e.place left) (come D e s)) ∨
      (unasked e s).after D (k + 1) = finished (remove (come D e s)) ∧
        ∀ fault, removeFault? (come D e s) = some fault →
          .fails (.aborted fault) ∈ (unasked e s).answers D (k + 1) := by
  rw [come]
  cases hconverted : converted D.readDalvik e s.host s.scratch with
  | error trouble host =>
    refine .inr ⟨?_, fun fault hstays => ?_⟩
    · rw [InUse.after, ask_of_converted_error hconverted, InUse.after_finished]
      rfl
    · rw [InUse.answers, ask_of_converted_error hconverted,
        troubleAfter_of_some (show removeFault? (reached s e host) = some fault from hstays)]
      exact List.mem_cons_self ..
  | ok found host =>
    have hstart := start_of_converted hconverted
    rw [after_of_start hstart, answers_of_start hstart]
    rcases InUse.after_converted (D := D) (reached s e host) e.place found (k + 1) with
      hwaits | ⟨hlt, hover⟩
    · exact .inl hwaits
    · refine .inr ⟨hover, fun fault hstays => ?_⟩
      rw [InUse.givesAll_converted (D := D) (reached s e host) e.place found,
        show removeFault? (reached s e host) = some fault from hstays, List.take_of_length_le]
      · exact List.mem_append_left _ (List.mem_append_right _ (List.mem_singleton_self _))
      · simp only [List.length_append, List.length_map, List.length_singleton]
        exact hlt

theorem cleared_come (hfree : Free s.host s.scratch) (D : Decoding) (e : Entry) :
    Cleared s.host s.scratch (removeFault? (come D e s)) (remove (come D e s)).host :=
  (cleared_remove (s := come D e s) (during_converted hfree D.readDalvik e) rfl).1

/-- An entry has one content whenever the conversion waits after its first answer. -/
def Reads (D : Decoding) (c : InUse) (x : Entry) (content : Except OpenFault Bytes) : Prop :=
  ∀ k, (c.after D (k + 1)).position ≠ none → x.content (c.after D (k + 1)).session.host = content

theorem reads_come (D : Decoding) (e : Entry) (s : Session) (x : Entry) :
    Reads D (unasked e s) x (x.content (come D e s).host) := by
  intro k hwaiting
  rcases after_unasked D e s k with ⟨left, heq⟩ | ⟨heq, -⟩
  · rw [heq]
    rfl
  · rw [heq] at hwaiting
    exact absurd rfl hwaiting

theorem noDot_of_contained {readClasses : ClassReader}
    (h : contained readClasses e host = .ok ds) : ∀ d ∈ ds, .ofChar '.' ∉ d.name := by
  obtain ⟨-, cs, -, rfl⟩ := contained_eq_ok h
  intro d hd
  obtain ⟨c, -, rfl⟩ := List.mem_map.1 hd
  exact ClassName.dot_not_mem_slashForm c.name

/-- A conversion that gives the classes of its file in a certain order, and after the last of them
raises a fault or not. While it waits their entries keep what they hold, which can be read wherever
the system follows the name of the class. A fault is raised exactly when the directory stays. -/
structure GivesClasses (D : Decoding) (e : Entry) (s : Session) (ds : List ClassDefinition)
    (raised : Option JndiScan.Fault) : Prop where
  classes : ∃ held, contained D.readDalvik e (s.host.put (.directory []) s.scratch) = .ok held ∧
    ds.Perm held
  sorted : ds.Pairwise fun c d => Text.le (fileName c) (fileName d) = true
  gives : (unasked e s).GivesAll D (ds.map fun d => entry s.scratch e.place (fileName d))
    (.over raised)
  keeps : ∀ d ∈ ds, ∃ content,
    Reads D (unasked e s) (entry s.scratch e.place (fileName d)) content ∧
      (Followed s.host d → ∃ octets, content = .ok octets)
  cleared : Cleared s.host s.scratch raised ((unasked e s).after D (ds.length + 1)).session.host

theorem givesClasses_of_converted (hfree : Free s.host s.scratch) {found : List Text}
    (h : converted D.readDalvik e s.host s.scratch = .ok found after) :
    ∃ ds, GivesClasses D e s ds (removeFault? (come D e s)) := by
  obtain ⟨held, hheld, hwrite, rfl⟩ := converted_eq_ok h
  have hcome : come D e s = reached s e after := by rw [come, h]; rfl
  have hstart := start_of_converted h
  have hlength : (inOrder held).length = (names held).length := by
    rw [names_eq_map, List.length_map]
  refine ⟨inOrder held, ⟨held, hheld, inOrder_perm held⟩, Text.pairwise_sortBy fileName held,
    fun k => ?_, fun d hd => ⟨_, reads_come D e s _, fun hfollowed => ?_⟩, ?_⟩
  · have hgives := InUse.givesAll_converted (D := D) (reached s e after) e.place (names held)
    rw [names_eq_map, List.map_map] at hgives
    rw [answers_of_start hstart, hcome, names_eq_map]
    exact hgives k
  · have hd := (inOrder_perm held).mem_iff.1 hd
    rw [hcome]
    exact exists_content_entry (s := reached s e after) hfree.during hd
      (noDot_of_contained hheld d hd) hfollowed hwrite e.place ⟨rfl, rfl⟩
  · rw [hlength, after_of_start hstart, InUse.after_length_converted, ← hcome]
    exact cleared_come hfree D e

/-- A conversion fails when it is first asked, or gives its classes. -/
theorem failsAtOnce_or_givesClasses (hfree : Free s.host s.scratch) :
    (unasked e s).FailsAtOnce D ∨ ∃ ds, GivesClasses D e s ds (removeFault? (come D e s)) := by
  cases hconverted : converted D.readDalvik e s.host s.scratch with
  | error trouble host =>
    refine .inl ⟨troubleAfter trouble (reached s e host), fun k => ?_⟩
    rw [InUse.answers, ask_of_converted_error hconverted, InUse.answers_finished]
  | ok found after => exact .inr (givesClasses_of_converted hfree hconverted)

/-- The directory of a conversion is gone, and the host is as it was before. -/
structure Gone (s s' : Session) : Prop where
  host_eq : s'.host = s.host
  absent : s'.host.root.at? s.scratch = none

/-- What a conversion that begins well answers first is no failure, if it gives an entry. -/
theorem not_failsAtOnce_of_start {given : List Text} {s₁ : Session}
    (hstart : start D.readDalvik e s = .ok given s₁) (hgiven : given ≠ []) :
    ¬ (unasked e s).FailsAtOnce D := by
  rintro ⟨trouble, hfails⟩
  have hfirst : ((unasked e s).ask D).1 = .fails trouble := (List.cons.inj (hfails 0)).1
  rw [ask_of_start hstart] at hfirst
  obtain ⟨name, left, rfl⟩ := List.exists_cons_of_ne_nil hgiven
  cases hfirst

end Dalvik.Conversion

end JndiScan

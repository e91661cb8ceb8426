/-
The changes that work makes to a host on its way. Making directories and writing a file give the
host that they leave. Here the same work keeps every change it makes, and keeps them also where it
fails. Where no link is met, directories are made at beginnings of the names that are asked for, and
a file is written at the names themselves.
-/
import JndiScan.Proofs.Effect
import JndiScan.Proofs.Files.Host

namespace JndiScan.Host

open JndiScan.Path (Plain)

/-- A directory that is missing where a path ends is missing where the names of the path say. -/
theorem locate_eq_absent {host : Host} {names place : List Text} (h : ∀ n ∈ names, Plain n)
    (hlink : NoLink host [] names)
    (hlocate : host.locate (Path.ofNames names) = .ok (.absent place)) :
    place = names ∧ host.root.at? names = none := by
  obtain ⟨hpresent, -⟩ | ⟨-, habsent, -, hat⟩ := locate_ofNames_eq_ok h hlink hlocate
  · cases hpresent
  · cases habsent
    exact ⟨rfl, hat⟩

/-- A change of a host: a directory is made, or a file is written, over an old one or not. -/
inductive Change
  | made (place : List Text)
  | written (place : List Text) (content : Bytes)
  deriving DecidableEq, Repr

namespace Change

/-- The place that is changed. -/
def place : Change → List Text
  | made place | written place _ => place

/-- The host after a change. -/
def apply (host : Host) : Change → Host
  | made place => host.put (.directory []) place
  | written place content => host.put (.file content) place

end Change

/-- A host with the changes that led to it, first change first. -/
structure Trail where
  host : Host
  changes : List Change := []

namespace Trail

/-- One more change. -/
def add (t : Trail) (change : Change) : Trail where
  host := change.apply t.host
  changes := t.changes ++ [change]

/-- The end of work without the changes that led to it. -/
def forget : EStateM.Result ε Trail α → EStateM.Result ε Host α
  | .ok x t => .ok x t.host
  | .error fault t => .error fault t.host

end Trail

/-- Work on a host that keeps its changes, also where it fails. -/
abbrev Tracing (ε α : Type) := EStateM ε Trail α

namespace Tracing

/-- Something that is asked of the host and changes nothing. -/
def ask (question : Host → Except ε α) : Tracing ε α := fun t =>
  match question t.host with
  | .ok answer => .ok answer t
  | .error fault => .error fault t

/-- Makes a directory where a path ends. -/
def makeDirectory (p : Text) : Tracing PathFault Unit := fun t =>
  match t.host.locate p with
  | .error fault => .error fault t
  | .ok (.absent place) => .ok () (t.add (.made place))
  | .ok (.present place) =>
    match t.host.root.at? place with
    | some (.directory _) => .ok () t
    | _ => .error (.file (.system .alreadyThere p)) t

/-- Makes the directory at a path and those above it that are missing, in so many calls nested in
one another. -/
def makeMissing (names : List Text) : (calls : Nat) → Tracing PathFault Unit
  | 0 => throw (.tooDeep .making)
  | calls + 1 => fun t =>
    match makeDirectory (Path.ofNames names) t with
    | .error (.file (.system .notFound _)) _ =>
      (makeMissing names.dropLast calls >>= fun _ => makeDirectory (Path.ofNames names)) t
    | result => result

/-- Makes the directory at a path and those above it that are missing. -/
def makeDirectories (names : List Text) : Tracing PathFault Unit := fun t =>
  makeMissing names t.host.nesting.making t

/-- Writes a file at a path. -/
def write (p : Text) (content : Bytes) : Tracing PathFault Unit := fun t =>
  match Path.check p with
  | .error fault => .error fault t
  | .ok () =>
    let found : Except SystemError (List Text) :=
      if p.isEmpty then .error .notFound
      else if Path.octetLength p > Path.maxPath then .error .nameTooLong
      else placeToWrite t.host t.host.workingDirectory.reverse p (maxLinks + 1)
    match found with
    | .ok place => .ok () (t.add (.written place content))
    | .error e => .error (.file (.system e p)) t

/-! ## The same work -/

section Same

variable (t : Trail) (p : Text)

theorem forget_ask (question : Host → Except ε α) :
    Trail.forget (ask question t) = Host.ask question t.host := by
  rw [ask, Host.ask]
  cases question t.host <;> rfl

theorem forget_bind {work : Tracing ε α} {next : α → Tracing ε β} {work' : EStateM ε Host α}
    {next' : α → EStateM ε Host β} (hwork : Trail.forget (work t) = work' t.host)
    (hnext : ∀ x t, Trail.forget (next x t) = next' x t.host) :
    Trail.forget ((work >>= next) t) = (work' >>= next') t.host := by
  rw [work_bind_apply, work_bind_apply, ← hwork]
  cases work t with
  | ok x t' => exact hnext x t'
  | error fault t' => rfl

theorem forget_adaptExcept {f : ε → ε'} {work : Tracing ε α} {work' : EStateM ε Host α}
    (hwork : Trail.forget (work t) = work' t.host) :
    Trail.forget (EStateM.adaptExcept f work t) = EStateM.adaptExcept f work' t.host := by
  rw [EStateM.adaptExcept, EStateM.adaptExcept, ← hwork]
  cases work t <;> rfl

theorem forget_makeDirectory :
    Trail.forget (makeDirectory p t) = change (·.makeDirectory p) t.host := by
  rw [makeDirectory, change, Host.makeDirectory]
  cases t.host.locate p with
  | error fault => rfl
  | ok landing =>
    cases landing with
    | absent place => rfl
    | present place =>
      simp only [bind, Except.bind]
      cases t.host.root.at? place with
      | none => rfl
      | some node => cases node <;> rfl

theorem forget_makeMissing (names : List Text) (calls : Nat) :
    Trail.forget (makeMissing names calls t) = Host.makeMissing names calls t.host := by
  induction calls generalizing names t with
  | zero => rfl
  | succ calls ih =>
    have hfirst := forget_makeDirectory t (Path.ofNames names)
    rw [makeMissing, Host.makeMissing]
    simp only [← hfirst]
    cases hmake : makeDirectory (Path.ofNames names) t with
    | ok _ t' => rfl
    | error fault t' =>
      -- Of the faults only that of a missing directory is not the answer.
      cases fault with
      | file error =>
        cases error with
        | system e path =>
          cases e with
          | notFound => exact forget_bind t (ih ..) fun _ t => forget_makeDirectory t _
          | _ => rfl
        | other wording => rfl
      | _ => rfl

theorem forget_makeDirectories (names : List Text) :
    Trail.forget (makeDirectories names t) = Host.makeDirectories names t.host :=
  forget_makeMissing t names _

theorem forget_write (content : Bytes) :
    Trail.forget (write p content t) = change (·.write p content) t.host := by
  rw [write, change, Host.write]
  cases Path.check p with
  | error fault => rfl
  | ok _ =>
    simp only [bind, Except.bind]
    generalize (if p.isEmpty = true then _ else _ : Except SystemError (List Text)) = found
    cases found <;> rfl

end Same

/-! ## What work preserves -/

section Preserves

variable {P : Trail → Prop} {names : List Text}

theorem preserves_ask (question : Host → Except ε α) : Preserves P (ask question) := by
  intro t ht
  rw [ask]
  split <;> exact ht

/-- A directory is made at the names that are asked for, where nothing stands. -/
theorem preserves_makeDirectory (hplain : ∀ n ∈ names, Plain n)
    (hlink : ∀ t, P t → NoLink t.host [] names)
    (hmade : ∀ t, P t → t.host.root.at? names = none → P (t.add (.made names))) :
    Preserves P (makeDirectory (Path.ofNames names)) := by
  intro t ht
  rw [makeDirectory]
  split
  · exact ht
  · next place hlocate =>
    obtain ⟨rfl, habsent⟩ := locate_eq_absent hplain (hlink t ht) hlocate
    exact hmade t ht habsent
  · split <;> exact ht

/-- Directories are made at beginnings of the names that are asked for. -/
theorem preserves_makeMissing {all : List Text}
    (hone : ∀ ns, ns <+: all → Preserves P (makeDirectory (Path.ofNames ns))) {calls : Nat}
    (hnames : names <+: all) : Preserves P (makeMissing names calls) := by
  induction calls generalizing names with
  | zero => exact .throw _
  | succ calls ih =>
    intro t ht
    have hfirst := hone names hnames t ht
    rw [makeMissing]
    simp only
    split
    · have habove := ih ((List.dropLast_prefix names).trans hnames)
      exact habove.bind (fun _ _ _ _ _ => hone names hnames) t ht
    · exact hfirst

theorem preserves_makeDirectories
    (hone : ∀ ns, ns <+: names → Preserves P (makeDirectory (Path.ofNames ns))) :
    Preserves P (makeDirectories names) :=
  fun t ht => preserves_makeMissing hone List.prefix_rfl t ht

/-- A file is written at the names that are asked for. -/
theorem preserves_write (hns : names ≠ []) (hplain : ∀ n ∈ names, Plain n)
    (hlink : ∀ t, P t → NoLink t.host [] names) {content : Bytes}
    (hwritten : ∀ t, P t → P (t.add (.written names content))) :
    Preserves P (write (Path.ofNames names) content) := by
  obtain ⟨init, last, rfl⟩ : ∃ init last, names = init ++ [last] :=
    ⟨_, _, (List.dropLast_append_getLast hns).symm⟩
  intro t ht
  rw [write]
  split
  · exact ht
  · simp only [isEmpty_ofNames, Bool.false_eq_true, if_false]
    split
    · next place hfound =>
      split at hfound
      · cases hfound
      · obtain ⟨rfl, -⟩ := placeToWrite_eq_ok hplain (hlink t ht) hfound
        exact hwritten t ht
    · exact ht

end Preserves

end Tracing

end JndiScan.Host

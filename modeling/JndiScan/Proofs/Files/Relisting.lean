/-
A file system listed in another order. Whatever is asked of it along paths has the same answer, and
what is changed in it is changed alike.
-/
import JndiScan.Files.Host
import JndiScan.Proofs.Effect
import JndiScan.Proofs.Files.Reordered

namespace JndiScan

/-- Both come to things that are related, or to one error. -/
inductive Agrees {ε α β : Type} (R : α → β → Prop) : Except ε α → Except ε β → Prop
  | ok {x : α} {y : β} : R x y → Agrees R (.ok x) (.ok y)
  | error (e : ε) : Agrees R (.error e) (.error e)

namespace Agrees

variable {ε ε' α β γ δ : Type} {R : α → β → Prop} {S : γ → δ → Prop}
variable {x : Except ε α} {y : Except ε β}

theorem bind (h : Agrees R x y) {f : α → Except ε γ} {g : β → Except ε δ}
    (hf : ∀ a b, R a b → Agrees S (f a) (g b)) : Agrees S (x >>= f) (y >>= g) := by
  cases h with
  | ok hab => exact hf _ _ hab
  | error e => exact .error e

theorem mapError (h : Agrees R x y) (f : ε → ε') : Agrees R (x.mapError f) (y.mapError f) := by
  cases h with
  | ok hab => exact .ok hab
  | error e => exact .error (f e)

theorem of_eq {x y : Except ε α} (h : x = y) : Agrees Eq x y := by
  subst h
  cases x with
  | ok a => exact .ok rfl
  | error e => exact .error e

end Agrees

namespace Host

open FileTree (lookup lookup_rel)

/-- The file systems are one, listed in two orders. -/
structure Reordered (host host' : Host) : Prop where
  root : host.root.Reordered host'.root
  workingDirectory : host'.workingDirectory = host.workingDirectory
  unlisted : host'.unlisted = host.unlisted
  nesting : host'.nesting = host.nesting

variable {host host' : Host}

namespace Reordered

theorem put (h : host.Reordered host') {new new' : FileTree} (hnew : new.Reordered new')
    (place : List Text) : (host.put new place).Reordered (host'.put new' place) :=
  { h with root := .put hnew h.root place }

theorem remove (h : host.Reordered host') (place : List Text) :
    (host.remove place).Reordered (host'.remove place) :=
  { h with root := h.root.remove place }

theorem refusal?_eq (h : host.Reordered host') (place : List Text) :
    host'.refusal? place = host.refusal? place := by
  rw [refusal?, refusal?, h.unlisted]

theorem canRemove_eq (h : host.Reordered host') (place : List Text) :
    host'.canRemove place = host.canRemove place := by
  rw [canRemove, canRemove, h.nesting]
  have hat := h.root.at? place
  generalize host.root.at? place = c, host'.root.at? place = c' at hat
  cases hat with
  | none => rfl
  | some ht => simp only [Option.all_some, ht.depth_eq]

/-! ## Following paths -/

theorem follow_eq (h : host.Reordered host') (links : Nat) (place names : List Text) :
    follow host' links place names = follow host links place names := by
  cases names with
  | nil => rw [follow, follow]
  | cons name rest =>
    rw [follow, follow]
    have hat := h.root.at? place.reverse
    generalize host.root.at? place.reverse = c, host'.root.at? place.reverse = c' at hat
    cases hat with
    | none => rfl
    | some ht =>
      cases ht with
      | file | link => rfl
      | @directory es es' hes hnames hbelow =>
        simp only
        split
        · exact follow_eq h links place rest
        · split
          · exact follow_eq h links (place.drop 1) rest
          · split
            · rfl
            · have hrel := lookup_rel hnames hbelow name
              generalize lookup name es = u, lookup name es' = u' at hrel
              cases hrel with
              | none => rfl
              | some hu =>
                cases hu with
                | link target =>
                  cases links with
                  | zero => rfl
                  | succ left => exact follow_eq h left _ _
                | file | directory => exact follow_eq h links (name :: place) rest
  termination_by (links, names.length)

theorem locate_eq (h : host.Reordered host') (p : Text) : host'.locate p = host.locate p := by
  unfold locate
  simp only [h.workingDirectory, h.follow_eq]

theorem find (h : host.Reordered host') (p : Text) :
    Agrees FileTree.Reordered (host.find p) (host'.find p) := by
  unfold Host.find
  rw [h.locate_eq]
  refine (Agrees.of_eq rfl).bind fun landing _ hlanding => ?_
  subst hlanding
  cases landing with
  | absent place => exact .error _
  | present place =>
    have hat := h.root.at? place
    simp only
    generalize host.root.at? place = c, host'.root.at? place = c' at hat
    cases hat with
    | none => exact .error _
    | some ht => exact .ok ht

theorem read_eq (h : host.Reordered host') (p : Text) : host'.read p = host.read p := by
  unfold read
  have hfind := h.find p
  generalize host.find p = c, host'.find p = c' at hfind
  cases hfind with
  | error e => rfl
  | ok ht => cases ht <;> rfl

theorem leadsTo_eq (h : host.Reordered host') {wanted : FileTree → Bool}
    (hwanted : ∀ t t', FileTree.Reordered t t' → wanted t' = wanted t) (p : Text) :
    host'.leadsTo wanted p = host.leadsTo wanted p := by
  unfold leadsTo
  have hfind := h.find p
  generalize host.find p = c, host'.find p = c' at hfind
  cases hfind with
  | error e => rfl
  | ok ht => exact congrArg Except.ok (hwanted _ _ ht)

theorem isFile?_eq (h : host.Reordered host') (p : Text) : host'.isFile? p = host.isFile? p :=
  h.leadsTo_eq (fun t t' ht => by cases ht <;> rfl) p

/-! ## Writing -/

theorem placeToWrite_eq (h : host.Reordered host') (place : List Text) (p : Text) (links : Nat) :
    placeToWrite host' place p links = placeToWrite host place p links := by
  induction links generalizing place p with
  | zero => rfl
  | succ links ih =>
    rw [placeToWrite, placeToWrite]
    simp only [h.follow_eq]
    split
    · rfl
    · refine congrArg _ (funext fun landing => ?_)
      cases landing with
      | absent => rfl
      | present directory =>
        have hat := h.root.at? directory
        simp only
        generalize host.root.at? directory = c, host'.root.at? directory = c' at hat
        cases hat with
        | none => rfl
        | some ht =>
          cases ht with
          | file | link => rfl
          | @directory es es' hes hnames hbelow =>
            simp only
            split
            · rfl
            · split
              · rfl
              · have hrel := lookup_rel hnames hbelow
                  (((p.splitOn Path.slash).filter fun n => !n.isEmpty).getLast?.getD Path.here)
                generalize lookup _ es = u, lookup _ es' = u' at hrel
                cases hrel with
                | none => rfl
                | some hu =>
                  cases hu with
                  | link target => exact ih directory.reverse target
                  | file | directory => rfl

theorem write (h : host.Reordered host') (p : Text) (content : Bytes) :
    Agrees Host.Reordered (host.write p content) (host'.write p content) := by
  unfold Host.write
  refine (Agrees.of_eq rfl).bind fun _ _ _ => ?_
  rw [h.workingDirectory]
  simp only [h.placeToWrite_eq]
  generalize (if p.isEmpty then _ else _ : Except SystemError (List Text)) = found
  cases found with
  | error e => exact .error _
  | ok place => exact .ok (h.put (.file content) place)

theorem makeDirectory (h : host.Reordered host') (p : Text) :
    Agrees Host.Reordered (host.makeDirectory p) (host'.makeDirectory p) := by
  unfold Host.makeDirectory
  rw [h.locate_eq]
  refine (Agrees.of_eq rfl).bind fun landing _ hlanding => ?_
  subst hlanding
  cases landing with
  | absent place => exact .ok (h.put .empty place)
  | present place =>
    have hat := h.root.at? place
    simp only
    generalize host.root.at? place = c, host'.root.at? place = c' at hat
    cases hat with
    | none => exact .error _
    | some ht =>
      cases ht with
      | file | link => exact .error _
      | directory => exact .ok h

theorem ask {question question' : Host → Except ε α} (hsame : question' host' = question host)
    (h : host.Reordered host') :
    Alike Host.Reordered (fun _ => True) (Host.ask question host) (Host.ask question' host') := by
  rw [Host.ask, Host.ask, hsame]
  cases question host with
  | ok answer => exact .ok trivial h
  | error fault => exact .error h

theorem change {f f' : Host → Except ε Host} (h : host.Reordered host')
    (hf : Agrees Host.Reordered (f host) (f' host')) :
    Alike Host.Reordered (fun _ => True) (Host.change f host) (Host.change f' host') := by
  rw [Host.change, Host.change]
  generalize f host = c, f' host' = c' at hf
  cases hf with
  | ok hhost => exact .ok trivial hhost
  | error fault => exact .error h

theorem changeMade (h : host.Reordered host') (p : Text) :
    Alike Host.Reordered (fun _ => True) (Host.change (·.makeDirectory p) host)
      (Host.change (·.makeDirectory p) host') :=
  h.change (h.makeDirectory p)

theorem makeMissing (h : host.Reordered host') (names : List Text) (calls : Nat) :
    Alike Host.Reordered (fun _ => True) (Host.makeMissing names calls host)
      (Host.makeMissing names calls host') := by
  induction calls generalizing names host host' with
  | zero => exact .error h
  | succ calls ih =>
    have hmade := h.changeMade (Path.ofNames names)
    have habove := (ih h names.dropLast).bind (Q := fun _ => True)
      fun _ _ _ _ hbetween => hbetween.changeMade (Path.ofNames names)
    rw [Host.makeMissing]
    simp only
    generalize Host.change (·.makeDirectory (Path.ofNames names)) host = c,
      Host.change (·.makeDirectory (Path.ofNames names)) host' = c' at hmade
    cases hmade with
    | ok _ hhost => exact .ok trivial hhost
    | @error fault _ _ hhost =>
      by_cases hmissing : ∃ path, fault = .file (.system .notFound path)
      · obtain ⟨path, rfl⟩ := hmissing
        exact habove
      · split
        · next heq => cases heq; exact absurd ⟨_, rfl⟩ hmissing
        · split
          · next heq => cases heq; exact absurd ⟨_, rfl⟩ hmissing
          · exact .error hhost

theorem makeDirectories (h : host.Reordered host') (names : List Text) :
    Alike Host.Reordered (fun _ => True) (Host.makeDirectories names host)
      (Host.makeDirectories names host') := by
  rw [Host.makeDirectories, Host.makeDirectories, h.nesting]
  exact h.makeMissing names _

/-! ## Resolving paths -/

theorem resolveFrom_eq (h : host.Reordered host') (place : List Text) (opened : List (List Text))
    (known : List (List Text × List Text)) (steps : List Step) (fuel : Nat) :
    resolveFrom host' place opened known steps fuel =
      resolveFrom host place opened known steps fuel := by
  induction fuel generalizing place opened known steps with
  | zero => rfl
  | succ fuel ih =>
    cases steps with
    | nil => rfl
    | cons step rest =>
      cases step with
      | linkEnd link => exact ih ..
      | name n =>
        rw [resolveFrom, resolveFrom]
        split
        · exact ih ..
        · refine congrArg _ (funext fun _ => ?_)
          have hat := h.root.at? (n :: place).reverse
          simp only
          generalize host.root.at? (n :: place).reverse = c,
            host'.root.at? (n :: place).reverse = c' at hat
          cases hat with
          | none => exact ih ..
          | some ht =>
            cases ht with
            | file | directory => exact ih ..
            | link target =>
              simp only
              split
              · exact ih ..
              · rw [h.nesting]
                split
                · rfl
                · split
                  · rfl
                  · exact ih ..

theorem resolve_eq (h : host.Reordered host') (p : Text) : host'.resolve p = host.resolve p := by
  unfold resolve
  simp only [h.workingDirectory, h.root.linkWeight_eq, h.resolveFrom_eq, h.locate_eq]

end Reordered

end Host

end JndiScan

/-
Laws of trees of files. Names are told apart by their octets, so places are too. What is put at a
place is found there and changes nothing at places apart from it; what was put where nothing stood
is gone without a trace when it is removed.
-/
import JndiScan.Files.Tree
import Mathlib.Data.List.Infix

namespace JndiScan

namespace Path

theorem isSameName_iff {a b : Text} : isSameName a b = true ↔ octets a = octets b := by
  simp [isSameName]

/-- The octets of the names of a place. -/
def key (place : List Text) : List (List UInt8) := place.map octets

@[simp] theorem key_nil : key [] = [] := rfl

@[simp] theorem key_cons (name : Text) (place : List Text) :
    key (name :: place) = octets name :: key place := rfl

@[simp] theorem key_append (p q : List Text) : key (p ++ q) = key p ++ key q := List.map_append

@[simp] theorem length_key (place : List Text) : (key place).length = place.length :=
  List.length_map ..

end Path

namespace FileTree

variable {name other : Text} {t u new : FileTree} {entries : List (Text × FileTree)}

/-! ## The entries of a directory -/

@[simp] theorem lookup_nil (name : Text) : lookup name [] = none := rfl

theorem lookup_cons (name : Text) (e : Text × FileTree) (entries : List (Text × FileTree)) :
    lookup name (e :: entries) =
      if Path.octets e.1 = Path.octets name then some e.2 else lookup name entries := by
  unfold lookup
  rw [List.find?_cons]
  by_cases h : Path.octets e.1 = Path.octets name
  · rw [Path.isSameName_iff.2 h, if_pos h]
    rfl
  · rw [Bool.eq_false_iff.2 fun hs => h (Path.isSameName_iff.1 hs), if_neg h]

theorem lookup_congr (h : Path.octets name = Path.octets other) (entries : List (Text × FileTree)) :
    lookup name entries = lookup other entries := by
  induction entries with
  | nil => rfl
  | cons e entries ih => rw [lookup_cons, lookup_cons, ih, h]

theorem setEntry_cons (name : Text) (t : FileTree) (e : Text × FileTree)
    (entries : List (Text × FileTree)) :
    setEntry name t (e :: entries) =
      if Path.octets e.1 = Path.octets name then (e.1, t) :: entries
      else e :: setEntry name t entries := by
  rw [setEntry]
  simp only [Path.isSameName_iff]

theorem lookup_setEntry_self (name : Text) (t : FileTree) (entries : List (Text × FileTree)) :
    lookup name (setEntry name t entries) = some t := by
  induction entries with
  | nil => rw [setEntry, lookup_cons, if_pos rfl]
  | cons e entries ih =>
    rw [setEntry_cons]
    split
    · next h => rw [lookup_cons, if_pos h]
    · next h => rw [lookup_cons, if_neg h, ih]

theorem lookup_setEntry_of_ne (h : Path.octets other ≠ Path.octets name) (t : FileTree)
    (entries : List (Text × FileTree)) :
    lookup other (setEntry name t entries) = lookup other entries := by
  induction entries with
  | nil => rw [setEntry, lookup_cons, if_neg h.symm]
  | cons e entries ih =>
    rw [setEntry_cons]
    split
    · next he => rw [lookup_cons, lookup_cons, if_neg (he ▸ h.symm), if_neg (he ▸ h.symm)]
    · rw [lookup_cons, lookup_cons, ih]

theorem setEntry_of_lookup (h : lookup name entries = some t) :
    setEntry name t entries = entries := by
  induction entries with
  | nil => cases h
  | cons e entries ih =>
    rw [lookup_cons] at h
    rw [setEntry_cons]
    split
    · next he =>
      rw [if_pos he] at h
      cases h
      rfl
    · next he =>
      rw [if_neg he] at h
      rw [ih h]

theorem setEntry_setEntry (name : Text) (t u : FileTree) (entries : List (Text × FileTree)) :
    setEntry name t (setEntry name u entries) = setEntry name t entries := by
  induction entries with
  | nil => rw [setEntry, setEntry_cons, if_pos rfl]; rfl
  | cons e entries ih =>
    rw [setEntry_cons, setEntry_cons]
    split
    · next he => rw [setEntry_cons, if_pos he]
    · next he => rw [setEntry_cons, if_neg he, ih]

theorem filter_setEntry (h : lookup name entries = none) (t : FileTree) :
    (setEntry name t entries).filter (!Path.isSameName ·.1 name) = entries := by
  induction entries with
  | nil => simp [setEntry, Path.isSameName]
  | cons e entries ih =>
    rw [lookup_cons] at h
    split at h
    · cases h
    · next he =>
      have hne : Path.isSameName e.1 name = false :=
        Bool.eq_false_iff.2 fun hs => he (Path.isSameName_iff.1 hs)
      rw [setEntry_cons, if_neg he, List.filter_cons_of_pos (by simp [hne]), ih h]

/-! ## What stands at a place -/

@[simp] theorem at?_nil (t : FileTree) : at? [] t = some t := rfl

theorem at?_cons (name : Text) (rest : List Text) (t : FileTree) :
    at? (name :: rest) t = (t.child? name).bind (at? rest) := rfl

theorem at?_append (p q : List Text) (t : FileTree) :
    at? (p ++ q) t = (at? p t).bind (at? q) := by
  induction p generalizing t with
  | nil => rfl
  | cons name p ih =>
    rw [List.cons_append, at?_cons, at?_cons]
    cases t.child? name with
    | none => rfl
    | some u => exact ih u

theorem child?_congr (h : Path.octets name = Path.octets other) (t : FileTree) :
    t.child? name = t.child? other := by
  cases t with
  | directory entries => exact lookup_congr h entries
  | file | link => rfl

/-- Places are told apart by octets alone. -/
theorem at?_congr {p q : List Text} (h : Path.key p = Path.key q) (t : FileTree) :
    at? p t = at? q t := by
  induction p generalizing q t with
  | nil =>
    cases q with
    | nil => rfl
    | cons => cases h
  | cons name p ih =>
    cases q with
    | nil => cases h
    | cons other q =>
      obtain ⟨hname, hrest⟩ := List.cons.inj h
      rw [at?_cons, at?_cons, child?_congr hname]
      exact congrArg _ (funext fun u => ih hrest u)

theorem child?_eq_some {t u : FileTree} (h : t.child? name = some u) :
    ∃ entries, t = directory entries ∧ lookup name entries = some u := by
  cases t with
  | directory entries => exact ⟨entries, rfl, h⟩
  | file | link => cases h

/-- Above something there are directories. -/
theorem at?_of_append {p q : List Text} (hq : q ≠ []) (h : at? (p ++ q) t = some u) :
    ∃ entries, at? p t = some (directory entries) := by
  rw [at?_append] at h
  obtain ⟨v, hp, hv⟩ := Option.bind_eq_some_iff.1 h
  obtain ⟨name, q, rfl⟩ := List.exists_cons_of_ne_nil hq
  rw [at?_cons] at hv
  obtain ⟨_, hchild, -⟩ := Option.bind_eq_some_iff.1 hv
  obtain ⟨entries, rfl, -⟩ := child?_eq_some hchild
  exact ⟨entries, hp⟩

/-! ## Putting -/

theorem put_of_lookup {rest : List Text} (h : lookup name entries = some t) (new : FileTree) :
    put new (name :: rest) (directory entries) =
      directory (setEntry name (put new rest t) entries) := by
  rw [put, h]

theorem put_of_absent (h : lookup name entries = none) (new : FileTree) :
    put new [name] (directory entries) = directory (setEntry name new entries) := by
  rw [put, h]
  rfl

theorem put_of_missing {rest : List Text} (hr : rest ≠ []) (h : lookup name entries = none)
    (new : FileTree) : put new (name :: rest) (directory entries) = directory entries := by
  rw [put, h]
  simp [hr]

/-- What is put at a place whose directory is there stands there. -/
theorem at?_put_self {name : Text} {place : List Text} {entries : List (Text × FileTree)}
    (h : at? place t = some (directory entries)) (new : FileTree) :
    at? (place ++ [name]) (put new (place ++ [name]) t) = some new := by
  induction place generalizing t with
  | nil =>
    cases h
    cases hl : lookup name entries with
    | none =>
      rw [List.nil_append, put_of_absent hl, at?_cons]
      show (lookup name (setEntry name new entries)).bind _ = _
      rw [lookup_setEntry_self]
      rfl
    | some old =>
      rw [List.nil_append, put_of_lookup hl, at?_cons]
      show (lookup name (setEntry name new entries)).bind _ = _
      rw [lookup_setEntry_self]
      rfl
  | cons first place ih =>
    rw [at?_cons] at h
    obtain ⟨old, hchild, hrest⟩ := Option.bind_eq_some_iff.1 h
    obtain ⟨entries', rfl, hl⟩ := child?_eq_some hchild
    rw [List.cons_append, put_of_lookup hl, at?_cons]
    show (lookup first (setEntry first _ entries')).bind _ = _
    rw [lookup_setEntry_self]
    exact ih hrest

theorem at?_put {place : List Text} (hne : place ≠ []) {entries : List (Text × FileTree)}
    (h : at? place.dropLast t = some (directory entries)) (new : FileTree) :
    at? place (put new place t) = some new := by
  have hself : at? (place.dropLast ++ [place.getLast hne])
      (put new (place.dropLast ++ [place.getLast hne]) t) = some new := at?_put_self h new
  rwa [List.dropLast_append_getLast] at hself

/-- What is put at a place changes nothing at places that are apart from it. -/
theorem at?_put_of_apart {place q : List Text} (hp : ¬ Path.key place <+: Path.key q)
    (hq : ¬ Path.key q <+: Path.key place) (new t : FileTree) :
    at? q (put new place t) = at? q t := by
  induction place generalizing q t with
  | nil => exact absurd List.nil_prefix hp
  | cons name rest ih =>
    obtain ⟨other, q, rfl⟩ : ∃ other q', q = other :: q' := by
      cases q with
      | nil => exact absurd List.nil_prefix hq
      | cons other q => exact ⟨other, q, rfl⟩
    cases t with
    | file | link => rfl
    | directory entries =>
      by_cases hname : Path.octets other = Path.octets name
      · have hp' : ¬ Path.key rest <+: Path.key q := fun h =>
          hp (List.cons_prefix_cons.2 ⟨hname.symm, h⟩)
        have hq' : ¬ Path.key q <+: Path.key rest := fun h =>
          hq (List.cons_prefix_cons.2 ⟨hname, h⟩)
        have hrest : rest ≠ [] := by
          rintro rfl
          exact hp' List.nil_prefix
        cases hl : lookup name entries with
        | none => rw [put_of_missing hrest hl]
        | some old =>
          rw [put_of_lookup hl, at?_cons, at?_cons]
          show (lookup other (setEntry name _ entries)).bind _ = (lookup other entries).bind _
          rw [lookup_congr hname, lookup_congr hname, lookup_setEntry_self, hl]
          exact ih hp' hq' old
      · have hkeep : ∀ u, (directory (setEntry name u entries)).child? other =
            (directory entries).child? other := fun u => lookup_setEntry_of_ne hname u entries
        cases hl : lookup name entries with
        | none =>
          by_cases hrest : rest = []
          · rw [hrest, put_of_absent hl, at?_cons, hkeep, at?_cons]
          · rw [put_of_missing hrest hl]
        | some old => rw [put_of_lookup hl, at?_cons, hkeep, at?_cons]

/-- Directories above a place stay directories. -/
theorem at?_put_of_above {place q : List Text} (hq : Path.key q <+: Path.key place)
    (hlt : q.length < place.length) {entries : List (Text × FileTree)}
    (h : at? q t = some (directory entries)) (new : FileTree) :
    ∃ entries', at? q (put new place t) = some (directory entries') := by
  induction place generalizing q t with
  | nil => cases hlt
  | cons name rest ih =>
    cases q with
    | nil =>
      cases h
      cases hl : lookup name entries with
      | none =>
        by_cases hrest : rest = []
        · exact ⟨_, by rw [hrest, put_of_absent hl]; rfl⟩
        · exact ⟨_, by rw [put_of_missing hrest hl]; rfl⟩
      | some old => exact ⟨_, by rw [put_of_lookup hl]; rfl⟩
    | cons other q =>
      obtain ⟨hname, hq⟩ := List.cons_prefix_cons.1 hq
      rw [at?_cons] at h
      obtain ⟨old, hchild, hrest⟩ := Option.bind_eq_some_iff.1 h
      obtain ⟨entries', rfl, hl⟩ := child?_eq_some hchild
      rw [lookup_congr hname] at hl
      rw [put_of_lookup hl, at?_cons]
      show ∃ _, (lookup other (setEntry name _ entries')).bind _ = _
      rw [lookup_congr hname, lookup_setEntry_self]
      exact ih hq (Nat.lt_of_succ_lt_succ hlt) hrest

theorem exists_of_key_prefix {p q : List Text} (h : Path.key p <+: Path.key q) :
    ∃ q₁ q₂, q = q₁ ++ q₂ ∧ Path.key q₁ = Path.key p := by
  refine ⟨q.take p.length, q.drop p.length, (List.take_append_drop ..).symm, ?_⟩
  rw [Path.key, List.map_take, ← Path.length_key p]
  exact (List.prefix_iff_eq_take.1 h).symm

/-- A file stays as it is when something is put elsewhere, where nothing stood or a file. -/
theorem at?_put_of_file {place q : List Text} {content : Bytes}
    (habove : ∃ entries, at? place.dropLast t = some (directory entries))
    (hold : at? place t = none ∨ ∃ old, at? place t = some (file old))
    (hq : at? q t = some (file content)) (hne : Path.key q ≠ Path.key place) (new : FileTree) :
    at? q (put new place t) = some (file content) := by
  rw [at?_put_of_apart, hq]
  · intro hbegins
    obtain ⟨q₁, q₂, rfl, hkey⟩ := exists_of_key_prefix hbegins
    have hq₂ : q₂ ≠ [] := by
      rintro rfl
      exact hne (by rw [List.append_nil, hkey])
    obtain ⟨entries, hd⟩ := at?_of_append hq₂ hq
    rw [at?_congr hkey] at hd
    rcases hold with hold | ⟨old, hold⟩
    · cases hold.symm.trans hd
    · cases hold.symm.trans hd
  · intro hbegins
    obtain ⟨entries, hd⟩ := habove
    obtain ⟨p₁, p₂, hsplit, hkey⟩ := exists_of_key_prefix hbegins
    have hp₂ : p₂ ≠ [] := by
      rintro rfl
      exact hne (by rw [hsplit, List.append_nil, hkey])
    rw [hsplit, List.dropLast_append_of_ne_nil hp₂] at hd
    rw [← at?_congr hkey] at hq
    by_cases hnil : p₂.dropLast = []
    · rw [hnil, List.append_nil, hq] at hd
      cases hd
    · obtain ⟨_, hd'⟩ := at?_of_append hnil hd
      cases hq.symm.trans hd'

/-- What is put below a place is put into what stands there. -/
theorem put_append {p : List Text} (h : at? p t = some u) (q : List Text) (new : FileTree) :
    put new (p ++ q) t = put (put new q u) p t := by
  induction p generalizing t with
  | nil =>
    cases h
    rfl
  | cons name p ih =>
    rw [at?_cons] at h
    obtain ⟨old, hchild, hrest⟩ := Option.bind_eq_some_iff.1 h
    obtain ⟨entries, rfl, hl⟩ := child?_eq_some hchild
    rw [List.cons_append, put_of_lookup hl, put_of_lookup hl, ih hrest]

/-- What is put below something changes it alone. -/
theorem at?_put_append {p : List Text} (hp : p ≠ []) (h : at? p t = some u) (q : List Text)
    (new : FileTree) : at? p (put new (p ++ q) t) = some (put new q u) := by
  have hsplit : at? (p.dropLast ++ [p.getLast hp]) t = some u := by
    rwa [List.dropLast_append_getLast]
  obtain ⟨entries, habove⟩ := at?_of_append (List.cons_ne_nil _ []) hsplit
  rw [put_append h]
  exact at?_put hp habove _

/-- What is put at a place takes the place of what was put there before. -/
theorem put_put (place : List Text) (new old t : FileTree) :
    put new place (put old place t) = put new place t := by
  induction place generalizing t with
  | nil => rfl
  | cons name rest ih =>
    cases t with
    | file | link => rfl
    | directory entries =>
      cases hl : lookup name entries with
      | none =>
        by_cases hrest : rest = []
        · rw [hrest, put_of_absent hl, put_of_absent hl,
            put_of_lookup (lookup_setEntry_self name old entries), setEntry_setEntry]
          rfl
        · rw [put_of_missing hrest hl]
      | some u =>
        rw [put_of_lookup hl, put_of_lookup hl, put_of_lookup (lookup_setEntry_self ..),
          setEntry_setEntry, ih]

/-- What was put where nothing stood leaves no trace when it is removed. -/
theorem remove_put {place : List Text} (hplace : place ≠ []) (h : at? place t = none)
    (new : FileTree) : remove place (put new place t) = t := by
  induction place generalizing t with
  | nil => exact absurd rfl hplace
  | cons name rest ih =>
    cases t with
    | file | link => cases rest <;> rfl
    | directory entries =>
      cases rest with
      | nil =>
        have hl : lookup name entries = none := by
          cases hl : lookup name entries with
          | none => rfl
          | some u =>
            rw [at?_cons] at h
            have : (directory entries).child? name = some u := hl
            rw [this] at h
            cases h
        rw [put_of_absent hl, remove, filter_setEntry hl]
      | cons next rest =>
        cases hl : lookup name entries with
        | none =>
          rw [put_of_missing (List.cons_ne_nil next rest) hl, remove, hl]
          exact List.cons_ne_nil next rest
        | some old =>
          have hold : at? (next :: rest) old = none := by
            rw [at?_cons] at h
            have hchild : (directory entries).child? name = some old := hl
            rw [hchild] at h
            exact h
          rw [put_of_lookup hl, remove, lookup_setEntry_self]
          · simp only
            rw [setEntry_setEntry, ih (List.cons_ne_nil next rest) hold, setEntry_of_lookup hl]
          · exact List.cons_ne_nil next rest

/-! ## Trees without links -/

/-- No link stands in the tree. -/
def LinkFree (t : FileTree) : Prop := ∀ place target, at? place t ≠ some (link target)

theorem linkFree_file (content : Bytes) : LinkFree (file content) := by
  intro place target h
  cases place with
  | nil => cases h
  | cons => cases h

theorem linkFree_directory_nil : LinkFree (directory []) := by
  intro place target h
  cases place with
  | nil => cases h
  | cons => cases h

theorem LinkFree.put (ht : LinkFree t) (hnew : LinkFree new) (place : List Text) :
    LinkFree (put new place t) := by
  induction place generalizing t with
  | nil => exact hnew
  | cons name rest ih =>
    cases t with
    | file | link => exact ht
    | directory entries =>
      -- What is set in a directory without links has none itself.
      have hset : ∀ u, LinkFree u → LinkFree (directory (setEntry name u entries)) := by
        intro u hu q target h
        cases q with
        | nil => cases h
        | cons other q =>
          rw [at?_cons] at h
          by_cases hname : Path.octets other = Path.octets name
          · rw [child?_congr hname] at h
            have hchild : (directory (setEntry name u entries)).child? name = some u :=
              lookup_setEntry_self name u entries
            rw [hchild] at h
            exact hu q target h
          · have hchild : (directory (setEntry name u entries)).child? other =
                (directory entries).child? other := lookup_setEntry_of_ne hname u entries
            rw [hchild] at h
            exact ht (other :: q) target h
      cases hl : lookup name entries with
      | none =>
        by_cases hrest : rest = []
        · rw [hrest, put_of_absent hl]
          exact hset new hnew
        · rw [put_of_missing hrest hl]
          exact ht
      | some old =>
        rw [put_of_lookup hl]
        refine hset _ (ih fun q target h => ht (name :: q) target ?_)
        rw [at?_cons]
        have hchild : (directory entries).child? name = some old := hl
        rw [hchild]
        exact h

theorem put_directory {place : List Text} (hplace : place ≠ []) (new : FileTree)
    (entries : List (Text × FileTree)) :
    ∃ entries', put new place (directory entries) = directory entries' := by
  obtain ⟨name, rest, rfl⟩ := List.exists_cons_of_ne_nil hplace
  have hroot : Path.key [] <+: Path.key (name :: rest) := List.nil_prefix
  obtain ⟨entries', h⟩ : ∃ entries', at? [] (put new (name :: rest) (directory entries)) =
      some (directory entries') :=
    at?_put_of_above hroot (Nat.succ_pos _) rfl new
  exact ⟨entries', Option.some.inj h⟩

end FileTree

end JndiScan

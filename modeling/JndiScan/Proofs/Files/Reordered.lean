/-
One tree in two listings. The system lists the entries of a directory in an order of its own, which
decides nothing: what is found under a name, what is put and what is removed is the same in both, but
for the order.
-/
import JndiScan.Proofs.Files.Tree
import Mathlib.Algebra.BigOperators.Group.List.Basic
import Mathlib.Algebra.Ring.Nat
import Mathlib.Data.List.Nodup

namespace JndiScan.FileTree

variable {name : Text} {t t' u u' new new' : FileTree} {es es' : List (Text × FileTree)}

/-- No name is among the entries twice. -/
def Distinct (es : List (Text × FileTree)) : Prop := (es.map fun e => Path.octets e.1).Nodup

instance (es : List (Text × FileTree)) : Decidable (Distinct es) :=
  inferInstanceAs (Decidable (List.Nodup _))

/-- The trees are one tree in two listings: every directory holds each of its names once, the same
names in both, and under each name one tree in two listings. -/
inductive Reordered : FileTree → FileTree → Prop
  | file (content : Bytes) : Reordered (.file content) (.file content)
  | link (target : Text) : Reordered (.link target) (.link target)
  | directory {es es' : List (Text × FileTree)} :
    Distinct es → (es.map Prod.fst).Perm (es'.map Prod.fst) →
    (∀ name t t', lookup name es = some t → lookup name es' = some t' → Reordered t t') →
    Reordered (.directory es) (.directory es')

/-! ## Entries under names -/

theorem lookup_eq_none_iff :
    lookup name es = none ↔ ∀ n ∈ es.map Prod.fst, Path.octets n ≠ Path.octets name := by
  induction es with
  | nil => simp
  | cons e es ih =>
    rw [lookup_cons, List.map_cons, List.forall_mem_cons, ← ih]
    split
    · next h => simp [h]
    · next h => simp [h]

theorem lookup_of_mem (h : Distinct es) {e : Text × FileTree} (he : e ∈ es) :
    lookup e.1 es = some e.2 := by
  induction es with
  | nil => cases he
  | cons e₁ es ih =>
    obtain ⟨hnew, hes⟩ := List.nodup_cons.1 h
    rw [lookup_cons]
    rcases List.mem_cons.1 he with rfl | he
    · rw [if_pos rfl]
    · have hne : Path.octets e₁.1 ≠ Path.octets e.1 := by
        intro heq
        exact hnew (List.mem_map.2 ⟨e, he, heq.symm⟩)
      rw [if_neg hne, ih hes he]

theorem mem_of_lookup (h : lookup name es = some t) :
    ∃ n, (n, t) ∈ es ∧ Path.octets n = Path.octets name := by
  induction es with
  | nil => cases h
  | cons e es ih =>
    rw [lookup_cons] at h
    split at h
    · next heq =>
      cases h
      exact ⟨e.1, List.mem_cons_self .., heq⟩
    · obtain ⟨n, hn, heq⟩ := ih h
      exact ⟨n, List.mem_cons_of_mem _ hn, heq⟩

theorem lookup_rel (hnames : (es.map Prod.fst).Perm (es'.map Prod.fst))
    (hbelow : ∀ name t t', lookup name es = some t → lookup name es' = some t' → Reordered t t')
    (name : Text) : Option.Rel Reordered (lookup name es) (lookup name es') := by
  have hboth : lookup name es = none ↔ lookup name es' = none := by
    rw [lookup_eq_none_iff, lookup_eq_none_iff]
    exact ⟨fun h n hn => h n (hnames.mem_iff.2 hn), fun h n hn => h n (hnames.mem_iff.1 hn)⟩
  cases h : lookup name es with
  | none =>
    rw [hboth.1 h]
    exact .none
  | some t =>
    cases h' : lookup name es' with
    | none => rw [hboth.2 h'] at h; cases h
    | some t' => exact .some (hbelow name t t' h h')

/-- Directories of the same names, where each name holds one tree in two listings. -/
theorem Reordered.directory_of_mem (hes : Distinct es)
    (hnames : (es.map Prod.fst).Perm (es'.map Prod.fst))
    (h : ∀ e ∈ es, ∀ e' ∈ es', Path.octets e.1 = Path.octets e'.1 → Reordered e.2 e'.2) :
    Reordered (.directory es) (.directory es') := by
  refine .directory hes hnames fun name t t' ht ht' => ?_
  obtain ⟨n, hn, hname⟩ := mem_of_lookup ht
  obtain ⟨n', hn', hname'⟩ := mem_of_lookup ht'
  exact h (n, t) hn (n', t') hn' (hname.trans hname'.symm)

theorem Distinct.perm (h : Distinct es) (hnames : (es.map Prod.fst).Perm (es'.map Prod.fst)) :
    Distinct es' := by
  have hoctets := (hnames.map Path.octets).nodup_iff
  rw [List.map_map, List.map_map] at hoctets
  exact hoctets.1 h

/-- Entries are told by their names, in the order of the names. -/
theorem map_eq_filterMap (h : Distinct es) (f : Text → FileTree → α) :
    (es.map fun e => f e.1 e.2) =
      (es.map Prod.fst).filterMap fun name => (lookup name es).map (f name) := by
  rw [List.filterMap_map, ← List.filterMap_eq_map]
  refine List.filterMap_congr fun e he => ?_
  simp only [Function.comp, lookup_of_mem h he, Option.map_some]

/-- What is made of entries one by one is the same in another order, if it is the same of what they
hold. -/
theorem map_perm (f f' : Text → FileTree → α) (hes : Distinct es)
    (hnames : (es.map Prod.fst).Perm (es'.map Prod.fst))
    (hbelow : ∀ name t t', lookup name es = some t → lookup name es' = some t' → Reordered t t')
    (hf : ∀ name t t', lookup name es = some t → lookup name es' = some t' →
      f name t = f' name t') :
    (es.map fun e => f e.1 e.2).Perm (es'.map fun e => f' e.1 e.2) := by
  rw [map_eq_filterMap hes, map_eq_filterMap (hes.perm hnames)]
  have hsame : (fun name => (lookup name es).map (f name)) =
      fun name => (lookup name es').map (f' name) := by
    funext name
    have hrel := lookup_rel hnames hbelow name
    cases h : lookup name es with
    | none =>
      rw [h] at hrel
      cases h' : lookup name es' with
      | none => rfl
      | some t' => rw [h'] at hrel; cases hrel
    | some t =>
      rw [h] at hrel
      cases h' : lookup name es' with
      | none => rw [h'] at hrel; cases hrel
      | some t' => exact congrArg some (hf name t t' h h')
  rw [hsame]
  exact hnames.filterMap _

theorem linkWeights_eq_sum (es : List (Text × FileTree)) :
    linkWeights es = (es.map fun e => linkWeight e.2).sum := by
  induction es with
  | nil => rfl
  | cons e es ih => rw [linkWeights, ih, List.map_cons, List.sum_cons]

theorem depths_le_iff {n : Nat} : depths es ≤ n ↔ ∀ k ∈ es.map fun e => depth e.2, k ≤ n := by
  induction es with
  | nil => simp [depths]
  | cons e es ih => rw [depths, List.map_cons, List.forall_mem_cons, ← ih, Nat.max_le]

/-! ## Trees -/

namespace Reordered

theorem empty : Reordered (.directory []) (.directory []) :=
  .directory List.nodup_nil .rfl fun _ _ _ ht _ => by cases ht

theorem linkWeight_eq (h : Reordered t t') : t'.linkWeight = t.linkWeight := by
  induction h with
  | file | link => rfl
  | directory hes hnames hbelow ih =>
    rw [linkWeight, linkWeight, linkWeights_eq_sum, linkWeights_eq_sum]
    refine (List.Perm.sum_eq ?_).symm
    exact map_perm (fun _ => linkWeight) (fun _ => linkWeight) hes hnames hbelow
      fun name u u' hu hu' => (ih name u u' hu hu').symm

theorem depth_eq (h : Reordered t t') : t'.depth = t.depth := by
  induction h with
  | file | link => rfl
  | @directory es es' hes hnames hbelow ih =>
    have hperm : (es.map fun e => depth e.2).Perm (es'.map fun e => depth e.2) :=
      map_perm (fun _ => depth) (fun _ => depth) hes hnames hbelow
        fun name u u' hu hu' => (ih name u u' hu hu').symm
    have hsame : ∀ n, depths es' ≤ n ↔ depths es ≤ n := by
      intro n
      simp only [depths_le_iff, hperm.mem_iff]
    rw [depth, depth, Nat.le_antisymm ((hsame _).2 (Nat.le_refl _)) ((hsame _).1 (Nat.le_refl _))]

theorem child? (h : Reordered t t') (name : Text) :
    Option.Rel Reordered (t.child? name) (t'.child? name) := by
  cases h with
  | file | link => exact .none
  | directory _ hnames hbelow => exact lookup_rel hnames hbelow name

/-- At every place both trees hold one tree in two listings, or nothing. -/
theorem at? (h : Reordered t t') (place : List Text) :
    Option.Rel Reordered (t.at? place) (t'.at? place) := by
  induction place generalizing t t' with
  | nil => exact .some h
  | cons name place ih =>
    rw [at?_cons, at?_cons]
    have hchild := h.child? name
    generalize t.child? name = c, t'.child? name = c' at hchild
    cases hchild with
    | none => exact .none
    | some hc => exact ih hc

end Reordered

/-! ## Putting and removing -/

theorem map_fst_setEntry (name : Text) (u : FileTree) (es : List (Text × FileTree)) :
    (setEntry name u es).map Prod.fst =
      if (lookup name es).isSome then es.map Prod.fst else es.map Prod.fst ++ [name] := by
  induction es with
  | nil => rfl
  | cons e es ih =>
    rw [setEntry_cons, lookup_cons]
    split
    · rfl
    · rw [List.map_cons, ih, List.map_cons]
      split <;> rfl

theorem Distinct.setEntry (h : Distinct es) (name : Text) (u : FileTree) :
    Distinct (FileTree.setEntry name u es) := by
  have hoctets : ((FileTree.setEntry name u es).map fun e => Path.octets e.1) =
      ((FileTree.setEntry name u es).map Prod.fst).map Path.octets := by simp
  rw [Distinct, hoctets, map_fst_setEntry]
  have hes : ((es.map Prod.fst).map Path.octets).Nodup := by
    rw [List.map_map]
    exact h
  split
  · exact hes
  · next hnone =>
    have hnew := lookup_eq_none_iff.1 (by simpa using hnone : lookup name es = none)
    rw [List.map_append, List.map_singleton]
    refine List.nodup_append.2 ⟨hes, List.nodup_singleton _, fun octets hoctets other hother => ?_⟩
    obtain ⟨n, hn, rfl⟩ := List.mem_map.1 hoctets
    cases List.mem_singleton.1 hother
    exact hnew n hn

theorem lookup_filter (name other : Text) (es : List (Text × FileTree)) :
    lookup other (es.filter (!Path.isSameName ·.1 name)) =
      if Path.octets other = Path.octets name then none else lookup other es := by
  induction es with
  | nil => simp
  | cons e es ih =>
    by_cases hsame : Path.octets e.1 = Path.octets name
    · rw [List.filter_cons_of_neg (by simp [Path.isSameName_iff.2 hsame]), ih, lookup_cons, hsame]
      split
      · rfl
      · next hother => rw [if_neg fun h => hother h.symm]
    · have hne : Path.isSameName e.1 name = false :=
        Bool.eq_false_iff.2 fun h => hsame (Path.isSameName_iff.1 h)
      rw [List.filter_cons_of_pos (by simp [hne]), lookup_cons, ih, lookup_cons]
      split
      · next h => rw [if_neg fun ho => hsame (h.trans ho)]
      · rfl

namespace Reordered

theorem setEntry (h : Reordered (.directory es) (.directory es')) (hu : Reordered u u')
    (name : Text) : Reordered (.directory (FileTree.setEntry name u es))
      (.directory (FileTree.setEntry name u' es')) := by
  cases h with
  | directory hes hnames hbelow =>
    refine .directory (hes.setEntry name u) ?_ fun other v v' hv hv' => ?_
    · have hrel := lookup_rel hnames hbelow name
      rw [map_fst_setEntry, map_fst_setEntry]
      generalize lookup name es = c, lookup name es' = c' at hrel
      cases hrel with
      | none => exact hnames.append_right [name]
      | some => exact hnames
    · by_cases hother : Path.octets other = Path.octets name
      · rw [lookup_congr hother, lookup_setEntry_self] at hv hv'
        cases hv
        cases hv'
        exact hu
      · rw [lookup_setEntry_of_ne hother] at hv hv'
        exact hbelow other v v' hv hv'

theorem filter (h : Reordered (.directory es) (.directory es')) (name : Text) :
    Reordered (.directory (es.filter (!Path.isSameName ·.1 name)))
      (.directory (es'.filter (!Path.isSameName ·.1 name))) := by
  cases h with
  | directory hes hnames hbelow =>
    have hfst : ∀ es : List (Text × FileTree),
        (es.filter (!Path.isSameName ·.1 name)).map Prod.fst =
          (es.map Prod.fst).filter (!Path.isSameName · name) := fun es => by
      rw [List.filter_map]
      rfl
    refine .directory ?_ ?_ fun other v v' hv hv' => ?_
    · exact List.Nodup.sublist (List.filter_sublist.map _) hes
    · rw [hfst, hfst]
      exact hnames.filter _
    · rw [lookup_filter] at hv hv'
      split at hv
      · cases hv
      · next hother =>
        rw [if_neg hother] at hv'
        exact hbelow other v v' hv hv'

/-- Something put at one place of both. -/
theorem put (hnew : Reordered new new') (h : Reordered t t') (place : List Text) :
    Reordered (FileTree.put new place t) (FileTree.put new' place t') := by
  induction place generalizing t t' with
  | nil => exact hnew
  | cons name rest ih =>
    cases h with
    | file content => exact .file content
    | link target => exact .link target
    | @directory es es' hes hnames hbelow =>
      have hrel := lookup_rel hnames hbelow name
      have hsame : Reordered (.directory es) (.directory es') := .directory hes hnames hbelow
      rw [FileTree.put, FileTree.put]
      generalize lookup name es = c, lookup name es' = c' at hrel
      cases hrel with
      | none =>
        simp only
        split
        · exact hsame.setEntry hnew name
        · exact hsame
      | some hold => exact hsame.setEntry (ih hold) name

theorem remove (h : Reordered t t') (place : List Text) :
    Reordered (FileTree.remove place t) (FileTree.remove place t') := by
  induction place generalizing t t' with
  | nil => exact h
  | cons name rest ih =>
    cases h with
    | file content => cases rest <;> exact .file content
    | link target => cases rest <;> exact .link target
    | @directory es es' hes hnames hbelow =>
      have hrel := lookup_rel hnames hbelow name
      have hsame : Reordered (.directory es) (.directory es') := .directory hes hnames hbelow
      cases rest with
      | nil => exact hsame.filter name
      | cons next rest =>
        rw [FileTree.remove, FileTree.remove]
        · generalize lookup name es = c, lookup name es' = c' at hrel
          cases hrel with
          | none => exact hsame
          | some hold => exact hsame.setEntry (ih hold) name
        all_goals simp

end Reordered

end JndiScan.FileTree

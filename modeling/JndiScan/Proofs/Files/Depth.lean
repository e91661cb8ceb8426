/-
How deep directories are nested. What is put into a tree nests them no deeper than the tree does or
than the way to it is long, and a tree is deeper than the way to any directory in it.
-/
import JndiScan.Proofs.Files.Tree

namespace JndiScan.FileTree

variable {name : Text} {place : List Text} {entries : List (Text × FileTree)} {t : FileTree}

theorem depth_le_of_lookup (h : lookup name entries = some t) : depth t ≤ depths entries := by
  induction entries with
  | nil => cases h
  | cons e entries ih =>
    rw [lookup_cons] at h
    rw [depths]
    split at h
    · cases h
      exact Nat.le_max_left ..
    · exact Nat.le_trans (ih h) (Nat.le_max_right ..)

theorem depths_setEntry_le (name : Text) (t : FileTree) (entries : List (Text × FileTree)) :
    depths (setEntry name t entries) ≤ max (depths entries) (depth t) := by
  induction entries with
  | nil => simp [setEntry, depths]
  | cons e entries ih =>
    rw [setEntry_cons]
    split
    · simp only [depths]
      omega
    · simp only [depths]
      omega

/-- What is put at a place deepens a tree no further than to itself. -/
theorem depth_put_le (new : FileTree) (place : List Text) (t : FileTree) :
    depth (put new place t) ≤ max (depth t) (place.length + depth new) := by
  induction place generalizing t with
  | nil =>
    rw [put, List.length_nil, Nat.zero_add]
    exact Nat.le_max_right ..
  | cons name rest ih =>
    cases t with
    | file content => exact Nat.le_max_left ..
    | link target => exact Nat.le_max_left ..
    | directory entries =>
      rw [List.length_cons]
      cases hold : lookup name entries with
      | some old =>
        have hset := depths_setEntry_le name (put new rest old) entries
        have hput := ih old
        have hbelow := depth_le_of_lookup hold
        rw [put_of_lookup hold, depth, depth]
        omega
      | none =>
        cases rest with
        | nil =>
          have hset := depths_setEntry_le name new entries
          rw [put_of_absent hold, depth, depth]
          simp only [List.length_nil]
          omega
        | cons next rest =>
          rw [put_of_missing (List.cons_ne_nil _ _) hold]
          exact Nat.le_max_left ..

/-- A tree is deeper than the way to a directory in it. -/
theorem length_lt_depth (h : at? place t = some (directory entries)) : place.length < depth t := by
  induction place generalizing t with
  | nil =>
    cases h
    exact Nat.succ_pos _
  | cons name rest ih =>
    obtain ⟨child, hchild, hat⟩ := Option.bind_eq_some_iff.1 h
    obtain ⟨es, rfl, hlookup⟩ := child?_eq_some hchild
    have hbelow := depth_le_of_lookup hlookup
    have hrest := ih hat
    rw [List.length_cons, depth]
    omega

end JndiScan.FileTree

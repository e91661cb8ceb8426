/-
The roots of a walk below a directory. However the system lists the directories, the files of each
come in the order of their names, and behind them the files below its directories, one directory after
the other in the order of their names. A directory that the system refuses to list holds no file to a
walk.
-/
import JndiScan.Proofs.Files.Listed
import JndiScan.Proofs.Files.Relisting
import JndiScan.Proofs.Text.Order
import JndiScan.Proofs.Walk.RootOrder
import JndiScan.Walk.Roots

namespace JndiScan.Walk

open FileTree (Distinct)

/-! ## The order of a listing -/

/-- Is it a file to a walk? A link is, unless it leads to a directory. -/
def isFile (host : Host) (place : List Text) : FileTree → Bool
  | .file _ => true
  | .link _ =>
    match host.find (Path.ofNames place) with
    | .ok (.directory _) => false
    | _ => true
  | .directory _ => false

/-- The paths of the files below a directory, in the order of a walk. First come the files of the
directory itself in the order of their names, then the files below each of its directories, these in
the order of their names and each as a whole. Of a directory that is not listed there are none. -/
inductive InOrder (host : Host) : List Text → List (Text × FileTree) → List Text → Prop
  | refused {place : List Text} {entries : List (Text × FileTree)} {error : SystemError} :
    host.refusal? place = some error → InOrder host place entries []
  | directory {place : List Text} {entries : List (Text × FileTree)} (files : List Text)
      (below : List (Text × List (Text × FileTree)))
      (part : Text × List (Text × FileTree) → List Text) :
    host.refusal? place = none →
    files.Pairwise (compare · · = .lt) →
    (∀ n, n ∈ files ↔ ∃ e ∈ entries, Path.listed e.1 = n ∧ isFile host (place ++ [n]) e.2) →
    (below.map Prod.fst).Pairwise (compare · · = .lt) →
    (∀ n es, (n, es) ∈ below ↔ ∃ e ∈ entries, Path.listed e.1 = n ∧ e.2 = .directory es) →
    (∀ d ∈ below, InOrder host (place ++ [d.1]) d.2 (part d)) →
    InOrder host place entries
      (files.map (fun n => Path.ofNames (place ++ [n])) ++ below.flatMap part)

section Listing

variable {host host' : Host} {place : List Text} {t t' : FileTree}
variable {es es' : List (Text × FileTree)}

theorem listedEntries_eq_map (host : Host) (calls : Nat) (place : List Text)
    (es : List (Text × FileTree)) :
    listedEntries host calls place es =
      es.map fun e => (Path.listed e.1, listed host calls (place ++ [Path.listed e.1]) e.2) := by
  induction es with
  | nil => rfl
  | cons e es ih => rw [listedEntries, ih, List.map_cons]

/-- Entries with different names are listed as different texts. -/
theorem nodup_listed (h : Distinct es) : (es.map fun e => Path.listed e.1).Nodup := by
  refine List.Nodup.of_map Path.octets ?_
  rw [List.map_map]
  simp only [Function.comp_def, Path.octets_listed]
  exact h

theorem rootsOf_eq (h : host.Reordered host') (calls : Nat) (place : List Text)
    (inside : List (Root Entry)) :
    rootsOf host' calls place inside = rootsOf host calls place inside := by
  rw [rootsOf, rootsOf, h.refusal?_eq]

/-- A tree is listed as the same in another order. -/
theorem listed_eq (h : host.Reordered host') (ht : t.Reordered t') (calls : Nat)
    (place : List Text) : listed host' calls place t' = listed host calls place t := by
  induction ht generalizing calls place with
  | file content => rfl
  | link target =>
    rw [listed, listed]
    have hfind := h.find (Path.ofNames place)
    generalize host.find (Path.ofNames place) = c, host'.find (Path.ofNames place) = c' at hfind
    cases hfind with
    | error e => rfl
    | ok hu => cases hu <;> rfl
  | @directory es es' hes hnames hbelow ih =>
    rw [listed, listed, rootsOf_eq h]
    have hperm : (listedEntries host (calls - 1) place es).Perm
        (listedEntries host' (calls - 1) place es') := by
      rw [listedEntries_eq_map, listedEntries_eq_map]
      refine FileTree.map_perm
        (fun n u => (Path.listed n, listed host (calls - 1) (place ++ [Path.listed n]) u))
        (fun n u => (Path.listed n, listed host' (calls - 1) (place ++ [Path.listed n]) u))
        hes hnames hbelow fun name u u' hu hu' => ?_
      rw [ih name u u' hu hu']
    have hkeys : ((listedEntries host (calls - 1) place es).map Prod.fst).Nodup := by
      rw [listedEntries_eq_map, List.map_map]
      exact nodup_listed hes
    rw [ordered, ordered, Text.sortBy_congr hperm hkeys]

/-- The names of the files among entries. -/
def filesOf (host : Host) (place : List Text) (es : List (Text × FileTree)) : List Text :=
  (es.filter fun e => isFile host (place ++ [Path.listed e.1]) e.2).map fun e => Path.listed e.1

/-- The directories among entries, with what they hold. -/
def directoriesOf (es : List (Text × FileTree)) : List (Text × List (Text × FileTree)) :=
  es.filterMap fun e =>
    match e.2 with
    | .directory below => some (Path.listed e.1, below)
    | _ => none

/-- The roots in a directory, with so many calls left for the directories in it. -/
def rootsIn (host : Host) (calls : Nat) (place : List Text) (es : List (Text × FileTree)) :
    List (Root Entry) :=
  rootsOf host calls place (ordered (listedEntries host (calls - 1) place es))

theorem listed_link (host : Host) (calls : Nat) (place : List Text) (target : Text) :
    listed host calls place (.link target) =
      if isFile host place (.link target) then .file (Path.ofNames place) else .skipped := by
  rw [listed, isFile]
  cases host.find (Path.ofNames place) with
  | error e => rfl
  | ok t => cases t <;> rfl

theorem filterMap_listed (calls : Nat) (es : List (Text × FileTree)) :
    ((es.map fun e => (Path.listed e.1, listed host calls (place ++ [Path.listed e.1]) e.2)).filterMap
      fun e => match e.2 with | .file p => some p | _ => none) =
      (filesOf host place es).map fun n => Path.ofNames (place ++ [n]) := by
  induction es with
  | nil => rfl
  | cons e es ih =>
    obtain ⟨name, t⟩ := e
    rw [filesOf] at ih ⊢
    rw [List.map_cons, List.filterMap_cons, List.filter_cons]
    cases t with
    | file content => simp [listed, isFile, ih]
    | directory below => simp [listed, isFile, ih]
    | link target =>
      by_cases hfile : isFile host (place ++ [Path.listed name]) (.link target) = true
      · simp [listed_link, hfile, ih]
      · simp [listed_link, hfile, ih]

theorem flatMap_listed (calls : Nat) (es : List (Text × FileTree)) :
    ((es.map fun e => (Path.listed e.1, listed host calls (place ++ [Path.listed e.1]) e.2)).flatMap
      fun e => match e.2 with | .directory roots => roots | _ => []) =
      (directoriesOf es).flatMap fun d => rootsIn host calls (place ++ [d.1]) d.2 := by
  induction es with
  | nil => rfl
  | cons e es ih =>
    obtain ⟨name, t⟩ := e
    rw [directoriesOf] at ih ⊢
    rw [List.map_cons, List.flatMap_cons, List.filterMap_cons]
    cases t with
    | file content => simp [listed, ih]
    | directory below => simp [listed, rootsIn, ih]
    | link target =>
      by_cases hfile : isFile host (place ++ [Path.listed name]) (.link target) = true
      · simp [listed_link, hfile, ih]
      · simp [listed_link, hfile, ih]

/-- What is listed are the files and then the directories, all of them sorted by their names. -/
theorem ordered_listedEntries (host : Host) (calls : Nat) (place : List Text)
    (es : List (Text × FileTree)) :
    let sorted := Text.sortBy (fun e => Path.listed e.1) es
    ordered (listedEntries host calls place es) =
      (filesOf host place sorted).map (fun n => .entry (.ofPath (Path.ofNames (place ++ [n])))) ++
        (directoriesOf sorted).flatMap fun d => rootsIn host calls (place ++ [d.1]) d.2 := by
  intro sorted
  rw [ordered, listedEntries_eq_map, Text.sortBy_map]
  refine congrArg₂ (· ++ ·) ?_ (flatMap_listed calls sorted)
  exact (congrArg (List.map _) (filterMap_listed calls sorted)).trans List.map_map

theorem sublist_directoriesOf (es : List (Text × FileTree)) :
    ((directoriesOf es).map Prod.fst).Sublist (es.map fun e => Path.listed e.1) := by
  induction es with
  | nil => exact .slnil
  | cons e es ih =>
    obtain ⟨name, t⟩ := e
    rw [directoriesOf, List.filterMap_cons]
    cases t with
    | directory below => exact ih.cons_cons _
    | file | link => exact ih.cons _

theorem mem_directoriesOf {n : Text} {below : List (Text × FileTree)} :
    (n, below) ∈ directoriesOf es ↔
      ∃ e ∈ es, Path.listed e.1 = n ∧ e.2 = .directory below := by
  rw [directoriesOf, List.mem_filterMap]
  refine exists_congr fun e => and_congr_right fun _ => ?_
  obtain ⟨name, t⟩ := e
  cases t <;> simp

theorem mem_filesOf {n : Text} : n ∈ filesOf host place es ↔
    ∃ e ∈ es, Path.listed e.1 = n ∧ isFile host (place ++ [n]) e.2 = true := by
  rw [filesOf, List.mem_map]
  constructor
  · rintro ⟨e, he, rfl⟩
    obtain ⟨he, hfile⟩ := List.mem_filter.1 he
    exact ⟨e, he, rfl, hfile⟩
  · rintro ⟨e, he, rfl, hfile⟩
    exact ⟨e, List.mem_filter.2 ⟨he, hfile⟩, rfl⟩

end Listing

/-! ## The files in order -/

section Order

variable {host host' : Host} {place : List Text} {t t' : FileTree}
variable {es : List (Text × FileTree)}

/-- The files below a directory that holds each of its names once are listed in order, as far as the
calls reach. -/
theorem exists_inOrder (ht : t.Reordered t') (calls : Nat) (place : List Text)
    (hes : t = .directory es) :
    ∃ paths, InOrder host place es paths ∧
      StandFor (rootsIn host calls place es) (paths.map .ofPath) := by
  induction ht generalizing calls place es with
  | file | link => cases hes
  | @directory es₁ es₁' hdistinct hnames hbelow ih =>
    cases hes
    let sorted := Text.sortBy (fun e => Path.listed e.1) es₁
    have hsorted := Text.pairwise_lt_sortBy (nodup_listed hdistinct)
    have hmem : ∀ e, e ∈ sorted ↔ e ∈ es₁ := fun e => (Text.sortBy_perm _ es₁).mem_iff
    have hparts : ∀ d ∈ directoriesOf sorted, ∃ paths, InOrder host (place ++ [d.1]) d.2 paths ∧
        StandFor (rootsIn host (calls - 1) (place ++ [d.1]) d.2) (paths.map .ofPath) := by
      rintro ⟨n, below⟩ hd
      obtain ⟨e, he, -, hdirectory⟩ := mem_directoriesOf.1 hd
      have hlookup := FileTree.lookup_of_mem hdistinct ((hmem e).1 he)
      obtain ⟨u', hu'⟩ : ∃ u', FileTree.lookup e.1 es₁' = some u' := by
        have hrel := FileTree.lookup_rel hnames hbelow e.1
        rw [hlookup] at hrel
        cases hx : FileTree.lookup e.1 es₁' with
        | none => rw [hx] at hrel; cases hrel
        | some u' => exact ⟨u', rfl⟩
      exact ih e.1 e.2 u' hlookup hu' (calls - 1) _ hdirectory
    choose! part hpart using hparts
    cases hrefusal : host.refusal? place with
    | some error =>
      refine ⟨[], .refused hrefusal, ?_⟩
      rw [rootsIn, rootsOf, hrefusal]
      split
      · exact .faulty _ []
      · exact .unlistable _
    | none =>
      refine ⟨_, .directory (filesOf host place sorted) (directoriesOf sorted) part hrefusal
        (hsorted.sublist (List.filter_sublist.map _)) (fun n => ?_)
        (hsorted.sublist (sublist_directoriesOf _)) (fun n below => ?_)
        fun d hd => (hpart d hd).1, ?_⟩
      · rw [mem_filesOf]
        simp only [hmem]
      · rw [mem_directoriesOf]
        simp only [hmem]
      · rw [rootsIn, rootsOf, hrefusal]
        split
        -- No call is left to list the directory in.
        · exact .faulty _ _
        · rw [ordered_listedEntries, List.map_append, List.map_map, List.map_flatMap]
          refine .append ?_ (.flatMap fun d hd => (hpart d hd).2)
          have hfiles := StandFor.entries ((filesOf host place sorted).map
            fun n => Entry.ofPath (Path.ofNames (place ++ [n])))
          rw [List.map_map] at hfiles
          exact hfiles

end Order

/-! ## The roots below a path -/

section Roots

variable {host host' : Host} {path : Text} {place : List Text} {es : List (Text × FileTree)}

/-- The roots of a walk are the same in another order of the listing. -/
theorem roots_eq (h : host.Reordered host') (path : Text) : roots host' path = roots host path := by
  unfold roots
  rw [h.resolve_eq]
  refine congrArg _ (funext fun place => ?_)
  simp only [h.isFile?_eq]
  refine congrArg _ (funext fun isFile => ?_)
  split
  · rfl
  · have hfind := h.find (Path.ofNames place)
    generalize host.find (Path.ofNames place) = c, host'.find (Path.ofNames place) = c' at hfind
    cases hfind with
    | error e => cases e <;> rfl
    | ok ht =>
      cases ht with
      | file | link => rfl
      | directory hes hnames hbelow =>
        have hlisted := listed_eq h (.directory hes hnames hbelow) host.nesting.listing place
        rw [listed, listed] at hlisted
        simp only [h.nesting, Listed.directory.inj hlisted]

/-- Below a directory the roots are those in it. -/
theorem roots_of_directory (hresolve : host.resolve path = .ok place)
    (hfind : host.find (Path.ofNames place) = .ok (.directory es)) :
    roots host path = .ok (rootsIn host host.nesting.listing place es) := by
  have hfile : host.isFile? (Path.ofNames place) = .ok false := by
    rw [Host.isFile?, Host.leadsTo, hfind]
  unfold roots
  simp only [hresolve, bind, Except.bind, hfile, hfind]
  rfl

end Roots

end JndiScan.Walk

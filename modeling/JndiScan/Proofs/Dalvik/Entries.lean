/-
The entries that a conversion gives, one for each class, in the order of the names of the class
files. Each is read as the definition that its file was written of, so a walk meets the classes and
nothing else.
-/
import JndiScan.Proofs.Dalvik.Conversion
import JndiScan.Proofs.Dalvik.Rendering
import JndiScan.Proofs.Text.Order
import JndiScan.Proofs.Walk.Decoding

namespace JndiScan

namespace Dalvik.Conversion

open Walk (Delivers Forest Unfolds UnfoldsAll)

variable {D : Decoding} {host : Host} {scratch : List Text} {s : Session}
variable {d : ClassDefinition} {ds : List ClassDefinition} {place : Provenance}

/-! ## Class files read back -/

/-- The definitions in the order in which their class files are given. -/
def inOrder (ds : List ClassDefinition) : List ClassDefinition := Text.sortBy fileName ds

theorem inOrder_perm (ds : List ClassDefinition) : (inOrder ds).Perm ds := Text.sortBy_perm ..

theorem names_eq_map (ds : List ClassDefinition) : names ds = (inOrder ds).map fileName :=
  (Text.map_sortBy fileName ds).symm

/-- The names of the class files come in the order of their code points. -/
theorem names_pairwise (hdistinct : (ds.map fileName).Nodup) :
    (names ds).Pairwise fun a b => compare a b = .lt := by
  have hsorted : (names ds).Pairwise fun a b => Text.le a b = true := Text.pairwise_sortBy id _
  have hnodup : (names ds).Nodup := (Text.sortBy_perm id _).nodup_iff.2 hdistinct
  exact hsorted.imp₂ (fun a b => Text.lt_of_le_of_ne) hnodup

/-- The content of the entry of a class is what its file holds. -/
theorem content_entry (place : Provenance) {after : Host} (hs : At after scratch s)
    {names : List Text}
    (hbelow : Path.below (Path.ofNames scratch) (fileName d) = Path.ofNames names)
    (husable : Host.Usable names) {octets : Bytes}
    (hfile : after.root.at? names = some (.file octets)) :
    (entry scratch place (fileName d)).content s.host = .ok octets := by
  have hread : s.host.read (Path.below (Path.ofNames scratch) (fileName d)) = .ok octets := by
    rw [hbelow, hs.1]
    exact Host.read_of_at? husable hfile
  rw [Entry.content, entry]
  simp only [hread]
  rfl

/-- The entry of a class is decoded as what its file holds. -/
theorem decode_entry (D : Decoding) (place : Provenance) {c : ClassDefinition} {after : Host}
    (hs : At after scratch s) {names : List Text}
    (hbelow : Path.below (Path.ofNames scratch) (fileName c) = Path.ofNames names)
    (husable : Host.Usable names) {octets : Bytes}
    (hfile : after.root.at? names = some (.file octets)) (hclass : ClassFile.read octets = .ok d) :
    D.decode (entry scratch place (fileName c)) s =
      .ok (.definition ⟨d, place.child (fileName c) true⟩)
        { s with opened := place.child (fileName c) true :: s.opened } := by
  have hneed : (entry scratch place (fileName c)).need s =
      .ok octets { s with opened := place.child (fileName c) true :: s.opened } := by
    rw [Entry.need, Entry.read, content_entry place hs hbelow husable hfile]
    rfl
  -- Its size is not known, so nothing bounds it.
  exact Decoding.decode_of_read (ofName_fileName c) rfl hneed hclass

/-- A class file that a conversion left is read as the definition it was written of. -/
theorem Held.decode {after : Host} (hheld : Held scratch after d) (hd : d.Exact)
    (hfree : Free host scratch) (hs : At after scratch s) (place : Provenance) :
    D.decode (entry scratch place (fileName d)) s =
      .ok (.definition ⟨d, place.child (fileName d) true⟩)
        { s with opened := place.child (fileName d) true :: s.opened } := by
  obtain ⟨hrelative, octets, hoctets, husable, hfile⟩ := hheld
  exact decode_entry D place hs (below_segments hfree hd.name hrelative) husable hfile
    (ClassFile.read_of_write_exact hd hoctets)

/-! ## Whole conversions -/

/-- The class that is found in the class file of a definition. -/
def occurrenceOf (place : Provenance) (d : ClassDefinition) : Occurrence :=
  ⟨d, place.child (fileName d) true⟩

/-- What a container delivers that holds nothing but classes. -/
def leaves : List Occurrence → Forest
  | [] => .done
  | o :: os => .more (.leaf o) (leaves os)

theorem trace_leaves (os : List Occurrence) :
    (leaves os).trace.filterMap Walk.Event.occurrence? = os := by
  induction os with
  | nil => rfl
  | cons o os ih =>
    rw [leaves, Forest.trace, List.filterMap_append, ih]
    rfl

theorem height_leaves (os : List Occurrence) : (leaves os).height = 0 := by
  induction os with
  | nil => rfl
  | cons o os ih => rw [leaves, Forest.height, ih]; rfl

theorem size_leaves (os : List Occurrence) : (leaves os).size = os.length := by
  induction os with
  | nil => rfl
  | cons o os ih => rw [leaves, Forest.size, ih, List.length_cons, Walk.Tree.size, Nat.add_comm]

theorem trace_map_leaf (os : List Occurrence) :
    ((os.map Walk.Tree.leaf).flatMap Walk.Tree.trace).filterMap Walk.Event.occurrence? = os := by
  induction os with
  | nil => rfl
  | cons o os ih =>
    rw [List.map_cons, List.flatMap_cons, List.filterMap_append, ih]
    rfl

theorem size_map_leaf (os : List Occurrence) :
    ((os.map Walk.Tree.leaf).map Walk.Tree.size).sum = os.length := by
  induction os with
  | nil => rfl
  | cons o os ih =>
    rw [List.map_cons, List.map_cons, List.sum_cons, ih, Walk.Tree.size, List.length_cons, Nat.add_comm]

/-- The entries that a position gives one after the other until there are no more, each with the
session in which it is given. -/
inductive Pulls (D : Decoding) : Session → Position → List (Entry × Session) → Session → Prop
  | done {s s' : Session} {p : Position} : D.pull p s = .ok none s' → Pulls D s p [] s'
  | next {s s₁ s' : Session} {p p' : Position} {x : Entry} {rest : List (Entry × Session)} :
    D.pull p s = .ok (some (x, p')) s₁ → Pulls D s₁ p' rest s' → Pulls D s p ((x, s₁) :: rest) s'

theorem Pulls.of_pull {D : Decoding} {s s₁ s' : Session} {p p' : Position}
    {given : List (Entry × Session)} (hpull : D.pull p s = D.pull p' s₁)
    (h : Pulls D s₁ p' given s') : Pulls D s p given s' := by
  cases h with
  | done hp => exact .done (hpull ▸ hp)
  | next hp hrest => exact .next (hpull ▸ hp) hrest

theorem Pulls.unique {D : Decoding} {s s' s'' : Session} {p : Position}
    {given given' : List (Entry × Session)} (h : Pulls D s p given s')
    (h' : Pulls D s p given' s'') : given = given' ∧ s' = s'' := by
  induction h generalizing given' with
  | done hp =>
    cases h' with
    | done hp' =>
      cases hp.symm.trans hp'
      exact ⟨rfl, rfl⟩
    | next hp' _ => cases hp.symm.trans hp'
  | next hp _ ih =>
    cases h' with
    | done hp' => cases hp.symm.trans hp'
    | next hp' hrest' =>
      cases hp.symm.trans hp'
      obtain ⟨rfl, rfl⟩ := ih hrest'
      exact ⟨rfl, rfl⟩

/-- The entry of the class file of a definition: its name is that of the definition, and it is read
as the definition. -/
structure Gives (D : Decoding) (place : Provenance) (d : ClassDefinition) (x : Entry × Session) :
    Prop where
  name : x.1.name = fileName d
  place : x.1.place = place.child (fileName d) true
  kind : EntryKind.ofName x.1.name = .classFile
  read : ∃ s', D.decode x.1 x.2 = .ok (.definition ⟨d, x.1.place⟩) s'

section Converted

variable {after : Host}

/-- The class files of a conversion are given by their names, until its directory is removed. -/
theorem pulls_converted (D : Decoding) (hgoes : removeFault? s = none) (place : Provenance)
    (left : List Text) :
    Pulls D s (.converted place left) (left.map fun name => (entry s.scratch place name, s))
      (remove s) := by
  induction left with
  | nil => exact .done (Decoding.pull_converted_nil D place hgoes)
  | cons name left ih => exact .next rfl ih

theorem gives_entry (hd : d.Exact) (hheld : Held scratch after d) (hfree : Free host scratch)
    (hs : At after scratch s) : Gives D place d (entry s.scratch place (fileName d), s) := by
  rw [hs.2]
  exact ⟨rfl, rfl, ofName_fileName d, _, hheld.decode hd hfree hs place⟩

theorem delivers_converted (hduring : During host scratch after) (hs : At after scratch s)
    (hgoes : removeFault? s = none) (hds : ∀ d ∈ ds, d.Exact ∧ Held scratch after d)
    (place : Provenance) :
    ∃ s', Delivers D.decoder s (.converted place (ds.map fileName))
      (leaves (ds.map (occurrenceOf place))) s' ∧ At host scratch s' := by
  induction ds generalizing s with
  | nil =>
    exact ⟨remove s, .done (Decoding.pull_converted_nil D place hgoes),
      Decoding.at_remove hduring hs hgoes⟩
  | cons d ds ih =>
    obtain ⟨hexact, hheld⟩ := hds d (List.mem_cons_self ..)
    obtain ⟨s', hdelivers, hs'⟩ :=
      ih (s := { s with opened := place.child (fileName d) true :: s.opened }) hs hgoes
        fun d hd => hds d (List.mem_cons_of_mem _ hd)
    have hdecode := hheld.decode (D := D) hexact hduring.free hs place
    rw [← hs.2] at hdecode
    exact ⟨s', .more rfl (.leaf hdecode) hdelivers, hs'⟩

end Converted

end Dalvik.Conversion

end JndiScan

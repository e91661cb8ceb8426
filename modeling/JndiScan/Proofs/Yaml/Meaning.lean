/-
What the nodes of a document mean is told when all octets are read. So no fault on the way tells of
octets that are no text: none of the faults of scalars does, nor of merging, nor of filling
collections. Only the fault that waits in a source does so, and octets that are a text have none.
-/
import JndiScan.Proofs.Yaml.Document
import JndiScan.Proofs.Yaml.Source
import JndiScan.Yaml.Read

namespace JndiScan.Yaml

/-! ## Scalars -/

/-- What is read has not a fault that tells of octets that are no text. -/
def Decoded {α : Type} (x : Except Fault α) : Prop := ∀ e, x ≠ .error (.encoding e)

section Decoded

variable {α β : Type} {x : Except Fault α} {f : α → Except Fault β}

theorem decoded_ok (a : α) : Decoded (.ok a : Except Fault α) := nofun

theorem decoded_error {fault : Fault} (h : ∀ e, fault ≠ .encoding e) :
    Decoded (.error fault : Except Fault α) := fun e he => h e (Except.error.inj he)

theorem Decoded.bind (hx : Decoded x) (hf : ∀ a, Decoded (f a)) : Decoded (x >>= f) := by
  cases x with
  | ok a => exact hf a
  | error fault => exact fun e he => hx e (congrArg Except.error (Except.error.inj he))

theorem Decoded.map (hx : Decoded x) (g : α → β) : Decoded (x.map g) := by
  cases x with
  | ok a => exact decoded_ok _
  | error fault => exact fun e he => hx e (congrArg Except.error (Except.error.inj he))

theorem decoded_mapError {ε : Type} {f : ε → Fault} (h : ∀ error e, f error ≠ .encoding e)
    (x : Except ε α) : Decoded (x.mapError f) := by
  cases x with
  | ok a => exact decoded_ok a
  | error error => exact decoded_error (h error)

theorem Decoded.ite {p : Prop} [Decidable p] {y : Except Fault α} (hx : Decoded x)
    (hy : Decoded y) : Decoded (if p then x else y) := by
  split
  · exact hx
  · exact hy

/-- A check that breaks off comes before what is done else. -/
theorem Decoded.checked {p : Prop} [Decidable p] {fault : Fault} {k : Unit → Except Fault α}
    (hk : Decoded (k ())) (h : ∀ e, fault ≠ .encoding e) :
    Decoded (if p then throw fault >>= k else k ()) := by
  split
  · exact decoded_error h
  · exact hk

theorem decoded_mapM {f : α → Except Fault β} (h : ∀ a, Decoded (f a)) (items : List α) :
    Decoded (items.mapM f) := by
  induction items with
  | nil => exact decoded_ok []
  | cons a items ih =>
    rw [List.mapM_cons]
    exact (h a).bind fun _ => ih.bind fun _ => decoded_ok _

end Decoded

namespace Number

theorem decoded_inBase (base : Nat) (t : Text) : Decoded (inBase base t) := by
  refine Decoded.ite (decoded_error nofun) ?_
  generalize digits? base _ = found
  cases found with
  | some n => exact decoded_ok _
  | none => exact decoded_error nofun

theorem decoded_integer (t : Text) : Decoded (integer t) := by
  unfold integer
  split
  · exact decoded_error nofun
  · refine Decoded.ite (decoded_ok _) ?_
    refine Decoded.ite ((decoded_inBase _ _).bind fun _ => decoded_ok _) ?_
    refine Decoded.ite ((decoded_inBase _ _).bind fun _ => decoded_ok _) ?_
    split
    · exact decoded_error nofun
    · refine Decoded.ite ((decoded_inBase _ _).bind fun _ => decoded_ok _) ?_
      refine Decoded.ite ?_ ((decoded_inBase _ _).bind fun _ => decoded_ok _)
      exact (decoded_mapM (decoded_inBase 10) _).bind fun _ => decoded_ok _

theorem decoded_signed (t : Text) : Decoded (signed t) := by
  unfold signed
  dsimp only
  split
  · exact decoded_ok _
  · exact decoded_error nofun

theorem decoded_sumBySixty (sum : Real64) (unit : Nat) (xs : List Real64) :
    Decoded (sumBySixty sum unit xs) := by
  induction xs generalizing sum unit with
  | nil => exact decoded_ok sum
  | cons x xs ih =>
    rw [sumBySixty]
    split
    · exact decoded_error nofun
    · exact ih _ _

theorem decoded_realText (t : Text) : Decoded (realText t) := by
  rw [realText]
  split
  · exact decoded_error nofun
  · exact decoded_ok _

theorem decoded_real (t : Text) : Decoded (real t) := by
  refine (decoded_realText t).bind fun (negative, unsigned) => ?_
  refine Decoded.ite (decoded_ok _) <| Decoded.ite (decoded_ok _) <| Decoded.ite ?_ ?_
  · exact (decoded_mapM decoded_signed _).bind fun _ =>
      (decoded_sumBySixty _ _ _).bind fun _ => decoded_ok _
  · exact (decoded_signed _).bind fun _ => decoded_ok _

end Number

namespace Timestamp

theorem decoded_instantOf (w : Written) (time : Time) : Decoded (instantOf w time) := by
  obtain ⟨hour, minute, second, fraction, offset⟩ := time
  cases offset with
  | none =>
    exact (decoded_mapError nofun _).bind fun _ =>
      .checked (.checked (.checked (decoded_ok _) nofun) nofun) nofun
  | some o =>
    refine .checked (k := fun _ => _) ?_ nofun
    exact (decoded_mapError nofun _).bind fun _ =>
      .checked (.checked (.checked (decoded_ok _) nofun) nofun) nofun

end Timestamp

namespace Scalar

theorem decoded_real (origin : Nat) (t : Text) : Decoded (real origin t) := by
  refine (Number.decoded_real t).bind fun found => ?_
  split <;> exact decoded_ok _

theorem decoded_value (kind : Tag) (origin : Nat) (t : Text) : Decoded (value kind origin t) := by
  cases kind with
  | str | null => exact decoded_ok _
  | bool =>
    dsimp only [value]
    split
    · exact decoded_ok _
    · exact decoded_error nofun
  | int => exact (Number.decoded_integer t).map _
  | float => exact decoded_real origin t
  | binary =>
    dsimp only [value]
    split
    · exact decoded_ok _
    · exact decoded_error nofun
  | timestamp =>
    dsimp only [value]
    split
    · exact decoded_error nofun
    · split
      · exact (decoded_mapError nofun _).map _
      · exact (Timestamp.decoded_instantOf _ _).map _
  | seq | map | set | omap | pairs | merge | value | unknown => exact decoded_error nofun

end Scalar

namespace Graph

theorem decoded_scalarText (g : Graph) (fuel : Nat) (n : NodeId) :
    Decoded (g.scalarText fuel n) := by
  induction fuel generalizing n with
  | zero => exact decoded_error nofun
  | succ fuel ih =>
    rw [scalarText]
    split
    · exact decoded_ok _
    · exact decoded_error nofun
    · split
      · exact ih _
      · exact decoded_error nofun

theorem decoded_scalarValue (g : Graph) (n : NodeId) : Decoded (g.scalarValue n) :=
  (g.decoded_scalarText _ n).bind fun _ =>
    .checked (Scalar.decoded_value _ _ _) nofun

end Graph

/-! ## Nodes -/

/-- Nothing waits in a graph. -/
instance : Waiting Graph := ⟨fun _ => none⟩

namespace Merge

variable {merged : NodeId → Change (List NodeEntry)}

theorem keeps_look {α : Type} (f : Graph → α) : Keeps (look f) :=
  keeps_get.bind fun _ => keeps_pure _

theorem keeps_brought (h : ∀ n, Keeps (merged n)) (v : NodeId) : Keeps (brought merged v) := by
  refine (keeps_look _).bind fun content => ?_
  cases content with
  | mapping _ => exact h v
  | scalar _ => exact keeps_throw nofun
  | sequence items =>
    refine Keeps.bind (keeps_mapM (fun n => ?_) items) fun _ => keeps_pure _
    exact (keeps_look _).bind fun _ => (h n).ite (keeps_throw nofun)

theorem keeps_mergeEntries (h : ∀ n, Keeps (merged n)) (n : NodeId)
    (found own entries : List NodeEntry) : Keeps (mergeEntries merged n found own entries) := by
  induction entries generalizing found own with
  | nil => exact keeps_modify fun _ => rfl
  | cons e rest ih =>
    refine (keeps_look _).bind fun _ => ?_
    split
    · exact (keeps_modify fun _ => by rfl).bind fun _ => (keeps_brought h _).bind fun _ =>
        (keeps_look _).bind fun _ => (ih _ _).ite (keeps_modify fun _ => by rfl)
    · exact (keeps_modify fun _ => by rfl).bind fun _ => ih _ _
    · exact ih _ _

theorem keeps_merge (fuel : Nat) (n : NodeId) : Keeps (merge fuel n) := by
  induction fuel generalizing n with
  | zero => exact keeps_look _
  | succ fuel ih =>
    exact (keeps_look _).bind fun _ => (keeps_mergeEntries ih _ _ _ _).bind fun _ => keeps_look _

theorem keeps_entries (n : NodeId) : Keeps (entries n) :=
  (keeps_look _).bind fun _ => keeps_merge _ _

end Merge

namespace Meaning

/-- Nor does anything wait while meanings are told. -/
instance : Waiting State := ⟨fun _ => none⟩

theorem keeps_malformed {α : Type} : Keeps (malformed : Teller α) := keeps_throw nofun

theorem keeps_look {α : Type} (f : Graph → α) : Keeps (look f) :=
  keeps_get.bind fun _ => keeps_pure _

theorem keeps_mergedEntries (n : NodeId) : Keeps (mergedEntries n) := by
  intro s
  have hentries := Merge.keeps_entries n s.graph
  unfold KeepsAt at hentries ⊢
  rw [mergedEntries]
  split at hentries
  · next hrun => rw [hrun]; rfl
  · next hrun => rw [hrun]; exact hentries

theorem keeps_tell (n : NodeId) (t : Thing) : Keeps (tell n t) := keeps_modify fun _ => rfl

theorem keeps_newLabel : Keeps newLabel := fun _ => rfl

theorem keeps_beginWith (n : NodeId) (t : Thing) : Keeps (beginWith n t) :=
  (keeps_tell n t).bind fun _ => keeps_modify fun _ => rfl

theorem keeps_thing? (n : NodeId) : Keeps (thing? n) := keeps_get.bind fun _ => keeps_pure _

theorem keeps_tellValue (n : NodeId) {x : Except Fault Value} (h : Decoded x) :
    Keeps (match x with
      | .ok v => tell n (.value v)
      | .error fault => throw fault) := by
  cases x with
  | ok v => exact keeps_tell n _
  | error fault => exact keeps_throw fun e he => h e (congrArg _ he)

theorem keeps_meet (n : NodeId) : Keeps (meet n) := by
  refine (keeps_thing? n).bind fun _ => Keeps.ite ?_ (keeps_pure _)
  refine (keeps_look _).bind fun kind => ?_
  cases kind with
  | seq | omap | pairs | map | set => exact keeps_beginWith _ _
  | merge | value | unknown => exact keeps_malformed
  | null | bool | int | float | binary | timestamp | str =>
    exact fun s => keeps_tellValue n (s.graph.decoded_scalarValue n) s

theorem keeps_key (n : NodeId) : Keeps (key n) := by
  refine (keeps_meet n).bind fun _ => (keeps_thing? n).bind fun _ => ?_
  split
  · exact keeps_pure _
  · exact keeps_malformed

theorem keeps_pair (n : NodeId) : Keeps (pair n) := by
  refine (keeps_look _).bind fun _ => keeps_malformed.ite <| (keeps_look _).bind fun _ => ?_
  split
  · exact (keeps_meet _).bind fun _ => (keeps_meet _).bind fun _ => keeps_newLabel.bind fun _ =>
      keeps_pure _
  · exact keeps_malformed

theorem keeps_mappingEntries (n : NodeId) : Keeps (mappingEntries n) :=
  (keeps_look _).bind fun _ => keeps_malformed.ite <| (keeps_mergedEntries n).bind fun _ =>
    keeps_foldlM (fun _ _ => (keeps_key _).bind fun _ => (keeps_meet _).bind fun _ =>
      keeps_pure _) _ _

theorem keeps_items (n : NodeId) : Keeps (items n) := by
  refine (keeps_look _).bind fun _ => ?_
  split
  · exact keeps_pure _
  · exact keeps_malformed

theorem keeps_fill (n : NodeId) : Keeps (fill n) := by
  refine (keeps_look _).bind fun _ => ?_
  split
  · exact (keeps_items n).bind fun _ => (keeps_forM keeps_meet _).bind fun _ => keeps_tell _ _
  · exact (keeps_items n).bind fun _ => (keeps_mapM keeps_pair _).bind fun _ => keeps_tell _ _
  · exact (keeps_items n).bind fun _ => (keeps_mapM keeps_pair _).bind fun _ => keeps_tell _ _
  · exact (keeps_mappingEntries n).bind fun _ => keeps_tell _ _
  · exact (keeps_mappingEntries n).bind fun _ => keeps_tell _ _

theorem keeps_fillAll (fuel : Nat) : Keeps (fillAll fuel) := by
  induction fuel with
  | zero => exact keeps_pure _
  | succ fuel ih =>
    refine keeps_get.bind fun _ => ?_
    split
    · exact keeps_pure _
    · exact (keeps_modify fun _ => by rfl).bind fun _ => (keeps_forM keeps_fill _).bind fun _ => ih

theorem decoded_value (g : Graph) (root : NodeId) : Decoded (value g root) := by
  refine Decoded.bind ?_ fun _ => decoded_ok _
  intro e h
  rw [things] at h
  have hrun : Keeps (do meet root; fillAll (g.size + 1)) :=
    (keeps_meet root).bind fun _ => keeps_fillAll _
  split at h
  · cases h
  · next hfault =>
    cases h
    cases hrun.waiting_of_error hfault

end Meaning

/-! ## Readers -/

variable {stream : Text.Stream}

/-- Reading a stream has no other faults than that its text is malformed, and the fault of the
stream. -/
def Signals (reader : Reader) (stream : Text.Stream) : Prop :=
  ∀ fault, reader stream = .error fault →
    fault = .malformed ∨ ∃ e, stream.stop = some e ∧ fault = .encoding e

/-- A reader tells a value once it has read all of a stream, and it reads the first `ahead` code
points before it does anything else. -/
structure ReadsStream (reader : Reader) (ahead : Nat) : Prop where
  whole {stream : Text.Stream} {v : Value} : reader stream = .ok v → stream.stop = none
  first {stream : Text.Stream} {e : Text.Utf8.Fault} : stream.stop = some e →
    stream.text.length < ahead → reader stream = .error (.encoding e)

/-- That octets are no text is told only when the stream tells so. -/
theorem stop_of_read_eq_encoding {e : Text.Utf8.Fault}
    (h : read stream = .error (.encoding e)) : stream.stop = some e := by
  rw [read] at h
  cases hdocument : Document.ofSource (Source.ofStream stream) with
  | ok document =>
    rw [hdocument] at h
    cases document with
    | some d => exact absurd h (Meaning.decoded_value d.graph d.root e)
    | none => cases h
  | error fault =>
    rw [hdocument] at h
    cases h
    exact Source.stop_eq_some (Document.stop_of_ofSource_encoding hdocument)

/-- The reader reads two pieces before anything else, and tells no value before it has read all. -/
theorem readsStream_read : ReadsStream read (2 * Source.pieceLength) where
  whole {stream v} h := by
    rw [read] at h
    cases hdocument : Document.ofSource (Source.ofStream stream) with
    | ok document => exact Source.stop_eq_none (Document.stop_of_ofSource hdocument)
    | error fault =>
      rw [hdocument] at h
      cases h
  first hstop hshort := by
    rw [read, Source.ofStream_of_short hstop hshort]
    rfl

end JndiScan.Yaml

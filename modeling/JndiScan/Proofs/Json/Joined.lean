/-
JSON values with every text in them joined, the names of fields included. Joining changes a value
exactly where a text in it holds a pair of halves, and never changes how the value is written: the
two are written alike, in ASCII.
-/
import JndiScan.Proofs.Json.Number
import JndiScan.Proofs.Json.Quoted

namespace JndiScan.Json

/-! ## Induction over values -/

/-- What holds of values without parts, of lists whose items have it and of objects whose fields
have values that have it, holds of every value. -/
@[elab_as_elim]
theorem induction {P : Json → Prop} (null : P null) (bool : ∀ b, P (bool b)) (int : ∀ i, P (int i))
    (decimal : ∀ negative digits exponent, P (decimal negative digits exponent))
    (text : ∀ t, P (text t)) (list : ∀ items, (∀ item ∈ items, P item) → P (list items))
    (object : ∀ fields, (∀ field ∈ fields, P field.2) → P (object fields)) (j : Json) : P j :=
  @Json.rec P (fun items => ∀ item ∈ items, P item) (fun fields => ∀ field ∈ fields, P field.2)
    (fun field => P field.2) null bool int decimal text list object
    (List.forall_mem_nil _) (fun _ _ hitem hitems => List.forall_mem_cons.2 ⟨hitem, hitems⟩)
    (List.forall_mem_nil _) (fun _ _ hfield hfields => List.forall_mem_cons.2 ⟨hfield, hfields⟩)
    (fun _ _ hvalue => hvalue) j

/-! ## Joining -/

mutual

/-- The value with every text in it joined. -/
def joined : Json → Json
  | null => null
  | bool b => bool b
  | int i => int i
  | decimal negative digits exponent => decimal negative digits exponent
  | text t => text t.joined
  | list items => list (joinedItems items)
  | object fields => object (joinedFields fields)

/-- The items with every text in them joined. -/
def joinedItems : List Json → List Json
  | [] => []
  | item :: items => item.joined :: joinedItems items

/-- The fields with their names and every text in their values joined. -/
def joinedFields : List (Text × Json) → List (Text × Json)
  | [] => []
  | (key, value) :: fields => (key.joined, value.joined) :: joinedFields fields

end

mutual

/-- The texts in a value, the names of fields included. -/
def texts : Json → List Text
  | null => []
  | bool _ => []
  | int _ => []
  | decimal _ _ _ => []
  | text t => [t]
  | list items => textsOfItems items
  | object fields => textsOfFields fields

/-- The texts in items. -/
def textsOfItems : List Json → List Text
  | [] => []
  | item :: items => item.texts ++ textsOfItems items

/-- The names of fields and the texts in their values. -/
def textsOfFields : List (Text × Json) → List Text
  | [] => []
  | (key, value) :: fields => key :: (value.texts ++ textsOfFields fields)

end

theorem joined_list (items : List Json) : (list items).joined = list (items.map joined) := by
  have hitems : ∀ items, joinedItems items = items.map joined := by
    intro items
    induction items with
    | nil => rfl
    | cons item items ih => rw [joinedItems, ih, List.map_cons]
  rw [joined, hitems]

theorem joined_object (fields : List (Text × Json)) :
    (object fields).joined = object (fields.map fun f => (f.1.joined, f.2.joined)) := by
  have hfields : ∀ fields, joinedFields fields = fields.map fun f => (f.1.joined, f.2.joined) := by
    intro fields
    induction fields with
    | nil => rfl
    | cons f fields ih => rw [joinedFields, ih, List.map_cons]
  rw [joined, hfields]

theorem texts_list (items : List Json) : (list items).texts = items.flatMap texts := by
  have hitems : ∀ items, textsOfItems items = items.flatMap texts := by
    intro items
    induction items with
    | nil => rfl
    | cons item items ih => rw [textsOfItems, ih, List.flatMap_cons]
  rw [texts, hitems]

theorem texts_object (fields : List (Text × Json)) :
    (object fields).texts = fields.flatMap fun f => f.1 :: f.2.texts := by
  have hfields : ∀ fields, textsOfFields fields = fields.flatMap fun f => f.1 :: f.2.texts := by
    intro fields
    induction fields with
    | nil => rfl
    | cons f fields ih => rw [textsOfFields, ih, List.flatMap_cons, List.cons_append]
  rw [texts, hfields]

/-! ## Values without pairs -/

/-- No text in the value holds a high half directly before a low one. -/
def Apart (j : Json) : Prop := ∀ t ∈ j.texts, t.Apart

section

variable {t : Text} {items : List Json} {fields : List (Text × Json)}

@[simp] theorem apart_null : null.Apart := by simp [Apart, texts]

@[simp] theorem apart_bool {b : Bool} : (bool b).Apart := by simp [Apart, texts]

@[simp] theorem apart_int {i : Int} : (int i).Apart := by simp [Apart, texts]

@[simp] theorem apart_text : (text t).Apart ↔ t.Apart := by simp [Apart, texts]

@[simp] theorem apart_list : (list items).Apart ↔ ∀ item ∈ items, item.Apart := by
  simp only [Apart, texts_list, List.mem_flatMap]
  constructor
  · intro h item hitem t ht
    exact h t ⟨item, hitem, ht⟩
  · rintro h t ⟨item, hitem, ht⟩
    exact h item hitem t ht

@[simp] theorem apart_object : (object fields).Apart ↔ ∀ f ∈ fields, f.1.Apart ∧ f.2.Apart := by
  simp only [Apart, texts_object, List.mem_flatMap, List.mem_cons]
  constructor
  · intro h f hf
    exact ⟨h f.1 ⟨f, hf, .inl rfl⟩, fun t ht => h t ⟨f, hf, .inr ht⟩⟩
  · rintro h t ⟨f, hf, rfl | ht⟩
    · exact (h f hf).1
    · exact (h f hf).2 t ht

end

/-- Joining changes exactly the values that hold a text with a pair. -/
theorem joined_eq_self_iff (j : Json) : j.joined = j ↔ j.Apart := by
  induction j using induction with
  | null => simp [joined]
  | bool b => simp [joined]
  | int i => simp [joined]
  | decimal negative digits exponent => simp [joined, Apart, texts]
  | text t => simp [joined, Text.joined_eq_self_iff]
  | list items ih =>
    have hmap : items.map joined = items ↔ ∀ item ∈ items, item.joined = item := by
      simpa using List.map_inj_left (f := joined) (g := id) (l := items)
    rw [joined_list, list.injEq, hmap, apart_list]
    exact forall₂_congr ih
  | object fields ih =>
    have hmap : fields.map (fun f => (f.1.joined, f.2.joined)) = fields ↔
        ∀ f ∈ fields, f.1.joined = f.1 ∧ f.2.joined = f.2 := by
      simpa [Prod.ext_iff] using
        List.map_inj_left (f := fun f : Text × Json => (f.1.joined, f.2.joined)) (g := id)
          (l := fields)
    rw [joined_object, object.injEq, hmap, apart_object]
    exact forall₂_congr fun f hf => and_congr Text.joined_eq_self_iff (ih f hf)

/-! ## Writing -/

theorem writeItems_eq (level : Nat) (items : List Json) :
    writeItems level items =
      items.flatMap fun item => ("," : Text) ++ newLine level ++ writeAt level item := by
  induction items with
  | nil => rfl
  | cons item items ih => rw [writeItems, ih, List.flatMap_cons]

theorem writeFields_eq (level : Nat) (fields : List (Text × Json)) :
    writeFields level fields =
      fields.flatMap fun f =>
        ("," : Text) ++ newLine level ++ writeText f.1 ++ (": " : Text) ++ writeAt level f.2 := by
  induction fields with
  | nil => rfl
  | cons f fields ih => rw [writeFields, ih, List.flatMap_cons]

/-- A value and the joined value are written alike. -/
theorem writeAt_joined (level : Nat) (j : Json) : writeAt level j.joined = writeAt level j := by
  induction j using induction generalizing level with
  | null => rfl
  | bool b => rfl
  | int i => rfl
  | decimal negative digits exponent => rfl
  | text t => exact writeText_joined t
  | list items ih =>
    rw [joined_list]
    cases items with
    | nil => rfl
    | cons item items =>
      rw [List.forall_mem_cons] at ih
      have hitems : writeItems (level + 1) (items.map joined) = writeItems (level + 1) items := by
        rw [writeItems_eq, writeItems_eq, List.flatMap_map]
        exact List.flatMap_congr fun item hitem => by rw [ih.2 item hitem]
      rw [List.map_cons, writeAt, writeAt, ih.1, hitems]
  | object fields ih =>
    rw [joined_object]
    cases fields with
    | nil => rfl
    | cons f fields =>
      rw [List.forall_mem_cons] at ih
      have hfields : writeFields (level + 1) (fields.map fun f => (f.1.joined, f.2.joined)) =
          writeFields (level + 1) fields := by
        rw [writeFields_eq, writeFields_eq, List.flatMap_map]
        exact List.flatMap_congr fun f hf => by rw [writeText_joined, ih.2 f hf]
      rw [List.map_cons, writeAt, writeAt, writeText_joined, ih.1, hfields]

/-! ## ASCII -/

section

open Text (IsAscii isAscii_append_iff isAscii_flatMap)

theorem isAscii_ofNat (n : Nat) : (Text.ofNat n).IsAscii := by
  intro x hx
  have hdigit := Text.isDigit_of_mem_ofNat hx
  simp only [CodePoint.isDigit, Bool.and_eq_true, decide_eq_true_eq] at hdigit
  exact Nat.lt_of_le_of_lt hdigit.2 (by decide)

theorem isAscii_ofInt (i : Int) : (Text.ofInt i).IsAscii := by
  cases i with
  | ofNat n => exact isAscii_ofNat n
  | negSucc n => exact List.forall_mem_cons.2 ⟨by decide, isAscii_ofNat (n + 1)⟩

theorem isAscii_newLine (level : Nat) : (newLine level).IsAscii := by
  refine List.forall_mem_cons.2 ⟨by decide, fun x hx => ?_⟩
  rw [List.eq_of_mem_replicate hx]
  decide

/-- What is written is ASCII. -/
theorem isAscii_writeAt (level : Nat) (j : Json) : (writeAt level j).IsAscii := by
  have hcomma : IsAscii ("," : Text) := by decide
  induction j using induction generalizing level with
  | null =>
    rw [writeAt]
    decide
  | bool b =>
    rw [writeAt]
    cases b <;> decide
  | int i => exact isAscii_ofInt i
  | decimal negative digits exponent =>
    have hsign : IsAscii (if negative then ("-" : Text) else []) := by cases negative <;> decide
    have hmark : IsAscii ("e" : Text) := by decide
    rw [writeAt]
    simp only [isAscii_append_iff, isAscii_ofNat, isAscii_ofInt, hsign, hmark, and_self]
  | text t => exact isAscii_writeText t
  | list items ih =>
    have hopen : IsAscii ("[" : Text) := by decide
    have hclose : IsAscii ("]" : Text) := by decide
    cases items with
    | nil =>
      rw [writeAt]
      decide
    | cons item items =>
      rw [List.forall_mem_cons] at ih
      have hitems : IsAscii (writeItems (level + 1) items) := by
        rw [writeItems_eq]
        refine isAscii_flatMap fun item hitem => ?_
        simp only [isAscii_append_iff, isAscii_newLine, ih.2 item hitem, hcomma, and_self]
      rw [writeAt]
      simp only [isAscii_append_iff, isAscii_newLine, ih.1, hopen, hclose, hitems, and_self]
  | object fields ih =>
    have hopen : IsAscii ("\x7b" : Text) := by decide
    have hclose : IsAscii ("\x7d" : Text) := by decide
    have hmark : IsAscii (": " : Text) := by decide
    cases fields with
    | nil =>
      rw [writeAt]
      decide
    | cons f fields =>
      rw [List.forall_mem_cons] at ih
      have hfields : IsAscii (writeFields (level + 1) fields) := by
        rw [writeFields_eq]
        refine isAscii_flatMap fun f hf => ?_
        simp only [isAscii_append_iff, isAscii_newLine, isAscii_writeText, ih.2 f hf, hcomma, hmark,
          and_self]
      rw [writeAt]
      simp only [isAscii_append_iff, isAscii_newLine, isAscii_writeText, ih.1, hopen, hclose, hmark,
        hfields, and_self]

end

end JndiScan.Json

/-
What is written is read back with every text joined. Each value is read up to its own end, whatever
the level that it was written at and whatever line ends and blanks stand before it, and the length
of what was written bounds the values that the reader works through. So two values are written
alike exactly when they are the same once joined, and only a value that holds a text with a pair of
halves is not read back as it was.
-/
import JndiScan.Proofs.Json.Joined

namespace JndiScan.Json

/-! ## Blanks -/

section

variable {c : CodePoint} {t : Text}

theorem skipBlanks_cons (h : isBlank c = false) : skipBlanks (c :: t) = c :: t := by
  rw [skipBlanks, List.dropWhile_cons_of_neg (by simp [h])]

theorem skipBlanks_newLine (level : Nat) (t : Text) :
    skipBlanks (newLine level ++ t) = skipBlanks t := by
  have hblank : ∀ c ∈ newLine level, isBlank c = true := by
    refine List.forall_mem_cons.2 ⟨by decide, fun c hc => ?_⟩
    rw [List.eq_of_mem_replicate hc]
    decide
  rw [skipBlanks, List.dropWhile_append_of_pos hblank, skipBlanks]

/-- A number starts with a sign or a digit. -/
theorem exists_cons_signed (negative : Bool) (n : Nat) (rest : Text) :
    ∃ c u, (if negative then ("-" : Text) else []) ++ Text.ofNat n ++ rest = c :: u ∧
      isBlank c = false ∧ c ≠ .ofChar ']' := by
  cases negative with
  | true => exact ⟨.ofChar '-', _, rfl, by decide⟩
  | false =>
    obtain ⟨d, u, hn, hd, -⟩ := exists_cons_ofNat n rest
    refine ⟨d, u, hn, ?_, ?_⟩
    · simp only [CodePoint.isDigit, Bool.and_eq_true, decide_eq_true_eq] at hd
      simp [isBlank]
      omega
    · rintro rfl
      revert hd
      decide

/-- What is written of a value starts with no blank, and not as the end of a list does. -/
theorem exists_cons_writeAt (level : Nat) (j : Json) :
    ∃ c u, writeAt level j = c :: u ∧ isBlank c = false ∧ c ≠ .ofChar ']' := by
  cases j with
  | null => exact ⟨.ofChar 'n', _, rfl, by decide⟩
  | bool b => cases b <;> exact ⟨_, _, rfl, by decide⟩
  | int i =>
    rw [writeAt, Text.ofInt_eq]
    simpa using exists_cons_signed (decide (i < 0)) i.natAbs []
  | decimal negative digits exponent =>
    rw [writeAt, List.append_assoc (_ ++ _)]
    exact exists_cons_signed negative digits _
  | text t => exact ⟨.ofChar '"', _, writeText_eq t, by decide⟩
  | list items => cases items <;> exact ⟨.ofChar '[', _, rfl, by decide⟩
  | object fields =>
    rcases fields with _ | ⟨⟨key, value⟩, fields⟩ <;> exact ⟨.ofChar '\x7b', _, rfl, by decide⟩

theorem skipBlanks_writeAt (level : Nat) (j : Json) (rest : Text) :
    skipBlanks (writeAt level j ++ rest) = writeAt level j ++ rest := by
  obtain ⟨c, u, hwrite, hblank, -⟩ := exists_cons_writeAt level j
  rw [hwrite, List.cons_append, skipBlanks_cons hblank]

theorem skipBlanks_space_writeAt (level : Nat) (j : Json) (rest : Text) :
    skipBlanks (.ofChar ' ' :: (writeAt level j ++ rest)) = writeAt level j ++ rest := by
  rw [skipBlanks, List.dropWhile_cons_of_pos (by decide), ← skipBlanks, skipBlanks_writeAt]

theorem skipBlanks_writeText (t rest : Text) :
    skipBlanks (writeText t ++ rest) = writeText t ++ rest := by
  rw [writeText_eq, List.cons_append, skipBlanks_cons (by decide)]

end

/-! ## The first code point of a value -/

section

variable {fuel : Nat} {t u v rest : Text} {c : CodePoint}

theorem readValue_null (ht : skipBlanks t = ("null" : Text) ++ rest) :
    readValue (fuel + 1) t = some (null, rest) := by
  simp +decide [readValue, ht, Text.ofString, readWord, Text.startsWith]

theorem readValue_bool {b : Bool}
    (ht : skipBlanks t = (if b then ("true" : Text) else "false") ++ rest) :
    readValue (fuel + 1) t = some (bool b, rest) := by
  cases b <;> simp +decide [readValue, ht, Text.ofString, readWord, Text.startsWith]

theorem readValue_text (ht : skipBlanks t = .ofChar '"' :: u) {s : Text}
    (hu : readTextFrom {} u = some (s, rest)) :
    readValue (fuel + 1) t = some (text s, rest) := by
  simp [readValue, ht, hu]

theorem readValue_list (ht : skipBlanks t = .ofChar '[' :: u) (hu : skipBlanks u = c :: v)
    (hc : c ≠ .ofChar ']') : readValue (fuel + 1) t = readItems fuel [] u := by
  simp +decide [readValue, ht, hu, hc]

theorem readValue_object (ht : skipBlanks t = .ofChar '\x7b' :: u) (hu : skipBlanks u = c :: v)
    (hc : c.val ≠ 0x7D) : readValue (fuel + 1) t = readFields fuel [] u := by
  simp +decide [readValue, ht, hu, hc]

theorem readValue_minus (ht : skipBlanks t = .ofChar '-' :: u) :
    readValue (fuel + 1) t = readMagnitude true u := by
  simp +decide [readValue, ht]

theorem readValue_digit (ht : skipBlanks t = c :: u) (hc : c.isDigit = true) :
    readValue (fuel + 1) t = readMagnitude false (c :: u) := by
  have hne : ∀ a : Char, (CodePoint.ofChar a).isDigit = false → c ≠ .ofChar a := by
    rintro a ha rfl
    rw [ha] at hc
    cases hc
  have hopen : ¬ c.val = 0x7B := fun h => hne '\x7b' (by decide) (Fin.ext h)
  rw [readValue, ht]
  simp only [if_neg (hne '"' (by decide)), if_neg (hne '[' (by decide)), if_neg hopen,
    if_neg (hne 't' (by decide)), if_neg (hne 'f' (by decide)), if_neg (hne 'n' (by decide)),
    if_neg (hne '-' (by decide))]

/-- Digits, a sign before them or none, are read as a number up to its end. -/
theorem readValue_magnitude {negative : Bool} {n : Nat} {after : Text} {exponent? : Option Int}
    (ht : skipBlanks t = (if negative then ("-" : Text) else []) ++ Text.ofNat n ++ rest)
    (hrest : ∀ c ∈ rest.head?, c.isDigit = false ∧ c ≠ .ofChar '.')
    (hexponent : readExponent rest = some (exponent?, after)) :
    readValue (fuel + 1) t = some (scaled negative n exponent?, after) := by
  cases negative with
  | true =>
    have hminus : skipBlanks t = .ofChar '-' :: (Text.ofNat n ++ rest) := by
      simpa [Text.ofString] using ht
    rw [readValue_minus hminus, readMagnitude_ofNat hrest hexponent]
  | false =>
    obtain ⟨d, u, hu, hd, -⟩ := exists_cons_ofNat n rest
    have hdigit : skipBlanks t = d :: u := by simpa [← hu] using ht
    rw [readValue_digit hdigit hd, ← hu, readMagnitude_ofNat hrest hexponent]

end

/-! ## Values -/

/-- A value is read back, joined, at whatever level it was written and behind whatever blanks. -/
def ReadsBack (j : Json) : Prop :=
  ∀ ⦃level fuel : Nat⦄ ⦃t rest : Text⦄, skipBlanks t = writeAt level j ++ rest →
    (writeAt level j).length ≤ fuel → Ends rest → readValue fuel t = some (j.joined, rest)

theorem exists_fuel {level fuel : Nat} {j : Json} (h : (writeAt level j).length ≤ fuel) :
    ∃ n, fuel = n + 1 := by
  obtain ⟨c, u, hwrite, -⟩ := exists_cons_writeAt level j
  rw [hwrite, List.length_cons] at h
  exact ⟨fuel - 1, by omega⟩

/-! ### Lists -/

section

variable {level outer fuel : Nat} {t u v rest : Text} {item : Json} {items done : List Json}

/-- What stands behind an item: the items after it, the end of the list and what follows that. -/
def afterItem (level outer : Nat) (items : List Json) (rest : Text) : Text :=
  writeItems level items ++ (newLine outer ++ .ofChar ']' :: rest)

theorem skipBlanks_afterItem_nil :
    skipBlanks (afterItem level outer [] rest) = .ofChar ']' :: rest := by
  rw [afterItem, writeItems, List.nil_append, skipBlanks_newLine, skipBlanks_cons (by decide)]

theorem afterItem_cons :
    afterItem level outer (item :: items) rest =
      .ofChar ',' :: (newLine level ++ (writeAt level item ++ afterItem level outer items rest)) := by
  simp [afterItem, writeItems, Text.ofString]

theorem ends_afterItem : Ends (afterItem level outer items rest) := by
  cases items with
  | nil => exact ends_lineEnd _
  | cons item items =>
    rw [afterItem_cons]
    exact ends_comma _

theorem writeAt_list_append :
    writeAt level (list (item :: items)) ++ rest =
      .ofChar '[' :: (newLine (level + 1) ++
        (writeAt (level + 1) item ++ afterItem (level + 1) level items rest)) := by
  simp [writeAt, afterItem, Text.ofString]

theorem length_writeItems_cons :
    (writeItems level (item :: items)).length =
      1 + (newLine level).length + (writeAt level item).length +
        (writeItems level items).length := by
  simp [writeItems, Text.ofString]
  omega

theorem readItems_last (ht : readValue fuel t = some (item, u))
    (hu : skipBlanks u = .ofChar ']' :: rest) :
    readItems (fuel + 1) done t = some (list (done.reverse ++ [item]), rest) := by
  simp +decide [readItems, ht, hu]

theorem readItems_next (ht : readValue fuel t = some (item, u))
    (hu : skipBlanks u = .ofChar ',' :: v) :
    readItems (fuel + 1) done t = readItems fuel (item :: done) v := by
  simp [readItems, ht, hu]

/-- The items of a list are read up to its end. -/
theorem readItems_written (hread : ∀ x ∈ item :: items, ReadsBack x)
    (ht : skipBlanks t = writeAt level item ++ afterItem level outer items rest)
    (hfuel : (writeItems level (item :: items)).length ≤ fuel) :
    readItems fuel done t = some (list (done.reverse ++ (item :: items).map joined), rest) := by
  induction items generalizing item fuel done t with
  | nil =>
    rw [length_writeItems_cons] at hfuel
    obtain ⟨fuel, rfl⟩ : ∃ n, fuel = n + 1 := ⟨fuel - 1, by omega⟩
    have hlength : (writeAt level item).length ≤ fuel := by omega
    have hitem := hread item List.mem_cons_self ht hlength ends_afterItem
    exact readItems_last hitem skipBlanks_afterItem_nil
  | cons next items ih =>
    rw [length_writeItems_cons] at hfuel
    obtain ⟨fuel, rfl⟩ : ∃ n, fuel = n + 1 := ⟨fuel - 1, by omega⟩
    rw [List.forall_mem_cons] at hread
    have hlength : (writeAt level item).length ≤ fuel := by omega
    have hitem := hread.1 ht hlength ends_afterItem
    have hnext : skipBlanks (newLine level ++
        (writeAt level next ++ afterItem level outer items rest)) =
          writeAt level next ++ afterItem level outer items rest := by
      rw [skipBlanks_newLine, skipBlanks_writeAt]
    rw [afterItem_cons] at hitem
    rw [readItems_next hitem (skipBlanks_cons (by decide)), ih hread.2 hnext (by omega)]
    simp

theorem readsBack_list (ih : ∀ item ∈ items, ReadsBack item) : ReadsBack (list items) := by
  intro level fuel t rest ht hfuel hends
  obtain ⟨n, rfl⟩ := exists_fuel hfuel
  cases items with
  | nil =>
    have hempty : skipBlanks t = .ofChar '[' :: .ofChar ']' :: rest := ht
    simp +decide [readValue, hempty, skipBlanks_cons, joined_list]
  | cons item items =>
    have hitems : skipBlanks (newLine (level + 1) ++
        (writeAt (level + 1) item ++ afterItem (level + 1) level items rest)) =
          writeAt (level + 1) item ++ afterItem (level + 1) level items rest := by
      rw [skipBlanks_newLine, skipBlanks_writeAt]
    have hlength : (writeItems (level + 1) (item :: items)).length ≤ n := by
      have hmarks : List.length ("[" : Text) = 1 ∧ List.length ("]" : Text) = 1 := ⟨rfl, rfl⟩
      simp only [writeAt, List.length_append, hmarks] at hfuel
      rw [length_writeItems_cons]
      omega
    obtain ⟨c, u, hwrite, -, hc⟩ := exists_cons_writeAt (level + 1) item
    rw [writeAt_list_append] at ht
    rw [readValue_list ht (by rw [hitems, hwrite, List.cons_append]) hc,
      readItems_written ih hitems hlength, joined_list]
    rfl

end

/-! ### Objects -/

section

variable {level outer fuel : Nat} {t u v rest key : Text} {value : Json}
  {fields done : List (Text × Json)}

/-- A field as it is written: its name, and its value behind a colon and a blank. -/
def fieldText (level : Nat) (key : Text) (value : Json) : Text :=
  writeText key ++ .ofChar ':' :: .ofChar ' ' :: writeAt level value

/-- What stands behind a field: the fields after it, the end of the object and what follows that. -/
def afterField (level outer : Nat) (fields : List (Text × Json)) (rest : Text) : Text :=
  writeFields level fields ++ (newLine outer ++ .ofChar '\x7d' :: rest)

theorem skipBlanks_fieldText :
    skipBlanks (newLine level ++ (fieldText level key value ++ rest)) =
      fieldText level key value ++ rest := by
  rw [skipBlanks_newLine, fieldText, List.append_assoc, skipBlanks_writeText]

theorem skipBlanks_afterField_nil :
    skipBlanks (afterField level outer [] rest) = .ofChar '\x7d' :: rest := by
  rw [afterField, writeFields, List.nil_append, skipBlanks_newLine, skipBlanks_cons (by decide)]

theorem afterField_cons :
    afterField level outer ((key, value) :: fields) rest =
      .ofChar ',' :: (newLine level ++
        (fieldText level key value ++ afterField level outer fields rest)) := by
  simp [afterField, fieldText, writeFields, Text.ofString]

theorem ends_afterField : Ends (afterField level outer fields rest) := by
  cases fields with
  | nil => exact ends_lineEnd _
  | cons f fields =>
    rw [afterField_cons]
    exact ends_comma _

theorem writeAt_object_append :
    writeAt level (object ((key, value) :: fields)) ++ rest =
      .ofChar '\x7b' :: (newLine (level + 1) ++
        (fieldText (level + 1) key value ++ afterField (level + 1) level fields rest)) := by
  simp [writeAt, fieldText, afterField, Text.ofString]

theorem length_writeFields_cons :
    (writeFields level ((key, value) :: fields)).length =
      1 + (newLine level).length + (writeText key).length + 2 + (writeAt level value).length +
        (writeFields level fields).length := by
  simp [writeFields, Text.ofString]
  omega

theorem fieldText_append :
    fieldText level key value ++ rest =
      .ofChar '"' :: (key.flatMap escape ++ .ofChar '"' :: .ofChar ':' :: .ofChar ' ' ::
        (writeAt level value ++ rest)) := by
  simp [fieldText, writeText_eq]

theorem readFields_last (hread : ReadsBack value)
    (ht : skipBlanks t = fieldText level key value ++ rest)
    (hlength : (writeAt level value).length ≤ fuel) (hends : Ends rest)
    (hrest : skipBlanks rest = .ofChar '\x7d' :: u) :
    readFields (fuel + 1) done t =
      some (object (done.reverse ++ [(key.joined, value.joined)]), u) := by
  have hkey := readTextFrom_written key (.ofChar ':' :: .ofChar ' ' :: (writeAt level value ++ rest))
  have hcolon : ∀ v, skipBlanks (.ofChar ':' :: v) = .ofChar ':' :: v := fun v =>
    skipBlanks_cons (by decide)
  have hvalue := hread (skipBlanks_space_writeAt level value rest) hlength hends
  rw [fieldText_append] at ht
  simp +decide [readFields, ht, hkey, hcolon, hvalue, hrest]

theorem readFields_next (hread : ReadsBack value)
    (ht : skipBlanks t = fieldText level key value ++ rest)
    (hlength : (writeAt level value).length ≤ fuel) (hends : Ends rest)
    (hrest : skipBlanks rest = .ofChar ',' :: u) :
    readFields (fuel + 1) done t = readFields fuel ((key.joined, value.joined) :: done) u := by
  have hkey := readTextFrom_written key (.ofChar ':' :: .ofChar ' ' :: (writeAt level value ++ rest))
  have hcolon : ∀ v, skipBlanks (.ofChar ':' :: v) = .ofChar ':' :: v := fun v =>
    skipBlanks_cons (by decide)
  have hvalue := hread (skipBlanks_space_writeAt level value rest) hlength hends
  rw [fieldText_append] at ht
  simp [readFields, ht, hkey, hcolon, hvalue, hrest]

/-- The fields of an object are read up to its end. -/
theorem readFields_written (hread : ∀ f ∈ (key, value) :: fields, ReadsBack f.2)
    (ht : skipBlanks t = fieldText level key value ++ afterField level outer fields rest)
    (hfuel : (writeFields level ((key, value) :: fields)).length ≤ fuel) :
    readFields fuel done t =
      some (object (done.reverse ++ ((key, value) :: fields).map fun f =>
        (f.1.joined, f.2.joined)), rest) := by
  induction fields generalizing key value fuel done t with
  | nil =>
    rw [length_writeFields_cons] at hfuel
    obtain ⟨fuel, rfl⟩ : ∃ n, fuel = n + 1 := ⟨fuel - 1, by omega⟩
    have hlength : (writeAt level value).length ≤ fuel := by omega
    rw [List.forall_mem_cons] at hread
    exact readFields_last hread.1 ht hlength ends_afterField skipBlanks_afterField_nil
  | cons next fields ih =>
    obtain ⟨nextKey, nextValue⟩ := next
    rw [length_writeFields_cons] at hfuel
    obtain ⟨fuel, rfl⟩ : ∃ n, fuel = n + 1 := ⟨fuel - 1, by omega⟩
    have hlength : (writeAt level value).length ≤ fuel := by omega
    rw [List.forall_mem_cons] at hread
    have hcomma : skipBlanks (afterField level outer ((nextKey, nextValue) :: fields) rest) =
        .ofChar ',' :: (newLine level ++
          (fieldText level nextKey nextValue ++ afterField level outer fields rest)) := by
      rw [afterField_cons, skipBlanks_cons (by decide)]
    rw [readFields_next hread.1 ht hlength ends_afterField hcomma,
      ih hread.2 skipBlanks_fieldText (by omega)]
    simp

theorem readsBack_object (ih : ∀ field ∈ fields, ReadsBack field.2) :
    ReadsBack (object fields) := by
  intro level fuel t rest ht hfuel hends
  obtain ⟨n, rfl⟩ := exists_fuel hfuel
  cases fields with
  | nil =>
    have hempty : skipBlanks t = .ofChar '\x7b' :: .ofChar '\x7d' :: rest := ht
    simp +decide [readValue, hempty, skipBlanks_cons, joined_object]
  | cons f fields =>
    obtain ⟨key, value⟩ := f
    have hlength : (writeFields (level + 1) ((key, value) :: fields)).length ≤ n := by
      have hmarks : List.length ("\x7b" : Text) = 1 ∧ List.length ("\x7d" : Text) = 1 ∧
          List.length (": " : Text) = 2 := ⟨rfl, rfl, rfl⟩
      simp only [writeAt, List.length_append, hmarks] at hfuel
      rw [length_writeFields_cons]
      omega
    have hfirst : skipBlanks (newLine (level + 1) ++
        (fieldText (level + 1) key value ++ afterField (level + 1) level fields rest)) =
          .ofChar '"' :: (key.flatMap escape ++ .ofChar '"' :: .ofChar ':' :: .ofChar ' ' ::
            (writeAt (level + 1) value ++ afterField (level + 1) level fields rest)) := by
      rw [skipBlanks_fieldText, fieldText_append]
    rw [writeAt_object_append] at ht
    rw [readValue_object ht hfirst (by decide),
      readFields_written ih skipBlanks_fieldText hlength, joined_object]
    rfl

end

/-- Every value is read back, joined. -/
theorem readsBack (j : Json) : ReadsBack j := by
  induction j using induction with
  | null =>
    intro level fuel t rest ht hfuel hends
    obtain ⟨n, rfl⟩ := exists_fuel hfuel
    exact readValue_null ht
  | bool b =>
    intro level fuel t rest ht hfuel hends
    obtain ⟨n, rfl⟩ := exists_fuel hfuel
    exact readValue_bool ht
  | int i =>
    intro level fuel t rest ht hfuel hends
    obtain ⟨n, rfl⟩ := exists_fuel hfuel
    rw [writeAt, Text.ofInt_eq] at ht
    rw [readValue_magnitude ht hends.head hends.readExponent, scaled_natAbs]
    rfl
  | decimal negative digits exponent =>
    intro level fuel t rest ht hfuel hends
    obtain ⟨n, rfl⟩ := exists_fuel hfuel
    have hexponent := readExponent_ofInt hends exponent
    rw [writeAt] at ht
    have hnumber : skipBlanks t = (if negative then ("-" : Text) else []) ++ Text.ofNat digits ++
        .ofChar 'e' :: (Text.ofInt exponent ++ rest) := by
      simpa [Text.ofString] using ht
    have hmark : ∀ c ∈ List.head? (.ofChar 'e' :: (Text.ofInt exponent ++ rest)),
        CodePoint.isDigit c = false ∧ c ≠ .ofChar '.' := by
      simp
      decide
    rw [readValue_magnitude hnumber hmark hexponent]
    rfl
  | text s =>
    intro level fuel t rest ht hfuel hends
    obtain ⟨n, rfl⟩ := exists_fuel hfuel
    rw [writeAt, writeText_eq, List.cons_append, List.append_assoc] at ht
    exact readValue_text ht (readTextFrom_written s rest)
  | list items ih => exact readsBack_list ih
  | object fields ih => exact readsBack_object ih

/-! ## Whole texts -/

section

variable {j j' : Json}

/-- What is read of a value that was written is the joined value. -/
theorem read_write_joined (j : Json) : read j.write = some j.joined := by
  have hblanks : skipBlanks j.write = writeAt 0 j ++ [] := by
    rw [List.append_nil]
    simpa [write] using skipBlanks_writeAt 0 j []
  have hvalue : readValue (2 * j.write.length + 2) j.write = some (j.joined, []) :=
    readsBack j hblanks (by rw [write]; omega) ends_nil
  rw [read, hvalue]
  rfl

/-- Values are written alike exactly when they are the same once joined. -/
theorem write_eq_write_iff : j.write = j'.write ↔ j.joined = j'.joined := by
  constructor
  · intro h
    have hread := read_write_joined j
    rw [h, read_write_joined] at hread
    exact (Option.some.inj hread).symm
  · intro h
    rw [write, write, ← writeAt_joined, h, writeAt_joined]

/-- A value is read back as it was exactly when no text in it holds a pair. -/
theorem read_write_eq_self_iff : read j.write = some j ↔ j.Apart := by
  rw [read_write_joined, Option.some.injEq, joined_eq_self_iff]

/-- The octets of a value that was written are read as what was written. -/
theorem ofUtf8_toUtf8_write (mode : Text.Utf8.Mode) (j : Json) :
    Text.ofUtf8 mode j.write.toUtf8 = .ok j.write :=
  (isAscii_writeAt 0 j).ofUtf8_toUtf8 mode

end

end JndiScan.Json

/-
Texts between quotation marks are read back with their pairs joined. A code point is read as the
number that its escape writes, whichever escape that is, and a code point of more than four
hexadecimal digits is written as its two halves would be: so a text and the joined text are written
alike, and it is the joined one that is read.
-/
import JndiScan.Json.Reader
import JndiScan.Json.Writer
import JndiScan.Proofs.Text.Halves
import JndiScan.Proofs.Text.Utf8

namespace JndiScan

namespace Text

/-! ## Hexadecimal digits -/

/-- One digit more is the digit of the lowest place. -/
theorem hex_succ {width : Nat} (h : 0 < width) (n : Nat) :
    hex (width + 1) n = hex width (n / 16) ++ [.ofChar (n % 16).digitChar] := by
  simp only [hex]
  rw [Nat.toDigits_eq_if (b := 16) (n := n) (by decide)]
  split
  case isTrue hn =>
    obtain ⟨w, rfl⟩ : ∃ w, width = w + 1 := ⟨width - 1, by omega⟩
    have hzero : n / 16 = 0 := by omega
    simp [hzero, Nat.mod_eq_of_lt hn, copies, List.replicate_succ', Nat.digitChar]
  case isFalse hn =>
    simp

theorem hex_one {n : Nat} (h : n < 16) : hex 1 n = [.ofChar n.digitChar] := by
  simp [hex, Nat.toDigits_of_lt_base h, copies]

theorem hex_four {n : Nat} (h : n < 0x10000) :
    hex 4 n = [.ofChar (n / 16 / 16 / 16).digitChar, .ofChar (n / 16 / 16 % 16).digitChar,
      .ofChar (n / 16 % 16).digitChar, .ofChar (n % 16).digitChar] := by
  rw [hex_succ (by decide), hex_succ (by decide), hex_succ (by decide), hex_one (by omega)]
  rfl

end Text

namespace Json

theorem hexValue?_digitChar {d : Nat} (h : d < 16) :
    hexValue? (.ofChar d.digitChar) = some d := by
  have hdigits : ∀ d < 16, hexValue? (.ofChar d.digitChar) = some d := by decide
  exact hdigits d h

/-- Four hexadecimal digits are read as the number that they write. -/
theorem exists_hex_four {n : Nat} (h : n < 0x10000) :
    ∃ a b c d, Text.hex 4 n = [a, b, c, d] ∧ hex4? a b c d = some n := by
  refine ⟨_, _, _, _, Text.hex_four h, ?_⟩
  have hmod : ∀ m, hexValue? (.ofChar (m % 16).digitChar) = some (m % 16) := fun m =>
    hexValue?_digitChar (Nat.mod_lt _ (by decide))
  have hfirst : hexValue? (.ofChar (n / 16 / 16 / 16).digitChar) = some (n / 16 / 16 / 16) :=
    hexValue?_digitChar (by omega)
  simp only [hex4?, hmod, hfirst, Option.bind_eq_bind, Option.bind_some, Option.pure_def,
    Option.some.injEq]
  omega

/-- Hexadecimal digits are ASCII. -/
theorem isAscii_of_hexValue? {c : CodePoint} {d : Nat} (h : hexValue? c = some d) :
    c.IsAscii := by
  by_contra hc
  rw [CodePoint.IsAscii] at hc
  have hdigit : c.isDigit = false := by simp [CodePoint.isDigit]; omega
  have hsmall : ¬ (0x61 ≤ c.val && c.val ≤ 0x66) = true := by simp; omega
  have hlarge : ¬ (0x41 ≤ c.val && c.val ≤ 0x46) = true := by simp; omega
  rw [hexValue?, hdigit, if_neg Bool.false_ne_true, if_neg hsmall, if_neg hlarge] at h
  cases h

/-! ## One code point -/

/-- How a code point is written: with a short escape, as it is, by its number, or as two halves. -/
inductive Escape : CodePoint → Text → Prop
  | short {e c} (he : shortEscape? e = some c) (hu : e ≠ .ofChar 'u') :
    Escape c [.ofChar '\\', e]
  | plain {c} (hquote : c ≠ .ofChar '"') (hslash : c ≠ .ofChar '\\') (hlow : 0x20 ≤ c.val)
    (hascii : c.IsAscii) : Escape c [c]
  | numbered {c} (h : c.val < 0x10000) :
    Escape c (.ofChar '\\' :: .ofChar 'u' :: Text.hex 4 c.val)
  | halves {high low first second} (hh : high.isHigh = true) (hl : low.isLow = true)
    (hfirst : Escape high first) (hsecond : Escape low second) :
    Escape (.pair high low) (first ++ second)

/-- Short escapes are ASCII and stand for ASCII. -/
theorem isAscii_of_shortEscape? {e c : CodePoint} (h : shortEscape? e = some c) :
    e.IsAscii ∧ c.IsAscii := by
  simp only [shortEscape?, Bool.or_eq_true, decide_eq_true_eq] at h
  split_ifs at h with hself hline hreturn htab hback hfeed <;> obtain rfl := Option.some.inj h
  · rcases hself with (rfl | rfl) | rfl <;> decide
  all_goals
    subst e
    decide

theorem escape_of_not_isAscii {c : CodePoint} (h : 0x80 ≤ c.val) : escape c = numbered c := by
  have hne : ∀ a : Char, a.toNat < 0x80 → c ≠ .ofChar a := by
    rintro a ha rfl
    exact absurd h (Nat.not_le.2 ha)
  have hrange : ¬ (0x20 ≤ c.val && c.val ≤ 0x7E) = true := by
    simp
    omega
  simp only [escape, if_neg (hne _ (by decide : '"'.toNat < 0x80)),
    if_neg (hne _ (by decide : '\\'.toNat < 0x80)), if_neg (hne _ (by decide : '\n'.toNat < 0x80)),
    if_neg (hne _ (by decide : '\r'.toNat < 0x80)), if_neg (hne _ (by decide : '\t'.toNat < 0x80)),
    if_neg (by omega : ¬ c.val = 0x08), if_neg (by omega : ¬ c.val = 0x0C), if_neg hrange]

theorem numbered_narrow {c : CodePoint} (h : c.val < 0x10000) :
    numbered c = .ofChar '\\' :: .ofChar 'u' :: Text.hex 4 c.val := by
  rw [numbered, if_pos h]
  rfl

theorem append_halves (high low : Text) :
    ("\\u" : Text) ++ high ++ ("\\u" : Text) ++ low =
      .ofChar '\\' :: .ofChar 'u' :: (high ++ .ofChar '\\' :: .ofChar 'u' :: low) := by
  simp [Text.ofString]

theorem numbered_wide {c : CodePoint} (h : ¬ c.val < 0x10000) :
    numbered c = .ofChar '\\' :: .ofChar 'u' :: (Text.hex 4 (0xD800 + (c.val - 0x10000) / 0x400)
      ++ .ofChar '\\' :: .ofChar 'u' :: Text.hex 4 (0xDC00 + (c.val - 0x10000) % 0x400)) := by
  rw [numbered, if_neg h, ← append_halves]

/-- Two halves are written as the code point that they stand for. -/
theorem escape_pair {high low : CodePoint} (hh : high.isHigh = true) (hl : low.isLow = true) :
    escape (.pair high low) = escape high ++ escape low := by
  have hval := CodePoint.val_pair hh hl
  rw [CodePoint.isHigh_iff] at hh
  rw [CodePoint.isLow_iff] at hl
  generalize CodePoint.pair high low = c at *
  have hhigh : 0xD800 + (c.val - 0x10000) / 0x400 = high.val := by omega
  have hlow : 0xDC00 + (c.val - 0x10000) % 0x400 = low.val := by omega
  rw [escape_of_not_isAscii (c := c) (by omega), escape_of_not_isAscii (c := high) (by omega),
    escape_of_not_isAscii (c := low) (by omega), numbered_wide (c := c) (by omega),
    numbered_narrow (c := high) (by omega), numbered_narrow (c := low) (by omega), hhigh, hlow,
    List.cons_append, List.cons_append]

theorem escape_narrow {c : CodePoint} (h : c.val < 0x10000) : Escape c (escape c) := by
  rw [escape]
  split_ifs with hquote hslash hline hreturn htab hback hfeed hplain
  · subst hquote
    exact .short (e := .ofChar '"') (by decide) (by decide)
  · subst hslash
    exact .short (e := .ofChar '\\') (by decide) (by decide)
  · subst hline
    exact .short (e := .ofChar 'n') (by decide) (by decide)
  · subst hreturn
    exact .short (e := .ofChar 'r') (by decide) (by decide)
  · subst htab
    exact .short (e := .ofChar 't') (by decide) (by decide)
  · obtain rfl : c = .ofNat 0x08 := Fin.ext hback
    exact .short (e := .ofChar 'b') (by decide) (by decide)
  · obtain rfl : c = .ofNat 0x0C := Fin.ext hfeed
    exact .short (e := .ofChar 'f') (by decide) (by decide)
  · simp only [Bool.and_eq_true, decide_eq_true_eq] at hplain
    exact .plain hquote hslash hplain.1 (Nat.lt_succ_of_le (Nat.le_succ_of_le hplain.2))
  · rw [numbered_narrow h]
    exact .numbered h

/-- Every code point is written in one of these ways. -/
theorem escape_spec (c : CodePoint) : Escape c (escape c) := by
  by_cases h : c.val < 0x10000
  case pos => exact escape_narrow h
  case neg =>
    obtain ⟨high, low, hh, hl, hc⟩ := CodePoint.exists_pair (Nat.le_of_not_lt h)
    have hhigh := CodePoint.isHigh_iff.1 hh
    have hlow := CodePoint.isLow_iff.1 hl
    rw [hc, escape_pair hh hl]
    exact .halves hh hl (escape_narrow (by omega)) (escape_narrow (by omega))

/-! ## One code point read -/

namespace TextSoFar

variable {s : TextSoFar} {done : Text} {c high low : CodePoint}

/-- A code point that is no low half stands for itself, whatever was read before it. -/
theorem pushNumbered_of_not_low (s : TextSoFar) (h : c.isLow = false) :
    s.pushNumbered c.val = ⟨c :: s.done, c.isHigh⟩ := by
  have hnot : ¬ (0xDC00 ≤ c.val && c.val ≤ 0xDFFF) = true := by
    rw [← CodePoint.isLow, h]
    exact Bool.false_ne_true
  rw [pushNumbered]
  split
  · rw [if_neg hnot, Text.Utf8.ofNat_eq_of_eq_val (c := c) rfl]
    rfl
  · rw [Text.Utf8.ofNat_eq_of_eq_val (c := c) rfl]
    rfl

/-- Behind anything but a high half every code point stands for itself. -/
theorem pushNumbered_closed : pushNumbered ⟨done, false⟩ c.val = ⟨c :: done, c.isHigh⟩ := by
  rw [pushNumbered, Text.Utf8.ofNat_eq_of_eq_val (c := c) rfl]
  rfl

/-- A low half behind a high one gives the code point of both. -/
theorem pushNumbered_pair (h : low.isLow = true) :
    pushNumbered ⟨high :: done, true⟩ low.val = ⟨.pair high low :: done, false⟩ := by
  have hlow : (0xDC00 ≤ low.val && low.val ≤ 0xDFFF) = true := h
  simp only [pushNumbered, if_pos hlow]
  rfl

/-- Two halves one after the other are as good as the code point of both. -/
theorem pushNumbered_halves (hh : high.isHigh = true) (hl : low.isLow = true) :
    (s.pushNumbered high.val).pushNumbered low.val =
      s.pushNumbered (CodePoint.pair high low).val := by
  rw [pushNumbered_of_not_low s (CodePoint.isLow_eq_false_of_isHigh hh), hh, pushNumbered_pair hl,
    pushNumbered_of_not_low s (CodePoint.isLow_pair hh hl), CodePoint.isHigh_pair hh hl]

/-- A code point of ASCII is as good as its number. -/
theorem pushNumbered_eq_push (h : c.IsAscii) : s.pushNumbered c.val = s.push c := by
  rw [CodePoint.IsAscii] at h
  have hlow : c.isLow = false := by
    rw [Bool.eq_false_iff, Ne, CodePoint.isLow_iff]
    omega
  have hhigh : c.isHigh = false := by
    rw [Bool.eq_false_iff, Ne, CodePoint.isHigh_iff]
    omega
  rw [pushNumbered_of_not_low s hlow, hhigh]
  rfl

end TextSoFar

section

variable (s : TextSoFar) (more : Text)

theorem readTextFrom_short {e c : CodePoint} (he : shortEscape? e = some c) (hu : e ≠ .ofChar 'u') :
    readTextFrom s (.ofChar '\\' :: e :: more) = readTextFrom (s.push c) more := by
  have hmark : ¬ CodePoint.ofChar '\\' = .ofChar '"' := by decide
  rw [readTextFrom.eq_def]
  simp only [if_neg hmark, if_true, if_neg hu, he]

theorem readTextFrom_plain {c : CodePoint} (hquote : c ≠ .ofChar '"') (hslash : c ≠ .ofChar '\\')
    (hlow : 0x20 ≤ c.val) : readTextFrom s (c :: more) = readTextFrom (s.push c) more := by
  rw [readTextFrom.eq_def]
  simp only [if_neg hquote, if_neg hslash, if_neg (Nat.not_lt.2 hlow)]

theorem readTextFrom_numbered {n : Nat} (h : n < 0x10000) :
    readTextFrom s (.ofChar '\\' :: .ofChar 'u' :: (Text.hex 4 n ++ more)) =
      readTextFrom (s.pushNumbered n) more := by
  obtain ⟨a, b, c, d, hhex, hn⟩ := exists_hex_four h
  have hmark : ¬ CodePoint.ofChar '\\' = .ofChar '"' := by decide
  rw [hhex, readTextFrom.eq_def]
  simp only [if_neg hmark, if_true, List.cons_append, List.nil_append, hn]

end

/-- However a code point is written, it is read as its number would be. -/
theorem readTextFrom_escape {c : CodePoint} {escaped : Text} (h : Escape c escaped)
    (s : TextSoFar) (more : Text) :
    readTextFrom s (escaped ++ more) = readTextFrom (s.pushNumbered c.val) more := by
  induction h generalizing s more with
  | short he hu =>
    rw [TextSoFar.pushNumbered_eq_push (isAscii_of_shortEscape? he).2]
    exact readTextFrom_short s more he hu
  | plain hquote hslash hlow hascii =>
    rw [TextSoFar.pushNumbered_eq_push hascii]
    exact readTextFrom_plain s more hquote hslash hlow
  | numbered h => exact readTextFrom_numbered s more h
  | halves hh hl _ _ ihfirst ihsecond =>
    rw [List.append_assoc, ihfirst, ihsecond, TextSoFar.pushNumbered_halves hh hl]

/-! ## Texts -/

/-- What is read of code points behind a closed beginning: the joined text. -/
theorem done_foldl_pushNumbered (t done : Text) :
    (t.foldl (fun s c => s.pushNumbered c.val) ⟨done, false⟩ : TextSoFar).done =
      t.joined.reverse ++ done := by
  induction t using Text.joined.induct generalizing done with
  | case1 => rfl
  | case2 c =>
    rw [List.foldl_cons, TextSoFar.pushNumbered_closed]
    rfl
  | case3 high low rest h ih =>
    rw [Bool.and_eq_true] at h
    rw [List.foldl_cons, List.foldl_cons, TextSoFar.pushNumbered_closed, h.1,
      TextSoFar.pushNumbered_pair h.2, ih, Text.joined_pair h.1 h.2]
    simp
  | case4 high low rest h ih =>
    have hapart : ¬ (high.isHigh = true ∧ low.isLow = true) := by simpa using h
    -- A high half waits in vain here: what follows it is no low half.
    have hclosed : TextSoFar.pushNumbered ⟨high :: done, high.isHigh⟩ low.val =
        TextSoFar.pushNumbered ⟨high :: done, false⟩ low.val := by
      cases hh : high.isHigh with
      | false => rfl
      | true =>
        have hl : low.isLow = false := by simpa [hh] using hapart
        rw [TextSoFar.pushNumbered_of_not_low _ hl, TextSoFar.pushNumbered_of_not_low _ hl]
    rw [List.foldl_cons, TextSoFar.pushNumbered_closed, List.foldl_cons, hclosed,
      ← List.foldl_cons (f := fun (s : TextSoFar) (c : CodePoint) => s.pushNumbered c.val), ih,
      Text.joined_apart hapart]
    simp

theorem readTextFrom_flatMap (s : TextSoFar) (t rest : Text) :
    readTextFrom s (t.flatMap escape ++ .ofChar '"' :: rest) =
      some ((t.foldl (fun s c => s.pushNumbered c.val) s).done.reverse, rest) := by
  induction t generalizing s with
  | nil => simp [readTextFrom.eq_def]
  | cons c t ih =>
    rw [List.flatMap_cons, List.append_assoc, readTextFrom_escape (escape_spec c), ih]
    rfl

theorem writeText_eq (t : Text) :
    writeText t = .ofChar '"' :: (t.flatMap escape ++ [.ofChar '"']) := by
  simp [writeText, Text.ofString]

/-- What is read of a text that was written is the joined text. -/
theorem readTextFrom_written (t rest : Text) :
    readTextFrom {} (t.flatMap escape ++ .ofChar '"' :: rest) = some (t.joined, rest) := by
  rw [readTextFrom_flatMap, done_foldl_pushNumbered, List.append_nil, List.reverse_reverse]

/-- A text and the joined text are written alike. -/
theorem flatMap_escape_joined (t : Text) : t.joined.flatMap escape = t.flatMap escape := by
  induction t using Text.joined.induct with
  | case1 => rfl
  | case2 => rfl
  | case3 high low rest h ih =>
    rw [Bool.and_eq_true] at h
    rw [Text.joined_pair h.1 h.2, List.flatMap_cons, ih, escape_pair h.1 h.2, List.append_assoc,
      List.flatMap_cons, List.flatMap_cons]
  | case4 high low rest h ih =>
    rw [Text.joined_apart (by simpa using h), List.flatMap_cons, ih, ← List.flatMap_cons]

theorem writeText_joined (t : Text) : writeText t.joined = writeText t := by
  rw [writeText_eq, writeText_eq, flatMap_escape_joined]

/-! ## ASCII -/

theorem isAscii_hex_four {n : Nat} (h : n < 0x10000) : (Text.hex 4 n).IsAscii := by
  obtain ⟨a, b, c, d, hhex, hn⟩ := exists_hex_four h
  simp only [hex4?, Option.bind_eq_bind, Option.bind_eq_some_iff] at hn
  obtain ⟨_, ha, _, hb, _, hc, _, hd, -⟩ := hn
  rw [hhex]
  simp [Text.IsAscii, isAscii_of_hexValue? ha, isAscii_of_hexValue? hb, isAscii_of_hexValue? hc,
    isAscii_of_hexValue? hd]

/-- However a code point is written, it is written in ASCII. -/
theorem Escape.isAscii {c : CodePoint} {escaped : Text} (h : Escape c escaped) :
    Text.IsAscii escaped := by
  have hmark : (CodePoint.ofChar '\\').IsAscii ∧ (CodePoint.ofChar 'u').IsAscii := by decide
  induction h with
  | short he hu => simp [Text.IsAscii, hmark.1, (isAscii_of_shortEscape? he).1]
  | plain hquote hslash hlow hascii => simp [Text.IsAscii, hascii]
  | numbered h => simpa [Text.IsAscii, hmark] using isAscii_hex_four h
  | halves hh hl _ _ ihfirst ihsecond => exact List.forall_mem_append.2 ⟨ihfirst, ihsecond⟩

theorem isAscii_writeText (t : Text) : (writeText t).IsAscii := by
  have hquote : (CodePoint.ofChar '"').IsAscii := by decide
  have hbody : Text.IsAscii (t.flatMap escape) := by
    intro x hx
    obtain ⟨c, -, hc⟩ := List.mem_flatMap.1 hx
    exact (escape_spec c).isAscii x hc
  rw [writeText_eq]
  exact List.forall_mem_cons.2 ⟨hquote, List.forall_mem_append.2 ⟨hbody, by simpa using hquote⟩⟩

end Json

end JndiScan

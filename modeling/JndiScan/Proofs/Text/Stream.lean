/-
Which octets give a stream without a fault. That they are decoded in blocks makes no difference:
those of a text do, and no others.
-/
import JndiScan.Proofs.Text.Pieces
import JndiScan.Text.Stream

namespace JndiScan.Text.Stream

variable {octets : Bytes}

/-! ## Blocks -/

/-- A block and what comes later are what was pending and what comes now. -/
theorem block_append_later (pending : Bytes) (b : UInt8) (rest : Bytes) :
    (pending ++ b :: rest.take (blockLength - 1)) ++ rest.drop (blockLength - 1) =
      pending ++ b :: rest := by
  rw [List.append_assoc, List.cons_append, List.take_append_drop]

theorem isCutOff_of_isUtf8_append {block later : Bytes} {fault : Utf8.Fault}
    (h : ofUtf8 .strict block = .error fault) (hall : IsUtf8 (block ++ later)) :
    isCutOff block fault = true := by
  simp [isCutOff, reason_eq_unexpectedEnd h hall]

/-- Octets are decoded in blocks without a fault exactly when they are those of a text. -/
theorem decoded_snd_eq_none_iff (done : List Text) (pending octets : Bytes) :
    (decoded done pending octets).2 = none ↔ IsUtf8 (pending ++ octets) := by
  fun_induction decoded done pending octets with
  | case1 done pending t h =>
    rw [List.append_nil]
    exact iff_of_true rfl ⟨t, h⟩
  | case2 done pending fault h =>
    rw [List.append_nil]
    exact iff_of_false (Option.some_ne_none _) (not_isUtf8 h)
  | case3 done pending b rest block later t h ih =>
    have hblock : IsUtf8 block := ⟨t, h⟩
    rw [ih, List.nil_append, ← block_append_later]
    exact hblock.append_iff.symm
  | case4 done pending b rest block later fault h hcut t htake ih =>
    have hgood : IsUtf8 (block.take fault.position) := ⟨t, htake⟩
    rw [ih, ← block_append_later, ← hgood.append_iff, ← List.append_assoc, List.take_append_drop]
  | case5 done pending b rest block fault h hcut fault' htake =>
    exact absurd (isUtf8_take h) (not_isUtf8 htake)
  | case6 done pending b rest block fault h hcut =>
    refine iff_of_false (Option.some_ne_none _) fun hall => hcut ?_
    rw [← block_append_later] at hall
    exact isCutOff_of_isUtf8_append h hall

theorem length_le_of_ofUtf8 {t : Text} (h : ofUtf8 .strict octets = .ok t) :
    t.length ≤ octets.length := by
  have hle := Utf8.length_le_of_decodeFrom h
  rwa [List.length_nil, Nat.zero_add] at hle

/-- What is decoded has no more code points than there are octets. -/
theorem length_decoded_le (done : List Text) (pending octets : Bytes) :
    (decoded done pending octets).1.flatten.length ≤
      done.flatten.length + (pending ++ octets).length := by
  fun_induction decoded done pending octets with
  | case1 done pending t h =>
    have ht := length_le_of_ofUtf8 h
    simp only [List.flatten_cons, List.length_append, List.length_nil] at ht ⊢
    omega
  | case2 done pending fault h => exact Nat.le_add_right _ _
  | case3 done pending b rest block later t h ih =>
    have ht := length_le_of_ofUtf8 h
    rw [← show block ++ later = _ from block_append_later pending b rest]
    simp only [List.flatten_cons, List.length_append, List.nil_append] at ht ih ⊢
    omega
  | case4 done pending b rest block later fault h hcut t htake ih =>
    have ht := length_le_of_ofUtf8 htake
    rw [← show block ++ later = _ from block_append_later pending b rest]
    simp only [List.flatten_cons, List.length_append, List.length_take, List.length_drop]
      at ht ih ⊢
    omega
  | case5 done pending b rest block fault h hcut fault' htake => exact Nat.le_add_right _ _
  | case6 done pending b rest block fault h hcut => exact Nat.le_add_right _ _

/-! ## Streams -/

theorem length_withLineFeeds_le (afterReturn : Bool) (t : Text) :
    (withLineFeeds afterReturn t).length ≤ t.length := by
  fun_induction withLineFeeds afterReturn t <;> grind

theorem stop_ofOctets (octets : Bytes) : (ofOctets octets).stop = (decoded [] [] octets).2 := by
  rw [ofOctets]

/-- A stream has no fault exactly when its octets are those of a text. -/
theorem stop_eq_none_iff : (ofOctets octets).stop = none ↔ IsUtf8 octets := by
  rw [stop_ofOctets]
  exact decoded_snd_eq_none_iff [] [] octets

/-- A stream has no more code points than there are octets. -/
theorem length_text_le (octets : Bytes) : (ofOctets octets).text.length ≤ octets.length := by
  have hdecoded := length_decoded_le [] [] octets
  simp only [List.length_flatten, List.map_nil, List.sum_nil, List.nil_append, Nat.zero_add]
    at hdecoded
  rw [ofOctets]
  refine Nat.le_trans (length_withLineFeeds_le _ _) (Nat.le_trans ?_ hdecoded)
  split
  · simp only [List.length_dropLast, List.length_flatten, List.map_reverse, List.sum_reverse]
    exact Nat.sub_le _ _
  · simp only [List.length_flatten, List.map_reverse, List.sum_reverse]
    exact Nat.le_refl _

end JndiScan.Text.Stream

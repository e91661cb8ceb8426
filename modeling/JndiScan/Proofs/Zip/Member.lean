/-
Why a member of an archive cannot be read. Two reasons are of another kind than the rest: that a
position is not held by 64 bits with a sign, and that the decompressor refuses LZMA data. Either is
told by a fault that nothing else has.
-/
import JndiScan.Proofs.Files.Host
import JndiScan.Zip.Member

namespace JndiScan.Zip

open Host (bind_eq_error_iff mapError_eq_error_iff)

variable {codecs : Codecs} {s : Source} {r : Record} {data : Bytes} {method : Nat}
variable {unpack : Bytes → Except Fault (Bytes × Bool)} {fault : Fault} {wording : Text}

/-! ## The header -/

theorem positionIn_eq_positionTooLarge_iff (medium : Medium) {position : Int} :
    positionIn medium position = .error .positionTooLarge ↔ isCounted position = false := by
  unfold positionIn
  cases isCounted position with
  | false => simp
  | true =>
    simp only [Bool.not_true, Bool.false_eq_true, if_false, reduceCtorEq, iff_false]
    split <;> exact fun h => by cases h

theorem positionIn_ne_lzma (medium : Medium) {position : Int} :
    positionIn medium position ≠ .error (.lzma wording) := by
  unfold positionIn
  repeat' split
  all_goals exact fun h => by cases h

theorem skipHeader_eq_positionTooLarge_iff :
    skipHeader s r = .error .positionTooLarge ↔ isCounted r.offset = false := by
  rw [← positionIn_eq_positionTooLarge_iff s.medium, skipHeader, bind_eq_error_iff]
  refine ⟨fun h => h.resolve_right ?_, .inl⟩
  rintro ⟨start, -, h⟩
  -- Every other check of a header refuses it with a fault of its own.
  simp only [bind, Except.bind, throw, throwThe, MonadExceptOf.throw, pure, Except.pure] at h
  repeat' split at h
  all_goals cases h

theorem skipHeader_ne_lzma : skipHeader s r ≠ .error (.lzma wording) := by
  rw [skipHeader, Ne, bind_eq_error_iff]
  rintro (h | ⟨start, -, h⟩)
  · exact positionIn_ne_lzma s.medium h
  · simp only [bind, Except.bind, throw, throwThe, MonadExceptOf.throw, pure, Except.pure] at h
    repeat' split at h
    all_goals cases h

/-! ## The data -/

/-- The decompressor refuses LZMA data of a member, which follow their properties. -/
structure Refuses (codecs : Codecs) (data : Bytes) (wording : Text) : Prop where
  follow : lzmaStart data < data.length
  refused : codecs.lzma (lzmaProperties data) (data.drop (lzmaStart data)) = .error wording

example : Refuses {} [9, 4, 0, 0, 0] "Invalid or unsupported options" :=
  ⟨by decide, rfl⟩

theorem unpackLzma_eq_error_iff :
    unpackLzma codecs data = .error fault ↔ ∃ wording, Refuses codecs data wording ∧
      fault = .lzma wording := by
  unfold unpackLzma
  split
  · next hshort =>
    refine ⟨fun h => (by cases h), ?_⟩
    rintro ⟨wording, h, -⟩
    exact absurd h.follow (Nat.not_lt.2 hshort)
  · next hlong =>
    rw [mapError_eq_error_iff]
    exact ⟨fun ⟨wording, h, heq⟩ => ⟨wording, ⟨Nat.not_le.1 hlong, h⟩, heq.symm⟩,
      fun ⟨wording, h, heq⟩ => ⟨wording, h.refused, heq.symm⟩⟩

/-- What unpacking may fail with, by the methods. -/
theorem fault_of_unpack (hunpack : unpacker? codecs method = some unpack)
    (h : unpack data = .error fault) :
    (method = 14 ∧ ∃ wording, Refuses codecs data wording ∧ fault = .lzma wording) ∨
      (∃ inflating, fault = .compressed inflating) ∨ ∃ wording, fault = .bzip2 wording := by
  unfold unpacker? at hunpack
  split at hunpack
  · cases hunpack
    cases h
  · cases hunpack
    unfold unpackDeflated at h
    split at h
    · cases h
    · next inflating _ =>
      cases h
      exact .inr (.inl ⟨inflating, rfl⟩)
  · cases hunpack
    obtain ⟨wording, -, rfl⟩ := mapError_eq_error_iff.1 h
    exact .inr (.inr ⟨wording, rfl⟩)
  · cases hunpack
    exact .inl ⟨rfl, unpackLzma_eq_error_iff.1 h⟩
  · cases hunpack

/-! ## Members -/

/-- Reading a member fails with what skipping its header fails with, with a fault of its own, or
with what unpacking its data fails with. -/
theorem fault_of_readMember (h : readMember codecs s r = .error fault) :
    skipHeader s r = .error fault ∨
      (fault = .method ∨ fault = .endOfData ∨ fault = .checksum r.name) ∨
      ∃ following unpack, skipHeader s r = .ok following ∧
        unpacker? codecs r.method = some unpack ∧
        unpack (following.take r.compressedSize) = .error fault := by
  rw [readMember, bind_eq_error_iff] at h
  obtain hheader | ⟨following, hheader, h⟩ := h
  · exact .inl hheader
  refine .inr ?_
  cases hunpack : unpacker? codecs r.method with
  | none =>
    simp only [hunpack] at h
    cases h
    exact .inl (.inl rfl)
  | some unpack =>
    simp only [hunpack, bind, Except.bind, throw, throwThe, MonadExceptOf.throw, pure,
      Except.pure] at h
    split at h
    · cases h
      exact .inl (.inr (.inl rfl))
    split at h
    · next cause hcause =>
      cases h
      exact .inr ⟨following, unpack, hheader, rfl, hcause⟩
    · refine .inl (.inr ?_)
      split at h
      · cases h
        exact .inl rfl
      split at h
      · cases h
        exact .inr rfl
      · cases h

/-- A member cannot be read for its position exactly when that is out of bounds. -/
theorem readMember_eq_positionTooLarge_iff :
    readMember codecs s r = .error .positionTooLarge ↔ isCounted r.offset = false := by
  rw [← skipHeader_eq_positionTooLarge_iff (s := s)]
  refine ⟨fun h => ?_, fun h => by rw [readMember, h]; rfl⟩
  obtain hheader | hown | ⟨following, unpack, -, hunpack, hdata⟩ := fault_of_readMember h
  · exact hheader
  · simp at hown
  · obtain ⟨-, wording, -, heq⟩ | ⟨inflating, heq⟩ | ⟨wording, heq⟩ := fault_of_unpack hunpack hdata
    all_goals cases heq

/-- A member cannot be read for its LZMA data exactly when its header is in order and the
decompressor refuses what follows it. -/
theorem readMember_eq_lzma_iff :
    readMember codecs s r = .error (.lzma wording) ↔
      r.method = 14 ∧ ∃ following, skipHeader s r = .ok following ∧
        Refuses codecs (following.take r.compressedSize) wording := by
  constructor
  · intro h
    obtain hheader | hown | ⟨following, unpack, hheader, hunpack, hdata⟩ := fault_of_readMember h
    · exact absurd hheader skipHeader_ne_lzma
    · simp at hown
    · obtain ⟨hmethod, _, hrefuses, heq⟩ | ⟨inflating, heq⟩ | ⟨_, heq⟩ :=
        fault_of_unpack hunpack hdata
      · cases heq
        exact ⟨hmethod, following, hheader, hrefuses⟩
      · cases heq
      · cases heq
  · rintro ⟨hmethod, following, hheader, hrefuses⟩
    have hsome : (following.take r.compressedSize).isEmpty = false := by
      have hfollow := hrefuses.follow
      rw [List.isEmpty_eq_false_iff, ← List.length_pos_iff]
      exact Nat.zero_lt_of_lt hfollow
    have hdata : unpackLzma codecs (following.take r.compressedSize) = .error (.lzma wording) :=
      unpackLzma_eq_error_iff.2 ⟨wording, hrefuses, rfl⟩
    rw [readMember, hheader, hmethod]
    simp only [bind, Except.bind, unpacker?, hsome, Bool.false_and, Bool.false_eq_true, if_false,
      hdata]

end JndiScan.Zip

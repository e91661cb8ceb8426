/-
What a document is told of the fault of its stream. Nothing hides that a stream has one, only a fault
of the stream tells that octets are no text, and of a short stream with a fault no text is handed on.
-/
import JndiScan.Yaml.Source

namespace JndiScan.Yaml.Source

variable {s : Text.Stream} {fault : Text.Utf8.Fault}

/-- Where a stream has no fault, a document is at most told to be malformed. -/
theorem stop_ofStream_of_none (h : s.stop = none) :
    (ofStream s).stop = none ∨ (ofStream s).stop = some .malformed := by
  rw [ofStream, h]
  dsimp only
  split
  · exact .inr rfl
  · exact .inl rfl

theorem stop_ofStream_of_some (h : s.stop = some fault) :
    (ofStream s).stop = some .malformed ∨ (ofStream s).stop = some (.encoding fault) := by
  rw [ofStream, h]
  dsimp only
  split
  · exact .inl rfl
  · exact .inr rfl

/-- A source without a fault comes from a stream without one. -/
theorem stop_eq_none (h : (ofStream s).stop = none) : s.stop = none := by
  cases hstop : s.stop with
  | none => rfl
  | some fault => obtain hs | hs := stop_ofStream_of_some hstop <;> rw [hs] at h <;> cases h

/-- That octets are no text is what the stream tells. -/
theorem stop_eq_some (h : (ofStream s).stop = some (.encoding fault)) : s.stop = some fault := by
  cases hstop : s.stop with
  | none => obtain hs | hs := stop_ofStream_of_none hstop <;> rw [hs] at h <;> cases h
  | some fault' =>
    obtain hs | hs := stop_ofStream_of_some hstop
    · rw [hs] at h
      cases h
    · rw [hs] at h
      cases h
      rfl

/-- Before the first two pieces are complete, nothing is handed on. -/
theorem ofStream_of_short (h : s.stop = some fault) (hshort : s.text.length < 2 * pieceLength) :
    ofStream s = { text := [], stop := some (.encoding fault) } := by
  have hnone : handedOn s.text.length = 0 := if_pos hshort
  rw [ofStream, h]
  simp only [hnone, Nat.not_lt_zero, decide_false, Bool.and_false, Bool.false_eq_true, if_false,
    List.take_zero]

end JndiScan.Yaml.Source

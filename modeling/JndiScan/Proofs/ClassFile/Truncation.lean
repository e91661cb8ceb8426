/-
Class files that end too early. Every reader of class files reads strictly forward: what it gives
depends on the octets that it takes and on no others, not even on how many there are, and if only
some of these octets are there it tells that they end. So a class is read from the octets it takes
whatever follows them, and from no smaller part of them.
-/
import JndiScan.Proofs.ClassFile.Accepting

namespace JndiScan.ClassFile

/-- Of the octets `bs` no smaller part is enough for the reader. It tells that they end, in an item
that starts among those that are there. -/
def Cuts (r : Reader α) (bs : Bytes) : Prop :=
  ∀ offset k, k < bs.length →
    ∃ p, offset ≤ p ∧ p ≤ offset + k ∧ r ⟨offset, bs.take k⟩ = .error (.truncated p)

/-- The reader reads strictly forward. Whenever it gives something, it has taken octets from which
it gives the same wherever they stand and whatever follows them, and all of which it needs. -/
structure Forward (r : Reader α) : Prop where
  takes : Takes r fun bs x => Reads r bs x ∧ Cuts r bs

/-! ## Readers in a row -/

theorem Reader.bind_eq_error {r : Reader α} {f : α → Reader β} {c : Cursor} {e : ReadError}
    (h : r c = .error e) : (r >>= f) c = .error e := by
  show (r c).bind _ = _
  rw [h]
  rfl

namespace Cuts

theorem nil (r : Reader α) : Cuts r [] := fun _ _ hk => absurd hk (Nat.not_lt_zero _)

/-- Octets in a row end within the first ones, or within those behind them. -/
theorem bind {r : Reader α} {f : α → Reader β} {bs cs : Bytes} {x : α} (hreads : Reads r bs x)
    (hr : Cuts r bs) (hf : Cuts (f x) cs) : Cuts (r >>= f) (bs ++ cs) := by
  intro offset k hk
  rw [List.length_append] at hk
  by_cases hfirst : k < bs.length
  · obtain ⟨p, hle, hp, herror⟩ := hr offset k hfirst
    refine ⟨p, hle, hp, ?_⟩
    rw [List.take_append_of_le_length (Nat.le_of_lt hfirst)]
    exact Reader.bind_eq_error herror
  · obtain ⟨j, rfl⟩ := Nat.exists_eq_add_of_le (Nat.not_lt.1 hfirst)
    obtain ⟨p, hle, hp, herror⟩ := hf (offset + bs.length) j (by omega)
    refine ⟨p, by omega, by omega, ?_⟩
    rw [List.take_length_add_append]
    show (r ⟨offset, bs ++ cs.take j⟩).bind (fun p => f p.1 p.2) = _
    rw [hreads]
    exact herror

end Cuts

namespace Forward

theorem pure (x : α) : Forward (pure x) := by
  constructor
  intro c y c' h
  cases h
  exact ⟨[], rfl, .pure x, .nil _⟩

theorem throw (e : ReadError) : Forward (throw e : Reader α) := by
  constructor
  intro c x c' h
  cases h

theorem bind {r : Reader α} {f : α → Reader β} (hr : Forward r) (hf : ∀ x, Forward (f x)) :
    Forward (r >>= f) := by
  constructor
  intro c y c' h
  obtain ⟨x, c₁, hx, hy⟩ := Reader.bind_eq_ok_iff.1 h
  obtain ⟨bs, hbs, hreads, hcuts⟩ := hr.takes hx
  obtain ⟨cs, hcs, hreads', hcuts'⟩ := (hf x).takes hy
  exact ⟨bs ++ cs, by rw [hbs, hcs, List.append_assoc], hreads.bind hreads',
    hcuts.bind hreads hcuts'⟩

theorem map {r : Reader α} (g : α → β) (hr : Forward r) : Forward (g <$> r) :=
  hr.bind fun x => .pure (g x)

/-- What a reader chooses by, it has read before. -/
theorem ite {p : Prop} [Decidable p] {r r' : Reader α} (hr : p → Forward r)
    (hr' : ¬ p → Forward r') : Forward (if p then r else r') := by
  split
  · exact hr ‹_›
  · exact hr' ‹_›

theorem take (n : Nat) : Forward (Reader.take n) := by
  constructor
  intro c x c' h
  obtain ⟨bs, hrest, rfl, rfl⟩ := Takes.take n h
  refine ⟨bs, hrest, .take bs, fun offset k hk => ⟨offset, Nat.le_refl _, Nat.le_add_right .., ?_⟩⟩
  have hshort : ((bs.take k).take bs.length).length < bs.length := by
    simp only [List.length_take]
    omega
  exact if_pos hshort

theorem u1 : Forward Reader.u1 := (take 1).map _

theorem u2 : Forward Reader.u2 := (take 2).map _

theorem u4 : Forward Reader.u4 := (take 4).map _

theorem manyFrom {item : Reader α} (hitem : Forward item) (done : Array α) (n : Nat) :
    Forward (Reader.manyFrom item done n) := by
  induction n generalizing done with
  | zero => exact pure done
  | succ n ih => exact hitem.bind fun x => ih (done.push x)

theorem counted {item : Reader α} (hitem : Forward item) : Forward (Reader.counted item) :=
  u2.bind fun n => (hitem.manyFrom #[] n).bind fun xs => pure xs.toList

/-! ## The parts of a class -/

theorem readSlot (tag index : Nat) : Forward (readSlot tag index) := by
  unfold ClassFile.readSlot
  refine ite (fun _ => u2.bind fun n => (take n).bind fun raw => ?_) fun _ =>
    ite (fun _ => u2.map _) fun _ => ?_
  · split
    · exact pure _
    · exact throw _
  · split
    · exact (take _).bind fun _ => pure _
    · exact throw _

/-- The number of constants is told by the count and by the tags, which are read. -/
theorem readSlots (pool : ConstantPool) (room : Nat) : Forward (readSlots pool room) := by
  induction room using Nat.strongRecOn generalizing pool with
  | _ room ih =>
    cases room with
    | zero =>
      rw [ClassFile.readSlots]
      exact pure pool
    | succ room =>
      rw [ClassFile.readSlots]
      refine u1.bind fun tag => (readSlot tag pool.size).bind fun slot => ite (fun _ => ?_) fun _ => ?_
      · exact ih (room - 1) (by omega) _
      · exact ih room (Nat.lt_succ_self room) _

theorem readPool : Forward readPool := u2.bind fun _ => readSlots _ _

theorem textAt (pool : ConstantPool) (number : Nat) : Forward (textAt pool number) := by
  unfold ClassFile.textAt
  split
  · exact pure _
  · exact throw _

theorem classAt (pool : ConstantPool) (number : Nat) : Forward (classAt pool number) := by
  unfold ClassFile.classAt
  refine ite (fun _ => pure none) fun _ => ?_
  split
  · exact (textAt pool _).map _
  · exact throw _

theorem skipAttribute : Forward skipAttribute :=
  u2.bind fun _ => u4.bind fun size => (take size).bind fun _ => pure ()

theorem readMember (pool : ConstantPool) (kindOf : Text → MemberKind) :
    Forward (readMember pool kindOf) :=
  u2.bind fun _ => u2.bind fun name => (textAt pool name).bind fun _ => u2.bind fun descriptor =>
    (textAt pool descriptor).bind fun _ => skipAttribute.counted.bind fun _ => pure _

theorem readClass : Forward readClass := by
  have hinterface : ∀ pool, Forward do return (← ClassFile.classAt pool (← Reader.u2)).getD [] :=
    fun pool => u2.bind fun number => (classAt pool number).bind fun name => pure (name.getD [])
  refine u4.bind fun number => ite (fun _ => throw _) fun _ => ?_
  refine u2.bind fun _ => u2.bind fun _ => readPool.bind fun pool => u2.bind fun _ => ?_
  refine u2.bind fun this => (classAt pool this).bind fun name => ite (fun _ => throw _) fun _ => ?_
  refine u2.bind fun super => (classAt pool super).bind fun _ => ?_
  refine (hinterface pool).counted.bind fun _ => ?_
  exact (readMember pool _).counted.bind fun _ => (readMember pool _).counted.bind fun _ => pure _

end Forward

/-! ## Whole classes -/

/-- Truncation is always detected, and what follows a class never matters. Of octets that are read
as a class the reader takes some first ones. From these the same class is read, whatever octets
stand behind them; and from any smaller part of them none is read, but it is told that the file
ends, and in which of the octets that are there the item starts that it ends in. -/
theorem truncation_detected {b : Bytes} {d : ClassDefinition} (h : read b = .ok d) :
    ∃ n ≤ b.length, readClass ⟨0, b⟩ = .ok (d, ⟨n, b.drop n⟩) ∧
      (∀ rest, read (b.take n ++ rest) = read b) ∧
      ∀ k < n, ∃ p ≤ k, read (b.take k) = .error (.truncated p) ∧
        (ReadError.truncated p).message = "truncated class file at offset " ++ Text.ofNat p := by
  obtain ⟨c, hc⟩ := read_eq_ok_iff_readClass.1 h
  obtain ⟨bs, hrest, hreads, hcuts⟩ := Forward.readClass.takes hc
  obtain rfl : b = bs ++ c.rest := hrest
  refine ⟨bs.length, by simp, ?_, fun rest => ?_, fun k hk => ?_⟩
  · rw [List.drop_left, hreads, Nat.zero_add]
  · rw [List.take_left, h]
    exact read_eq_ok_iff_readClass.2 ⟨_, hreads 0 rest⟩
  · obtain ⟨p, -, hp, herror⟩ := hcuts 0 k hk
    refine ⟨p, by omega, ?_, rfl⟩
    rw [List.take_append_of_le_length (Nat.le_of_lt hk), read, herror]

/-- The octets of a class with a wide constant and an attribute, and two octets behind them. -/
def trailedOctets : Bytes :=
  [0xCA, 0xFE, 0xBA, 0xBE, 0, 0, 0, 50,
    0, 5, 5, 0, 0, 0, 0, 0, 0, 0, 1, 1, 0, 1, 65, 7, 0, 3,
    0, 33, 0, 4, 0, 0, 0, 0, 0, 0, 0, 1, 0, 2, 0, 3, 0, 3, 0, 1, 0, 3, 0, 0, 0, 2, 9, 9,
    7, 0]

theorem truncation_detected_trailedOctets :
    read trailedOctets = .ok
        { name := "A", superName := none, accessFlags := 33
          members := [⟨"A", "A", 2, .method⟩] } ∧
      ∃ n ≤ trailedOctets.length, (∀ rest, read (trailedOctets.take n ++ rest) = read trailedOctets) ∧
        ∀ k < n, ∃ p ≤ k, read (trailedOctets.take k) = .error (.truncated p) := by
  have hread : read trailedOctets = .ok
      { name := "A", superName := none, accessFlags := 33
        members := [⟨"A", "A", 2, .method⟩] } := by decide +kernel
  obtain ⟨n, hn, -, hrest, hcut⟩ := truncation_detected hread
  refine ⟨hread, n, hn, hrest, fun k hk => ?_⟩
  obtain ⟨p, hp, herror, -⟩ := hcut k hk
  exact ⟨p, hp, herror⟩

end JndiScan.ClassFile

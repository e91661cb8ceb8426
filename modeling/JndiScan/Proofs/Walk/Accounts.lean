/-
The accounts of walks. What the decoder and the limits make of an entry is an item of an account,
and so is a container that fails while it gives its entries and a place that cannot be listed. Every
step of a walk enters one item or none, and what it does to the tally is what the item says. So,
wherever walks are left, each entry seen is accounted for once, and the diagnostics, the warnings
and the mark of an incomplete result are those of the items.
-/
import JndiScan.Proofs.Walk.Steps
import JndiScan.Proofs.Walk.Turns

namespace JndiScan.Walk

/-! ## Items -/

/-- What a walk met. The first items are what became of an entry; the last two are not about one. -/
inductive Item
  | found (o : Occurrence)
  | unrecognized (place : Provenance)
  | opened (place : Provenance)
  | undecoded (place : Provenance) (failure : Failure)
  /-- A container that cannot be opened. -/
  | unopened (place : Provenance) (failure : Failure)
  | tooDeep (place : Provenance) (limit : Int)
  | beyondBudget (place : Provenance) (limit : Int)
  /-- A container that failed while it gave its entries. -/
  | broken (failure : Failure)
  | unlistable (failure : Failure)
  deriving DecidableEq

namespace Item

/-- The class that was found. -/
def found? : Item → Option Occurrence
  | found o => some o
  | _ => none

/-- What is kept of an item. That of a limit is fatal. -/
def diagnostic? : Item → Option Diagnostic
  | found _ | unrecognized _ | opened _ => none
  | undecoded place failure | unopened place failure => some ⟨place.text, failure.reason, false⟩
  | tooDeep place n => some ⟨place.text, (LimitReached.depth n).message place.text, true⟩
  | beyondBudget place n => some ⟨place.text, (LimitReached.entries n).message place.text, true⟩
  | broken failure | unlistable failure => some ⟨failure.location, failure.reason, false⟩

/-- Was nothing of interest found? -/
def isUnrecognized : Item → Bool
  | unrecognized _ => true
  | _ => false

/-- Was a container opened? -/
def isOpened : Item → Bool
  | opened _ => true
  | _ => false

/-- Was an entry given up? -/
def isGivenUp : Item → Bool
  | undecoded _ _ | unopened _ _ | tooDeep _ _ | beyondBudget _ _ => true
  | _ => false

/-- Did a container fail while it gave its entries? -/
def isBroken : Item → Bool
  | broken _ => true
  | _ => false

/-- Could a place not be listed? -/
def isUnlistable : Item → Bool
  | unlistable _ => true
  | _ => false

/-- Is it about an entry that was seen? -/
def isVisit : Item → Bool
  | broken _ | unlistable _ => false
  | _ => true

end Item

/-- An entry that was seen holds a class or nothing of interest, or was opened, or was given up. -/
theorem Item.countP_isVisit (items : List Item) :
    items.countP Item.isVisit = (items.filterMap Item.found?).length +
      items.countP Item.isUnrecognized + items.countP Item.isOpened +
      items.countP Item.isGivenUp := by
  induction items with
  | nil => rfl
  | cons item items ih =>
    simp only [List.countP_cons, ih]
    cases item <;>
      simp only [List.filterMap_cons, Item.found?, Item.isVisit, Item.isUnrecognized,
        Item.isOpened, Item.isGivenUp, List.length_cons, if_true, Bool.false_eq_true, if_false] <;>
      omega

/-- An entry that was given up, a container that failed and a place that cannot be listed leave a
diagnostic each, and nothing else does. -/
theorem length_filterMap_diagnostic? (items : List Item) :
    (items.filterMap Item.diagnostic?).length = items.countP Item.isGivenUp +
      items.countP Item.isBroken + items.countP Item.isUnlistable := by
  induction items with
  | nil => rfl
  | cons item items ih =>
    simp only [List.countP_cons]
    cases item <;>
      simp only [List.filterMap_cons, Item.diagnostic?, Item.isGivenUp, Item.isBroken,
        Item.isUnlistable, List.length_cons, if_true, Bool.false_eq_true, if_false, ih] <;>
      omega

/-! ## The item of a step -/

variable {world entry container position : Type}

section Items

variable (d : Decoder world entry container position) (l : Limits)

/-- What becomes of a container that is met at a depth, in a world; nothing if a fault ends the
walk. -/
def containerItem? (place : Provenance) (contents : container) (depth : Nat) (w : world) :
    Option Item :=
  match l.maxDepth with
  | .unsaid => none
  | .atMost n =>
    if (depth : Int) + 1 > n then some (.tooDeep place n)
    else
      match d.enter contents w with
      | .ok _ _ => some (.opened place)
      | .error (.failed failure) _ => some (.unopened place failure)
      | .error (.aborted _) _ => none

/-- What becomes of an entry that comes at a depth, after as many others, in a world. -/
def entryItem? (e : entry) (depth seen : Nat) (w : world) : Option Item :=
  if seen < l.budget then
    match d.decode e w with
    | .ok (.definition o) _ => some (.found o)
    | .ok (.container _ place contents) w => containerItem? d l place contents depth w
    | .ok (.unrecognized _) _ => some (.unrecognized (d.placeOf e))
    | .error (.failed failure) _ => some (.undecoded (d.placeOf e) failure)
    | .error (.aborted _) _ => none
  else
    match l.maxEntries with
    | .unsaid => none
    | .atMost n => some (.beyondBudget (d.placeOf e) n)

/-- What the next step meets. -/
def item? (s : State world entry position) : Option Item :=
  match s.frames with
  | [] =>
    match s.roots with
    | [] => none
    | .unlistable failure :: _ => some (.unlistable failure)
    | .faulty _ :: _ => none
    | .entry e :: _ =>
      if isExhausted l s.tally then none else entryItem? d l e 0 s.tally.entriesSeen s.world
  | (p, depth) :: _ =>
    if isExhausted l s.tally then none
    else
      match d.pull p s.world with
      | .ok (some (e, _)) w => entryItem? d l e depth s.tally.entriesSeen w
      | .ok none _ => none
      | .error (.failed failure) _ => some (.broken failure)
      | .error (.aborted _) _ => none

/-- The account of a walk, as far as its occurrences are wanted. -/
def State.account (wanted : Option Nat) (s : State world entry position) : List Item :=
  match wanted with
  | some 0 => []
  | _ =>
    (item? d l s).toList ++
      match _h : step d l s with
      | .continues s' => s'.account wanted
      | .found _ s' => s'.account (wanted.map (· - 1))
      | .ended _ | .aborted _ _ => []
  termination_by s.remaining l
  decreasing_by
    · exact remaining_lt_of_step_eq_continues _h
    · exact remaining_lt_of_step_eq_found _h

end Items

/-! ## What items do to the tally -/

/-- Between two tallies these items were met and these classes were found. -/
structure Accounts (before : Tally) (items : List Item) (found : List Occurrence)
    (after : Tally) : Prop where
  found_eq : items.filterMap Item.found? = found
  seen_eq : after.entriesSeen = before.entriesSeen + items.countP Item.isVisit
  diagnostics_eq : after.diagnostics.toList =
    before.diagnostics.toList ++ items.filterMap Item.diagnostic?
  warnings_eq : after.console.warnings =
    before.console.warnings + (items.filterMap Item.diagnostic?).length
  incomplete_eq : after.incomplete =
    (before.incomplete || (items.filterMap Item.diagnostic?).any (·.fatal))

namespace Accounts

variable {t t₁ t₂ : Tally} {items more : List Item} {found further : List Occurrence}

theorem refl (t : Tally) : Accounts t [] [] t where
  found_eq := rfl
  seen_eq := rfl
  diagnostics_eq := (List.append_nil _).symm
  warnings_eq := rfl
  incomplete_eq := (Bool.or_false _).symm

theorem trans (h : Accounts t items found t₁) (h' : Accounts t₁ more further t₂) :
    Accounts t (items ++ more) (found ++ further) t₂ where
  found_eq := by rw [List.filterMap_append, h.found_eq, h'.found_eq]
  seen_eq := by rw [h'.seen_eq, h.seen_eq, List.countP_append, Nat.add_assoc]
  diagnostics_eq := by
    rw [h'.diagnostics_eq, h.diagnostics_eq, List.filterMap_append, List.append_assoc]
  warnings_eq := by
    rw [h'.warnings_eq, h.warnings_eq, List.filterMap_append, List.length_append, Nat.add_assoc]
  incomplete_eq := by
    rw [h'.incomplete_eq, h.incomplete_eq, List.filterMap_append, List.any_append, Bool.or_assoc]

end Accounts

@[simp] theorem warnings_debug (t : Tally) (message : Text) :
    (t.debug message).console.warnings = t.console.warnings := by
  simp only [Tally.debug, Console.debug]
  split <;> rfl

section Notes

variable {t t' : Tally} {items : List Item} {found : List Occurrence}

/-- Details are not counted. -/
theorem Accounts.of_debug {message : Text} (h : Accounts (t.debug message) items found t') :
    Accounts t items found t' where
  found_eq := h.found_eq
  seen_eq := h.seen_eq
  diagnostics_eq := h.diagnostics_eq
  warnings_eq := h.warnings_eq.trans (by rw [warnings_debug])
  incomplete_eq := h.incomplete_eq

/-- An entry that was seen and about which nothing is kept. -/
theorem accounts_visited (t : Tally) (item : Item) (hvisit : item.isVisit = true)
    (hnone : item.diagnostic? = none) :
    Accounts t [item] item.found?.toList (t.note .visited) where
  found_eq := by cases h : item.found? <;> simp [h]
  seen_eq := by simp [Tally.note, hvisit]
  diagnostics_eq := by simp [Tally.note, hnone]
  warnings_eq := by simp [Tally.note, hnone]
  incomplete_eq := by simp [Tally.note, hnone]

theorem accounts_addFailure (t : Tally) (item : Item) {location : Text} {failure : Failure}
    (hitem : item.diagnostic? = some { location, message := failure.reason }) :
    Accounts t [item] [] ((if item.isVisit then t.note .visited else t).addFailure location failure)
    where
  found_eq := by cases item <;> first | rfl | cases hitem
  seen_eq := by cases h : item.isVisit <;> simp [Tally.note, Tally.addFailure, h]
  diagnostics_eq := by
    cases h : item.isVisit <;> simp [Tally.note, Tally.addFailure, hitem]
  warnings_eq := by
    cases h : item.isVisit <;> simp [Tally.note, Tally.addFailure, Console.warn, hitem]
  incomplete_eq := by cases h : item.isVisit <;> simp [Tally.note, Tally.addFailure, hitem]

theorem accounts_addLimit (t : Tally) {item : Item} {place : Provenance} {r : LimitReached}
    (hvisit : item.isVisit = true)
    (hitem : item.diagnostic? =
      some { location := place.text, message := r.message place.text, fatal := true }) :
    Accounts t [item] [] ((t.note .visited).addLimit place r) where
  found_eq := by cases item <;> first | rfl | cases hitem
  seen_eq := by simp [Tally.note, Tally.addLimit, hvisit]
  diagnostics_eq := by simp [Tally.note, Tally.addLimit, hitem]
  warnings_eq := by simp [Tally.note, Tally.addLimit, Console.warn, hitem]
  incomplete_eq := by simp [Tally.note, Tally.addLimit, hitem]

end Notes

/-! ## What a step does to the tally -/

/-- Unless a fault ended the walk, these items lead from a tally to that of the next state. -/
def Next.Accounted (t : Tally) (items : List Item) : Next world entry position → Prop
  | continues s | ended s => Accounts t items [] s.tally
  | found o s => Accounts t items [o] s.tally
  | aborted _ _ => True

section Steps

variable (d : Decoder world entry container position) (l : Limits)

theorem accounted_expand (kind : EntryKind) (place : Provenance) (contents : container)
    (depth : Nat) (t : Tally) (s : State world entry position) (hs : s.tally = t.note .visited) :
    (expand d l kind place contents depth s).Accounted t
      (containerItem? d l place contents depth s.world).toList := by
  unfold expand containerItem?
  cases l.maxDepth with
  | unsaid => trivial
  | atMost n =>
    simp only [State.mapTally, hs]
    split
    · exact accounts_addLimit t rfl rfl
    · cases d.enter contents s.world with
      | ok p w => exact (accounts_visited (t.debug _) (.opened place) rfl rfl).of_debug
      | error trouble w =>
        cases trouble with
        | aborted fault => trivial
        | failed failure =>
          exact (accounts_addFailure (t.debug _) (.unopened place failure) rfl).of_debug

theorem accounted_visit (e : entry) (depth : Nat) (s : State world entry position) :
    (visit d l e depth s).Accounted s.tally
      (entryItem? d l e depth s.tally.entriesSeen s.world).toList := by
  unfold entryItem?
  by_cases hb : s.tally.entriesSeen < l.budget
  · rw [visit_of_decode hb, if_pos hb]
    cases d.decode e s.world with
    | ok decoded w =>
      cases decoded with
      | definition o => exact accounts_visited s.tally (.found o) rfl rfl
      | container kind place contents =>
        exact accounted_expand d l kind place contents depth s.tally
          { s with world := w, tally := s.tally.note .visited } rfl
      | unrecognized name =>
        exact (accounts_visited (s.tally.debug _) (.unrecognized (d.placeOf e)) rfl
          rfl).of_debug
    | error trouble w =>
      cases trouble with
      | aborted fault => trivial
      | failed failure =>
        exact accounts_addFailure s.tally (.undecoded (d.placeOf e) failure) rfl
  · rw [visit_of_exceeded (Nat.not_lt.1 hb), if_neg hb]
    cases l.maxEntries with
    | unsaid => trivial
    | atMost n => exact accounts_addLimit s.tally rfl rfl

theorem accounted_leave (s : State world entry position) : (leave d s).Accounted s.tally [] := by
  unfold leave
  split
  · exact .refl s.tally
  · trivial

/-- A step enters what it meets. -/
theorem accounted_step (s : State world entry position) :
    (step d l s).Accounted s.tally (item? d l s).toList := by
  obtain ⟨w, t, frames, roots⟩ := s
  unfold step item?
  cases frames with
  | nil =>
    cases roots with
    | nil => exact .refl t
    | cons root roots =>
      cases root with
      | unlistable failure => exact accounts_addFailure t (.unlistable failure) rfl
      | faulty fault => trivial
      | entry e =>
        cases isExhausted l t with
        | true => exact .refl t
        | false => exact accounted_visit d l e 0 ⟨w, t, [], roots⟩
  | cons frame frames =>
    obtain ⟨p, depth⟩ := frame
    cases isExhausted l t with
    | true => exact accounted_leave d ⟨w, t, (p, depth) :: frames, roots⟩
    | false =>
      simp only [Bool.false_eq_true, if_false]
      cases d.pull p w with
      | ok pulled w' =>
        cases pulled with
        | none => exact .refl t
        | some next =>
          exact accounted_visit d l next.1 depth ⟨w', t, (next.2, depth) :: frames, roots⟩
      | error trouble w' =>
        cases trouble with
        | failed failure => exact accounts_addFailure t (.broken failure) rfl
        | aborted fault => trivial

end Steps

/-! ## Whole walks -/

section Runs

variable {d : Decoder world entry container position} {l : Limits}

theorem account_zero (s : State world entry position) : s.account d l (some 0) = [] := by
  rw [State.account]

/-- The account from what a step leads to, as far as occurrences are wanted from there. -/
def Next.account (d : Decoder world entry container position) (l : Limits) (wanted : Option Nat) :
    Next world entry position → List Item
  | continues s => s.account d l wanted
  | found _ s => s.account d l (wanted.map (· - 1))
  | ended _ | aborted _ _ => []

theorem account_of_wanted {wanted : Option Nat} (hw : wanted ≠ some 0)
    (s : State world entry position) :
    s.account d l wanted = (item? d l s).toList ++ (step d l s).account d l wanted := by
  rw [State.account]
  · congr 1
    split <;> next h => rw [h]; rfl
  · exact hw

/-- A walk that no fault ended does to the tally what its account says. -/
theorem accounts_occurrences (wanted : Option Nat) (s : State world entry position)
    (hfault : (occurrences d l wanted s).fault = none) :
    Accounts s.tally (s.account d l wanted) (occurrences d l wanted s).value
      (occurrences d l wanted s).tally := by
  induction wanted, s using wanted_induction d l with
  | zero s =>
    rw [account_zero, occurrences_zero]
    exact .refl s.tally
  | continues wanted s s' hw h ih =>
    have hstep := accounted_step d l s
    rw [occurrences_of_wanted hw, h] at hfault ⊢
    rw [account_of_wanted hw, h]
    rw [h] at hstep
    exact hstep.trans (ih hfault)
  | found wanted s o s' hw h ih =>
    have hstep := accounted_step d l s
    rw [occurrences_of_wanted hw, h] at hfault ⊢
    rw [account_of_wanted hw, h]
    rw [h] at hstep
    exact hstep.trans (ih hfault)
  | ended wanted s s' hw h =>
    have hstep := accounted_step d l s
    rw [occurrences_of_wanted hw, h]
    rw [account_of_wanted hw, h]
    rw [h] at hstep
    exact (List.append_nil _).symm ▸ hstep
  | aborted wanted s fault s' hw h =>
    rw [occurrences_of_wanted hw, h] at hfault
    cases hfault

end Runs

/-! ## Walks in turn -/

/-- A walk that is left after as many occurrences as are wanted of it, or goes to its end. -/
structure Stretch (world entry : Type) where
  start : Start world entry
  wanted : Option Nat := none

section Turns

variable (d : Decoder world entry container position) (l : Limits)

/-- The occurrences of a walk, as far as they are wanted. -/
def Stretch.occurrences (x : Stretch world entry) (tally : Tally) (w : world) :
    Outcome (List Occurrence) world :=
  match x.start w with
  | .ok roots => Walk.occurrences d l x.wanted { world := w, tally, roots }
  | .error fault => { value := [], tally, world := w, fault := some fault }

/-- The account of a walk, as far as its occurrences are wanted. -/
def Stretch.account (x : Stretch world entry) (tally : Tally) (w : world) : List Item :=
  match x.start w with
  | .ok roots => State.account d l x.wanted { world := w, tally, roots }
  | .error _ => []

/-- The occurrences of walks that are made one after the other, each as far as it is wanted, and
share what was met. -/
def occurrencesOfAll :
    List (Stretch world entry) → Tally → world → Outcome (List Occurrence) world
  | [], tally, w => { value := [], tally, world := w }
  | x :: xs, tally, w => (x.occurrences d l tally w).andThen (occurrencesOfAll xs)

/-- The account of walks that are made one after the other. -/
def accountOfAll : List (Stretch world entry) → Tally → world → List Item
  | [], _, _ => []
  | x :: xs, tally, w =>
    let r := x.occurrences d l tally w
    x.account d l tally w ++
      match r.fault with
      | some _ => []
      | none => accountOfAll xs r.tally r.world

variable {d l}

/-- A walk from a path, as the scanner makes it. -/
theorem Stretch.occurrences_ofPath (D : Decoding) (path : Text) (wanted : Option Nat)
    (tally : Tally) (session : Session) :
    Stretch.occurrences D.decoder l ⟨.ofPath path, wanted⟩ tally session =
      occurrencesAt D l wanted path tally session := by
  unfold Stretch.occurrences occurrencesAt Walk.start Start.ofPath
  cases hroots : roots session.host path <;> simp only [hroots] <;> rfl

theorem accounts_stretch (x : Stretch world entry) (tally : Tally) (w : world)
    (hfault : (x.occurrences d l tally w).fault = none) :
    Accounts tally (x.account d l tally w) (x.occurrences d l tally w).value
      (x.occurrences d l tally w).tally := by
  unfold Stretch.occurrences at hfault ⊢
  unfold Stretch.account
  cases hroots : x.start w with
  | ok roots =>
    simp only [hroots] at hfault ⊢
    exact accounts_occurrences x.wanted _ hfault
  | error fault =>
    simp only [hroots] at hfault
    cases hfault

/-- Walks in turn that no fault ended do to the tally what their account says. -/
theorem accounts_occurrencesOfAll (xs : List (Stretch world entry)) (tally : Tally) (w : world)
    (hfault : (occurrencesOfAll d l xs tally w).fault = none) :
    Accounts tally (accountOfAll d l xs tally w) (occurrencesOfAll d l xs tally w).value
      (occurrencesOfAll d l xs tally w).tally := by
  induction xs generalizing tally w with
  | nil => exact .refl tally
  | cons x xs ih =>
    rw [occurrencesOfAll, Outcome.andThen] at hfault ⊢
    rw [accountOfAll]
    cases hfirst : (x.occurrences d l tally w).fault with
    | some fault =>
      simp only [hfirst] at hfault
      cases hfault
    | none =>
      simp only [hfirst] at hfault ⊢
      exact (accounts_stretch x tally w hfirst).trans (ih _ _ hfault)

/-- Every entry is accounted for. Let walks be made in turn, each to its end or up to one of its
occurrences, and no fault end them. The entries seen are as many as the occurrences, the entries in
which nothing of interest was found, the containers that were opened, and the entries that were
given up, because they could not be decoded or opened or because of a limit. The diagnostics are
those of the entries that were given up, of the containers that failed while they gave their entries
and of the places that cannot be listed, in order; as many warnings are counted. The result is
incomplete exactly if one of the diagnostics is fatal. -/
theorem accounted_occurrencesOfAll (d : Decoder world entry container position) (l : Limits)
    (xs : List (Stretch world entry)) (console : Console) (w : world)
    (hfault : (occurrencesOfAll d l xs { console } w).fault = none) :
    let r := occurrencesOfAll d l xs { console } w
    let items := accountOfAll d l xs { console } w
    items.filterMap Item.found? = r.value ∧
      r.tally.entriesSeen = r.value.length + items.countP Item.isUnrecognized +
        items.countP Item.isOpened + items.countP Item.isGivenUp ∧
      r.tally.diagnostics.toList = items.filterMap Item.diagnostic? ∧
      r.tally.diagnostics.size = items.countP Item.isGivenUp + items.countP Item.isBroken +
        items.countP Item.isUnlistable ∧
      r.tally.console.warnings = console.warnings + r.tally.diagnostics.size ∧
      (r.tally.incomplete = true ↔ ∃ x ∈ r.tally.diagnostics.toList, x.fatal = true) := by
  intro r items
  have haccounts : Accounts { console } items r.value r.tally :=
    accounts_occurrencesOfAll xs { console } w hfault
  have hdiagnostics : r.tally.diagnostics.toList = items.filterMap Item.diagnostic? := by
    rw [haccounts.diagnostics_eq]
    rfl
  have hsize : r.tally.diagnostics.size = (items.filterMap Item.diagnostic?).length := by
    rw [← hdiagnostics, Array.length_toList]
  refine ⟨haccounts.found_eq, ?_, hdiagnostics, ?_, ?_, ?_⟩
  · rw [haccounts.seen_eq, Item.countP_isVisit, haccounts.found_eq, Nat.zero_add]
  · rw [hsize, length_filterMap_diagnostic?]
  · rw [haccounts.warnings_eq, hsize]
  · rw [haccounts.incomplete_eq, Bool.false_or, hdiagnostics, List.any_eq_true]

end Turns

/-- A place that cannot be listed and a damaged jar, left at the first class that is found, and then
the jar again. -/
def damagedTwice : List (Stretch Unit Tree) :=
  [{ start := fun _ => .ok [.unlistable (.system (.system .nameTooLong "/long")), .entry damagedJar]
     wanted := some 1 },
    { start := fun _ => .ok [.entry damagedJar] }]

/-- Where nine entries are allowed, ten are seen, and the last class is given up. -/
theorem accounted_occurrencesOfAll_damagedTwice :
    let l : Limits := { maxDepth := .atMost 2, maxEntries := .atMost 9 }
    let r := occurrencesOfAll Tree.decoder l damagedTwice { console := { verbose := false } } ()
    r.fault = none ∧ r.value = [jarClass ["inner.jar", "First"], jarClass ["inner.jar", "First"]] ∧
      r.tally.entriesSeen = 2 + 0 + 4 + 4 ∧ r.tally.diagnostics.size = 4 + 1 + 1 ∧
      r.tally.console.warnings = 0 + 6 ∧ r.tally.incomplete = true := by
  intro l r
  have hfault : r.fault = none := by decide +kernel
  have hitems : accountOfAll Tree.decoder l damagedTwice { console := { verbose := false } } () =
      [.unlistable (.system (.system .nameTooLong "/long")), .opened { root := "/a.jar" },
        .undecoded (jarClass ["Broken"]).place (.entry (jarClass ["Broken"]).place (.oversize 9 8)),
        .opened (jarClass ["inner.jar"]).place, .found (jarClass ["inner.jar", "First"]),
        .opened { root := "/a.jar" },
        .undecoded (jarClass ["Broken"]).place (.entry (jarClass ["Broken"]).place (.oversize 9 8)),
        .opened (jarClass ["inner.jar"]).place, .found (jarClass ["inner.jar", "First"]),
        .broken (.system (.system .notFound [])),
        .unopened (jarClass ["classes.dex"]).place
          (.entry (jarClass ["classes.dex"]).place (.oversize 9 8)),
        .beyondBudget (jarClass ["Last"]).place 9] := by
    decide +kernel
  obtain ⟨hfound, hseen, hdiagnostics, hsize, hwarnings, hincomplete⟩ :=
    accounted_occurrencesOfAll Tree.decoder l damagedTwice { verbose := false } () hfault
  rw [hitems] at hfound hseen hdiagnostics hsize
  refine ⟨hfault, hfound.symm, ?_, hsize, ?_, ?_⟩
  · rw [hseen, ← hfound]
    rfl
  · rw [hwarnings, hsize]
    rfl
  · refine hincomplete.2 ?_
    rw [hdiagnostics]
    simp [Item.diagnostic?]

end JndiScan.Walk

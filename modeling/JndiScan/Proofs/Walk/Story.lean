/-
What a limit of depth leaves of a traversal. `Tree.story` tells the recursive traversal of a tree
with the places at which things happen, and `Happening.within` what a limit leaves of it: a
container at the limit is refused in place of being opened, and what lies deeper is left out.
Whatever is read off from what is left is therefore read off from the whole traversal, as far as it
lies within the limit.
-/
import JndiScan.Proofs.Walk.Steady
import JndiScan.Proofs.Walk.Turns

namespace JndiScan.Walk

variable {entry container : Type}

/-! ## Calls and their places -/

/-- The container that the decoder was told to open. -/
def Call.container? : Call entry container → Option container
  | decoded _ => none
  | entered c => some c

/-- The containers that the decoder was told to open, in order. -/
def entered (calls : List (Call entry container)) : List container :=
  calls.filterMap Call.container?

/-- A call at the place of its entry or container. -/
def Call.map (f : entry → α) (g : container → β) : Call entry container → Call α β
  | decoded e => .decoded (f e)
  | entered c => .entered (g c)

section Map

variable {entry' container' : Type} (f : entry → entry') (g : container → container')
variable (calls : List (Call entry container))

theorem handed_map : handed (calls.map (Call.map f g)) = (handed calls).map f := by
  rw [handed, handed, List.filterMap_map, List.map_filterMap]
  congr 1
  funext call
  cases call <;> rfl

theorem entered_map : entered (calls.map (Call.map f g)) = (entered calls).map g := by
  rw [entered, entered, List.filterMap_map, List.map_filterMap]
  congr 1
  funext call
  cases call <;> rfl

end Map

/-! ## The traversal with its places -/

/-- What a traversal meets, with the place at which it does. A failure has the depth of what could
not be had: of an entry, or of the entries that a container had not delivered. -/
inductive Happening
  | visited (place : Provenance)
  | found (o : Occurrence)
  | skipped (place : Provenance)
  | opened (kind : EntryKind) (place : Provenance)
  | failed (depth : Nat) (location : Text) (failure : Failure)

namespace Happening

/-- What is met, without its place. -/
def event : Happening → Event
  | visited _ => .visited
  | found o => .found o
  | skipped place => .skipped place
  | opened kind place => .opened kind place
  | failed _ location failure => .failed location failure

/-- The depth of what is met. -/
def depth : Happening → Nat
  | visited place | skipped place | opened _ place => place.depth
  | found o => o.place.depth
  | failed depth _ _ => depth

/-- The place of an entry that is visited. -/
def visited? : Happening → Option Provenance
  | visited place => some place
  | _ => none

/-- The place of a container that is to be opened. -/
def opened? : Happening → Option Provenance
  | opened _ place => some place
  | _ => none

end Happening

mutual

/-- The recursive traversal of an entry. -/
def Tree.story : Tree → List Happening
  | .leaf o => [.visited o.place, .found o]
  | .other place => [.visited place, .skipped place]
  | .broken place failure => [.visited place, .failed place.depth place.text failure]
  | .sealed kind place failure =>
    [.visited place, .opened kind place, .failed (place.depth + 1) place.text failure]
  | .node kind place children =>
    .visited place :: .opened kind place :: children.story (place.depth + 1)

/-- The traversal of what a container delivers; its entries have the depth. -/
def Forest.story (depth : Nat) : Forest → List Happening
  | .done => []
  | .cut failure => [.failed depth failure.location failure]
  | .more t rest => t.story ++ rest.story depth

end

/-- The places of the entries of a tree, in the order of the traversal. -/
def Tree.places (t : Tree) : List Provenance := t.story.filterMap Happening.visited?

/-- The places of the containers of a tree, in the order of the traversal. -/
def Tree.containers (t : Tree) : List Provenance := t.story.filterMap Happening.opened?

mutual

theorem Tree.map_event_story : ∀ t : Tree, t.story.map Happening.event = t.trace
  | .leaf _ | .other _ | .broken _ _ | .sealed _ _ _ => rfl
  | .node _ _ children => by
    rw [Tree.story, Tree.trace, List.map_cons, List.map_cons, Forest.map_event_story]
    rfl

theorem Forest.map_event_story (depth : Nat) :
    ∀ f : Forest, (f.story depth).map Happening.event = f.trace
  | .done | .cut _ => rfl
  | .more t rest => by
    rw [Forest.story, Forest.trace, List.map_append, Tree.map_event_story,
      Forest.map_event_story depth rest]

end

/-! ## What a limit leaves -/

/-- What a walk with a limit of depth meets. -/
inductive Limited
  | met (h : Happening)
  /-- A container that is not opened for its depth. -/
  | refused (place : Provenance)

namespace Limited

/-- The place of a container that is refused. -/
def refused? : Limited → Option Provenance
  | refused place => some place
  | met _ => none

/-- What is met and not refused. -/
def met? : Limited → Option Happening
  | met h => some h
  | refused _ => none

/-- The call of the decoder that belongs to what is met, at its place. -/
def call? : Limited → Option (Call Provenance Provenance)
  | met (.visited place) => some (.decoded place)
  | met (.opened _ place) => some (.entered place)
  | _ => none

/-- Is an entry visited? -/
def isVisit : Limited → Bool
  | met (.visited _) => true
  | _ => false

end Limited

/-- What a limit of depth leaves of what a traversal meets. A container at the limit is refused. -/
def Happening.within (n : Nat) : Happening → List Limited
  | opened kind place =>
    if place.depth < n then [.met (opened kind place)]
    else if place.depth = n then [.refused place] else []
  | visited place => if place.depth ≤ n then [.met (visited place)] else []
  | found o => if o.place.depth ≤ n then [.met (found o)] else []
  | skipped place => if place.depth ≤ n then [.met (skipped place)] else []
  | failed depth location failure =>
    if depth ≤ n then [.met (failed depth location failure)] else []

/-- What a limit of depth leaves of a traversal. -/
def within (n : Nat) (story : List Happening) : List Limited := story.flatMap (Happening.within n)

section Within

variable {n : Nat}

theorem within_append (xs ys : List Happening) : within n (xs ++ ys) = within n xs ++ within n ys :=
  List.flatMap_append

theorem within_cons (h : Happening) (hs : List Happening) :
    within n (h :: hs) = h.within n ++ within n hs := List.flatMap_cons

theorem within_of_depth_lt {h : Happening} (hlt : n < h.depth) : h.within n = [] := by
  cases h with
  | opened kind place =>
    have hplace : n < place.depth := hlt
    rw [Happening.within, if_neg (Nat.lt_asymm hplace), if_neg (Nat.ne_of_gt hplace)]
  | _ => exact if_neg (Nat.not_le.2 hlt)

mutual

theorem Tree.le_depth_of_mem_story {depth : Nat} {t : Tree} (ht : t.LiesAt depth) :
    ∀ h ∈ t.story, depth ≤ h.depth := by
  cases t with
  | leaf o => simpa [Tree.story, Happening.depth] using Nat.le_of_eq ht.symm
  | other place => simpa [Tree.story, Happening.depth] using Nat.le_of_eq ht.symm
  | broken place failure => simpa [Tree.story, Happening.depth] using Nat.le_of_eq ht.symm
  | sealed kind place failure =>
    rw [Tree.LiesAt] at ht
    simp only [Tree.story, List.forall_mem_cons, Happening.depth, ht, Nat.le_refl, true_and]
    exact ⟨Nat.le_succ depth, fun _ h => absurd h List.not_mem_nil⟩
  | node kind place children =>
    obtain ⟨hplace, hchildren⟩ := ht
    have hinside := Forest.le_depth_of_mem_story hchildren
    simp only [Tree.story, List.forall_mem_cons, Happening.depth, hplace, Nat.le_refl, true_and]
    exact fun h hmem => Nat.le_of_succ_le (hinside h hmem)

theorem Forest.le_depth_of_mem_story {depth : Nat} {f : Forest} (hf : f.LiesAt depth) :
    ∀ h ∈ f.story depth, depth ≤ h.depth := by
  cases f with
  | done => exact fun _ h => absurd h List.not_mem_nil
  | cut failure => simp [Forest.story, Happening.depth]
  | more t rest =>
    intro h hmem
    rcases List.mem_append.1 hmem with hmem | hmem
    · exact Tree.le_depth_of_mem_story hf.1 h hmem
    · exact Forest.le_depth_of_mem_story hf.2 h hmem

end

/-- Nothing is left of what lies deeper than the limit. -/
theorem Forest.within_story_of_lt {depth : Nat} {f : Forest} (hf : f.LiesAt depth)
    (hlt : n < depth) : within n (f.story depth) = [] :=
  List.flatMap_eq_nil_iff.2 fun h hmem =>
    within_of_depth_lt (Nat.lt_of_lt_of_le hlt (Forest.le_depth_of_mem_story hf h hmem))

/-! ### By trees -/

variable {depth : Nat}

theorem within_story_leaf {o : Occurrence} (ht : (Tree.leaf o).LiesAt depth) (hle : depth ≤ n) :
    within n (Tree.leaf o).story = [.met (.visited o.place), .met (.found o)] := by
  rw [Tree.LiesAt] at ht
  simp [Tree.story, within, Happening.within, ht, hle]

theorem within_story_other {place : Provenance} (ht : (Tree.other place).LiesAt depth)
    (hle : depth ≤ n) :
    within n (Tree.other place).story = [.met (.visited place), .met (.skipped place)] := by
  rw [Tree.LiesAt] at ht
  simp [Tree.story, within, Happening.within, ht, hle]

theorem within_story_broken {place : Provenance} {failure : Failure}
    (ht : (Tree.broken place failure).LiesAt depth) (hle : depth ≤ n) :
    within n (Tree.broken place failure).story =
      [.met (.visited place), .met (.failed depth place.text failure)] := by
  rw [Tree.LiesAt] at ht
  simp [Tree.story, within, Happening.within, ht, hle]

variable {kind : EntryKind} {place : Provenance}

theorem within_story_sealed {failure : Failure} (ht : (Tree.sealed kind place failure).LiesAt depth)
    (hlt : depth < n) :
    within n (Tree.sealed kind place failure).story =
      [.met (.visited place), .met (.opened kind place),
        .met (.failed (depth + 1) place.text failure)] := by
  have hinside : depth + 1 ≤ n := hlt
  rw [Tree.LiesAt] at ht
  simp [Tree.story, within, Happening.within, ht, hlt, hinside, Nat.le_of_lt hlt]

theorem within_story_node {children : Forest} (ht : (Tree.node kind place children).LiesAt depth)
    (hlt : depth < n) :
    within n (Tree.node kind place children).story =
      [.met (.visited place), .met (.opened kind place)] ++
        within n (children.story (depth + 1)) := by
  simp [Tree.story, within, Happening.within, ht.1, hlt, Nat.le_of_lt hlt]

/-- A container at the limit is refused, and nothing in it is met. -/
theorem within_story_sealed_of_eq {failure : Failure}
    (ht : (Tree.sealed kind place failure).LiesAt n) :
    within n (Tree.sealed kind place failure).story = [.met (.visited place), .refused place] := by
  rw [Tree.LiesAt] at ht
  simp [Tree.story, within, Happening.within, ht]

theorem within_story_node_of_eq {children : Forest}
    (ht : (Tree.node kind place children).LiesAt n) :
    within n (Tree.node kind place children).story = [.met (.visited place), .refused place] := by
  obtain ⟨hplace, hchildren⟩ := ht
  rw [Tree.story, within_cons, within_cons, hplace,
    Forest.within_story_of_lt hchildren (Nat.lt_succ_self n)]
  simp [Happening.within, hplace]

end Within

/-! ## What a limited walk makes of it -/

/-- What becomes of a value and a tally when a walk with a limit of depth meets something. -/
def reactWithin (m : Int) (onFound : α → Occurrence → Console → α × Console) (x : α × Tally) :
    Limited → α × Tally
  | .met h => react onFound x h.event
  | .refused place => (x.1, x.2.addLimit place (.depth m))

/-- The same of all that it meets. -/
def replayWithin (m : Int) (onFound : α → Occurrence → Console → α × Console) (x : α × Tally)
    (story : List Limited) : α × Tally :=
  story.foldl (reactWithin m onFound) x

section Replay

variable {m : Int} {onFound : α → Occurrence → Console → α × Console} {x : α × Tally}

theorem replayWithin_append (xs ys : List Limited) :
    replayWithin m onFound x (xs ++ ys) =
      replayWithin m onFound (replayWithin m onFound x xs) ys :=
  List.foldl_append ..

theorem replayWithin_cons (y : Limited) (ys : List Limited) :
    replayWithin m onFound x (y :: ys) =
      replayWithin m onFound (reactWithin m onFound x y) ys := rfl

theorem entriesSeen_replayWithin (story : List Limited) :
    (replayWithin m onFound x story).2.entriesSeen =
      x.2.entriesSeen + story.countP Limited.isVisit := by
  induction story generalizing x with
  | nil => rfl
  | cons y story ih =>
    rw [replayWithin_cons, ih, List.countP_cons]
    cases y with
    | refused place => simp [reactWithin, Tally.addLimit, Limited.isVisit]
    | met h =>
      cases h <;>
        simp [reactWithin, react, Happening.event, Tally.note, Tally.debug, Tally.addFailure,
          Limited.isVisit]
      omega

/-- The diagnostic that is kept of what a limited walk meets. -/
def Limited.diagnostic? (m : Int) : Limited → Option Diagnostic
  | .met h => h.event.diagnostic?
  | .refused place =>
    some { location := place.text, message := (LimitReached.depth m).message place.text
           fatal := true }

theorem diagnostics_replayWithin (story : List Limited) :
    (replayWithin m onFound x story).2.diagnostics.toList =
      x.2.diagnostics.toList ++ story.filterMap (Limited.diagnostic? m) := by
  induction story generalizing x with
  | nil => simp [replayWithin]
  | cons y story ih =>
    rw [replayWithin_cons, ih, List.filterMap_cons]
    cases y with
    | refused place => simp [reactWithin, Tally.addLimit, Limited.diagnostic?]
    | met h =>
      cases h <;>
        simp [reactWithin, react, Happening.event, Tally.note, Tally.debug, Tally.addFailure,
          Limited.diagnostic?, Event.diagnostic?]

theorem incomplete_replayWithin (story : List Limited) :
    (replayWithin m onFound x story).2.incomplete =
      (x.2.incomplete || !(story.filterMap Limited.refused?).isEmpty) := by
  induction story generalizing x with
  | nil => simp [replayWithin]
  | cons y story ih =>
    rw [replayWithin_cons, ih, List.filterMap_cons]
    cases y with
    | refused place => simp [reactWithin, Tally.addLimit, Limited.refused?]
    | met h => cases h <;> rfl

theorem replayWithin_collect (found : List Occurrence) (t : Tally) (story : List Limited) :
    (replayWithin m (fun found o c => (o :: found, c)) (found, t) story).1 =
      (story.filterMap fun y => y.met?.bind (·.event.occurrence?)).reverse ++ found := by
  induction story generalizing found t with
  | nil => rfl
  | cons y story ih =>
    rw [replayWithin_cons, List.filterMap_cons]
    cases y with
    | refused place => exact ih ..
    | met h =>
      cases h with
      | found o =>
        simp [reactWithin, react, Happening.event, Limited.met?, Event.occurrence?, ih]
      | _ => exact ih ..

end Replay

/-! ## What a limited walk leaves out -/

section Filters

variable {n : Nat} (story : List Happening)

/-- What is read off from a limited traversal is what is read off from the whole one, as far as it
lies within the limit. -/
theorem filterMap_within {g : Limited → Option β} {f : Happening → Option β} {p : β → Bool}
    (h : ∀ x : Happening, (x.within n).filterMap g = (f x).toList.filter p) :
    (within n story).filterMap g = (story.filterMap f).filter p := by
  induction story with
  | nil => rfl
  | cons x story ih =>
    rw [within_cons, List.filterMap_append, h, ih, List.filterMap_cons]
    cases f x with
    | none => rfl
    | some y => rw [← List.filter_append]; rfl

theorem found_within :
    (within n story).filterMap (fun y => y.met?.bind (·.event.occurrence?)) =
      (story.filterMap (·.event.occurrence?)).filter (·.place.depth ≤ n) := by
  refine filterMap_within story fun x => ?_
  cases x with
  | found o =>
    rw [Happening.within]
    split <;> simp [Limited.met?, Happening.event, Event.occurrence?, *]
  | opened kind place =>
    rw [Happening.within]
    split
    · rfl
    · split <;> rfl
  | _ =>
    rw [Happening.within]
    split <;> rfl

theorem handed_within :
    handed ((within n story).filterMap Limited.call?) =
      (story.filterMap Happening.visited?).filter (·.depth ≤ n) := by
  rw [handed, List.filterMap_filterMap]
  refine filterMap_within story fun x => ?_
  cases x with
  | visited place =>
    rw [Happening.within]
    split <;> simp [Limited.call?, Call.entry?, Happening.visited?, *]
  | opened kind place =>
    rw [Happening.within]
    split
    · rfl
    · split <;> rfl
  | _ =>
    rw [Happening.within]
    split <;> rfl

theorem entered_within :
    entered ((within n story).filterMap Limited.call?) =
      (story.filterMap Happening.opened?).filter (·.depth < n) := by
  rw [entered, List.filterMap_filterMap]
  refine filterMap_within story fun x => ?_
  cases x with
  | opened kind place =>
    rw [Happening.within]
    split
    · simp [Limited.call?, Call.container?, Happening.opened?, *]
    · split <;> simp [Limited.call?, Happening.opened?, *]
  | _ =>
    rw [Happening.within]
    split <;> rfl

theorem refused_within :
    (within n story).filterMap Limited.refused? =
      (story.filterMap Happening.opened?).filter (·.depth = n) := by
  refine filterMap_within story fun x => ?_
  cases x with
  | opened kind place =>
    rw [Happening.within]
    split
    · next hlt => simp [Limited.refused?, Happening.opened?, Nat.ne_of_lt hlt]
    · split <;> simp [Limited.refused?, Happening.opened?, *]
  | _ =>
    rw [Happening.within]
    split <;> rfl

/-- Every entry that is visited is handed to the decoder. -/
theorem countP_isVisit (story : List Limited) :
    story.countP Limited.isVisit = (handed (story.filterMap Limited.call?)).length := by
  induction story with
  | nil => rfl
  | cons y story ih =>
    rw [List.countP_cons, ih, handed, handed, List.filterMap_filterMap, List.filterMap_filterMap,
      List.filterMap_cons]
    cases y with
    | refused place => rfl
    | met h => cases h <;> rfl

/-- The diagnostic of a container that is refused. -/
def depthDiagnostic (m : Int) (place : Provenance) : Diagnostic where
  location := place.text
  message := (LimitReached.depth m).message place.text
  fatal := true

/-- Only containers that are refused leave fatal diagnostics. -/
theorem fatal_diagnostics (m : Int) (story : List Limited) :
    (story.filterMap (Limited.diagnostic? m)).filter (·.fatal) =
      (story.filterMap Limited.refused?).map (depthDiagnostic m) := by
  induction story with
  | nil => rfl
  | cons y story ih =>
    cases y with
    | refused place =>
      rw [List.filterMap_cons, List.filterMap_cons]
      show List.filter _ (_ :: _) = List.map _ (_ :: _)
      rw [List.filter_cons_of_pos rfl, ih, List.map_cons]
      rfl
    | met h =>
      rw [List.filterMap_cons, List.filterMap_cons]
      cases h with
      | failed depth location failure =>
        show List.filter _ (_ :: _) = List.map _ _
        rw [List.filter_cons_of_neg (by simp), ih]
        rfl
      | _ => exact ih

end Filters

end JndiScan.Walk

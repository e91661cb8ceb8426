/-
What entries unfold to. An entry is a class, something of no interest, something that does not
decode, or a container; a container cannot be opened, or delivers entries one by one until it ends
or fails. `Tree` and `Forest` say this as data, `Tree.trace` is the recursive traversal in pre-order,
and `Unfolds` says which tree an entry is for a decoder. The world is handed from entry to entry, so
what a decoder does with an entry may depend on everything before it.
-/
import JndiScan.Walk.Run
import Mathlib.Algebra.Ring.Nat

namespace JndiScan.Walk

mutual

/-- What an entry unfolds to. -/
inductive Tree
  | leaf (o : Occurrence)
  | other (place : Provenance)
  | broken (place : Provenance) (failure : Failure)
  /-- A container that cannot be opened. -/
  | sealed (kind : EntryKind) (place : Provenance) (failure : Failure)
  | node (kind : EntryKind) (place : Provenance) (children : Forest)

/-- What a container delivers: entries, and then its end or a failure that costs all further ones. -/
inductive Forest
  | done
  | cut (failure : Failure)
  | more (t : Tree) (rest : Forest)

end

/-- What a traversal meets. -/
inductive Event
  | visited
  | found (o : Occurrence)
  | skipped (place : Provenance)
  | opened (kind : EntryKind) (place : Provenance)
  | failed (location : Text) (failure : Failure)

namespace Event

/-- Is the event the visit of an entry? -/
def isVisit : Event → Bool
  | visited => true
  | _ => false

/-- The class that is met. -/
def occurrence? : Event → Option Occurrence
  | found o => some o
  | _ => none

/-- What is kept of a failure. -/
def diagnostic? : Event → Option Diagnostic
  | failed location failure => some { location, message := failure.reason }
  | _ => none

end Event

mutual

/-- The recursive traversal: an entry before what it holds, entries from left to right. -/
def Tree.trace : Tree → List Event
  | .leaf o => [.visited, .found o]
  | .other place => [.visited, .skipped place]
  | .broken place failure => [.visited, .failed place.text failure]
  | .sealed kind place failure => [.visited, .opened kind place, .failed place.text failure]
  | .node kind place children => .visited :: .opened kind place :: children.trace

/-- The traversal of what a container delivers. -/
def Forest.trace : Forest → List Event
  | .done => []
  | .cut failure => [.failed failure.location failure]
  | .more t rest => t.trace ++ rest.trace

end

mutual

/-- The number of entries. -/
def Tree.size : Tree → Nat
  | .leaf _ | .other _ | .broken _ _ | .sealed _ _ _ => 1
  | .node _ _ children => children.size + 1

/-- The number of entries delivered, with all that they hold. -/
def Forest.size : Forest → Nat
  | .done | .cut _ => 0
  | .more t rest => t.size + rest.size

end

mutual

/-- How deep containers are nested. -/
def Tree.height : Tree → Nat
  | .leaf _ | .other _ | .broken _ _ => 0
  | .sealed _ _ _ => 1
  | .node _ _ children => children.height + 1

/-- How deep the containers among the entries are nested. -/
def Forest.height : Forest → Nat
  | .done | .cut _ => 0
  | .more t rest => max t.height rest.height

end

variable {world entry container position : Type}

mutual

/-- In the first world the entry turns out to be the tree, and leaves the second world. -/
inductive Unfolds (d : Decoder world entry container position) :
    world → entry → Tree → world → Prop
  | leaf {w w' : world} {e : entry} {o : Occurrence} :
    d.decode e w = .ok (.definition o) w' → Unfolds d w e (.leaf o) w'
  | other {w w' : world} {e : entry} {name : Text} :
    d.decode e w = .ok (.unrecognized name) w' → Unfolds d w e (.other (d.placeOf e)) w'
  | broken {w w' : world} {e : entry} {failure : Failure} :
    d.decode e w = .error (.failed failure) w' →
    Unfolds d w e (.broken (d.placeOf e) failure) w'
  | sealed {w w₁ w' : world} {e : entry} {kind : EntryKind} {place : Provenance}
      {contents : container} {failure : Failure} :
    d.decode e w = .ok (.container kind place contents) w₁ →
    d.enter contents w₁ = .error (.failed failure) w' →
    Unfolds d w e (.sealed kind place failure) w'
  | node {w w₁ w₂ w' : world} {e : entry} {kind : EntryKind} {place : Provenance}
      {contents : container} {p : position} {children : Forest} :
    d.decode e w = .ok (.container kind place contents) w₁ →
    d.enter contents w₁ = .ok p w₂ → Delivers d w₂ p children w' →
    Unfolds d w e (.node kind place children) w'

/-- In the first world a position in a container delivers the forest, and leaves the second world. -/
inductive Delivers (d : Decoder world entry container position) :
    world → position → Forest → world → Prop
  | done {w w' : world} {p : position} : d.pull p w = .ok none w' → Delivers d w p .done w'
  | cut {w w' : world} {p : position} {failure : Failure} :
    d.pull p w = .error (.failed failure) w' → Delivers d w p (.cut failure) w'
  | more {w w₁ w₂ w' : world} {p p' : position} {e : entry} {t : Tree} {rest : Forest} :
    d.pull p w = .ok (some (e, p')) w₁ → Unfolds d w₁ e t w₂ → Delivers d w₂ p' rest w' →
    Delivers d w p (.more t rest) w'

end

/-- Entries unfold one after the other. -/
inductive UnfoldsAll (d : Decoder world entry container position) :
    world → List entry → List Tree → world → Prop
  | nil {w : world} : UnfoldsAll d w [] [] w
  | cons {w w₁ w' : world} {e : entry} {es : List entry} {t : Tree} {ts : List Tree} :
    Unfolds d w e t w₁ → UnfoldsAll d w₁ es ts w' → UnfoldsAll d w (e :: es) (t :: ts) w'

/-! ## Every tree is unfolded -/

/-- The decoder of entries that are trees: each is what it says. -/
def Tree.decoder : Decoder Unit Tree (Except Failure Forest) Forest where
  placeOf
    | .leaf o => o.place
    | .other place | .broken place _ | .sealed _ place _ | .node _ place _ => place
  decode
    | .leaf o => pure (.definition o)
    | .other _ => pure (.unrecognized [])
    | .broken _ failure => throw (.failed failure)
    | .sealed kind place failure => pure (.container kind place (.error failure))
    | .node kind place children => pure (.container kind place (.ok children))
  enter
    | .error failure => throw (.failed failure)
    | .ok children => pure children
  pull
    | .done => pure none
    | .cut failure => throw (.failed failure)
    | .more t rest => pure (some (t, rest))
  close _ w := w
  closeFault? _ _ := none

mutual

theorem Tree.unfolds_self : ∀ t : Tree, Unfolds Tree.decoder () t t ()
  | .leaf _ => .leaf rfl
  | .other _ => .other rfl
  | .broken _ _ => .broken rfl
  | .sealed _ _ _ => .sealed rfl rfl
  | .node _ _ children => .node rfl rfl (Forest.delivers_self children)

theorem Forest.delivers_self : ∀ f : Forest, Delivers Tree.decoder () f f ()
  | .done => .done rfl
  | .cut _ => .cut rfl
  | .more t rest => .more rfl (Tree.unfolds_self t) (Forest.delivers_self rest)

end

theorem unfoldsAll_self : ∀ ts : List Tree, UnfoldsAll Tree.decoder () ts ts ()
  | [] => .nil
  | t :: ts => .cons t.unfolds_self (unfoldsAll_self ts)

/-! ## What a trace holds -/

mutual

theorem Tree.countP_trace : ∀ t : Tree, t.trace.countP Event.isVisit = t.size
  | .leaf _ | .other _ | .broken _ _ | .sealed _ _ _ => rfl
  | .node _ _ children => by
    rw [Tree.trace, Tree.size, List.countP_cons_of_pos rfl, List.countP_cons_of_neg Bool.false_ne_true,
      Forest.countP_trace children]

theorem Forest.countP_trace : ∀ f : Forest, f.trace.countP Event.isVisit = f.size
  | .done | .cut _ => rfl
  | .more t rest => by
    simp [Forest.trace, Forest.size, Tree.countP_trace t, Forest.countP_trace rest]

end

theorem countP_flatMap_trace : ∀ ts : List Tree,
    (ts.flatMap Tree.trace).countP Event.isVisit = (ts.map Tree.size).sum
  | [] => rfl
  | t :: ts => by
    simp [Tree.countP_trace, countP_flatMap_trace ts]

end JndiScan.Walk

/-
The values that a rules document may hold, when two of them are the same key of a mapping, which
of them count as nothing, and how they are shown: a text alone as it is, and every other value, or
a text inside another value, in a notation that tells the kinds apart.
-/
import JndiScan.Bytes
import JndiScan.Decimal.Style
import JndiScan.Rules.Stamp
import JndiScan.Text.Quoted

namespace JndiScan

/-- The shapes of values with parts. -/
inductive Shape
  | list
  | pair
  | mapping
  deriving DecidableEq, Repr

/-- What is shown in place of a value that is being shown already. -/
def Shape.ellipsis : Shape → Text
  | list => "[...]"
  | pair => "(...)"
  | mapping => "\x7b...\x7d"

/-- A value of a rules document. Mappings keep their entries in order, each key once. Values that
hold each other, and perhaps themselves, make a web, in which each has a label and holds the others
as parts. -/
inductive Value
  | null
  | bool (b : Bool)
  | int (i : Int)
  | real (x : Real64)
  /-- What is no number: the one that is written so, or the result at a place of the document. -/
  | noNumber (origin : Option Nat)
  | text (t : Text)
  | octets (bs : Bytes)
  | day (d : Day)
  | instant (i : Instant)
  | list (items : List Value)
  | pair (first second : Value)
  | mapping (entries : List (Value × Value))
  | members (items : List Value)
  /-- What has a label in the web around. -/
  | part (label : Nat) (shape : Shape)
  /-- What has a label in a web. -/
  | woven (web : List (Nat × Value)) (label : Nat) (shape : Shape)
  deriving Repr

namespace Value

instance : Inhabited Value := ⟨null⟩

/-! ## Equality -/

mutual

/-- Are two values the same? -/
def same : Value → Value → Bool
  | null, null => true
  | bool a, bool b => a == b
  | int a, int b => a == b
  | real a, real b => a == b
  | noNumber a, noNumber b => a == b
  | text a, text b => a == b
  | octets a, octets b => a == b
  | day a, day b => a == b
  | instant a, instant b => a == b
  | list as, list bs => sameItems as bs
  | pair a a', pair b b' => same a b && same a' b'
  | mapping as, mapping bs => sameEntries as bs
  | members as, members bs => sameItems as bs
  | part a s, part b s' => a == b && s == s'
  | woven web a s, woven web' b s' => sameWeb web web' && a == b && s == s'
  | _, _ => false
  termination_by structural a => a

/-- The same of values in a row. -/
def sameItems : List Value → List Value → Bool
  | [], [] => true
  | a :: as, b :: bs => same a b && sameItems as bs
  | _, _ => false
  termination_by structural as => as

/-- The same of entries. -/
def sameEntries : List (Value × Value) → List (Value × Value) → Bool
  | [], [] => true
  | (k, v) :: as, (k', v') :: bs => same k k' && same v v' && sameEntries as bs
  | _, _ => false
  termination_by structural as => as

/-- The same of the values of webs. -/
def sameWeb : List (Nat × Value) → List (Nat × Value) → Bool
  | [], [] => true
  | (a, v) :: as, (b, v') :: bs => a == b && same v v' && sameWeb as bs
  | _, _ => false
  termination_by structural as => as

end

instance : BEq Value := ⟨same⟩

/-! ## Keys -/

/-- The whole number that a key stands for, if it stands for one: truth values count as zero and
one, and a number with a fraction of zero as its whole part. -/
def wholeNumber? : Value → Option Int
  | bool b => some (if b then 1 else 0)
  | int i => some i
  | real (.finite negative m e) =>
    let magnitude? : Option Nat :=
      if 0 ≤ e then some (m * Nat.pow 2 e.natAbs)
      else if m % Nat.pow 2 e.natAbs = 0 then some (m / Nat.pow 2 e.natAbs)
      else none
    magnitude?.map fun n => if negative then -(n : Int) else n
  | _ => none

/-- Are two values the same key? Numbers are by their amounts, and instants by their moments. -/
def sameKey (a b : Value) : Bool :=
  match wholeNumber? a, wholeNumber? b with
  | some i, some j => i == j
  | none, none =>
    match a, b with
    | instant i, instant j => i.sameMoment j
    | a, b => a == b
  | _, _ => false

/-- The value of a key. -/
def lookup? (key : Value) (entries : List (Value × Value)) : Option Value :=
  (entries.find? fun e => sameKey e.1 key).map (·.2)

/-- The entries with a key set to something: in the place of the key if it is there, else at the
end. -/
def insert (key : Value) (value : α) : List (Value × α) → List (Value × α)
  | [] => [(key, value)]
  | (k, v) :: rest => if sameKey k key then (k, value) :: rest else (k, v) :: insert key value rest

/-! ## Values that hold each other -/

/-- What a part of a web stands for; other values stand for themselves. -/
def ofPart (web : List (Nat × Value)) : Value → Value
  | part label shape => woven web label shape
  | v => v

/-- A value by what it holds. A value of a web holds values of the same web. -/
def opened : Value → Value
  | woven web label _ =>
    match web.lookup label with
    | some (list items) => list (items.map (ofPart web))
    | some (pair first second) => pair (ofPart web first) (ofPart web second)
    | some (mapping entries) => mapping (entries.map fun (k, v) => (k, ofPart web v))
    | some v => v
    | none => null
  | v => v

/-- Goes through a web from a label on. Each value of the web tells something by what its parts
tell; one that is gone through already tells something else. As the labels in `active`, which are
those on the way, differ from each other, `fuel` need not exceed the number of labels. -/
def goThrough (again : Shape → α) (web : List (Nat × ((Nat → Shape → α) → α)))
    (active : List Nat) : (fuel : Nat) → (label : Nat) → Shape → α
  | 0, _, shape => again shape
  | fuel + 1, label, shape =>
    if active.contains label then again shape
    else
      match web.lookup label with
      | some tell => tell (goThrough again web (label :: active) fuel)
      | none => again shape

/-! ## Nothing -/

/-- Does a value count as absent? Nothing, no, zero and whatever is empty do. -/
def isAbsent (v : Value) : Bool :=
  match v.opened with
  | null => true
  | bool b => !b
  | int i => i == 0
  | real x => x.isZero
  | text t => t.isEmpty
  | octets bs => bs.isEmpty
  | list items => items.isEmpty
  | mapping entries => entries.isEmpty
  | members items => items.isEmpty
  | noNumber _ | day _ | instant _ | pair _ _ | part _ _ | woven _ _ _ => false

/-! ## Showing -/

/-- Why a value cannot be shown. -/
inductive ShowFault
  /-- A whole number has too many digits. -/
  | longNumber
  /-- Values are nested too deep. -/
  | tooDeep
  deriving DecidableEq, Repr

/-- The wording of a fault. -/
def ShowFault.message : ShowFault → Text
  | longNumber =>
    "Exceeds the limit (4300 digits) for integer string conversion; "
      ++ "use sys.set_int_max_str_digits() to increase the limit"
  | tooDeep => "maximum recursion depth exceeded while getting the repr of an object"

/-- The most decimal digits of a whole number that is shown. -/
def maxDigits : Nat := 4300

/-- The most calls that may be open while a value is shown, one for each value inside another. A
thousand calls may be open in all; those of the program and the one for the value itself are taken
off. -/
def maxCalls : Nat := 995

mutual

/-- Why a value cannot be shown, if it cannot, when `calls` more calls may be open and it is known
of the parts of the web around. What is met first is told. -/
def showFaultWith (inPart : Nat → Shape → Nat → Option ShowFault) (calls : Nat) :
    Value → Option ShowFault
  | int i => if Nat.pow 10 maxDigits ≤ i.natAbs then some .longNumber else none
  | instant i => if calls < i.zoneCalls then some .tooDeep else none
  | list items => showFaultItems inPart calls items
  | pair first second =>
    if calls = 0 then some .tooDeep
    else (showFaultWith inPart (calls - 1) first).or (showFaultWith inPart (calls - 1) second)
  | mapping entries => showFaultEntries inPart calls entries
  -- The members are shown as those of a list.
  | members items =>
    if items.isEmpty then none
    else if calls = 0 then some .tooDeep
    else showFaultItems inPart (calls - 1) items
  | part label shape => inPart label shape calls
  | woven web label shape =>
    goThrough (fun _ _ => none) (showFaultWeb web) [] web.length label shape calls
  | _ => none

/-- The same of values in a row. -/
def showFaultItems (inPart : Nat → Shape → Nat → Option ShowFault) (calls : Nat) :
    List Value → Option ShowFault
  | [] => none
  | v :: vs =>
    if calls = 0 then some .tooDeep
    else (showFaultWith inPart (calls - 1) v).or (showFaultItems inPart calls vs)

/-- The same of entries. -/
def showFaultEntries (inPart : Nat → Shape → Nat → Option ShowFault) (calls : Nat) :
    List (Value × Value) → Option ShowFault
  | [] => none
  | (k, v) :: rest =>
    if calls = 0 then some .tooDeep
    else
      (showFaultWith inPart (calls - 1) k).or <| (showFaultWith inPart (calls - 1) v).or <|
        showFaultEntries inPart calls rest

/-- The same of the values of a web. -/
def showFaultWeb : List (Nat × Value) →
    List (Nat × ((Nat → Shape → Nat → Option ShowFault) → Nat → Option ShowFault))
  | [] => []
  | (label, v) :: rest =>
    (label, fun inPart calls => showFaultWith inPart calls v) :: showFaultWeb rest

end

/-- Why a value cannot be shown by as many calls, if it cannot. Days and instants by themselves have
a text of their own. -/
def showFault? (calls : Nat) : Value → Option ShowFault
  | instant _ => none
  | v => v.showFaultWith (fun _ _ _ => none) calls

mutual

/-- A value inside another one, when it is known how the parts of the web around are shown. -/
def quotedWith (quotedPart : Nat → Shape → Text) : Value → Text
  | null => "None"
  | bool b => if b then "True" else "False"
  | int i => .ofInt i
  | real x => Decimal.render Decimal.plainStyle x
  | noNumber _ => Decimal.render Decimal.plainStyle .nan
  | text t => t.quoted
  | octets bs => Text.quotedOctets bs
  | day d => d.quoted
  | instant i => i.quoted
  | list items => "[" ++ quotedItems quotedPart true items ++ "]"
  | pair first second =>
    "(" ++ quotedWith quotedPart first ++ ", " ++ quotedWith quotedPart second ++ ")"
  | mapping entries => "\x7b" ++ quotedEntries quotedPart true entries ++ "\x7d"
  | members [] => "set()"
  | members (item :: items) =>
    "\x7b" ++ quotedWith quotedPart item ++ quotedItems quotedPart false items ++ "\x7d"
  | part label shape => quotedPart label shape
  | woven web label shape =>
    goThrough Shape.ellipsis (quotedWeb web) [] web.length label shape

/-- Values with commas between them, and before the first one unless it `starts`. -/
def quotedItems (quotedPart : Nat → Shape → Text) (starts : Bool) : List Value → Text
  | [] => []
  | v :: vs =>
    (if starts then ([] : Text) else ", ") ++ quotedWith quotedPart v
      ++ quotedItems quotedPart false vs

/-- Entries with commas between them. -/
def quotedEntries (quotedPart : Nat → Shape → Text) (starts : Bool) :
    List (Value × Value) → Text
  | [] => []
  | (k, v) :: rest =>
    (if starts then ([] : Text) else ", ") ++ quotedWith quotedPart k ++ ": "
      ++ quotedWith quotedPart v ++ quotedEntries quotedPart false rest

/-- The values of a web, each to be shown when it is known how its parts are. -/
def quotedWeb : List (Nat × Value) → List (Nat × ((Nat → Shape → Text) → Text))
  | [] => []
  | (label, v) :: rest => (label, fun quotedPart => quotedWith quotedPart v) :: quotedWeb rest

end

/-- A value inside no other one that is being shown. -/
def quoted (v : Value) : Text := v.quotedWith fun _ shape => shape.ellipsis

/-- A value as a text. -/
def shown : Value → Text
  | text t => t
  | day d => d.text
  | instant i => i.text
  | v => v.quoted

end Value

end JndiScan

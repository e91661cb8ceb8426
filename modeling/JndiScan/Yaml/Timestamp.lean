/-
Days and instants as scalars write them.
-/
import JndiScan.Rules.Stamp
import JndiScan.Yaml.Cursor

namespace JndiScan.Yaml.Timestamp

/-- A time of day, with the digits of its fraction, and the offset from universal time in seconds
if it is told. -/
structure Time where
  hour : Nat
  minute : Nat
  second : Nat
  fraction : Text
  offset : Option Int

/-- What a timestamp writes, checked for its form only. -/
structure Written where
  year : Nat
  month : Nat
  day : Nat
  time : Option Time
  /-- Are month and day written with two digits? -/
  inFull : Bool

/-- Between `least` and `most` digits, and what follows them; as many as there are. -/
def digits? (least most : Nat) (t : Text) : Option (Nat × Nat × Text) :=
  let ds : Text := (t.take most).takeWhile CodePoint.isDigit
  if ds.length < least then none
  else some (ds.foldl (fun n c => 10 * n + (c.val - 0x30)) 0, ds.length, t.drop ds.length)

/-- What follows a code point. -/
def after? (c : Char) : Text → Option Text
  | d :: rest => if d = .ofChar c then some rest else none
  | [] => none

/-- The end of a scalar, perhaps with a line end. -/
def isEnd (t : Text) : Bool := t.isEmpty || t = ("\n" : Text)

/-- The zone at the end of a timestamp, in seconds: none, the letter of universal time, or an
offset in hours and perhaps minutes. -/
def zone? (t : Text) : Option (Option Int) :=
  if isEnd t then some none
  else do
    let t := t.dropWhile isBlankOrTab
    match t with
    | [] => none
    | c :: rest =>
      if c = .ofChar 'Z' then if isEnd rest then some (some 0) else none
      else if c = .ofChar '+' || c = .ofChar '-' then do
        let (hours, _, rest) ← digits? 1 2 rest
        let (minutes, rest) ←
          match after? ':' rest with
          | some rest => do
            let (m, _, rest) ← digits? 2 2 rest
            pure (m, rest)
          | none => pure (0, rest)
        let seconds : Int := (hours * 3600 + minutes * 60 : Nat)
        if isEnd rest then some (some (if c = .ofChar '-' then -seconds else seconds)) else none
      else none

/-- The time of day after a day, up to the end. -/
def time? (t : Text) : Option Time := do
  let t ←
    match t with
    | c :: rest =>
      if c = .ofChar 'T' || c = .ofChar 't' then some rest
      else if isBlankOrTab c then some (rest.dropWhile isBlankOrTab)
      else none
    | [] => none
  let (hour, _, t) ← digits? 1 2 t
  let (minute, _, t) ← digits? 2 2 (← after? ':' t)
  let (second, _, t) ← digits? 2 2 (← after? ':' t)
  let (fraction, t) : Text × Text :=
    match after? '.' t with
    | some rest => (rest.takeWhile CodePoint.isDigit, rest.dropWhile CodePoint.isDigit)
    | none => ([], t)
  pure { hour, minute, second, fraction, offset := ← zone? t }

/-- What a text writes when it has the form of a timestamp. -/
def written? (t : Text) : Option Written := do
  let (year, _, t) ← digits? 4 4 t
  let (month, m, t) ← digits? 1 2 (← after? '-' t)
  let (day, d, t) ← digits? 1 2 (← after? '-' t)
  let inFull := m == 2 && d == 2
  if isEnd t then some { year, month, day, time := none, inFull }
  else pure { year, month, day, time := some (← time? t), inFull }

/-- Is a plain text a timestamp? A day alone has to be written in full. -/
def isPlain (t : Text) : Bool :=
  match written? t with
  | some w => w.time.isSome || w.inFull
  | none => false

/-- The day of a timestamp, checked. -/
def dayOf (w : Written) : Except CalendarFault Day :=
  if w.year = 0 then .error .year
  else if w.month = 0 || w.month > 12 then .error .month
  else if w.day = 0 || w.day > Day.monthLength w.year w.month then .error .day
  else .ok ⟨w.year, w.month, w.day⟩

/-- The instant at a time of a day, checked. -/
def instantOf (w : Written) (time : Time) : Except Fault Instant := do
  match time.offset with
  | some o => if o.natAbs ≥ 86400 then throw (.zone o)
  | none => pure ()
  let day ← (dayOf w).mapError .calendar
  if time.hour > 23 then throw (.calendar .hour)
  if time.minute > 59 then throw (.calendar .minute)
  if time.second > 59 then throw (.calendar .second)
  let six := (time.fraction ++ Text.copies 6 (.ofChar '0')).take 6
  pure
    { day, hour := time.hour, minute := time.minute, second := time.second
      microsecond := six.foldl (fun n c => 10 * n + (c.val - 0x30)) 0, offset := time.offset }

end JndiScan.Yaml.Timestamp

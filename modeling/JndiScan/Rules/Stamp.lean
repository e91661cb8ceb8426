/-
Days and instants of the calendar, as a rules file may hold them, and how they are shown.
-/
import JndiScan.Text.Basic

namespace JndiScan

/-- A day of the Gregorian calendar. -/
structure Day where
  year : Nat
  month : Nat
  day : Nat
  deriving DecidableEq, Repr

namespace Day

/-- The number of days from the first day of year 1 to the first day of a year. -/
def beforeYear (year : Nat) : Nat :=
  let y := year - 1
  365 * y + y / 4 - y / 100 + y / 400

/-- Has a year 366 days? -/
def isLeap (year : Nat) : Bool := year % 4 == 0 && (year % 100 != 0 || year % 400 == 0)

/-- The days of a month. -/
def monthLength (year month : Nat) : Nat :=
  match month with
  | 2 => if isLeap year then 29 else 28
  | 4 | 6 | 9 | 11 => 30
  | _ => 31

/-- The number of a day, counted from the first day of year 1. -/
def number (d : Day) : Nat :=
  let beforeMonth :=
    (List.range (d.month - 1)).foldl (fun days m => days + monthLength d.year (m + 1)) 0
  beforeYear d.year + beforeMonth + (d.day - 1)

/-- The day with a number: as many years, and as many months of its year, have begun as begin with a
day of no greater number. -/
def ofNumber (n : Nat) : Day :=
  let year := (List.range' 1 (n / 365 + 1)).countP (beforeYear · ≤ n)
  let month := (List.range' 1 12).countP (number ⟨year, ·, 1⟩ ≤ n)
  ⟨year, month, n - number ⟨year, month, 1⟩ + 1⟩

/-- Year, month and day in four, two and two digits. -/
def text (d : Day) : Text :=
  Text.decimal 4 d.year ++ "-" ++ Text.decimal 2 d.month ++ "-" ++ Text.decimal 2 d.day

/-- A day inside another value. -/
def quoted (d : Day) : Text :=
  "datetime.date(" ++ Text.joinWith ", " [.ofNat d.year, .ofNat d.month, .ofNat d.day] ++ ")"

end Day

/-- An instant: a day, a time of day, and the offset from universal time in seconds if it is
known. -/
structure Instant where
  day : Day
  hour : Nat
  minute : Nat
  second : Nat
  microsecond : Nat
  offset : Option Int
  deriving DecidableEq, Repr

namespace Instant

/-- The microseconds since the first day of year 1, by the clock of the instant itself. -/
def microseconds (i : Instant) : Nat :=
  (((i.day.number * 24 + i.hour) * 60 + i.minute) * 60 + i.second) * 1000000 + i.microsecond

/-- The instant of universal time with as many microseconds since the first day of year 1. -/
def ofMicroseconds (n : Nat) : Instant where
  day := .ofNumber (n / 86400000000)
  hour := n / 3600000000 % 24
  minute := n / 60000000 % 60
  second := n / 1000000 % 60
  microsecond := n % 1000000
  offset := some 0

/-- Are two instants the same moment? One whose offset is known differs from any other. -/
def sameMoment (i j : Instant) : Bool :=
  match i.offset, j.offset with
  | some o, some o' =>
    (i.microseconds : Int) - o * 1000000 == (j.microseconds : Int) - o' * 1000000
  | none, none => i.microseconds == j.microseconds
  | _, _ => false

/-- An offset as hours and minutes with a sign. -/
def offsetText (seconds : Int) : Text :=
  let n := seconds.natAbs
  let sign : Text := if seconds < 0 then "-" else "+"
  let rest : Text := if n % 60 = 0 then [] else ":" ++ Text.decimal 2 (n % 60)
  sign ++ Text.decimal 2 (n / 3600) ++ ":" ++ Text.decimal 2 (n / 60 % 60) ++ rest

/-- Day and time with a mark between them; a fraction and an offset are shown when there are
any. -/
def textWith (mark : Text) (i : Instant) : Text :=
  i.day.text ++ mark ++ Text.decimal 2 i.hour ++ ":" ++ Text.decimal 2 i.minute ++ ":"
    ++ Text.decimal 2 i.second
    ++ (if i.microsecond = 0 then ([] : Text) else "." ++ Text.decimal 6 i.microsecond)
    ++ (match i.offset with | none => [] | some o => offsetText o)

/-- Day and time with a blank between them. -/
def text (i : Instant) : Text := i.textWith " "

/-- A span of time, given in seconds, inside another value. -/
def spanQuoted (seconds : Int) : Text :=
  let days := seconds / 86400
  let rest := seconds % 86400
  let parts : List Text :=
    (if days = 0 then [] else ["days=" ++ Text.ofInt days])
      ++ (if rest = 0 then [] else ["seconds=" ++ Text.ofInt rest])
  let shown : Text := if parts.isEmpty then "0" else Text.joinWith ", " parts
  "datetime.timedelta(" ++ shown ++ ")"

/-- A zone inside another value. -/
def zoneQuoted (seconds : Int) : Text :=
  if seconds = 0 then "datetime.timezone.utc"
  else "datetime.timezone(" ++ spanQuoted seconds ++ ")"

/-- The calls that are open while the zone of an instant is shown inside another value. -/
def zoneCalls (i : Instant) : Nat :=
  match i.offset with
  | none => 0
  | some seconds => if seconds = 0 then 1 else 2

/-- An instant inside another value. Seconds and microseconds are left out while they are zero at
the end. -/
def quoted (i : Instant) : Text :=
  let tail : List Nat :=
    if i.microsecond ≠ 0 then [i.second, i.microsecond]
    else if i.second ≠ 0 then [i.second]
    else []
  let numbers := [i.day.year, i.day.month, i.day.day, i.hour, i.minute] ++ tail
  let zone : List Text :=
    match i.offset with
    | none => []
    | some o => ["tzinfo=" ++ zoneQuoted o]
  "datetime.datetime(" ++ Text.joinWith ", " (numbers.map Text.ofNat ++ zone) ++ ")"

end Instant

end JndiScan

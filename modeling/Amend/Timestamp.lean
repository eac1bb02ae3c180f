import Amend.Text.Slice
import Amend.MachineWord

/-!
# Points in time

A reading of the clock in universal time, to the nanosecond. It has two written forms: the one
inside records, with a `T` between date and time and a `Z` at the end, and the one in file names,
without any separator.
-/

namespace Amend

/-- A point in time by its calendar fields. -/
structure Timestamp where
  year : Nat
  month : Nat
  day : Nat
  hour : Nat
  minute : Nat
  second : Nat
  nano : Nat
deriving DecidableEq, Inhabited

namespace Timestamp

/-- The fields, the largest unit first. -/
def fields (t : Timestamp) : List Nat :=
  [t.year, t.month, t.day, t.hour, t.minute, t.second, t.nano]

/-- The order of two times: that of the first field in which they differ. -/
def order (a b : Timestamp) : Ordering :=
  (List.zipWith compare a.fields b.fields).foldl Ordering.then .eq

/-- A number in at least `width` digits. -/
def padded (width n : Nat) : String :=
  let digits := toString n
  String.ofList (List.replicate (width - digits.length) '0') ++ digits

/-- The fraction of a second behind a point: nothing, or three, six or nine digits. -/
def fraction (nano : Nat) : String :=
  if nano = 0 then ""
  else if nano % 1000000 = 0 then "." ++ padded 3 (nano / 1000000)
  else if nano % 1000 = 0 then "." ++ padded 6 (nano / 1000)
  else "." ++ padded 9 nano

/-- The form inside records. -/
def render (t : Timestamp) : String :=
  padded 4 t.year ++ "-" ++ padded 2 t.month ++ "-" ++ padded 2 t.day ++ "T" ++
    padded 2 t.hour ++ ":" ++ padded 2 t.minute ++ ":" ++ padded 2 t.second ++
    fraction t.nano ++ "Z"

/-- The form in file names. -/
def stamp (t : Timestamp) : String :=
  padded 4 t.year ++ padded 2 t.month ++ padded 2 t.day ++ "T" ++ padded 2 t.hour ++
    padded 2 t.minute ++ padded 2 t.second ++ "." ++ padded 9 t.nano ++ "Z"

/-! ## The calendar -/

/-- Whether a year has a 29th of February. -/
def isLeap (year : Nat) : Bool := year % 4 = 0 && (year % 100 ≠ 0 || year % 400 = 0)

/-- The number of days of a month. -/
def monthDays (year month : Nat) : Nat :=
  if month = 2 then if isLeap year then 29 else 28
  else if month ∈ [4, 6, 9, 11] then 30
  else 31

/-- The days before the first day of a year, counted from the first day of the year 0. -/
def daysBeforeYear (year : Nat) : Nat :=
  365 * year + (year + 3) / 4 - (year + 99) / 100 + (year + 399) / 400

/-- The days from the first day of the year 0 to the day of a time. -/
def dayNumber (t : Timestamp) : Nat :=
  daysBeforeYear t.year +
    MachineWord.total ((List.range (t.month - 1)).map fun m => monthDays t.year (m + 1)) + (t.day - 1)

/-- The month and the day that a number of days after the first day of a month stands for. The
fuel bounds the number of months. -/
def monthAndDay (year : Nat) : Nat → Nat → Nat → Nat × Nat
  | 0, month, days => (month, days + 1)
  | fuel + 1, month, days =>
    if days < monthDays year month then (month, days + 1)
    else monthAndDay year fuel (month + 1) (days - monthDays year month)

/-- The year that contains a day. -/
def yearOf (days : Nat) : Nat :=
  let guess := days / 366
  ((List.range (days / 146000 + 4)).map (guess + ·)).foldl
    (fun found y => if daysBeforeYear y ≤ days then y else found) guess

/-- The time that many seconds after the start of the year 0, with a fraction. -/
def ofSeconds (seconds nano : Nat) : Timestamp :=
  let days := seconds / 86400
  let rest := seconds % 86400
  let year := yearOf days
  let (month, day) := monthAndDay year 11 1 (days - daysBeforeYear year)
  ⟨year, month, day, rest / 3600, rest % 3600 / 60, rest % 60, nano⟩

/-- The whole seconds from the start of the year 0 to a time. -/
def seconds (t : Timestamp) : Nat :=
  86400 * t.dayNumber + 3600 * t.hour + 60 * t.minute + t.second

/-- Whether the fields name a day of the calendar and a time of day. -/
def isValid (t : Timestamp) : Bool :=
  1 ≤ t.month && t.month ≤ 12 && 1 ≤ t.day && t.day ≤ monthDays t.year t.month &&
    t.hour < 24 && t.minute < 60 && t.second ≤ 60

/-! ## Reading -/

/-- The number that the first `width` characters write, and the rest. -/
def number? (width : Nat) (cs : List Char) : Option (Nat × List Char) :=
  let ds := cs.take width
  if ds.length = width && ds.all fun c => '0' ≤ c && c ≤ '9' then
    some (ds.foldl (fun n c => 10 * n + (c.toNat - 48)) 0, cs.drop width)
  else none

/-- What follows one of some characters. -/
def mark? (marks : List Char) : List Char → Option (List Char)
  | [] => none
  | c :: cs => if marks.contains c then some cs else none

/-- The nanoseconds of a fraction, whose digits behind the ninth do not count. -/
def nanos? (cs : List Char) : Option (Nat × List Char) :=
  match cs with
  | '.' :: rest =>
    let isDigit (c : Char) : Bool := '0' ≤ c && c ≤ '9'
    let ds := rest.takeWhile isDigit
    if ds.isEmpty then none
    else do
      let (n, _) ← number? 9 (ds.take 9 ++ List.replicate (9 - ds.length) '0')
      return (n, rest.dropWhile isDigit)
  | _ => some (0, cs)

/-- The seconds by which a written zone is ahead of universal time, and whether it is ahead. -/
def zone? (cs : List Char) : Option (Bool × Nat) := do
  match cs with
  | ['Z'] | ['z'] => return (true, 0)
  | c :: rest =>
    if c ≠ '+' ∧ c ≠ '-' then none
    let (h, rest) ← number? 2 rest
    let (m, rest) ← number? 2 ((mark? [':'] rest).getD rest)
    if rest.isEmpty ∧ h < 24 ∧ m < 60 then return (c = '+', 3600 * h + 60 * m) else none
  | [] => none

/-- Reads the form inside records, in any zone. -/
def ofText? (s : String) : Option Timestamp := do
  let (year, cs) ← number? 4 s.toList
  let (month, cs) ← number? 2 (← mark? ['-'] cs)
  let (day, cs) ← number? 2 (← mark? ['-'] cs)
  let (hour, cs) ← number? 2 (← mark? ['T', 't', ' '] cs)
  let (minute, cs) ← number? 2 (← mark? [':'] cs)
  let (second, cs) ← number? 2 (← mark? [':'] cs)
  let (nano, cs) ← nanos? cs
  let (ahead, shift) ← zone? cs
  let t : Timestamp := ⟨year, month, day, hour, minute, second, nano⟩
  if !t.isValid then none
  else if shift = 0 then return t
  else return ofSeconds (if ahead then t.seconds - shift else t.seconds + shift) nano

end Timestamp

end Amend

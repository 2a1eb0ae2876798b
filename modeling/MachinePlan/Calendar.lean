import MachinePlan.Text.Digit

/-!
# Dates and times

Days of the Gregorian calendar and times of day, with or without an offset from universal time.
Times with an offset are equal when they denote the same instant.
-/

namespace MachinePlan

/-- A day of the years 1 to 9999. -/
structure Date where
  year : Nat
  month : Nat
  day : Nat
  deriving Inhabited, Repr, DecidableEq

namespace Date

def isLeap (year : Nat) : Bool :=
  year % 4 == 0 && (year % 100 != 0 || year % 400 == 0)

def daysIn (year month : Nat) : Nat :=
  if month = 2 then (if isLeap year then 29 else 28)
  else if month = 4 || month = 6 || month = 9 || month = 11 then 30
  else 31

def ofYmd? (year month day : Nat) : Option Date :=
  if 1 ≤ year && year ≤ 9999 && 1 ≤ month && month ≤ 12 && 1 ≤ day && day ≤ daysIn year month then
    some ⟨year, month, day⟩
  else none

/-- The number of the day, counted from the first day of the year 1. -/
def ordinal (d : Date) : Nat :=
  let y := d.year - 1
  let months := ((List.range d.month).drop 1).foldl (fun n m => n + daysIn d.year m) 0
  y * 365 + y / 4 - y / 100 + y / 400 + months + d.day

/-- Year, month and day, separated by hyphens. -/
def iso (d : Date) : String :=
  String.ofList (Text.decimalDigits 4 d.year ++ '-' :: Text.decimalDigits 2 d.month ++
    '-' :: Text.decimalDigits 2 d.day)

def display (d : Date) : String :=
  s!"datetime.date({d.year}, {d.month}, {d.day})"

end Date

/-- A day and a time of day; `offset` is the distance from universal time in minutes. -/
structure DateTime where
  date : Date
  hour : Nat
  minute : Nat
  second : Nat
  microsecond : Nat
  offset : Option Int
  deriving Inhabited, Repr, DecidableEq

namespace DateTime

/-- The date-time with the given parts, if its time of day exists and its offset is shorter than a
day. -/
def ofParts? (date : Date) (hour minute second microsecond : Nat) (offset : Option Int) :
    Option DateTime :=
  if hour < 24 && minute < 60 && second < 60 && microsecond < 1000000 &&
      offset.all fun o => -1440 < o && o < 1440 then
    some ⟨date, hour, minute, second, microsecond, offset⟩
  else none

/-- The microseconds from the first day of the year 1 to the time as it is written. -/
def localMicroseconds (t : DateTime) : Int :=
  (((t.date.ordinal * 24 + t.hour) * 60 + t.minute) * 60 + t.second : Nat) * 1000000 + t.microsecond

/-- Equality of instants, and of written times where no offset is known; a time with an offset
equals none without. -/
def same (a b : DateTime) : Bool :=
  match a.offset, b.offset with
  | none, none => a == b
  | some x, some y =>
    a.localMicroseconds - x * 60000000 == b.localMicroseconds - y * 60000000
  | _, _ => false

def isoOffset (o : Int) : List Char :=
  (if o < 0 then '-' else '+') :: Text.decimalDigits 2 (o.natAbs / 60) ++
    ':' :: Text.decimalDigits 2 (o.natAbs % 60)

def iso (between : Char) (t : DateTime) : String :=
  String.ofList (t.date.iso.toList ++ between :: Text.decimalDigits 2 t.hour ++
    ':' :: Text.decimalDigits 2 t.minute ++ ':' :: Text.decimalDigits 2 t.second ++
    (if t.microsecond = 0 then [] else '.' :: Text.decimalDigits 6 t.microsecond) ++
    (t.offset.map isoOffset).getD [])

def displayOffset (o : Int) : String :=
  if o = 0 then "datetime.timezone.utc"
  else if o < 0 then
    s!"datetime.timezone(datetime.timedelta(days=-1, seconds={(o + 1440) * 60}))"
  else s!"datetime.timezone(datetime.timedelta(seconds={o * 60}))"

/-- The date-time as a constructor with its arguments; seconds and microseconds that are zero at
the end are left out. -/
def display (t : DateTime) : String :=
  let seconds :=
    if t.microsecond ≠ 0 then s!", {t.second}, {t.microsecond}"
    else if t.second ≠ 0 then s!", {t.second}"
    else ""
  let offset := (t.offset.map fun o => ", tzinfo=" ++ displayOffset o).getD ""
  s!"datetime.datetime({t.date.year}, {t.date.month}, {t.date.day}, {t.hour}, {t.minute}" ++
    seconds ++ offset ++ ")"

end DateTime

/-! ### Reading the ISO form -/

/-- The number that exactly `count` ASCII digits at the front denote, and the rest. -/
def takeNumber? (count : Nat) (cs : List Char) : Option (Nat × List Char) :=
  let ds := cs.take count
  if ds.length = count && ds.all Text.isAsciiDigit then
    some (ds.foldl (fun n c => n * 10 + (c.toNat - '0'.toNat)) 0, cs.drop count)
  else none

def skipChar? (c : Char) : List Char → Option (List Char)
  | [] => none
  | x :: rest => if x = c then some rest else none

def Date.takeIso? (cs : List Char) : Option (Date × List Char) := do
  let (year, cs) ← takeNumber? 4 cs
  let cs ← skipChar? '-' cs
  let (month, cs) ← takeNumber? 2 cs
  let cs ← skipChar? '-' cs
  let (day, cs) ← takeNumber? 2 cs
  let date ← Date.ofYmd? year month day
  return (date, cs)

def Date.ofIso? (s : String) : Option Date :=
  match Date.takeIso? s.toList with
  | some (date, []) => some date
  | _ => none

def DateTime.ofIso? (s : String) : Option DateTime := do
  let (date, cs) ← Date.takeIso? s.toList
  let (hour, cs) ← takeNumber? 2 (cs.drop 1)
  let (minute, cs) ← takeNumber? 2 (← skipChar? ':' cs)
  let (second, cs) ← takeNumber? 2 (← skipChar? ':' cs)
  let (microsecond, cs) ←
    match cs with
    | '.' :: rest => takeNumber? 6 rest
    | _ => some (0, cs)
  match cs with
  | [] => DateTime.ofParts? date hour minute second microsecond none
  | sign :: rest =>
    let (hours, rest) ← takeNumber? 2 rest
    let (minutes, _) ← takeNumber? 2 (← skipChar? ':' rest)
    let offset : Int := (hours * 60 + minutes : Nat)
    DateTime.ofParts? date hour minute second microsecond
      (some (if sign = '-' then -offset else offset))

end MachinePlan

namespace LedgerQuery

structure Date where
  year : Nat
  month : Nat
  day : Nat
deriving DecidableEq

structure TimeOfDay where
  hour : Nat
  minute : Nat
  second : Nat
  microsecond : Nat
  /-- The offset from universal time in minutes. -/
  offset : Option Int
deriving DecidableEq

structure Moment where
  date : Date
  time : Option TimeOfDay
deriving DecidableEq

namespace Date

def isLeapYear (y : Nat) : Bool := y % 4 = 0 ∧ (y % 100 ≠ 0 ∨ y % 400 = 0)

def monthLength (y m : Nat) : Nat :=
  if m = 2 then (if isLeapYear y then 29 else 28) else if m ∈ [4, 6, 9, 11] then 30 else 31

def fault? (d : Date) : Option String :=
  if d.year = 0 ∨ 9999 < d.year then some s!"year {d.year} is out of range"
  else if d.month = 0 ∨ 12 < d.month then some "month must be in 1..12"
  else if d.day = 0 ∨ monthLength d.year d.month < d.day then some "day is out of range for month"
  else none

end Date

def shownSpan (minutes : Int) : String :=
  let days := minutes / 1440
  let seconds := minutes % 1440 * 60
  let parts := (if days = 0 then [] else [s!"days={days}"]) ++
    (if seconds = 0 then [] else [s!"seconds={seconds}"])
  "datetime.timedelta(" ++ (if parts = [] then "0" else ", ".intercalate parts) ++ ")"

namespace TimeOfDay

def fault? (t : TimeOfDay) : Option String :=
  if 23 < t.hour then some "hour must be in 0..23"
  else if 59 < t.minute then some "minute must be in 0..59"
  else if 59 < t.second then some "second must be in 0..59"
  else none

def offsetFault? (t : TimeOfDay) : Option String :=
  match t.offset with
  | some n =>
    if n.natAbs < 1440 then none
    else some ("offset must be a timedelta strictly between -timedelta(hours=24) and " ++
      "timedelta(hours=24), not " ++ shownSpan n ++ ".")
  | none => none

def numbers (t : TimeOfDay) : List Nat :=
  [t.hour, t.minute] ++
    if t.microsecond ≠ 0 then [t.second, t.microsecond]
    else if t.second ≠ 0 then [t.second]
    else []

def shownOffset : Option Int → String
  | none => ""
  | some 0 => ", tzinfo=datetime.timezone.utc"
  | some n => ", tzinfo=datetime.timezone(" ++ shownSpan n ++ ")"

end TimeOfDay

namespace Moment

def fault? (m : Moment) : Option String :=
  match m.time with
  | none => m.date.fault?
  | some t => t.offsetFault? <|> m.date.fault? <|> t.fault?

def shown (m : Moment) : String :=
  let date := [m.date.year, m.date.month, m.date.day]
  let row (ns : List Nat) : String := ", ".intercalate (ns.map toString)
  match m.time with
  | none => "datetime.date(" ++ row date ++ ")"
  | some t => "datetime.datetime(" ++ row (date ++ t.numbers) ++ TimeOfDay.shownOffset t.offset ++ ")"

end Moment

end LedgerQuery

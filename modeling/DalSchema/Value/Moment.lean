/-!
# Dates and times of day

A date is a day of the Gregorian calendar from the year one on. A moment is a date with a time of
day, to the microsecond; it may say how far its clock is ahead of universal time.
-/

namespace DalSchema

def padded (width n : Nat) : String :=
  let digits := Nat.toDigits 10 n
  String.ofList (List.replicate (width - digits.length) '0' ++ digits)

structure Date where
  year : Nat
  month : Nat
  day : Nat
  deriving Repr, DecidableEq, Inhabited

namespace Date

def isLeapYear (year : Nat) : Bool := year % 4 == 0 && (year % 100 != 0 || year % 400 == 0)

def daysIn (year month : Nat) : Nat :=
  if month == 2 then if isLeapYear year then 29 else 28
  else if [4, 6, 9, 11].contains month then 30
  else 31

def isReal (d : Date) : Bool :=
  1 ≤ d.year && d.year ≤ 9999 && 1 ≤ d.month && d.month ≤ 12 && 1 ≤ d.day &&
    d.day ≤ daysIn d.year d.month

def daysBefore (year : Nat) : Nat :=
  let past := year - 1
  past * 365 + past / 4 - past / 100 + past / 400

def number (d : Date) : Nat :=
  (List.range (d.month - 1)).foldl (fun n m => n + daysIn d.year (m + 1))
    (daysBefore d.year + d.day)

def text (d : Date) : String := padded 4 d.year ++ "-" ++ padded 2 d.month ++ "-" ++ padded 2 d.day

def parts (d : Date) : List Nat := [d.year, d.month, d.day]

end Date

structure Moment where
  date : Date
  hour : Nat
  minute : Nat
  second : Nat
  micro : Nat
  /-- The minutes by which the clock is ahead of universal time. -/
  ahead : Option Int
  deriving Repr, DecidableEq, Inhabited

namespace Moment

def isReal (m : Moment) : Bool :=
  m.date.isReal && m.hour < 24 && m.minute < 60 && m.second < 60 &&
    m.ahead.all fun minutes => minutes.natAbs < 1440

def clock (m : Moment) : Int :=
  (((m.date.number * 24 + m.hour) * 60 + m.minute) * 60 + m.second) * 1000000 + m.micro

/-- Whether two moments are the same one. Clocks of which one is not compared with universal time
never show the same moment. -/
def isSame (m n : Moment) : Bool :=
  match m.ahead, n.ahead with
  | none, none => m.clock == n.clock
  | some a, some b => m.clock - a * 60000000 == n.clock - b * 60000000
  | _, _ => false

def aheadText (minutes : Int) : String :=
  (if minutes < 0 then "-" else "+") ++ padded 2 (minutes.natAbs / 60) ++ ":" ++
    padded 2 (minutes.natAbs % 60)

def text (m : Moment) : String :=
  m.date.text ++ " " ++ padded 2 m.hour ++ ":" ++ padded 2 m.minute ++ ":" ++ padded 2 m.second ++
    (if m.micro == 0 then "" else "." ++ padded 6 m.micro) ++ (m.ahead.map aheadText).getD ""

/-- The parts of a moment one after the other; seconds and microseconds at the end are left out if
they are zero. -/
def parts (m : Moment) : List Nat :=
  m.date.parts ++ [m.hour, m.minute] ++
    if m.micro != 0 then [m.second, m.micro] else if m.second != 0 then [m.second] else []

end Moment

end DalSchema

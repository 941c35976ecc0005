import DalSchema.Value.Moment
import DalSchema.Value.Numeral
import DalSchema.Yaml.Fault

/-!
# Dates and moments as they are written

A date is written as year, month and day, a moment as a date, a time of day and, if it is known, the
distance from universal time. Reading comes in two steps: whether a text has this form, and whether
there is such a date or moment.
-/

namespace DalSchema.Yaml

structure WrittenTime where
  hour : List Char
  minute : List Char
  second : List Char
  fraction : List Char
  /-- The minutes by which the clock is ahead of universal time. -/
  ahead : Option Int
  deriving Repr, DecidableEq, Inhabited

structure Timestamp where
  year : List Char
  month : List Char
  day : List Char
  time : Option WrittenTime
  deriving Repr, DecidableEq, Inhabited

namespace Timestamp

def digits (least most : Nat) (cs : List Char) : Option (List Char × List Char) :=
  let found := (cs.take most).takeWhile Char.isDigit
  if found.length < least then none else some (found, cs.drop found.length)

def after (mark : Char) : List Char → Option (List Char)
  | c :: rest => if c == mark then some rest else none
  | [] => none

def isGap (c : Char) : Bool := c == ' ' || c == '\t'

def afterGap : List Char → Option (List Char)
  | [] => none
  | c :: rest =>
    if c == 'T' || c == 't' then some rest
    else if isGap c then some (rest.dropWhile isGap)
    else none

def fraction : List Char → List Char × List Char
  | '.' :: rest => (rest.takeWhile Char.isDigit, rest.dropWhile Char.isDigit)
  | rest => ([], rest)

def distance? (cs : List Char) : Option Int := do
  let (hours, cs) ← digits 1 2 cs
  let minutes ← match cs with
    | [] => pure []
    | cs => do
      let (minutes, cs) ← digits 2 2 (← after ':' cs)
      if cs.isEmpty then pure minutes else failure
  return Numeral.value 10 hours * 60 + Numeral.value 10 minutes

/-- Reads the distance from universal time to the end; it may be left out. -/
def ahead? (cs : List Char) : Option (Option Int) :=
  if cs.isEmpty then some none
  else
    match cs.dropWhile isGap with
    | ['Z'] => some (some 0)
    | '+' :: rest => (distance? rest).map some
    | '-' :: rest => (distance? rest).map fun minutes => some (-minutes)
    | _ => none

def time? (cs : List Char) : Option WrittenTime := do
  let (hour, cs) ← digits 1 2 cs
  let (minute, cs) ← digits 2 2 (← after ':' cs)
  let (second, cs) ← digits 2 2 (← after ':' cs)
  let (fraction, cs) := fraction cs
  return { hour, minute, second, fraction, ahead := ← ahead? cs }

def ofChars? (cs : List Char) : Option Timestamp := do
  let (year, cs) ← digits 4 4 cs
  let (month, cs) ← digits 1 2 (← after '-' cs)
  let (day, cs) ← digits 1 2 (← after '-' cs)
  let time ← match cs with
    | [] => pure none
    | cs => (time? (← afterGap cs)).map some
  return { year, month, day, time }

/-- Whether a timestamp needs no tag: a date alone needs two digits for month and day. -/
def isEvident (t : Timestamp) : Bool :=
  t.time.isSome || (t.month.length == 2 && t.day.length == 2)

def date (t : Timestamp) : Date :=
  ⟨Numeral.value 10 t.year, Numeral.value 10 t.month, Numeral.value 10 t.day⟩

/-- The first six digits of a fraction, zeros filled in. -/
def micro (fraction : List Char) : Nat :=
  let digits := fraction.take 6
  Numeral.value 10 (digits ++ List.replicate (6 - digits.length) '0')

def moment (t : Timestamp) (time : WrittenTime) : Moment where
  date := t.date
  hour := Numeral.value 10 time.hour
  minute := Numeral.value 10 time.minute
  second := Numeral.value 10 time.second
  micro := micro time.fraction
  ahead := time.ahead

end Timestamp

end DalSchema.Yaml

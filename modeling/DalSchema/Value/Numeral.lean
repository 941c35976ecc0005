import DalSchema.Text.Digits
import DalSchema.Text.Spacing
import DalSchema.Value.Binary64

/-!
# Numbers written as text

White space around a number does not count, and the digits may be those of any script. Whole numbers
are written in some base up to sixteen, and those of a base other than a power of two only with so
many digits. Other numbers have a point or an exponent, or are not finite.
-/

namespace DalSchema.Numeral

def digitValue? (c : Char) : Option Nat :=
  if '0' ≤ c && c ≤ '9' then some (c.toNat - '0'.toNat)
  else if 'a' ≤ c && c ≤ 'f' then some (c.toNat - 'a'.toNat + 10)
  else if 'A' ≤ c && c ≤ 'F' then some (c.toNat - 'A'.toNat + 10)
  else none

def value (base : Nat) (cs : List Char) : Nat :=
  cs.foldl (fun n c => n * base + (digitValue? c).getD 0) 0

def isDigits (base : Nat) (cs : List Char) : Bool :=
  !cs.isEmpty && cs.all fun c => (digitValue? c).any (· < base)

/-- A character as it counts in a number: the digits and spaces of all scripts are alike. -/
def plainChar (c : Char) : Char :=
  if c.toNat < 0x7f then c
  else if Text.isSpace c then ' '
  else ((Text.decimalValue? c).map Nat.digitChar).getD c

def isMargin (c : Char) : Bool := c == ' ' || (0x09 ≤ c.toNat && c.toNat ≤ 0x0d)

def chars (cs : List Char) : List Char :=
  let cs := (cs.map plainChar).dropWhile isMargin
  (cs.reverse.dropWhile isMargin).reverse

/-- Takes a sign off the front; true stands for minus. -/
def splitSign : List Char → Bool × List Char
  | '-' :: rest => (true, rest)
  | '+' :: rest => (false, rest)
  | rest => (false, rest)

def dropMark (base : Nat) : List Char → List Char
  | '0' :: c :: rest =>
    if (base, c.toLower) ∈ [(2, 'b'), (8, 'o'), (16, 'x')] then rest else '0' :: c :: rest
  | rest => rest

/-- The number of digits up to which a number of a base that is no power of two is read. -/
def longest : Nat := 4300

def whole? (base : Nat) (cs : List Char) : Option Int :=
  let (negative, cs) := splitSign (chars cs)
  let digits := dropMark base cs
  if !isDigits base digits || (base == 10 && longest < digits.length) then none
  else
    let n : Int := value base digits
    some (if negative then -n else n)

def exponent? : List Char → Option Int
  | [] => some 0
  | c :: rest =>
    let (negative, digits) := splitSign rest
    if c.toLower == 'e' && isDigits 10 digits then
      let n : Int := value 10 digits
      some (if negative then -n else n)
    else none

def magnitude? (negative : Bool) (cs : List Char) : Option Binary64 :=
  let word := String.ofList (cs.map Char.toLower)
  if word == "inf" || word == "infinity" then some (.infinite negative)
  else if word == "nan" then some .undefined
  else
    let whole := cs.takeWhile Char.isDigit
    let (fraction, rest) := match cs.dropWhile Char.isDigit with
      | '.' :: rest => (rest.takeWhile Char.isDigit, rest.dropWhile Char.isDigit)
      | rest => ([], rest)
    if whole.isEmpty && fraction.isEmpty then none
    else (exponent? rest).map fun exponent =>
      .ofDecimal negative (value 10 (whole ++ fraction)) (exponent - fraction.length)

def real? (cs : List Char) : Option Binary64 :=
  let (negative, cs) := splitSign (chars cs)
  magnitude? negative cs

end DalSchema.Numeral

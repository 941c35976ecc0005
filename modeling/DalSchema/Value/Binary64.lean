/-!
# Binary numbers of double precision

A number with a fraction or an exponent is the nearest one that has a significand of 53 bits; of two
that are equally near it is the one with an even significand. The smallest number above zero is the
unit, and every finite number is a multiple of it, so that sums and products are first found exactly
and then brought back to 53 bits.

A number is shown by the fewest decimal digits that are read back as this number, and of those the
nearest. The point is written out unless it would stand more than sixteen places after the first
digit or four or more places before it.
-/

namespace DalSchema

inductive Binary64 where
  /-- The number of `significand * 2 ^ power` units with a sign; zero has a sign too. -/
  | finite (negative : Bool) (significand power : Nat)
  | infinite (negative : Bool)
  | undefined
  deriving Repr, DecidableEq, Inhabited

namespace Binary64

/-! ## Rounding -/

def unitsInOne : Nat := Nat.pow 2 1074

def precision : Nat := 53

def powerLimit : Nat := 2046

/-- The quotient of two numbers to the nearest whole number, and to the even one of two. -/
def nearest (n d : Nat) : Nat :=
  let q := n / d
  let twice := 2 * (n % d)
  if d < twice || (twice == d && q % 2 == 1) then q + 1 else q

def ofUnits (negative : Bool) (n d : Nat) : Binary64 :=
  let power := Nat.log2 (n / d) - (precision - 1)
  let significand := nearest n (d * Nat.pow 2 power)
  let (significand, power) :=
    if significand == Nat.pow 2 precision then (Nat.pow 2 (precision - 1), power + 1)
    else (significand, power)
  if powerLimit ≤ power then .infinite negative else .finite negative significand power

def ofRatio (negative : Bool) (n d : Nat) : Binary64 := ofUnits negative (n * unitsInOne) d

def zero (negative : Bool) : Binary64 := .finite negative 0 0

def ofDecimal (negative : Bool) (digits : Nat) (exponent : Int) : Binary64 :=
  let size := exponent + (Nat.toDigits 10 digits).length
  if digits == 0 || size < -330 then zero negative
  else if 310 < size then .infinite negative
  else if exponent < 0 then ofRatio negative digits (Nat.pow 10 exponent.natAbs)
  else ofRatio negative (digits * Nat.pow 10 exponent.toNat) 1

def ofNat (n : Nat) : Binary64 := ofRatio false n 1

/-! ## Arithmetic -/

def neg : Binary64 → Binary64
  | finite negative significand power => .finite (!negative) significand power
  | infinite negative => .infinite (!negative)
  | undefined => .undefined

def units (negative : Bool) (significand power : Nat) : Int :=
  let n : Int := significand * Nat.pow 2 power
  if negative then -n else n

def add : Binary64 → Binary64 → Binary64
  | finite s m p, finite t n q =>
    let sum := units s m p + units t n q
    ofUnits (if sum == 0 then s && t else sum < 0) sum.natAbs 1
  | infinite s, infinite t => if s == t then .infinite s else .undefined
  | infinite s, finite _ _ _ | finite _ _ _, infinite s => .infinite s
  | undefined, _ | _, undefined => .undefined

def mul : Binary64 → Binary64 → Binary64
  | finite s m p, finite t n q =>
    ofUnits (s != t) (m * n * Nat.pow 2 (p + q)) unitsInOne
  | infinite s, infinite t => .infinite (s != t)
  | infinite s, finite t n _ | finite t n _, infinite s =>
    if n == 0 then .undefined else .infinite (s != t)
  | undefined, _ | _, undefined => .undefined

def whole? : Binary64 → Option Int
  | finite negative significand power =>
    let n := units negative significand power
    if n.natAbs % unitsInOne == 0 then some (n / unitsInOne) else none
  | _ => none

def isZero : Binary64 → Bool
  | finite _ 0 _ => true
  | _ => false

/-! ## Text -/

def pointOf (n : Nat) : Int :=
  (Nat.toDigits 10 (n * Nat.pow 10 330 / unitsInOne)).length - 330

/-- The `count` first digits of `n` units, or those of the next number of so many digits, if these
are read back as the same number. The nearer ones are preferred. -/
def digitsOf? (n : Nat) (point : Int) (count : Nat) : Option (Nat × Int) :=
  let exponent := point - count
  let (top, bottom) :=
    if exponent < 0 then (n * Nat.pow 10 exponent.natAbs, unitsInOne)
    else (n, unitsInOne * Nat.pow 10 exponent.toNat)
  let below := top / bottom
  let best := nearest top bottom
  let other := if best == below then below + 1 else below
  ([best, other].find? fun digits => ofDecimal false digits exponent == ofUnits false n 1).map
    fun digits => (digits, exponent)

def dropZeros : Nat → Nat → Int → Nat × Int
  | 0, digits, exponent => (digits, exponent)
  | fuel + 1, digits, exponent =>
    if digits != 0 && digits % 10 == 0 then dropZeros fuel (digits / 10) (exponent + 1)
    else (digits, exponent)

/-- The fewest digits of `n` units, and their exponent. Seventeen digits are always enough. -/
def shortest (n : Nat) : Nat × Int :=
  let point := pointOf n
  let counts := (List.range 17).map (· + 1)
  let (digits, exponent) := (counts.findSome? (digitsOf? n point)).getD (0, 0)
  dropZeros 20 digits exponent

def sign (negative : Bool) : String := if negative then "-" else ""

def exponentText (e : Int) : String :=
  let digits := Nat.toDigits 10 e.natAbs
  "e" ++ (if e < 0 then "-" else "+") ++
    String.ofList (List.replicate (2 - digits.length) '0' ++ digits)

def positional (digits : List Char) (point : Int) : String :=
  if point ≤ 0 then "0." ++ String.ofList (List.replicate point.natAbs '0' ++ digits)
  else
    let whole := point.toNat
    if digits.length ≤ whole then
      String.ofList (digits ++ List.replicate (whole - digits.length) '0') ++ ".0"
    else String.ofList (digits.take whole ++ '.' :: digits.drop whole)

def scientific (digits : List Char) (point : Int) : String :=
  String.ofList (digits.take 1) ++
    (if digits.length ≤ 1 then "" else "." ++ String.ofList (digits.drop 1)) ++
    exponentText (point - 1)

def text : Binary64 → String
  | undefined => "nan"
  | infinite negative => sign negative ++ "inf"
  | finite negative 0 _ => sign negative ++ "0.0"
  | finite negative significand power =>
    let (digits, exponent) := shortest (significand * Nat.pow 2 power)
    let chars := Nat.toDigits 10 digits
    let point := chars.length + exponent
    sign negative ++
      (if point ≤ -4 || 16 < point then scientific chars point else positional chars point)

end Binary64

end DalSchema

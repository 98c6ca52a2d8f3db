import StageFusion.Binary64

/-! Decimal forms of binary floating-point numbers.

`shortest` gives the fewest decimal digits that read back as the number, and of those the nearest;
`text` lays them out, positionally from `10 ^ (-4)` up to below `10 ^ 16` and with an exponent
elsewhere. `fixed` rounds the exact value to a number of places, a tie going to the even digit.
`ofDecimal` reads a decimal, rounding once. -/

namespace StageFusion.Binary64

/-- A decimal floating-point form: the digits of a significand with one digit before the point,
and the exponent of ten. -/
structure Scientific where
  digits : List Char
  exponent : Int
  deriving DecidableEq, Repr

/-- The fraction `n · 10 ^ e` as numerator and denominator. -/
def scaleTen (n : Nat) (e : Int) : Nat × Nat :=
  if 0 ≤ e then (n * Nat.pow 10 e.toNat, 1) else (n, Nat.pow 10 e.natAbs)

/-- The magnitude `n · 10 ^ e` in units, rounded. -/
def unitsOfDecimal (n : Nat) (e : Int) : Nat :=
  let (num, den) := scaleTen n e
  roundUnits (num * unitsPerOne) den

/-- The exponent of ten of the leading decimal digit of a positive magnitude. The estimate from
the binary exponent is at most one off. -/
def leadingExponent (units : Nat) : Int :=
  let atLeastTen (e : Int) : Bool :=
    let (num, den) := scaleTen 1 e
    num * unitsPerOne ≤ units * den
  let estimate := (((units.log2 : Int) - 1074) * 30103).fdiv 100000
  if atLeastTen (estimate + 1) then estimate + 1
  else if atLeastTen estimate then estimate
  else estimate - 1

/-- The nearest of the two neighbours of a magnitude on the grid of multiples of `10 ^ e`, among
those that read back as the magnitude; of two equally near ones the even. -/
def nearestOnGrid? (units : Nat) (e : Int) : Option Nat :=
  let (num, den) := scaleTen 1 (-e)
  let top := units * num
  let bottom := unitsPerOne * den
  let below := top / bottom
  let nearest := roundDiv top bottom
  let other := if nearest = below then below + 1 else below
  if unitsOfDecimal nearest e = units then some nearest
  else if unitsOfDecimal other e = units then some other
  else none

/-- Searches the grids from coarse to fine, `fuel` of them, for one with a number that reads back
as the magnitude. -/
def searchShortest (units : Nat) : Nat → Int → Nat × Int
  | 0, e => (roundDiv (units * (scaleTen 1 (-e)).1) (unitsPerOne * (scaleTen 1 (-e)).2), e)
  | fuel + 1, e =>
    match nearestOnGrid? units e with
    | some n => (n, e)
    | none => searchShortest units fuel (e - 1)

/-- The shortest decimal that reads back as a positive magnitude. Seventeen digits always do. -/
def shortest (units : Nat) : Scientific :=
  let (n, e) := searchShortest units 16 (leadingExponent units)
  let digits := Nat.toDigits 10 n
  { digits := (digits.reverse.dropWhile (· == '0')).reverse
    exponent := e + (digits.length - 1 : Nat) }

/-- An exponent with its sign and at least two digits. -/
def exponentText (e : Int) : List Char :=
  let digits := Nat.toDigits 10 e.natAbs
  (if e < 0 then '-' else '+') :: (if digits.length < 2 then '0' :: digits else digits)

/-- The layout of a decimal: a point with at least one digit on either side, or one digit before
the point and an exponent. -/
def Scientific.text (x : Scientific) : List Char :=
  if -4 ≤ x.exponent ∧ x.exponent < 16 then
    if x.exponent < 0 then
      '0' :: '.' :: List.replicate (x.exponent.natAbs - 1) '0' ++ x.digits
    else
      let whole := x.exponent.toNat + 1
      let padded := x.digits ++ List.replicate (whole - x.digits.length) '0'
      let places := padded.drop whole
      padded.take whole ++ '.' :: (if places.isEmpty then ['0'] else places)
  else
    let places := x.digits.drop 1
    x.digits.take 1 ++ (if places.isEmpty then [] else '.' :: places)
      ++ 'e' :: exponentText x.exponent

def signText (negative : Bool) : String :=
  if negative then "-" else ""

/-- The shortest text that reads back as the number. -/
def text : Binary64 → String
  | finite s 0 => signText s ++ "0.0"
  | finite s m => signText s ++ String.ofList (shortest m).text
  | infinite s => signText s ++ "inf"
  | nan => "nan"

/-- The exact value rounded to a number of decimal places, a tie going to the even digit. The sign
stays when all the digits shown are zeros. -/
def fixed (places : Nat) : Binary64 → String
  | finite s m =>
    let digits := Nat.toDigits 10 (roundDiv (m * Nat.pow 10 places) unitsPerOne)
    let padded := List.replicate (places + 1 - digits.length) '0' ++ digits
    let whole := padded.length - places
    signText s ++ String.ofList (padded.take whole ++ '.' :: padded.drop whole)
  | infinite s => signText s ++ "inf"
  | nan => "nan"

/-- The number nearest to `± n · 10 ^ e`; one beyond the format is infinite. Exponents so large or
so small that they decide the result alone are not computed with. -/
def ofDecimal (negative : Bool) (n : Nat) (e : Int) : Binary64 :=
  let top := e + (Nat.toDigits 10 n).length
  if n = 0 ∨ top < -400 then finite negative 0
  else if 400 < top then infinite negative
  else
    let units := unitsOfDecimal n e
    if units ≤ maxUnits then finite negative units else infinite negative

end StageFusion.Binary64

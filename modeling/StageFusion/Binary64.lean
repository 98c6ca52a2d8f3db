/-! Binary floating-point numbers of 64 bits, in exact arithmetic.

A finite number is a sign and a natural number of units, a unit being the smallest positive number
of the format, `2 ^ (-1074)`. Every finite number of the format is a whole number of units, so
sums and comparisons are exact in `Nat` and `Int`, and rounding is one division by a power of two.
`ofRatio?` is the number nearest to a fraction, a tie going to the even neighbour; it has no value
when that number would be beyond the largest finite one. -/

namespace StageFusion

/-- A binary floating-point number: signed zeros, finite numbers, infinities, and one NaN. -/
inductive Binary64 where
  | finite (negative : Bool) (units : Nat)
  | infinite (negative : Bool)
  | nan
  deriving DecidableEq, Repr, Inhabited

namespace Binary64

/-- Significand width in bits. -/
def precision : Nat := 53

def unitsPerOne : Nat := Nat.pow 2 1074

/-- The largest finite magnitude, in units. -/
def maxUnits : Nat := (Nat.pow 2 precision - 1) * Nat.pow 2 2045

/-- The quotient of two naturals rounded to the nearest natural, a tie going to the even one. -/
def roundDiv (num den : Nat) : Nat :=
  let q := num / den
  let twice := 2 * (num % den)
  if twice < den then q
  else if den < twice then q + 1
  else if q % 2 = 0 then q else q + 1

/-- The width of the step between neighbouring magnitudes around `n` units, as a power of two. -/
def stepExponent (n : Nat) : Nat :=
  n.log2 + 1 - precision

/-- The magnitude nearest to `num / den` units, a tie going to the even significand, without an
upper limit. -/
def roundUnits (num den : Nat) : Nat :=
  let step := Nat.pow 2 (stepExponent (num / den))
  roundDiv num (den * step) * step

/-- The finite number nearest to a magnitude of `num / den` units, if it is within the format. -/
def ofUnits? (negative : Bool) (num den : Nat) : Option Binary64 :=
  let units := roundUnits num den
  if units ≤ maxUnits then some (finite negative units) else none

/-- The number nearest to `num / den`, if it is within the format. A zero numerator gives the
positive zero. -/
def ofRatio? (num : Int) (den : Nat) : Option Binary64 :=
  ofUnits? (num < 0) (num.natAbs * unitsPerOne) den

def zero : Binary64 := finite false 0

def one : Binary64 := finite false unitsPerOne

/-- The signed number of units of a finite magnitude. -/
def signed (negative : Bool) (units : Nat) : Int :=
  if negative then -(units : Int) else units

/-- Equality of numbers: the zeros are equal, and a NaN equals nothing. -/
def equals : Binary64 → Binary64 → Bool
  | finite s m, finite t n => signed s m == signed t n
  | infinite s, infinite t => s == t
  | _, _ => false

def equalsInt : Binary64 → Int → Bool
  | finite s m, i => signed s m == i * unitsPerOne
  | _, _ => false

/-- Whether a number is at least an integer. A NaN is not. -/
def atLeastInt : Binary64 → Int → Bool
  | finite s m, i => i * unitsPerOne ≤ signed s m
  | infinite s, _ => !s
  | nan, _ => false

/-- The sum with one, rounded; a sum beyond the format is infinite. -/
def succ : Binary64 → Binary64
  | finite s m =>
    let sum := signed s m + unitsPerOne
    (ofUnits? (sum < 0) sum.natAbs 1).getD (infinite (sum < 0))
  | x => x

def toInt? : Binary64 → Option Int
  | finite s m => if m % unitsPerOne = 0 then some (signed s (m / unitsPerOne)) else none
  | _ => none

def isZero : Binary64 → Bool
  | finite _ m => m == 0
  | _ => false

end Binary64

end StageFusion

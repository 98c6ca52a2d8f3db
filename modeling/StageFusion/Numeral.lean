import StageFusion.Fault

/-! Numerals of limited length.

A number is written in decimal, and a numeral of more than `numeralLimit` digits is refused in both
directions. -/

namespace StageFusion

/-- The least natural number whose numeral is too long. -/
def numeralBound : Nat := Nat.pow 10 numeralLimit

/-- The numeral of an integer, unless it has too many digits. -/
def writeNumeral (i : Int) : Except Fault String :=
  if i.natAbs < numeralBound then .ok (toString i) else .error .numeralWritten

/-- The numeral of a bound, or the infinity sign. -/
def Multiplicity.write : Multiplicity → Except Fault String
  | .exact n => writeNumeral n
  | .unbounded => .ok "∞"

theorem Multiplicity.write_of_lt {n : Nat} (h : n < numeralBound) :
    (Multiplicity.exact n).write = .ok (toString (n : Int)) := by
  simp [Multiplicity.write, writeNumeral, h]

end StageFusion

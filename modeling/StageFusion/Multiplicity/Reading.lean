import StageFusion.Text.Blank
import StageFusion.Text.Digit
import StageFusion.Text.Lower
import StageFusion.Value.Display

/-! Counts and multiplicities from values.

A count is a non-negative integer; a truth value is none. A multiplicity is a count, null for
`unbounded`, a multiplicity, or a text that without outer blanks and in small letters is either a name
of `unbounded` or a numeral in decimal digits of any scripts. -/

namespace StageFusion

/-- The natural number that a value is. -/
def Value.toCount (v : Value) : Except Fault Nat :=
  match v with
  | .int i => if 0 ≤ i then .ok i.toNat else do throw (.countNegative (← writeNumeral i))
  | v => .error (.countType v.sort)

theorem Value.toCount_natCast (k : Nat) : (Value.int k).toCount = .ok k := by
  simp [toCount]

namespace Multiplicity

/-- The texts for `unbounded`, in small letters. -/
def unboundedNames : List String :=
  ["∞", "inf", "infinity", "unbounded"]

def isUnboundedName (text : List Char) : Bool :=
  unboundedNames.contains (String.ofList text)

/-- The number that a text of decimal digits denotes, if it is one and has at least one digit. -/
def readDigits? (text : List Char) : Option (Except Fault Nat) :=
  match text, Text.digitValues? text with
  | _ :: _, some digits =>
    some (if digits.length ≤ numeralLimit then .ok (Text.ofDigits digits)
      else .error (.numeralRead digits.length))
  | _, _ => none

def ofText (text : String) : Except Fault Multiplicity :=
  let inner := Text.lower (Text.trim text.toList)
  if isUnboundedName inner then .ok unbounded
  else
    match readDigits? inner with
    | some number => exact <$> number
    | none => .error (.multiplicity (Text.quote text))

def ofValue (v : Value) : Except Fault Multiplicity :=
  match v with
  | .multiplicity m => .ok m
  | .null => .ok unbounded
  | .str s => ofText s
  | .int i => exact <$> (Value.int i).toCount
  | v => do throw (.multiplicity (← v.display))

/-- A multiplicity as a report holds it: an integer, or the text of the infinity sign. -/
def toValue : Multiplicity → Value
  | exact n => .int n
  | unbounded => .str "∞"

theorem ofValue_toValue_exact (n : Nat) : ofValue (exact n).toValue = .ok (exact n) := by
  rw [toValue, ofValue, Value.toCount_natCast]
  rfl

end Multiplicity

end StageFusion

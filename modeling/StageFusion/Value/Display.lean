import StageFusion.Numeral
import StageFusion.Value
import StageFusion.Binary64.Decimal

/-! The text of a value in a message.

`Value.display` writes a value with its texts quoted, `Value.plain` leaves an outermost text as it is.
Both fail on a value that holds an integer with too long a numeral. -/

namespace StageFusion.Value

/-- A multiplicity as a message shows it within a value. -/
def displayMultiplicity : Multiplicity → Except Fault String
  | .exact n => do return "Exact(n=" ++ (← writeNumeral n) ++ ")"
  | .unbounded => .ok "Unbounded()"

/-- Joins texts with a comma and a blank. -/
def commaSeparated (parts : List String) : String :=
  ", ".intercalate parts

mutual

/-- The text of a value, with quoted texts. -/
def display : Value → Except Fault String
  | null => .ok "None"
  | bool b => .ok (if b then "True" else "False")
  | int i => writeNumeral i
  | float x => .ok x.text
  | str s => .ok (Text.quote s)
  | list items => do return "[" ++ commaSeparated (← displayAll items) ++ "]"
  | dict entries => do return "\x7b" ++ commaSeparated (← displayEntries entries) ++ "\x7d"
  | pair a b => do return "(" ++ (← a.display) ++ ", " ++ (← b.display) ++ ")"
  | multiplicity m => displayMultiplicity m

def displayAll : List Value → Except Fault (List String)
  | [] => .ok []
  | v :: rest => do return (← v.display) :: (← displayAll rest)

def displayEntries : List (String × Value) → Except Fault (List String)
  | [] => .ok []
  | (key, v) :: rest => do
    let shown := Text.quote key ++ ": " ++ (← v.display)
    return shown :: (← displayEntries rest)

end

/-- The text of a value, an outermost text standing for itself. -/
def plain : Value → Except Fault String
  | str s => .ok s
  | multiplicity m => m.write
  | v => v.display

end StageFusion.Value

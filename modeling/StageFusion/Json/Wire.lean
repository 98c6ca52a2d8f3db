import StageFusion.Json.Writer
import StageFusion.Numeral

/-! What is sent over a connection: texts in UTF-8, and values as compact JSON texts.

Not every text and value can be sent. A text must not hold surrogates, and the numbers of a value
have to be finite and must not need too long a numeral. `sendText` and `sendValue` fail on the
first thing that cannot be sent, the numbers of a value coming before its texts. Main statement:
`sendText_eq_ok_iff`, what is sent is the UTF-8 form of a text without surrogates. -/

namespace StageFusion

def sendText (text : String) : Except Fault (List UInt8) :=
  match Text.surrogateRun? 0 text.toList with
  | none => .ok text.toUTF8.data.toList
  | some run => .error (.surrogatesSent run)

theorem sendText_eq_ok_iff {text : String} {bytes : List UInt8} :
    sendText text = .ok bytes ↔
      (∀ c ∈ text.toList, Text.standsForSurrogate c = false) ∧
        bytes = text.toUTF8.data.toList := by
  have hrun : Text.surrogateRun? 0 text.toList = none ↔ _ := Text.surrogateRun?_eq_none_iff
  rw [← hrun, sendText]
  cases Text.surrogateRun? 0 text.toList <;> simp [eq_comm]

namespace Json

mutual

/-- Fails on the first number of a value that has no JSON text. -/
def checkNumbers : Value → Except Fault Unit
  | .int i => do let _ ← writeNumeral i
  | .float (.finite ..) => .ok ()
  | .float _ => .error .floatSent
  | .list items => checkAll items
  | .dict entries => checkEntries entries
  | .pair a b => do checkNumbers a; checkNumbers b
  | .multiplicity m => do let _ ← m.write
  | .null | .bool _ | .str _ => .ok ()

def checkAll : List Value → Except Fault Unit
  | [] => .ok ()
  | v :: rest => do checkNumbers v; checkAll rest

def checkEntries : List (String × Value) → Except Fault Unit
  | [] => .ok ()
  | (_, v) :: rest => do checkNumbers v; checkEntries rest

end

end Json

def sendValue (v : Value) : Except Fault (List UInt8) := do
  Json.checkNumbers v
  sendText (Json.writeCompact v)

end StageFusion

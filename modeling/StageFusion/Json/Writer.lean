import StageFusion.Value
import StageFusion.Binary64.Decimal
import StageFusion.Text.Hex
import StageFusion.Text.Surrogate

/-! JSON texts of values.

There are two forms. `write` gives ASCII: characters outside its printable part are written as
escaped UTF-16 code units. `writeCompact` escapes only what a JSON text has to. A pair is written as
an array of two, a multiplicity as an integer or as the text of the infinity sign. -/

namespace StageFusion.Json

/-- The UTF-16 code units of a character; a surrogate is one by itself. -/
def codeUnits (c : Char) : List Nat :=
  let n := Text.codePoint c
  if n < 0x10000 then [n]
  else [0xD800 + (n - 0x10000) / 0x400, 0xDC00 + (n - 0x10000) % 0x400]

/-- A character within a JSON text in ASCII. -/
def escapeAscii (c : Char) : List Char :=
  if c = '"' ∨ c = '\\' then ['\\', c]
  else if c = '\n' then ['\\', 'n']
  else if c = '\r' then ['\\', 'r']
  else if c = '\t' then ['\\', 't']
  else if 0x20 ≤ c.toNat ∧ c.toNat < 0x7F then [c]
  else (codeUnits c).flatMap fun u => '\\' :: 'u' :: Text.hexDigits 4 u

/-- A character within a JSON text of any characters: only the quote, the backslash and the control
characters below the blank are escaped. -/
def escapeControl (c : Char) : List Char :=
  if c = '\x08' then ['\\', 'b']
  else if c = '\x0c' then ['\\', 'f']
  else if c.toNat < 0x7F then escapeAscii c
  else [c]

def writeText (escape : Char → List Char) (s : String) : String :=
  String.ofList ('"' :: s.toList.flatMap escape ++ ['"'])

/-- A floating-point number; the infinities and NaN have names. -/
def writeFloat : Binary64 → String
  | .infinite s => if s then "-Infinity" else "Infinity"
  | .nan => "NaN"
  | x => x.text

mutual

/-- The JSON text of a value, with a way to write characters. -/
def writeWith (escape : Char → List Char) : Value → String
  | .null => "null"
  | .bool b => if b then "true" else "false"
  | .int i => toString i
  | .float x => writeFloat x
  | .str s => writeText escape s
  | .list items => "[" ++ ",".intercalate (writeAllWith escape items) ++ "]"
  | .dict entries => "\x7b" ++ ",".intercalate (writeEntriesWith escape entries) ++ "\x7d"
  | .pair a b => "[" ++ writeWith escape a ++ "," ++ writeWith escape b ++ "]"
  | .multiplicity (.exact n) => toString n
  | .multiplicity .unbounded => writeText escape "∞"

def writeAllWith (escape : Char → List Char) : List Value → List String
  | [] => []
  | v :: rest => writeWith escape v :: writeAllWith escape rest

def writeEntriesWith (escape : Char → List Char) : List (String × Value) → List String
  | [] => []
  | (key, v) :: rest =>
    (writeText escape key ++ ":" ++ writeWith escape v) :: writeEntriesWith escape rest

end

/-- The JSON text of a value in ASCII. -/
def write (v : Value) : String := writeWith escapeAscii v

/-- The JSON text of a value with as few escapes as there can be. -/
def writeCompact (v : Value) : String := writeWith escapeControl v

end StageFusion.Json

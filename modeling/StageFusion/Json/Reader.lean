import StageFusion.Numeral
import StageFusion.Value
import StageFusion.Binary64.Decimal
import StageFusion.Text.Encoding
import StageFusion.Text.Hex

/-! Values from JSON texts.

A number without fraction and exponent is an integer of any size up to `numeralLimit` digits, every
other number a floating-point one; `NaN`, `Infinity` and `-Infinity` are read as well. Of entries
with one key the last counts, at the place of the first. Arrays and objects may be nested up to
`nestingLimit`. -/

namespace StageFusion.Json

/-- Why a text was not read. -/
inductive Refusal where
  /-- The text is not JSON. -/
  | malformed
  /-- The text has an integer with too long a numeral. -/
  | numeral (digits : Nat)
  /-- The text has values nested too deeply. -/
  | nesting
  /-- The bytes are no text. -/
  | encoding
  deriving DecidableEq, Repr

/-- The most arrays and objects that may be open at once. -/
def nestingLimit : Nat := 960

/-- The blanks between the tokens of a JSON text. -/
def isSpace (c : Char) : Bool :=
  c == ' ' || c == '\t' || c == '\n' || c == '\r'

def skipSpace (text : List Char) : List Char :=
  text.dropWhile isSpace

def isDigit (c : Char) : Bool :=
  '0' ≤ c && c ≤ '9'

/-! ## Texts -/

/-- The character of an escape of one letter. -/
def escapedChar? (c : Char) : Option Char :=
  match c with
  | '"' => some '"'
  | '\\' => some '\\'
  | '/' => some '/'
  | 'b' => some '\x08'
  | 'f' => some '\x0c'
  | 'n' => some '\n'
  | 'r' => some '\r'
  | 't' => some '\t'
  | _ => none

/-- The number that four hexadecimal digits denote. -/
def codeUnit? (a b c d : Char) : Option Nat := do
  let high := 16 * (← Text.hexValue? a) + (← Text.hexValue? b)
  let low := 16 * (← Text.hexValue? c) + (← Text.hexValue? d)
  return 256 * high + low

/-- Reads up to the closing quote, collecting code units and code points in reverse. -/
def readUnits (acc : List Nat) : List Char → Option (List Nat × List Char)
  | [] => none
  | '"' :: rest => some (acc.reverse, rest)
  | '\\' :: 'u' :: a :: b :: c :: d :: rest =>
    match codeUnit? a b c d with
    | some u => readUnits (u :: acc) rest
    | none => none
  | '\\' :: c :: rest =>
    match escapedChar? c with
    | some e => readUnits (e.toNat :: acc) rest
    | none => none
  | c :: rest => if c = '\\' ∨ c.toNat < 0x20 then none else readUnits (c.toNat :: acc) rest

/-- Reads a text whose opening quote has been read. -/
def readText (text : List Char) : Except Refusal (String × List Char) :=
  match readUnits [] text with
  | some (units, rest) => .ok (String.ofList (Text.joinUnits units), rest)
  | none => .error .malformed

/-! ## Numbers -/

def digitsValue (digits : List Char) : Nat :=
  digits.foldl (fun n c => 10 * n + (c.toNat - '0'.toNat)) 0

/-- Splits off the digits of a fraction, if there are any after a point. -/
def splitFraction (text : List Char) : List Char × List Char :=
  match text with
  | '.' :: rest =>
    let digits := rest.takeWhile isDigit
    if digits.isEmpty then ([], text) else (digits, rest.dropWhile isDigit)
  | _ => ([], text)

/-- Splits off an exponent, if there is one with digits. -/
def splitExponent (text : List Char) : Option Int × List Char :=
  match text with
  | c :: rest =>
    if c = 'e' ∨ c = 'E' then
      let (negative, rest) : Bool × List Char :=
        match rest with
        | '-' :: rest => (true, rest)
        | '+' :: rest => (false, rest)
        | _ => (false, rest)
      let digits := rest.takeWhile isDigit
      if digits.isEmpty then (none, text)
      else
        let magnitude : Int := digitsValue digits
        (some (if negative then -magnitude else magnitude), rest.dropWhile isDigit)
    else (none, text)
  | [] => (none, text)

/-- Reads a number after its sign: no leading zeros, at least one digit. -/
def readNumber (negative : Bool) (text : List Char) : Except Refusal (Value × List Char) :=
  let whole : List Char :=
    match text with
    | '0' :: _ => ['0']
    | _ => text.takeWhile isDigit
  if whole.isEmpty then .error .malformed
  else
    let (fraction, rest) := splitFraction (text.drop whole.length)
    let (exponent, rest) := splitExponent rest
    if fraction.isEmpty ∧ exponent.isNone then
      if numeralLimit < whole.length then .error (.numeral whole.length)
      else
        let magnitude : Int := digitsValue whole
        .ok (.int (if negative then -magnitude else magnitude), rest)
    else
      let e := exponent.getD 0 - fraction.length
      .ok (.float (Binary64.ofDecimal negative (digitsValue (whole ++ fraction)) e), rest)

/-! ## Values -/

/-- The rest of a text after a word, if it starts with the word. -/
def afterWord? (word : String) (text : List Char) : Option (List Char) :=
  if word.toList.isPrefixOf text then some (text.drop word.length) else none

/-- Reads a scalar that is not a text. -/
def readScalar (text : List Char) : Except Refusal (Value × List Char) :=
  let words : List (String × Value) :=
    [("null", .null), ("true", .bool true), ("false", .bool false), ("NaN", .float .nan),
      ("Infinity", .float (.infinite false)), ("-Infinity", .float (.infinite true))]
  match words.findSome? fun (word, v) => (afterWord? word text).map fun rest => (v, rest) with
  | some found => .ok found
  | none =>
    match text with
    | '-' :: rest => readNumber true rest
    | _ => readNumber false text

/-- Adds an entry at the end, or in the place of an entry with the same key. -/
def putEntry (entries : List (String × Value)) (key : String) (v : Value) :
    List (String × Value) :=
  if entries.any (·.1 == key) then entries.map fun e => if e.1 == key then (key, v) else e
  else entries ++ [(key, v)]

mutual

/-- Reads a value within `depth` open arrays and objects; every nested value and every further
element takes one unit of fuel. -/
def readValue : Nat → Nat → List Char → Except Refusal (Value × List Char)
  | 0, _, _ => .error .malformed
  | fuel + 1, depth, text =>
    match text with
    | '"' :: rest => do
      let (s, rest) ← readText rest
      return (.str s, rest)
    | '[' :: rest =>
      if nestingLimit ≤ depth then .error .nesting
      else
        match skipSpace rest with
        | ']' :: rest => .ok (.list [], rest)
        | rest => readItems fuel (depth + 1) [] rest
    | '{' :: rest =>
      if nestingLimit ≤ depth then .error .nesting
      else
        match skipSpace rest with
        | '}' :: rest => .ok (.dict [], rest)
        | rest => readEntries fuel (depth + 1) [] rest
    | _ => readScalar text

def readItems : Nat → Nat → List Value → List Char → Except Refusal (Value × List Char)
  | 0, _, _, _ => .error .malformed
  | fuel + 1, depth, acc, text => do
    let (v, rest) ← readValue fuel depth text
    match skipSpace rest with
    | ',' :: rest => readItems fuel depth (v :: acc) (skipSpace rest)
    | ']' :: rest => return (.list (v :: acc).reverse, rest)
    | _ => .error .malformed

def readEntries :
    Nat → Nat → List (String × Value) → List Char → Except Refusal (Value × List Char)
  | 0, _, _, _ => .error .malformed
  | fuel + 1, depth, acc, text =>
    match text with
    | '"' :: rest => do
      let (key, rest) ← readText rest
      match skipSpace rest with
      | ':' :: rest => do
        let (v, rest) ← readValue fuel depth (skipSpace rest)
        match skipSpace rest with
        | ',' :: rest => readEntries fuel depth (putEntry acc key v) (skipSpace rest)
        | '}' :: rest => return (.dict (putEntry acc key v), rest)
        | _ => .error .malformed
      | _ => .error .malformed
    | _ => .error .malformed

end

/-- The value of a JSON text. A text has fewer values than twice its characters, so the fuel does
not run out. -/
def readChars (text : List Char) : Except Refusal Value := do
  let text := skipSpace text
  let (v, rest) ← readValue (2 * text.length + 2) 0 text
  if (skipSpace rest).isEmpty then return v else throw .malformed

def read (text : String) : Except Refusal Value :=
  readChars text.toList

def readBytes (bytes : List UInt8) : Except Refusal Value :=
  match Text.decode? bytes with
  | some text => readChars text
  | none => .error .encoding

end StageFusion.Json

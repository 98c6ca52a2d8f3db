import StageFusion.Text.Surrogate

/-! Texts as bytes.

A text is written in UTF-8, which has no bytes for a surrogate. Bytes are read in the encoding that
the zeros among the first four of them show, under the assumption that the text starts with an
ASCII character: in UTF-8, or in UTF-16 or UTF-32 of either byte order. -/

namespace StageFusion.Text

/-! ## Writing -/

/-- The first surrogates of a text that stand side by side. -/
structure SurrogateRun where
  /-- The number of characters before the run. -/
  start : Nat
  /-- The first surrogate. -/
  first : Nat
  /-- The number of further surrogates. -/
  further : Nat
  deriving DecidableEq, Repr

/-- The first run of surrogates in a text of which `start` characters have been passed. -/
def surrogateRun? (start : Nat) : List Char → Option SurrogateRun
  | [] => none
  | c :: rest =>
    if standsForSurrogate c then
      some ⟨start, codePoint c, (rest.takeWhile standsForSurrogate).length⟩
    else surrogateRun? (start + 1) rest

theorem surrogateRun?_eq_none_iff {start : Nat} {text : List Char} :
    surrogateRun? start text = none ↔ ∀ c ∈ text, standsForSurrogate c = false := by
  induction text generalizing start with
  | nil => simp [surrogateRun?]
  | cons c rest ih => cases h : standsForSurrogate c <;> simp [surrogateRun?, h, ih]

/-! ## Reading -/

/-- The order of the bytes of a number. -/
inductive ByteOrder where
  | bigEndian
  | littleEndian
  deriving DecidableEq, Repr

/-- The number that bytes denote. -/
def ByteOrder.value (order : ByteOrder) (bytes : List UInt8) : Nat :=
  match order with
  | .bigEndian => bytes.foldl (fun n b => 256 * n + b.toNat) 0
  | .littleEndian => bytes.foldr (fun b n => b.toNat + 256 * n) 0

/-- A way to write texts as bytes. -/
inductive Encoding where
  | utf8
  | utf16 (order : ByteOrder)
  | utf32 (order : ByteOrder)
  deriving DecidableEq, Repr

namespace Encoding

/-- The encoding that the first bytes show. Three bytes and fewer than two show none. -/
def detect : List UInt8 → Encoding
  | 0 :: 0 :: _ :: _ :: _ => .utf32 .bigEndian
  | 0 :: _ :: _ :: _ :: _ => .utf16 .bigEndian
  | _ :: 0 :: 0 :: 0 :: _ => .utf32 .littleEndian
  | _ :: 0 :: _ :: _ :: _ => .utf16 .littleEndian
  | [0, _] => .utf16 .bigEndian
  | [_, 0] => .utf16 .littleEndian
  | _ => .utf8

/-- The code units of pairs of bytes; an odd number of bytes has none. -/
def units16? (order : ByteOrder) : List UInt8 → Option (List Nat)
  | a :: b :: rest => (order.value [a, b] :: ·) <$> units16? order rest
  | [_] => none
  | [] => some []

/-- The characters of groups of four bytes, each the number of a code point. -/
def chars32? (order : ByteOrder) : List UInt8 → Option (List Char)
  | a :: b :: c :: d :: rest =>
    let n := order.value [a, b, c, d]
    if n < 0x110000 then (ofCodePoint n :: ·) <$> chars32? order rest else none
  | [] => some []
  | _ => none

/-- The text that bytes hold. A byte order mark before a text in UTF-8 is left out. -/
def decode? (bytes : List UInt8) : Encoding → Option (List Char)
  | .utf8 => do
    match (← String.fromUTF8? ⟨bytes.toArray⟩).toList with
    | '\uFEFF' :: rest => some rest
    | text => some text
  | .utf16 order => joinUnits <$> units16? order bytes
  | .utf32 order => chars32? order bytes

end Encoding

/-- The text that bytes hold, in the encoding that they show. -/
def decode? (bytes : List UInt8) : Option (List Char) :=
  (Encoding.detect bytes).decode? bytes

end StageFusion.Text

/-! Surrogates within texts.

A text from outside may hold a surrogate, a code point that is no character. It stands in a text as
the character `0xD0000` above it, in a plane where no character is assigned. `ofCodePoint` gives the
character that stands for a code point, `codePoint` the code point that a character stands for, and
`joinUnits` the text of a sequence of UTF-16 code units. Main statements: a surrogate is read back
(`codePoint_ofCodePoint`), and every character below that plane stands for itself
(`codePoint_of_lt`). -/

namespace StageFusion.Text

def isSurrogate (n : Nat) : Bool := 0xD800 ≤ n && n < 0xE000

/-- Whether a code unit is the first of a pair. -/
def isHighSurrogate (n : Nat) : Bool := 0xD800 ≤ n && n < 0xDC00

/-- Whether a code unit is the second of a pair. -/
def isLowSurrogate (n : Nat) : Bool := 0xDC00 ≤ n && n < 0xE000

/-- How far above a surrogate its character is. -/
def surrogateShift : Nat := 0xD0000

/-- The character that stands for a code point. -/
def ofCodePoint (n : Nat) : Char :=
  Char.ofNat (if isSurrogate n then surrogateShift + n else n)

/-- The code point that a character stands for. -/
def codePoint (c : Char) : Nat :=
  if isSurrogate (c.toNat - surrogateShift) then c.toNat - surrogateShift else c.toNat

def standsForSurrogate (c : Char) : Bool := isSurrogate (codePoint c)

/-- The text of a sequence of code units: a high surrogate and a low one after it are one
character. Code points beyond 16 bits stand for themselves. -/
def joinUnits : List Nat → List Char
  | high :: low :: rest =>
    if isHighSurrogate high && isLowSurrogate low then
      ofCodePoint (0x10000 + (high - 0xD800) * 0x400 + (low - 0xDC00)) :: joinUnits rest
    else ofCodePoint high :: joinUnits (low :: rest)
  | [n] => [ofCodePoint n]
  | [] => []

theorem toNat_ofNat_of_isValidChar {n : Nat} (h : n.isValidChar) : (Char.ofNat n).toNat = n := by
  rw [Char.ofNat, dif_pos h]
  rfl

theorem codePoint_ofCodePoint {n : Nat} (h : isSurrogate n) : codePoint (ofCodePoint n) = n := by
  have hn : 0xD800 ≤ n ∧ n < 0xE000 := by simpa [isSurrogate] using h
  have hvalid : (surrogateShift + n).isValidChar := by
    right; simp only [surrogateShift]; omega
  have hvalue : (ofCodePoint n).toNat = surrogateShift + n := by
    rw [ofCodePoint, if_pos h, toNat_ofNat_of_isValidChar hvalid]
  simp [codePoint, hvalue, h]

theorem codePoint_of_lt {c : Char} (h : c.toNat < surrogateShift) : codePoint c = c.toNat := by
  have hzero : c.toNat - surrogateShift = 0 := by omega
  simp [codePoint, hzero, isSurrogate]

end StageFusion.Text

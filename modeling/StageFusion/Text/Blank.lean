import StageFusion.Text.Ranges

/-! Blank characters and the removal of outer blanks.

The blank characters are those with the Unicode property White_Space, and the four information
separators U+001C to U+001F besides. -/

namespace StageFusion.Text

/-- The blank characters as closed ranges of code points, in increasing order. -/
def blankRanges : List (Nat × Nat) := [
  (0x9, 0xD), (0x1C, 0x20), (0x85, 0x85), (0xA0, 0xA0), (0x1680, 0x1680), (0x2000, 0x200A),
  (0x2028, 0x2029), (0x202F, 0x202F), (0x205F, 0x205F), (0x3000, 0x3000)]

/-- A character that `trim` removes at either end of a text. -/
def isBlank (c : Char) : Bool :=
  covers blankRanges c.toNat

/-- Removes the blank characters at both ends of a text. -/
def trim (text : List Char) : List Char :=
  ((text.dropWhile isBlank).reverse.dropWhile isBlank).reverse

theorem isBlank_of_isWhitespace {c : Char} (h : c.isWhitespace = true) : isBlank c = true := by
  simp only [Char.isWhitespace, Bool.or_eq_true, decide_eq_true_eq] at h
  rcases h with ((rfl | rfl) | rfl) | rfl <;> decide

end StageFusion.Text

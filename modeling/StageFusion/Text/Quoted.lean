import StageFusion.Text.Hex
import StageFusion.Text.Surrogate
import StageFusion.Text.Unprintable

/-! Quoted text, as messages show it.

A text is put between single quotes, or between double quotes when it holds a single quote and no
double one, so that `quote` needs a backslash before a quote only if both kinds occur. The quote in
use and the backslash are written with a backslash before them, line feed, carriage return and tab
by letter, and any other unprintable character by number. -/

namespace StageFusion.Text

/-- The quote character for a text: the single quote, unless the double one saves a backslash. -/
def quoteFor (text : List Char) : Char :=
  if text.contains '\'' && !text.contains '"' then '"' else '\''

/-- The number of an unprintable character, in the shortest of three fixed widths. -/
def escapeNumber (n : Nat) : List Char :=
  if n < 0x100 then '\\' :: 'x' :: hexDigits 2 n
  else if n < 0x10000 then '\\' :: 'u' :: hexDigits 4 n
  else '\\' :: 'U' :: hexDigits 8 n

/-- One character of a text that stands between `mark`s. -/
def escapeChar (mark c : Char) : List Char :=
  if c = mark ∨ c = '\\' then ['\\', c]
  else if c = '\n' then ['\\', 'n']
  else if c = '\r' then ['\\', 'r']
  else if c = '\t' then ['\\', 't']
  else if isPrintable c then [c]
  else escapeNumber (codePoint c)

def quote (text : String) : String :=
  let mark := quoteFor text.toList
  String.ofList (mark :: text.toList.flatMap (escapeChar mark) ++ [mark])

end StageFusion.Text

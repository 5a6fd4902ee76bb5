import Retest.Text.GraphemeExtend
import Retest.Text.Numeral
import Retest.Text.Unprintable

/-!
# Quoted text

A text between double quotes in which every character shows. The quote and the
backslash take a backslash in front, the characters null, tab, carriage return
and line feed have names, and a character that does not print or that extends
the grapheme before it is written by its number in braces.
-/

namespace Retest.Text

/-- A character by its number: a backslash, `u` and the hexadecimal number in braces. -/
def byNumber (c : Char) : List Char :=
  '\\' :: 'u' :: '\x7b' :: (hexPadded 1 c.toNat).toList ++ ['\x7d']

/-- How a character shows between double quotes. -/
def escaped (c : Char) : List Char :=
  match c with
  | '\x00' => ['\\', '0']
  | '\t' => ['\\', 't']
  | '\r' => ['\\', 'r']
  | '\n' => ['\\', 'n']
  | '"' => ['\\', '"']
  | '\\' => ['\\', '\\']
  | c => if extendsGrapheme c || !isPrintable c then byNumber c else [c]

/-- **A text between double quotes.** Different texts have different quoted forms, and none of them
holds a line feed. -/
def quoted (s : String) : String := .ofList ('"' :: s.toList.flatMap escaped ++ ['"'])

end Retest.Text

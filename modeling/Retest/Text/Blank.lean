/-!
# White space, words and lines

How a text falls into parts. White space is the Unicode property White_Space,
which holds the no-break spaces and the line and paragraph separators but
neither the zero-width space nor the byte order mark.

* `Retest.Text.trim` removes white space at both ends;
* `Retest.Text.words` are the maximal runs without white space;
* `Retest.Text.lines` are the parts between line feeds, each without one
  carriage return at its end. A part that no line feed closes keeps its
  carriage return, and is no line if it is empty.

Lines are cut from any kind of symbol, characters or octets, so the definition
takes the line feed and the carriage return as arguments.
-/

namespace Retest.Text

def isBlank (c : Char) : Bool :=
  let n := c.toNat
  (0x9 ≤ n && n ≤ 0xD) || n == 0x20 || n == 0x85 || n == 0xA0 || n == 0x1680 ||
    (0x2000 ≤ n && n ≤ 0x200A) || n == 0x2028 || n == 0x2029 || n == 0x202F || n == 0x205F ||
    n == 0x3000

/-- Remove the last symbols as long as they pass a test. -/
def dropWhileEnd {α : Type} (p : α → Bool) (s : List α) : List α := (s.reverse.dropWhile p).reverse

def trimEnd (s : String) : String := .ofList (dropWhileEnd isBlank s.toList)

def trim (s : String) : String := .ofList (dropWhileEnd isBlank (s.toList.dropWhile isBlank))

/-- Whether there is nothing but white space. -/
def isBlankLine (s : String) : Bool := s.toList.all isBlank

def words (s : String) : List String :=
  ((s.toList.splitOnP isBlank).filter (!·.isEmpty)).map .ofList

/-- Remove one carriage return `cr` at the end, if there is one. -/
def dropReturn {α : Type} [BEq α] (cr : α) (line : List α) : List α :=
  if line.getLast? == some cr then line.dropLast else line

/-- **The lines of a sequence of symbols** with line feed `lf` and carriage return `cr`. What stands
behind the last line feed is a line only if there is something. -/
def linesOf {α : Type} [BEq α] (lf cr : α) (s : List α) : List (List α) :=
  let parts := s.splitOnP (· == lf)
  parts.dropLast.map (dropReturn cr) ++ (parts.getLast?.toList.filter (!·.isEmpty))

def lines (s : String) : List String := (linesOf '\n' '\r' s.toList).map .ofList

end Retest.Text

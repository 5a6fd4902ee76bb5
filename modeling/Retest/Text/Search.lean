/-!
# Finding parts of a text

Where one text begins with or holds another, and the parts of a text before,
between and after a separating character.
-/

namespace Retest.Text

def beginsWith (s start : String) : Bool := start.toList.isPrefixOf s.toList

/-- What is left of a text after a text it begins with. -/
def dropStart? : (start s : List Char) → Option (List Char)
  | [], s => some s
  | _ :: _, [] => none
  | c :: start, d :: s => if c = d then dropStart? start s else none

/-- Whether a sequence of symbols stands somewhere in another. -/
def occursIn {α : Type} [BEq α] (pattern : List α) : List α → Bool
  | [] => pattern.isEmpty
  | c :: s => pattern.isPrefixOf (c :: s) || occursIn pattern s

def holds (s pattern : String) : Bool := occursIn pattern.toList s.toList

/-- The text before and after the first occurrence of a character, if it occurs. -/
def splitFirst? (sep : Char) (s : List Char) : Option (List Char × List Char) :=
  match s.dropWhile (· != sep) with
  | [] => none
  | _ :: after => some (s.takeWhile (· != sep), after)

def splitLast? (sep : Char) (s : List Char) : Option (List Char × List Char) :=
  (splitFirst? sep s.reverse).map fun (after, before) => (before.reverse, after.reverse)

/-- The parts of a text between the occurrences of a character; there is one more part than
occurrences, and parts may be empty. -/
def fieldsOf (sep : Char) (s : String) : List String :=
  (s.toList.splitOnP (· == sep)).map .ofList

end Retest.Text

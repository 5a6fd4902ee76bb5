import Retest.ClassFile.Pool

/-!
# Annotations

An annotation is kept as a text: its type, and in parentheses the names and
values of its elements in the order of the file. Values can hold annotations
and lists of values; how deeply they may be nested is bounded, and the bound is
what the recursion of `Retest.AnnotationText.readValue` is on.
-/

namespace Retest.AnnotationText

open Reader

/-- Read an annotation, given how to read the values of its elements. -/
def readWith (pool : Pool) (value : Reader String) : Reader String := do
  let type ← pool.text (← u2)
  let elements ← counted do
    let name ← pool.text (← u2)
    return name ++ "=" ++ (← value)
  return type ++ "(" ++ ",".intercalate elements ++ ")"

/-- Read a value, given how to read the items of a list and the values of the
elements of an annotation. -/
def readValueWith (pool : Pool) (item element : Reader String) : Reader String := do
  let tag ← u1
  match Char.ofNat tag.toNat with
  | 'B' | 'C' | 'D' | 'F' | 'I' | 'J' | 'S' | 'Z' =>
    return String.singleton (Char.ofNat tag.toNat) ++ ":" ++ (← pool.constant (← u2)).text
  | 's' => return Text.quoted (← pool.text (← u2))
  | 'e' =>
    let type ← pool.text (← u2)
    return "enum:" ++ type ++ "." ++ (← pool.text (← u2))
  | 'c' => return "class:" ++ (← pool.text (← u2))
  | '@' => readWith pool element
  | '[' => return "[" ++ ",".intercalate (← counted item) ++ "]"
  | _ => fail (.unknownElement tag)

/-- Read a value, with so many levels to go. An annotation inside a value takes
up a level beside that of its elements. -/
def readValue (pool : Pool) : (levels : Nat) → Reader String
  | 0 => fail .deepNesting
  | 1 => readValueWith pool (fail .deepNesting) (fail .deepNesting)
  | levels + 2 => readValueWith pool (readValue pool (levels + 1)) (readValue pool levels)

def read (pool : Pool) : Reader String :=
  readWith pool (readValue pool Fault.annotationDepth)

end Retest.AnnotationText

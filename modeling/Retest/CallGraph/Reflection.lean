import Retest.Text.Search
import Retest.Text.WordChar
import Retest.UnitName

/-!
# Reflection

Some methods of the standard library reach members by name, behind the back of
a call graph. `Retest.isReflective` recognizes calls of them, by a small list of
patterns on the text of the method called.
-/

namespace Retest

/-- A part of a pattern. -/
inductive PatternPiece where
  /-- This text. -/
  | text (s : String)
  /-- As many word characters as there are. -/
  | word
  /-- As many word characters as there are, and at least one. -/
  | word1
deriving DecidableEq, Repr

/-- Whether a text begins as a pattern says. A piece of word characters takes all
there are; in the patterns below no word character can follow it. -/
def beginsAs : List PatternPiece → List Char → Bool
  | [], _ => true
  | .text t :: pieces, s =>
    match Text.dropStart? t.toList s with
    | some rest => beginsAs pieces rest
    | none => false
  | .word :: pieces, s => beginsAs pieces (s.dropWhile Text.isWordChar)
  | .word1 :: pieces, s =>
    s.head?.any Text.isWordChar && beginsAs pieces (s.dropWhile Text.isWordChar)

/-- How calls that use reflection begin, written as the unit, a hash sign and the signature. Other
ways to reach a member by its name are not recognized. -/
def reflectionPatterns : List (List PatternPiece) :=
  [[.text "java.lang.Class#forName("],
    [.text "java.lang.Class#newInstance("],
    [.text "java.lang.Class#getMethod", .word, .text "("],
    [.text "java.lang.Class#getDeclared", .word, .text "("],
    [.text "java.lang.Class#getConstructor("],
    [.text "java.lang.Class#getConstructors("],
    [.text "java.lang.reflect.", .word1, .text "#invoke("],
    [.text "java.lang.reflect.", .word1, .text "#newInstance("],
    [.text "java.lang.ClassLoader#loadClass("],
    [.text "java.util.ServiceLoader#load", .word, .text "("]]

/-- **Whether calling a method uses reflection**, as far as can be told from its name. -/
def isReflective (owner : UnitName) (signature : Signature) : Bool :=
  reflectionPatterns.any (beginsAs · (owner ++ "#" ++ signature).toList)

end Retest

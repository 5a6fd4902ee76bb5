import Retest.Text.Numeral

/-!
# Writing JSON

Compact JSON text: no white space, members in the order given. A string
escapes the quote, the backslash and the control characters below the space,
the latter by name where they have one; every other character stands for
itself.
-/

namespace Retest.Json

/-- How a character is written in a string: as an escape if it may not stand there, and as itself
otherwise. -/
def escapedChar (c : Char) : List Char :=
  match c with
  | '"' => ['\\', '"']
  | '\\' => ['\\', '\\']
  | '\x08' => ['\\', 'b']
  | '\t' => ['\\', 't']
  | '\n' => ['\\', 'n']
  | '\x0c' => ['\\', 'f']
  | '\r' => ['\\', 'r']
  | c =>
    if c.toNat < 0x20 then
      ['\\', 'u', '0', '0', Text.hexDigit (c.toNat / 16), Text.hexDigit (c.toNat % 16)]
    else [c]

def writeString (s : String) : List Char := '"' :: s.toList.flatMap escapedChar ++ ['"']

def writeNatural (n : Nat) : List Char := (toString n).toList

def commaSeparated : List (List Char) → List Char
  | [] => []
  | [t] => t
  | t :: ts => t ++ ',' :: commaSeparated ts

def writeArray (items : List (List Char)) : List Char := '[' :: commaSeparated items ++ [']']

/-- Write an object of names and written values. -/
def writeObject (members : List (String × List Char)) : List Char :=
  '\x7b' :: commaSeparated (members.map fun (name, t) => writeString name ++ ':' :: t) ++ ['\x7d']

end Retest.Json

import Retest.Json.Value
import Retest.Text.Numeral

/-!
# Reading JSON

`Retest.Json.parse?` reads a JSON text and refuses everything that is none: a
text has exactly one value with nothing but white space around it, strings hold
no raw control characters, numerals have no leading zeros, and lists end
without a comma. Objects and arrays may be nested to any depth.

The reader works on the characters still to be read. Its recursion is on a
measure of steps; twice the length of the text is always enough, as every
second step takes at least one character.
-/

namespace Retest.Json

def isSpace (c : Char) : Bool := c == ' ' || c == '\n' || c == '\t' || c == '\r'

def skipSpace (s : List Char) : List Char := s.dropWhile isSpace

/-! ### Strings -/

/-- The code point that a backslash and the character `c` stand for. -/
def namedEscape? (c : Char) : Option Nat :=
  match c with
  | '"' => some 0x22
  | '\\' => some 0x5C
  | '/' => some 0x2F
  | 'b' => some 0x08
  | 'f' => some 0x0C
  | 'n' => some 0x0A
  | 'r' => some 0x0D
  | 't' => some 0x09
  | _ => none

/-- The number that four hexadecimal digits stand for. -/
def fourDigits? (a b c d : Char) : Option Nat := do
  let a ← Text.hexValue? a
  let b ← Text.hexValue? b
  let c ← Text.hexValue? c
  let d ← Text.hexValue? d
  return ((a * 16 + b) * 16 + c) * 16 + d

/-- Read a string after its opening quote: the code points it names, halves of surrogate pairs
included, and what follows the closing quote. An escape of four digits takes precedence over those
by name, of which none is a lower case u. -/
def stringBody? : List Char → Option (List Nat × List Char)
  | [] => none
  | '"' :: s => some ([], s)
  | '\\' :: 'u' :: a :: b :: c :: d :: s => do
    let n ← fourDigits? a b c d
    let (ns, rest) ← stringBody? s
    return (n :: ns, rest)
  | '\\' :: c :: s => do
    let n ← namedEscape? c
    let (ns, rest) ← stringBody? s
    return (n :: ns, rest)
  | c :: s =>
    if c.toNat < 0x20 then none
    else do
      let (ns, rest) ← stringBody? s
      return (c.toNat :: ns, rest)

def isHighHalf (n : Nat) : Bool := 0xD800 ≤ n && n ≤ 0xDBFF

def isLowHalf (n : Nat) : Bool := 0xDC00 ≤ n && n ≤ 0xDFFF

/-- Join the surrogate pairs; `none` if a half stands alone. Only then does a list of code points
stand for characters. -/
def joinHalves? : List Nat → Option (List Char)
  | [] => some []
  | [n] => if isHighHalf n || isLowHalf n then none else some [.ofNat n]
  | n :: m :: ns =>
    if isHighHalf n then
      if isLowHalf m then
        (joinHalves? ns).map (.ofNat (0x10000 + (n - 0xD800) * 0x400 + (m - 0xDC00)) :: ·)
      else none
    else if isLowHalf n then none
    else (joinHalves? (m :: ns)).map (.ofNat n :: ·)

def stringRest? (s : List Char) : Option (Option String × List Char) :=
  (stringBody? s).map fun (ns, rest) => ((joinHalves? ns).map .ofList, rest)

/-! ### Numbers -/

def skipDigits? : List Char → Option (List Char)
  | c :: s => if c.isDigit then some (s.dropWhile Char.isDigit) else none
  | [] => none

/-- Read the digits before a fraction: a zero, or a run that does not start with one. -/
def wholePart? : List Char → Option (Nat × List Char)
  | '0' :: s => some (0, s)
  | c :: s =>
    if c.isDigit then
      some (((c :: s).takeWhile Char.isDigit).foldl (fun n d => 10 * n + (d.toNat - 48)) 0,
        s.dropWhile Char.isDigit)
    else none
  | [] => none

/-- Pass over a fraction, if there is one; the flag says whether there was. -/
def skipFraction? : List Char → Option (Bool × List Char)
  | '.' :: s => (skipDigits? s).map (true, ·)
  | s => some (false, s)

/-- Pass over an exponent, if there is one; the flag says whether there was. -/
def skipExponent? : List Char → Option (Bool × List Char)
  | c :: s =>
    if c == 'e' || c == 'E' then
      match s with
      | '+' :: s | '-' :: s => (skipDigits? s).map (true, ·)
      | s => (skipDigits? s).map (true, ·)
    else some (false, c :: s)
  | [] => some (false, [])

/-- Read a number. Only those without sign, fraction and exponent have a value here; the others are
still checked to be written as numbers are. -/
def number? (s : List Char) : Option (Json × List Char) := do
  let (negative, s) := match s with
    | '-' :: s => (true, s)
    | s => (false, s)
  let (n, s) ← wholePart? s
  let (fraction, s) ← skipFraction? s
  let (exponent, s) ← skipExponent? s
  return (if negative || fraction || exponent then otherNumber else natural n, s)

/-! ### Values -/

mutual

/-- **Read a value**, in at most the given number of steps, and return what follows it. -/
def value? : Nat → List Char → Option (Json × List Char)
  | 0, _ => none
  | steps + 1, s =>
    match skipSpace s with
    | '"' :: s => (stringRest? s).map fun (text, rest) => (string text, rest)
    | '[' :: s =>
      match skipSpace s with
      | ']' :: rest => some (array [], rest)
      | s => (items? steps s).map fun (items, rest) => (array items, rest)
    | '\x7b' :: s =>
      match skipSpace s with
      | '\x7d' :: rest => some (object [], rest)
      | s => (members? steps s).map fun (members, rest) => (object members, rest)
    | 'n' :: 'u' :: 'l' :: 'l' :: rest => some (null, rest)
    | 't' :: 'r' :: 'u' :: 'e' :: rest => some (bool true, rest)
    | 'f' :: 'a' :: 'l' :: 's' :: 'e' :: rest => some (bool false, rest)
    | s => number? s

/-- Read the items of an array, of which there is one at least, and the bracket after them. -/
def items? : Nat → List Char → Option (List Json × List Char)
  | 0, _ => none
  | steps + 1, s => do
    let (item, s) ← value? steps s
    match skipSpace s with
    | ']' :: rest => return ([item], rest)
    | ',' :: s =>
      let (items, rest) ← items? steps s
      return (item :: items, rest)
    | _ => none

/-- Read the members of an object, of which there is one at least, and the brace after them. -/
def members? : Nat → List Char → Option (List (Option String × Json) × List Char)
  | 0, _ => none
  | steps + 1, s => do
    let '"' :: s := skipSpace s | none
    let (name, s) ← stringRest? s
    let ':' :: s := skipSpace s | none
    let (item, s) ← value? steps s
    match skipSpace s with
    | '\x7d' :: rest => return ([(name, item)], rest)
    | ',' :: s =>
      let (members, rest) ← members? steps s
      return ((name, item) :: members, rest)
    | _ => none

end

/-- **Read a JSON text.** There are always enough steps, so that `none` means the text is no JSON.
-/
def parse? (text : String) : Option Json := do
  let s := text.toList
  let (j, rest) ← value? (2 * s.length + 2) s
  if (skipSpace rest).isEmpty then return j else none

end Retest.Json

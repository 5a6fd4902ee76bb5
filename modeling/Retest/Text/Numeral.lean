/-!
# Numerals

Reading and writing whole numbers. A decimal numeral is a non-empty run of
ASCII digits, leading zeros allowed; a number may carry a sign in front, and is
read only if it lies in the range that the reader names. Hexadecimal numerals
are written with lower-case digits and padded with zeros to a given width.
-/

namespace Retest.Text

/-! ### Decimal -/

/-- The value of a run of decimal digits, read from the left onto `acc`. -/
def digitsOnto (acc : Nat) : List Char → Option Nat
  | [] => some acc
  | c :: s => if c.isDigit then digitsOnto (10 * acc + (c.toNat - 48)) s else none

def decimal? (s : List Char) : Option Nat := if s.isEmpty then none else digitsOnto 0 s

def natural? (s : String) : Option Nat :=
  match s.toList with
  | '+' :: s => decimal? s
  | s => decimal? s

/-- Read a natural number below `bound`; a plus sign may stand in front. The bound is that of the
type of numbers that is read for. -/
def naturalBelow? (bound : Nat) (s : String) : Option Nat := (natural? s).filter (· < bound)

/-- Half the number of values that 64 bits have: the first number too large for a signed one. -/
def int64Bound : Nat := 0x8000000000000000

/-- Read a signed number of 64 bits; either sign may stand in front. There is one negative number
more than there are positive ones. -/
def int64? (s : String) : Option Int :=
  match s.toList with
  | '-' :: s => ((decimal? s).filter (· ≤ int64Bound)).map fun n => -(n : Int)
  | '+' :: s => ((decimal? s).filter (· < int64Bound)).map fun n => (n : Int)
  | s => ((decimal? s).filter (· < int64Bound)).map fun n => (n : Int)

/-- A number with its sign, also when it is not negative. -/
def signed (n : Int) : String := if n < 0 then toString n else "+" ++ toString n

/-! ### Hexadecimal -/

/-- The lower-case hexadecimal digit of a number below 16. -/
def hexDigit (n : Nat) : Char := if n < 10 then .ofNat (48 + n) else .ofNat (87 + n)

/-- The hexadecimal digits of a number, the last `width` of them at least. -/
def hexPadded (width n : Nat) : String :=
  let digits := (Nat.toDigits 16 n)
  .ofList (List.replicate (width - digits.length) '0' ++ digits)

def isHexDigit (c : Char) : Bool :=
  c.isDigit || ('a' ≤ c && c ≤ 'f') || ('A' ≤ c && c ≤ 'F')

/-- The value of a hexadecimal digit, of either case. -/
def hexValue? (c : Char) : Option Nat :=
  if c.isDigit then some (c.toNat - 48)
  else if 'a' ≤ c && c ≤ 'f' then some (c.toNat - 87)
  else if 'A' ≤ c && c ≤ 'F' then some (c.toNat - 55)
  else none

def hexOctet (b : UInt8) : List Char := [hexDigit (b.toNat / 16), hexDigit (b.toNat % 16)]

def hexOctets (bytes : List UInt8) : String := .ofList (bytes.flatMap hexOctet)

end Retest.Text

/-!
# UTF-8 with defects

Reading octets as UTF-8. `Retest.Text.Utf8.scan` looks at the front of an octet
string: either a scalar value is encoded there, or there is a *defect*, which
extends as far as the octets could still begin a scalar value. Two readings
are built on it:

* the strict one, `Retest.Text.Utf8.decode?`, refuses a string with a defect;
* the tolerant one, `Retest.Text.Utf8.decodeLossy`, puts one replacement
  character in the place of each defect.

Surrogates, overlong forms and values above U+10FFFF have no encoding: the
second octet of a three- or four-octet form is confined accordingly
(`Retest.Text.Utf8.fits`).
-/

namespace Retest.Text.Utf8

def isContinuation (b : UInt8) : Bool := 0x80 ≤ b && b ≤ 0xBF

/-- Whether `c` may follow the leading octet `b` of a form of three or four octets. -/
def fits (b c : UInt8) : Bool :=
  isContinuation c && (b != 0xE0 || 0xA0 ≤ c) && (b != 0xED || c ≤ 0x9F) &&
    (b != 0xF0 || 0x90 ≤ c) && (b != 0xF4 || c ≤ 0x8F)

def payload (b : UInt8) : Nat := b.toNat % 64

/-- **The scalar value at the front of `b :: rest`**, or `none` for a defect, and what follows it. A
defect ends before the first octet that cannot continue the form begun, so that octet is looked at
again. -/
def scan (b : UInt8) (rest : List UInt8) : Option Char × List UInt8 :=
  if b < 0x80 then (some (.ofNat b.toNat), rest)
  else if 0xC2 ≤ b && b ≤ 0xDF then
    match rest with
    | c :: rest₁ =>
      if isContinuation c then (some (.ofNat (b.toNat % 32 * 64 + payload c)), rest₁)
      else (none, rest)
    | [] => (none, [])
  else if 0xE0 ≤ b && b ≤ 0xEF then
    match rest with
    | c :: rest₁ =>
      if fits b c then
        match rest₁ with
        | d :: rest₂ =>
          if isContinuation d then
            (some (.ofNat (b.toNat % 16 * 4096 + payload c * 64 + payload d)), rest₂)
          else (none, rest₁)
        | [] => (none, [])
      else (none, rest)
    | [] => (none, [])
  else if 0xF0 ≤ b && b ≤ 0xF4 then
    match rest with
    | c :: rest₁ =>
      if fits b c then
        match rest₁ with
        | d :: rest₂ =>
          if isContinuation d then
            match rest₂ with
            | e :: rest₃ =>
              if isContinuation e then
                (some (.ofNat
                  (b.toNat % 8 * 262144 + payload c * 4096 + payload d * 64 + payload e)), rest₃)
              else (none, rest₂)
            | [] => (none, [])
          else (none, rest₁)
        | [] => (none, [])
      else (none, rest)
    | [] => (none, [])
  else (none, rest)

/-- A scan leaves no more than what followed the first octet. -/
theorem length_scan_le (b : UInt8) (rest : List UInt8) :
    (scan b rest).2.length ≤ rest.length := by
  unfold scan
  repeat' split
  all_goals simp_all <;> omega

/-- The scalar values of an octet string, with `none` for each defect. -/
def scalars : List UInt8 → List (Option Char)
  | [] => []
  | b :: rest => (scan b rest).1 :: scalars (scan b rest).2
termination_by bytes => bytes.length
decreasing_by
  have := length_scan_le b rest
  simp only [List.length_cons]
  omega

/-- The text of an octet string without defects. -/
def decode? (bytes : List UInt8) : Option String :=
  let found := scalars bytes
  if found.all (·.isSome) then some (.ofList (found.filterMap id)) else none

/-- The text of an octet string, with a replacement character for each defect. -/
def decodeLossy (bytes : List UInt8) : String :=
  .ofList ((scalars bytes).map (·.getD '�'))

def encode (s : String) : List UInt8 := s.toList.flatMap String.utf8EncodeChar

end Retest.Text.Utf8

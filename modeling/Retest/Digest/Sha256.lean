/-!
# SHA-256

The secure hash of 256 bits, on lists of octets. A message is padded to whole
blocks of sixty-four octets (`Retest.Digest.Sha256.pad`), and each block is
mixed into a state of eight words (`Retest.Digest.Sha256.compress`); the digest
is the last state, thirty-two octets long.
-/

namespace Retest.Digest.Sha256

def roundConstants : List UInt32 :=
  [0x428a2f98, 0x71374491, 0xb5c0fbcf, 0xe9b5dba5, 0x3956c25b, 0x59f111f1,
   0x923f82a4, 0xab1c5ed5, 0xd807aa98, 0x12835b01, 0x243185be, 0x550c7dc3,
   0x72be5d74, 0x80deb1fe, 0x9bdc06a7, 0xc19bf174, 0xe49b69c1, 0xefbe4786,
   0x0fc19dc6, 0x240ca1cc, 0x2de92c6f, 0x4a7484aa, 0x5cb0a9dc, 0x76f988da,
   0x983e5152, 0xa831c66d, 0xb00327c8, 0xbf597fc7, 0xc6e00bf3, 0xd5a79147,
   0x06ca6351, 0x14292967, 0x27b70a85, 0x2e1b2138, 0x4d2c6dfc, 0x53380d13,
   0x650a7354, 0x766a0abb, 0x81c2c92e, 0x92722c85, 0xa2bfe8a1, 0xa81a664b,
   0xc24b8b70, 0xc76c51a3, 0xd192e819, 0xd6990624, 0xf40e3585, 0x106aa070,
   0x19a4c116, 0x1e376c08, 0x2748774c, 0x34b0bcb5, 0x391c0cb3, 0x4ed8aa4a,
   0x5b9cca4f, 0x682e6ff3, 0x748f82ee, 0x78a5636f, 0x84c87814, 0x8cc70208,
   0x90befffa, 0xa4506ceb, 0xbef9a3f7, 0xc67178f2]

/-- The eight words that a block is mixed into. -/
structure State where
  a : UInt32
  b : UInt32
  c : UInt32
  d : UInt32
  e : UInt32
  f : UInt32
  g : UInt32
  h : UInt32

/-- The state before the first block. -/
def State.initial : State :=
  ⟨0x6a09e667, 0xbb67ae85, 0x3c6ef372, 0xa54ff53a,
   0x510e527f, 0x9b05688c, 0x1f83d9ab, 0x5be0cd19⟩

def State.words (s : State) : List UInt32 := [s.a, s.b, s.c, s.d, s.e, s.f, s.g, s.h]

def State.add (s t : State) : State :=
  ⟨s.a + t.a, s.b + t.b, s.c + t.c, s.d + t.d, s.e + t.e, s.f + t.f, s.g + t.g, s.h + t.h⟩

/-- Turn a word to the right by `n` bits, for `0 < n < 32`. -/
def rotate (x n : UInt32) : UInt32 := (x >>> n) ||| (x <<< (32 - n))

/-! ### The message schedule -/

def word (a b c d : UInt8) : UInt32 :=
  .ofNat (((a.toNat * 256 + b.toNat) * 256 + c.toNat) * 256 + d.toNat)

/-- The words of a list of octets; fewer than four octets at the end are left out. -/
def wordsOf : List UInt8 → List UInt32
  | a :: b :: c :: d :: rest => word a b c d :: wordsOf rest
  | _ => []

def octetsOf (w : UInt32) : List UInt8 :=
  [.ofNat (w.toNat / 0x1000000), .ofNat (w.toNat / 0x10000), .ofNat (w.toNat / 0x100),
    .ofNat w.toNat]

/-- The next word of a schedule, from the last sixteen; a word that is not there counts as zero. -/
def nextWord (w : Array UInt32) : UInt32 :=
  let earlier (back : Nat) := w.getD (w.size - back) 0
  let x := earlier 15
  let y := earlier 2
  earlier 16 + (rotate x 7 ^^^ rotate x 18 ^^^ (x >>> 3)) + earlier 7 +
    (rotate y 17 ^^^ rotate y 19 ^^^ (y >>> 10))

def extend : Nat → Array UInt32 → Array UInt32
  | 0, w => w
  | n + 1, w => extend n (w.push (nextWord w))

/-- The sixty-four words that a block of sixteen gives to the rounds. -/
def schedule (block : List UInt32) : List UInt32 := (extend 48 block.toArray).toList

/-! ### Compression -/

/-- One round: mix a constant and a word of the schedule into the state. -/
def round (s : State) (kw : UInt32 × UInt32) : State :=
  let choice := (s.e &&& s.f) ^^^ (~~~s.e &&& s.g)
  let majority := (s.a &&& s.b) ^^^ (s.a &&& s.c) ^^^ (s.b &&& s.c)
  let t₁ := s.h + (rotate s.e 6 ^^^ rotate s.e 11 ^^^ rotate s.e 25) + choice + kw.1 + kw.2
  let t₂ := (rotate s.a 2 ^^^ rotate s.a 13 ^^^ rotate s.a 22) + majority
  ⟨t₁ + t₂, s.a, s.b, s.c, s.d + t₁, s.e, s.f, s.g⟩

/-- Mix a block of sixteen words into the state. -/
def compress (s : State) (block : List UInt32) : State :=
  s.add ((roundConstants.zip (schedule block)).foldl round s)

/-- Mix the first `n` blocks of a list of words into the state. -/
def absorb : Nat → State → List UInt32 → State
  | 0, s, _ => s
  | n + 1, s, ws => absorb n (compress s (ws.take 16)) (ws.drop 16)

/-! ### The digest -/

/-- The eight octets of a length in bits. A length that does not fit in them is cut off at the top.
-/
def lengthOctets (bits : Nat) : List UInt8 :=
  (List.range 8).map fun i => .ofNat (bits / Nat.pow 256 (7 - i))

/-- Close a message with a one bit, zeros up to eight octets before the end of
a block, and its length in bits. -/
def pad (message : List UInt8) : List UInt8 :=
  let n := message.length
  message ++ 0x80 :: List.replicate ((119 - n % 64) % 64) 0 ++ lengthOctets (8 * n)

/-- **The digest of a message**, thirty-two octets long. The padding makes whole blocks of it, so
none of its words is left over. -/
def digest (message : List UInt8) : List UInt8 :=
  let ws := wordsOf (pad message)
  (absorb (ws.length / 16) .initial ws).words.flatMap octetsOf

/-- Every digest has thirty-two octets. -/
theorem length_digest (message : List UInt8) : (digest message).length = 32 := by
  simp [digest, State.words, octetsOf]

end Retest.Digest.Sha256

/-!
# CRC-32

The cyclic redundancy check of 32 bits, with the reflected polynomial
`0xedb88320` and all bits inverted before and after. Equal octet strings have
equal checks, so a different check proves that a file has changed.
-/

namespace Retest.Digest.Crc32

/-- Divide out one bit. -/
def stepBit (r : UInt32) : UInt32 :=
  if r &&& 1 == 1 then (r >>> 1) ^^^ 0xedb88320 else r >>> 1

/-- Take up one octet. -/
def stepOctet (r : UInt32) (b : UInt8) : UInt32 :=
  Nat.repeat stepBit 8 (r ^^^ b.toUInt32)

/-- **The check of an octet string**, which begins with all bits set and ends with all bits
inverted. -/
def check (bytes : List UInt8) : UInt32 := bytes.foldl stepOctet 0xffffffff ^^^ 0xffffffff

end Retest.Digest.Crc32

import Retest.Digest.Sha256
import Retest.Text.Numeral
import Retest.Text.Utf8

/-!
# Fingerprints

A fingerprint stands for a list of lines of text: the SHA-256 digest of the
lines, each closed by a line feed, in hexadecimal. The *ordered* fingerprint
keeps the order of the lines, the *unordered* one sorts them first and so
identifies them as a multiset.

A fingerprint that was read from a file is any text; one that is read from a
line of a dependency store is a non-empty hexadecimal numeral, taken in lower
case.
-/

namespace Retest

/-- The fingerprint of a part of a class, as text. -/
structure Fingerprint where
  /-- Sixty-four hexadecimal digits if it was computed. -/
  text : String
deriving DecidableEq, Inhabited, Repr

namespace Fingerprint

/-- The octets that stand for a list of lines: each line is closed by a line feed. -/
def octets (lines : List String) : List UInt8 :=
  lines.flatMap fun line => Text.Utf8.encode line ++ [10]

/-- **The fingerprint of a list of lines.** Lists that differ have different fingerprints as long as
no line holds a line feed and the digest has no collision. -/
def ordered (lines : List String) : Fingerprint :=
  ⟨Text.hexOctets (Digest.Sha256.digest (octets lines))⟩

def sortLines (lines : List String) : List String :=
  lines.mergeSort fun a b => (compare a b).isLE

/-- The fingerprint of a multiset of lines: they are sorted first, and then closed and digested like
any list. -/
def unordered (lines : List String) : Fingerprint := ordered (sortLines lines)

/-- Read a hexadecimal numeral. -/
def ofHex? (s : String) : Option Fingerprint :=
  if !s.isEmpty && s.toList.all Text.isHexDigit then some ⟨.ofList (s.toList.map Char.toLower)⟩
  else none

end Fingerprint

end Retest

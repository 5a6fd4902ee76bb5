import Retest.Text.Utf8
import Retest.UnitName

/-!
# Constant pools in the making

While a class file is assembled, its constant pool grows: each entry is put at
the end when it is first asked for (`Retest.Assembly.intern`), and found again
by its octets after that. The bootstrap methods are collected beside it.

Numbers are written with the most significant octet first; what does not fit is
cut off at the top.
-/

namespace Retest.Assembly

/-- The two octets of a number. -/
def two (n : UInt16) : List UInt8 := [.ofNat (n.toNat / 256), .ofNat (n.toNat % 256)]

def four (n : UInt32) : List UInt8 :=
  [.ofNat (n.toNat / 0x1000000), .ofNat (n.toNat / 0x10000), .ofNat (n.toNat / 0x100),
    .ofNat n.toNat]

/-- A bootstrap method, by indices. -/
structure BootstrapDraft where
  handle : UInt16
  arguments : List UInt16
deriving DecidableEq, Repr

/-- A constant pool in the making, with the bootstrap methods that are collected beside it. -/
structure Draft where
  /-- The octets of the entries, the first of them under the index 1. -/
  entries : List (List UInt8) := []
  bootstraps : List BootstrapDraft := []
deriving DecidableEq, Repr

/-- A step that may add to the constant pool. -/
abbrev Assembler := StateM Draft

/-- **The index of an entry**, which is put at the end if it is not there. Entries are told apart by
their octets, so that what is asked for twice is there once. -/
def intern (entry : List UInt8) : Assembler UInt16 := fun draft =>
  match draft.entries.idxOf? entry with
  | some k => (.ofNat (k + 1), draft)
  | none =>
    (.ofNat (draft.entries.length + 1), { draft with entries := draft.entries ++ [entry] })

def text (value : String) : Assembler UInt16 :=
  let octets := Text.Utf8.encode value
  intern (1 :: two (.ofNat octets.length) ++ octets)

/-- The index of an entry that refers to others. -/
def refer (tag : UInt8) (indices : List UInt16) : Assembler UInt16 :=
  intern (tag :: indices.flatMap two)

def unit (name : UnitName) : Assembler UInt16 := do refer 7 [← text name.slashed]

def string (value : String) : Assembler UInt16 := do refer 8 [← text value]

def integer (value : Int32) : Assembler UInt16 := intern (3 :: four value.toUInt32)

def nameAndType (name descriptor : String) : Assembler UInt16 := do
  refer 12 [← text name, ← text descriptor]

/-- The index of a member: a field (tag 9), a method (10) or a method of an interface (11). -/
def member (tag : UInt8) (owner : UnitName) (name descriptor : String) : Assembler UInt16 := do
  refer tag [← unit owner, ← nameAndType name descriptor]

def staticHandle (owner : UnitName) (name descriptor : String) : Assembler UInt16 := do
  intern (15 :: 6 :: two (← member 10 owner name descriptor))

def methodType (descriptor : String) : Assembler UInt16 := do refer 16 [← text descriptor]

def callSite (bootstrap : UInt16) (name descriptor : String) : Assembler UInt16 := do
  refer 18 [bootstrap, ← nameAndType name descriptor]

/-- Add a bootstrap method; its index is returned. -/
def bootstrap (entry : BootstrapDraft) : Assembler UInt16 := fun draft =>
  (.ofNat draft.bootstraps.length, { draft with bootstraps := draft.bootstraps ++ [entry] })

def attributeNamed (name : String) (body : List UInt8) : Assembler (List UInt8) := do
  return two (← text name) ++ four (.ofNat body.length) ++ body

/-- The octets of a list, after their number. -/
def counted (parts : List (List UInt8)) : List UInt8 := two (.ofNat parts.length) ++ parts.flatten

end Retest.Assembly

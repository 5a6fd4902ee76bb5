import Retest.Text.Numeral

/-!
# Faults of class files

Everything that can be wrong with the octets of a class file, one constructor
for each cause, and the words in which it is reported.

Positions count octets from the start of what is being read: of the file, or,
inside an attribute, of the attribute's body, or, inside bytecode, of the code.
-/

namespace Retest

/-- The kinds of constant pool entries that something can ask for. -/
inductive EntryKind where
  | text
  | unit
  | nameAndType
  | member
  | handle
  | callSite
  | loadable
deriving DecidableEq, Repr

def EntryKind.label : EntryKind → String
  | text => "Utf8"
  | unit => "Class"
  | nameAndType => "NameAndType"
  | member => "member reference"
  | handle => "MethodHandle"
  | callSite => "InvokeDynamic"
  | loadable => "loadable constant"

/-- **What is wrong with a class file.** Each fault holds what its report mentions, and nothing
else. -/
inductive Fault where
  /-- The file does not begin with the magic number. -/
  | badMagic
  /-- At a position fewer octets are left than are wanted. -/
  | truncated (position wanted : Nat)
  /-- An entry of the constant pool has a tag that does not exist. -/
  | unknownTag (tag : UInt8) (entry : Nat)
  /-- The constant pool has no room for its last entry. -/
  | poolOverrun
  /-- There is no entry of the constant pool under an index. -/
  | noEntry (index : UInt16)
  /-- An entry of the constant pool is of another kind than wanted. -/
  | wrongEntry (index : UInt16) (wanted : EntryKind)
  /-- The values of an annotation are nested too deeply. -/
  | deepNesting
  /-- A value of an annotation has a tag that does not exist. -/
  | unknownElement (tag : UInt8)
  /-- A table switch has crossed bounds, or more cases than the code has room for. -/
  | badTableSwitch (offset : Nat)
  /-- A lookup switch has more cases than the code has room for, or fewer than none. -/
  | badLookupSwitch (offset : Nat)
  /-- An opcode has no wide form. -/
  | badWide (opcode : UInt8)
  /-- An opcode does not exist. -/
  | unknownOpcode (opcode : UInt8) (offset : Nat)
  /-- A branch leads out of its method. -/
  | wildBranch (offset : Nat)
  /-- No instruction starts at an offset. -/
  | notInstruction (offset : Nat)
  /-- Octets follow the end of the class file. -/
  | trailing (count : Nat)
  /-- The file of one unit declares another. -/
  | declares (name : String)
deriving DecidableEq, Repr

/-- How deeply the values of an annotation may be nested. -/
def Fault.annotationDepth : Nat := 32

def Fault.message : Fault → String
  | badMagic => "bad magic number"
  | truncated position wanted => s!"truncated at byte {position} (wanted {wanted})"
  | unknownTag tag entry => s!"unknown constant tag {tag} at entry {entry}"
  | poolOverrun => "wide constant overruns the pool"
  | noEntry index => s!"invalid constant pool index {index}"
  | wrongEntry index wanted => s!"constant pool entry {index} is not a {wanted.label}"
  | deepNesting => s!"annotation nesting deeper than {annotationDepth}"
  | unknownElement tag => s!"unknown element_value tag {tag}"
  | badTableSwitch offset => s!"malformed tableswitch at {offset}"
  | badLookupSwitch offset => s!"malformed lookupswitch at {offset}"
  | badWide opcode => "invalid wide opcode 0x" ++ Text.hexPadded 2 opcode.toNat
  | unknownOpcode opcode offset =>
    "unknown opcode 0x" ++ Text.hexPadded 2 opcode.toNat ++ s!" at {offset}"
  | wildBranch offset => s!"branch at {offset} leaves the method"
  | notInstruction offset => s!"offset {offset} is not an instruction"
  | trailing count => s!"{count} trailing bytes"
  | declares name => "artifact declares " ++ name

end Retest

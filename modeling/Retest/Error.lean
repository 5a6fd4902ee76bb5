import Retest.ClassFile.Fault
import Retest.Dependency

/-!
# Errors

What can go wrong outside of a single class file's octets, by cause.
-/

namespace Retest

/-- **What can go wrong** outside of the octets of a class file. Each error holds what its report
mentions. -/
inductive Error where
  /-- The class file of a unit is not there. -/
  | missing (unit : UnitName)
  /-- The class file of a unit is faulty. -/
  | malformed (unit : UnitName) (fault : Fault)
  /-- The store in a directory was there when tests were selected, and is gone. -/
  | vanished (directory : String)
  /-- So many records, among them the given one, belong to units outside of the build. -/
  | orphaned (count : Nat) (first : Dependency)
  /-- A file cannot be written. -/
  | unwritable (file : String)
deriving DecidableEq, Repr

namespace Error

def message : Error → String
  | missing unit => "Artifact error: " ++ unit ++ " not found"
  | malformed unit fault => "Class format error in " ++ unit ++ ": " ++ fault.message
  | vanished directory => "Store error: baseline in " ++ directory ++ " vanished after selection"
  | orphaned count first =>
    s!"Invariant violation: {count} record(s) reference units absent from the build, e.g. "
      ++ first.text
  | unwritable file => "IO error: " ++ file ++ " cannot be written"

/-- Whether one can go on after an error, without the unit or the records concerned. What is wrong
with a store as a whole, or with the place that it is written to, cannot be left out. -/
def isRecoverable : Error → Bool
  | missing _ | malformed _ _ | vanished _ => true
  | orphaned _ _ | unwritable _ => false

end Error

end Retest

import Retest.ClassFile.AnnotationText
import Retest.ClassFile.Basic

/-!
# Attributes

Classes, fields and methods carry attributes, each with a name and a body.
`Retest.Attributes` holds what six of them say; all others, among them those
that serve debugging, are passed over, as is whatever follows the expected
contents of a body.

Where an attribute is repeated, the last one counts, except that thrown
exceptions and bootstrap methods are collected.
-/

namespace Retest

/-- An entry of an exception table, by offsets into the code. -/
structure HandlerRange where
  start : UInt16
  stop : UInt16
  target : UInt16
  /-- The index of the exceptions that are caught; 0 for all. -/
  catchType : UInt16
deriving DecidableEq, Repr

/-- The body of a method before its octets are taken apart. -/
structure Bytecode where
  maxStack : UInt16
  maxLocals : UInt16
  octets : List UInt8
  handlers : List HandlerRange
deriving DecidableEq, Repr

structure BootstrapEntry where
  handle : UInt16
  arguments : List UInt16
deriving DecidableEq, Repr

/-- What the attributes of a class, field or method say. The same six are looked for in all three
places, although each of them means something only in some. -/
structure Attributes where
  signature : Option String := none
  annotations : List String := []
  constant : Option Constant := none
  exceptions : List UnitName := []
  code : Option Bytecode := none
  bootstraps : List BootstrapEntry := []
deriving DecidableEq, Repr

open Reader

/-- Read the body of a method. The attributes it has itself are passed over. -/
def Bytecode.read : Reader Bytecode := do
  let maxStack ← u2
  let maxLocals ← u2
  let octets ← take (← u4).toNat
  let handlers ← counted do return ⟨← u2, ← u2, ← u2, ← u2⟩
  let _ ← counted do
    let _ ← u2
    take (← u4).toNat
  return ⟨maxStack, maxLocals, octets, handlers⟩

def BootstrapEntry.read : Reader BootstrapEntry := do
  return ⟨← u2, ← counted u2⟩

namespace Attributes

/-- **Take up an attribute.** Where it is repeated the later one stands, except for exceptions and
bootstrap methods, which add up. A body that is longer than what is read of it is no fault. -/
def add (pool : Pool) (attributes : Attributes) (name : String) (body : List UInt8) :
    Except Fault Attributes := do
  match name with
  | "Signature" =>
    return { attributes with signature := some (← within body do pool.text (← u2)) }
  | "RuntimeVisibleAnnotations" =>
    return { attributes with annotations := ← within body (counted (AnnotationText.read pool)) }
  | "ConstantValue" =>
    return { attributes with constant := some (← within body do pool.constant (← u2)) }
  | "Exceptions" =>
    let more ← within body (counted do pool.unit (← u2))
    return { attributes with exceptions := attributes.exceptions ++ more }
  | "Code" => return { attributes with code := some (← within body Bytecode.read) }
  | "BootstrapMethods" =>
    let more ← within body (counted BootstrapEntry.read)
    return { attributes with bootstraps := attributes.bootstraps ++ more }
  | _ => return attributes

def readMore (pool : Pool) : (n : Nat) → Attributes → Reader Attributes
  | 0, attributes => return attributes
  | n + 1, attributes => do
    let name ← pool.text (← u2)
    let body ← take (← u4).toNat
    readMore pool n (← attributes.add pool name body)

def read (pool : Pool) : Reader Attributes := do readMore pool (← u2).toNat {}

end Attributes

end Retest

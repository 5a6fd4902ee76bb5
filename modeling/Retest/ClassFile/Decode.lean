import Retest.ClassFile.Bytecode

/-!
# Decoding class files

`Retest.ClassFile.decode` turns the octets of a class file into a
`Retest.ClassFile`, or says what is wrong with them. The file is first read from
front to back, down to its last octet; only then are the bootstrap methods
resolved and the methods' code taken apart, in this order. So of two faults the
one in the frame of the file is reported.
-/

namespace Retest

open Reader

/-- A field or method as it stands in the file, with its code not yet taken apart. -/
structure MemberEntry where
  access : Access
  name : String
  descriptor : String
  attributes : Attributes
deriving DecidableEq, Repr

namespace MemberEntry

/-- Read a field or method. -/
def read (pool : Pool) : Reader MemberEntry := do
  let access ← u2
  let name ← pool.text (← u2)
  let descriptor ← pool.text (← u2)
  return ⟨access, name, descriptor, ← Attributes.read pool⟩

def field (entry : MemberEntry) : FieldDecl where
  access := entry.access
  name := entry.name
  descriptor := entry.descriptor
  constant := entry.attributes.constant
  signature := entry.attributes.signature
  annotations := entry.attributes.annotations

def method (pool : Pool) (bootstraps : List Bootstrap) (entry : MemberEntry) :
    Except Fault MethodDecl := do
  return {
    access := entry.access
    name := entry.name
    descriptor := entry.descriptor
    exceptions := entry.attributes.exceptions
    signature := entry.attributes.signature
    annotations := entry.attributes.annotations
    code := ← entry.attributes.code.mapM (Bytecode.decode pool bootstraps) }

end MemberEntry

/-- Resolve a bootstrap method, its arguments first. -/
def BootstrapEntry.resolve (pool : Pool) (entry : BootstrapEntry) : Except Fault Bootstrap := do
  let arguments ← entry.arguments.mapM pool.constant
  return ⟨← pool.handle entry.handle, arguments⟩

namespace ClassFile

/-- What a class file begins with. -/
def magic : UInt32 := 0xCAFEBABE

/-- A class file as it stands in the octets: names are known, bodies and bootstrap methods are not.
-/
structure Frame where
  pool : Pool
  access : Access
  name : UnitName
  superName : Option UnitName
  interfaces : List UnitName
  fields : List MemberEntry
  methods : List MemberEntry
  attributes : Attributes

namespace Frame

/-- Read a class file; nothing may follow it. -/
def read : Reader Frame := do
  if (← u4) ≠ magic then fail .badMagic
  let _minor ← u2
  let _major ← u2
  let pool ← Pool.read
  let access ← u2
  let name ← pool.unit (← u2)
  let superName ← pool.unit? (← u2)
  let interfaces ← counted do pool.unit (← u2)
  let fields ← counted (MemberEntry.read pool)
  let methods ← counted (MemberEntry.read pool)
  let attributes ← Attributes.read pool
  let left ← remaining
  if left ≠ 0 then fail (.trailing left)
  return { pool, access, name, superName, interfaces, fields, methods, attributes }

/-- Resolve what a frame leaves open. The bootstrap methods come first, since instructions refer to
them. -/
def resolve (frame : Frame) : Except Fault ClassFile := do
  let bootstraps ← frame.attributes.bootstraps.mapM (BootstrapEntry.resolve frame.pool)
  return {
    name := frame.name
    access := frame.access
    superName := frame.superName
    interfaces := frame.interfaces
    signature := frame.attributes.signature
    annotations := frame.attributes.annotations
    fields := frame.fields.map MemberEntry.field
    methods := ← frame.methods.mapM (MemberEntry.method frame.pool bootstraps) }

end Frame

/-- **Decode a class file.** All octets are read, and nothing may follow; the fault that is reported
is the first one in the order of the two steps. -/
def decode (bytes : List UInt8) : Except Fault ClassFile := do
  (← within bytes Frame.read).resolve

end ClassFile

end Retest

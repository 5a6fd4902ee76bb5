import Retest.ClassFile.Constant

/-!
# Class files

A class file as the rest of the library sees it: every name spelled out, every
jump given by the ordinal of the instruction it leads to, and nothing that only
serves debugging. Instructions that exist in a short and a wide form appear in
the short form.
-/

namespace Retest

/-- What an opcode is applied to. Nothing in it depends on where the class file keeps its names or
how long its instructions are. -/
inductive Operand where
  | none
  | int (value : Int32)
  | localVar (index : UInt16)
  /-- A local variable and what is added to it. -/
  | increment (index : UInt16) (delta : Int16)
  | constant (value : Constant)
  | field (target : MemberRef)
  | method (target : MemberRef)
  | type (name : UnitName)
  /-- The ordinal of the instruction that is jumped to. -/
  | branch (target : Nat)
  /-- The ordinals for a switch: by default, and for each key. -/
  | switch (default : Nat) (cases : List (Int32 × Nat))
  | multiArray (element : UnitName) (dimensions : UInt8)
  /-- A call site that a bootstrap method links, if there is one under its index. -/
  | dynamic (name descriptor : String) (bootstrap : Option Bootstrap)
deriving DecidableEq, Repr

structure Instruction where
  opcode : UInt8
  operand : Operand
deriving DecidableEq, Repr

/-- An entry of an exception table, with ordinals of instructions. -/
structure Handler where
  start : Nat
  /-- The ordinal after the last instruction covered. -/
  stop : Nat
  target : Nat
  /-- The exceptions that are caught; `none` for all. -/
  catchType : Option UnitName
deriving DecidableEq, Repr

structure Code where
  maxStack : UInt16
  maxLocals : UInt16
  instructions : List Instruction
  handlers : List Handler
deriving DecidableEq, Repr

/-- Access flags. -/
abbrev Access := UInt16

namespace Access

def isStatic (access : Access) : Bool := access &&& 0x0008 != 0

def isInterface (access : Access) : Bool := access &&& 0x0200 != 0

def isAbstract (access : Access) : Bool := access &&& 0x0400 != 0

end Access

structure FieldDecl where
  access : Access
  name : String
  descriptor : String
  constant : Option Constant
  signature : Option String
  annotations : List String
deriving DecidableEq, Repr

structure MethodDecl where
  access : Access
  name : String
  descriptor : String
  exceptions : List UnitName
  signature : Option String
  annotations : List String
  code : Option Code
deriving DecidableEq, Repr

/-- How a field is known inside its unit. Since a colon may stand in a name as well, two fields that
are different can have the same slot. -/
def FieldDecl.slot (field : FieldDecl) : String := field.name ++ ":" ++ field.descriptor

/-- How a method is known inside its unit. -/
def MethodDecl.slot (method : MethodDecl) : Signature := method.name ++ method.descriptor

/-- **A class file**, as far as the unit that it declares can be told from it. -/
structure ClassFile where
  name : UnitName
  access : Access
  superName : Option UnitName
  interfaces : List UnitName
  signature : Option String
  annotations : List String
  fields : List FieldDecl
  methods : List MethodDecl
deriving DecidableEq, Repr

/-- The units that a class names as its parents. -/
def ClassFile.parents (file : ClassFile) : List UnitName := file.superName.toList ++ file.interfaces

end Retest

import Retest.ClassFile.Basic
import Retest.Dependency

/-!
# Facts

A class file says what a unit declares, and what its methods use. Both are
brought into one list of `Retest.Fact`s, in the order of the file: the unit, its
fields, and for each method its declaration followed by its uses. This is all
that the inventory of a build and its call graph need to know of a class file.
-/

namespace Retest

/-- How a method is called. -/
inductive CallKind where
  | virtual
  | interface
  | special
  | static
  /-- Through a handle. -/
  | handle
deriving DecidableEq, Repr

structure UnitInfo where
  superName : Option UnitName
  interfaces : List UnitName
  isInterface : Bool
  isAbstract : Bool
deriving DecidableEq, Repr

def UnitInfo.parents (info : UnitInfo) : List UnitName := info.superName.toList ++ info.interfaces

/-- **What a class file declares or uses.** The uses are as the code names them; which declaration
is meant is not a matter of the class file alone. -/
inductive Fact where
  /-- A unit is declared. -/
  | unit (name : UnitName) (info : UnitInfo)
  /-- A field is declared. -/
  | field (key : FieldKey) (isStatic : Bool)
  /-- A method is declared. -/
  | method (key : MethodKey) (isStatic isAbstract : Bool)
  /-- A method calls another. -/
  | call (caller : MethodKey) (owner : UnitName) (signature : Signature) (kind : CallKind)
  /-- A method reads or writes a field. -/
  | access (caller : MethodKey) (field : FieldKey) (write isStatic : Bool)
deriving DecidableEq, Repr

def MemberRef.fieldKey (ref : MemberRef) : FieldKey := ⟨ref.owner, ref.name, ref.descriptor⟩

/-- What using a handle amounts to. A handle is taken as used by the method that loads it, whoever
calls it in the end. -/
def Handle.fact (caller : MethodKey) (handle : Handle) : Fact :=
  if handle.isField then
    .access caller handle.member.fieldKey (3 ≤ handle.kind) (handle.kind = 2 ∨ handle.kind = 4)
  else .call caller handle.member.owner handle.member.signature .handle

def Constant.facts (caller : MethodKey) : Constant → List Fact
  | .handle h => [h.fact caller]
  | _ => []

/-- What a bootstrap method amounts to: it is called itself, and what it is given may be called by
what it makes. -/
def Bootstrap.facts (caller : MethodKey) (bootstrap : Bootstrap) : List Fact :=
  bootstrap.handle.fact caller :: bootstrap.arguments.flatMap (Constant.facts caller)

def CallKind.ofOpcode (opcode : UInt8) : CallKind :=
  match opcode with
  | 0xb6 => virtual
  | 0xb7 => special
  | 0xb8 => static
  | _ => interface

def Instruction.facts (caller : MethodKey) (instruction : Instruction) : List Fact :=
  match instruction.operand with
  | .method m => [.call caller m.owner m.signature (.ofOpcode instruction.opcode)]
  | .field f =>
    [.access caller f.fieldKey (instruction.opcode = 0xb3 ∨ instruction.opcode = 0xb5)
      (instruction.opcode = 0xb2 ∨ instruction.opcode = 0xb3)]
  | .constant c => c.facts caller
  | .dynamic _ _ (some bootstrap) => bootstrap.facts caller
  | _ => []

def MethodDecl.facts (unit : UnitName) (method : MethodDecl) : List Fact :=
  let key : MethodKey := ⟨unit, method.slot⟩
  .method key method.access.isStatic method.access.isAbstract ::
    (method.code.elim [] fun code => code.instructions.flatMap (Instruction.facts key))

def ClassFile.info (file : ClassFile) : UnitInfo :=
  ⟨file.superName, file.interfaces, file.access.isInterface, file.access.isAbstract⟩

/-- **All facts of a class file**, in the order of the file. -/
def ClassFile.facts (file : ClassFile) : List Fact :=
  .unit file.name file.info ::
    file.fields.map (fun f => .field ⟨file.name, f.name, f.descriptor⟩ f.access.isStatic) ++
    file.methods.flatMap (MethodDecl.facts file.name)

end Retest

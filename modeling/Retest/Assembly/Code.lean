import Retest.Assembly.Pool

/-!
# Assembling code

A method's body is given as a list of instructions in which a jump names the
ordinal of the instruction it leads to (`Retest.AsmOp`). Assembling it takes
three passes: find the indices of what the instructions refer to, since a short
index makes a shorter instruction; add up the sizes; write the octets.
-/

namespace Retest

/-- An instruction to be assembled. It names what it refers to, and a jump the ordinal of the
instruction that it leads to. -/
inductive AsmOp where
  /-- An opcode without an operand. -/
  | plain (opcode : UInt8)
  /-- An opcode that is applied to a local variable. -/
  | localVar (opcode index : UInt8)
  | increment (index : UInt8) (delta : Int8)
  /-- Push a small number. -/
  | push (value : Int8)
  /-- Load a string. -/
  | string (value : String)
  /-- An opcode that is applied to a field or a method. -/
  | member (opcode : UInt8) (owner : UnitName) (name descriptor : String)
  /-- An opcode that is applied to a unit. -/
  | type (opcode : UInt8) (name : UnitName)
  /-- A jump to the instruction with an ordinal. -/
  | branch (opcode : UInt8) (target : Nat)
  /-- Make a function object from a static method. -/
  | lambda (name descriptor : String) (owner : UnitName) (target targetDescriptor : String)
deriving DecidableEq, Repr

namespace AsmOp

/-! ### Instructions by name -/

def aload (index : UInt8) : AsmOp := localVar 0x19 index

def iload (index : UInt8) : AsmOp := localVar 0x15 index

/-- Push a number up to 5; a greater one is taken for 5. -/
def iconst (value : UInt8) : AsmOp := plain (3 + min value 5)

def pop : AsmOp := plain 0x57

def dup : AsmOp := plain 0x59

def ret : AsmOp := plain 0xb1

def ireturn : AsmOp := plain 0xac

def areturn : AsmOp := plain 0xb0

def getstatic : UnitName → String → String → AsmOp := member 0xb2

def putstatic : UnitName → String → String → AsmOp := member 0xb3

def getfield : UnitName → String → String → AsmOp := member 0xb4

def putfield : UnitName → String → String → AsmOp := member 0xb5

def invokevirtual : UnitName → String → String → AsmOp := member 0xb6

def invokespecial : UnitName → String → String → AsmOp := member 0xb7

def invokestatic : UnitName → String → String → AsmOp := member 0xb8

def invokeinterface : UnitName → String → String → AsmOp := member 0xb9

def newObject (name : UnitName) : AsmOp := type 0xbb name

def ifeq (target : Nat) : AsmOp := branch 0x99 target

def goto (target : Nat) : AsmOp := branch 0xa7 target

/-! ### Assembling -/

open Assembly

/-- The tag of the members that an opcode is applied to. -/
def memberTag (opcode : UInt8) : UInt8 :=
  if opcode = 0xb9 then 11 else if 0xb6 ≤ opcode then 10 else 9

/-- The unit that makes function objects. -/
def factoryOwner : UnitName := "java.lang.invoke.LambdaMetafactory"

def factoryDescriptor : String :=
  "(Ljava/lang/invoke/MethodHandles$Lookup;Ljava/lang/String;Ljava/lang/invoke/MethodType;" ++
    "Ljava/lang/invoke/MethodType;Ljava/lang/invoke/MethodHandle;Ljava/lang/invoke/MethodType;)" ++
    "Ljava/lang/invoke/CallSite;"

/-- The index of what an instruction refers to; 0 if it refers to nothing. -/
def poolIndex : AsmOp → Assembler UInt16
  | string value => Assembly.string value
  | member opcode owner name descriptor => Assembly.member (memberTag opcode) owner name descriptor
  | type _ name => Assembly.unit name
  | lambda name descriptor owner target targetDescriptor => do
    let factory ← staticHandle factoryOwner "metafactory" factoryDescriptor
    let erased ← methodType targetDescriptor
    let implementation ← staticHandle owner target targetDescriptor
    let index ← bootstrap ⟨factory, [erased, implementation, erased]⟩
    callSite index name descriptor
  | plain _ | localVar _ _ | increment _ _ | push _ | branch _ _ => return 0

/-- The size that an instruction counts for when offsets are added up. A call of an interface method
counts for less than it takes, so that jumps over one lead to the wrong place. -/
def size (index : UInt16) : AsmOp → Nat
  | plain _ => 1
  | localVar _ _ | push _ => 2
  | string _ => if index ≤ 0xff then 2 else 3
  | increment _ _ | member _ _ _ _ | type _ _ | branch _ _ => 3
  | lambda _ _ _ _ _ => 5

/-- The offsets of instructions with given sizes, the first of them at an offset. -/
def offsetsFrom (offset : Nat) : List Nat → List Nat
  | [] => []
  | size :: sizes => offset :: offsetsFrom (offset + size) sizes

/-- The octets of an instruction at an offset, given its index and where jumps lead to. -/
def octets (place : Nat → Nat) (offset : Nat) (index : UInt16) : AsmOp → List UInt8
  | plain opcode => [opcode]
  | localVar opcode slot => [opcode, slot]
  | increment slot delta => [0x84, slot, delta.toUInt8]
  | push value => [0x10, value.toUInt8]
  | string _ => if index ≤ 0xff then [0x12, index.toUInt8] else 0x13 :: two index
  | member opcode _ _ _ => opcode :: two index ++ if opcode = 0xb9 then [1, 0] else []
  | type opcode _ => opcode :: two index
  | branch opcode target =>
    opcode :: two (Int16.ofInt ((place target : Int) - offset)).toUInt16
  | lambda _ _ _ _ _ => 0xba :: two index ++ two 0

/-- **Assemble a list of instructions.** The indices come first, as the size of an instruction may
depend on its index, and the place that a jump leads to on all the sizes. A jump to no instruction
leads to the end. -/
def assemble (ops : List AsmOp) : Assembler (List UInt8) := do
  let indices ← ops.mapM poolIndex
  let sizes := List.zipWith (fun op index => op.size index) ops indices
  let offsets := offsetsFrom 0 sizes
  let place (target : Nat) : Nat := offsets[target]?.getD (sizes.foldr (· + ·) 0)
  return (ops.zip (offsets.zip indices)).flatMap fun (op, offset, index) =>
    op.octets place offset index

end AsmOp

end Retest

import Retest.ClassFile.Attribute

/-!
# Bytecode

An opcode determines how what it is applied to is laid out
(`Retest.Layout.ofOpcode?`). `Retest.Bytecode.decode` first takes the octets of
a method apart into instructions, with the offset of each; jumps then lead to
offsets. In a second step every offset is replaced by the ordinal of the
instruction that starts there, so that an instruction which grows or shrinks
elsewhere in the method leaves no trace.
-/

namespace Retest

/-! ### Layouts -/

/-- How the operand of an opcode is laid out. -/
inductive Layout where
  /-- No operand. -/
  | plain
  /-- A signed octet. -/
  | byte
  /-- A signed number of two octets. -/
  | short
  /-- A constant under an index of one octet. -/
  | constant
  /-- A constant under an index of two octets. -/
  | wideConstant
  /-- A local variable. -/
  | localVar
  /-- A local variable and a signed octet. -/
  | increment
  /-- A distance of two octets. -/
  | branch
  /-- A distance of four octets. -/
  | wideBranch
  | tableSwitch
  | lookupSwitch
  | field
  | method
  /-- A method and two octets that are passed over. -/
  | interfaceMethod
  /-- A call site and two octets that are passed over. -/
  | callSite
  | type
  /-- The octet of a type of numbers. -/
  | arrayType
  /-- The opcode of an instruction on local variables, in its wide form. -/
  | wide
  | multiArray
deriving DecidableEq, Repr

namespace Layout

/-- The layouts for ranges of opcodes, both ends included. -/
def table : List (UInt8 × UInt8 × Layout) :=
  [(0x00, 0x0f, plain), (0x10, 0x10, byte), (0x11, 0x11, short), (0x12, 0x12, constant),
    (0x13, 0x14, wideConstant), (0x15, 0x19, localVar), (0x1a, 0x35, plain),
    (0x36, 0x3a, localVar), (0x3b, 0x83, plain), (0x84, 0x84, increment), (0x85, 0x98, plain),
    (0x99, 0xa8, branch), (0xa9, 0xa9, localVar), (0xaa, 0xaa, tableSwitch),
    (0xab, 0xab, lookupSwitch), (0xac, 0xb1, plain), (0xb2, 0xb5, field), (0xb6, 0xb8, method),
    (0xb9, 0xb9, interfaceMethod), (0xba, 0xba, callSite), (0xbb, 0xbb, type),
    (0xbc, 0xbc, arrayType), (0xbd, 0xbd, type), (0xbe, 0xbf, plain), (0xc0, 0xc1, type),
    (0xc2, 0xc3, plain), (0xc4, 0xc4, wide), (0xc5, 0xc5, multiArray), (0xc6, 0xc7, branch),
    (0xc8, 0xc9, wideBranch), (0xca, 0xca, plain), (0xfe, 0xff, plain)]

/-- The layout that belongs to an opcode, if the opcode exists. -/
def ofOpcode? (opcode : UInt8) : Option Layout :=
  (table.find? fun (low, high, _) => low ≤ opcode && opcode ≤ high).map (·.2.2)

end Layout

/-- The opcode under which an instruction is kept: that of its short form. -/
def shortOpcode (opcode : UInt8) : UInt8 :=
  match opcode with
  | 0x13 => 0x12
  | 0xc8 => 0xa7
  | 0xc9 => 0xa8
  | _ => opcode

/-! ### Instructions -/

namespace Bytecode

open Reader

structure Context where
  pool : Pool
  bootstraps : List Bootstrap
  /-- The length of the code. -/
  size : Nat

/-- The offset at a distance from another. It has to lie inside the code, but an instruction need
not start there. -/
def target (context : Context) (offset : Nat) (distance : Int32) : Reader Nat :=
  let place := (offset : Int) + distance.toInt
  if 0 ≤ place ∧ place < context.size then return place.toNat else fail (.wildBranch offset)

/-- Pass over the octets up to the next multiple of four. -/
def align : Reader Unit := do
  let here ← position
  let _ ← times u1 ((4 - here % 4) % 4)

def readTable (context : Context) (offset : Nat) (key : Int32) :
    (count : Nat) → Reader (List (Int32 × Nat))
  | 0 => return []
  | count + 1 => do
    let place ← target context offset (← i4)
    return (key, place) :: (← readTable context offset (key + 1) count)

/-- Read the operand of a table switch after its default. That there is room for the cases is found
out before any of them is read. -/
def readTableSwitch (context : Context) (offset : Nat) : Reader (List (Int32 × Nat)) := do
  let low ← i4
  let high ← i4
  let left ← remaining
  let count := (high.toInt - low.toInt + 1).toNat
  if high < low ∨ left < count * 4 then fail (.badTableSwitch offset)
  else readTable context offset low count

/-- Read the operand of a lookup switch after its default, of which the same holds. -/
def readLookupSwitch (context : Context) (offset : Nat) : Reader (List (Int32 × Nat)) := do
  let count ← i4
  let left ← remaining
  if count < 0 ∨ left < count.toInt.toNat * 8 then fail (.badLookupSwitch offset)
  else
    times (do
      let key ← i4
      return (key, ← target context offset (← i4))) count.toInt.toNat

def readWide : Reader Instruction := do
  let opcode ← u1
  match Layout.ofOpcode? opcode with
  | some .localVar => return ⟨opcode, .localVar (← u2)⟩
  | some .increment => return ⟨opcode, .increment (← u2) (← i2)⟩
  | _ => fail (.badWide opcode)

/-- Read the rest of the instruction that starts with an opcode at an offset. -/
def readOperand (context : Context) (offset : Nat) (opcode : UInt8) :
    Layout → Reader Instruction
  | .plain => return ⟨opcode, .none⟩
  | .byte => return ⟨opcode, .int (← i1).toInt32⟩
  | .short => return ⟨opcode, .int (← i2).toInt32⟩
  | .constant => return ⟨opcode, .constant (← context.pool.constant (← u1).toUInt16)⟩
  | .wideConstant =>
    return ⟨shortOpcode opcode, .constant (← context.pool.constant (← u2))⟩
  | .localVar => return ⟨opcode, .localVar (← u1).toUInt16⟩
  | .increment => return ⟨opcode, .increment (← u1).toUInt16 (← i1).toInt16⟩
  | .branch => return ⟨opcode, .branch (← target context offset (← i2).toInt32)⟩
  | .wideBranch => return ⟨shortOpcode opcode, .branch (← target context offset (← i4))⟩
  | .tableSwitch => do
    align
    let default ← target context offset (← i4)
    return ⟨opcode, .switch default (← readTableSwitch context offset)⟩
  | .lookupSwitch => do
    align
    let default ← target context offset (← i4)
    return ⟨opcode, .switch default (← readLookupSwitch context offset)⟩
  | .field => return ⟨opcode, .field (← context.pool.member (← u2))⟩
  | .method => return ⟨opcode, .method (← context.pool.member (← u2))⟩
  | .interfaceMethod => do
    let member ← context.pool.member (← u2)
    let _ ← u1
    let _ ← u1
    return ⟨opcode, .method member⟩
  | .callSite => do
    let (bootstrap, name, descriptor) ← context.pool.callSite (← u2)
    let _ ← u2
    return ⟨opcode, .dynamic name descriptor context.bootstraps[bootstrap.toNat]?⟩
  | .type => return ⟨opcode, .type (← context.pool.unit (← u2))⟩
  | .arrayType => return ⟨opcode, .int (.ofInt (← u1).toNat)⟩
  | .wide => readWide
  | .multiArray => do
    let element ← context.pool.unit (← u2)
    return ⟨opcode, .multiArray element (← u1)⟩

def readInstruction (context : Context) : Reader (Nat × Instruction) := do
  let offset ← position
  let opcode ← u1
  match Layout.ofOpcode? opcode with
  | some layout => return (offset, ← readOperand context offset opcode layout)
  | none => fail (.unknownOpcode opcode offset)

/-! ### Ordinals -/

/-- The ordinal of the instruction that starts at an offset. The end of the code
counts as the start of one instruction more. -/
def ordinal (starts : List Nat) (size offset : Nat) : Except Fault Nat :=
  if offset = size then .ok starts.length
  else
    match starts.idxOf? offset with
    | some k => .ok k
    | none => .error (.notInstruction offset)

end Bytecode

/-- Apply a function to all places an operand leads to; in a switch to the default first. -/
def Operand.mapTargets (f : Nat → Except Fault Nat) : Operand → Except Fault Operand
  | .branch place => return .branch (← f place)
  | .switch default cases => do
    let default ← f default
    return .switch default (← cases.mapM fun (key, place) => return (key, ← f place))
  | operand => return operand

namespace Bytecode

open Reader

def decodeHandler (pool : Pool) (place : Nat → Except Fault Nat) (range : HandlerRange) :
    Except Fault Handler := do
  let start ← place range.start.toNat
  let stop ← place range.stop.toNat
  let target ← place range.target.toNat
  return ⟨start, stop, target, ← pool.unit? range.catchType⟩

/-- **Take the body of a method apart.** Octets become instructions, and then offsets become
ordinals. An instruction takes at least one octet, so there are no more of them than octets. -/
def decode (pool : Pool) (bootstraps : List Bootstrap) (body : Bytecode) : Except Fault Code := do
  let size := body.octets.length
  let read ← within body.octets (untilEnd (readInstruction ⟨pool, bootstraps, size⟩) size)
  let place := ordinal (read.map (·.1)) size
  let instructions ← read.mapM fun (_, instruction) =>
    return ⟨instruction.opcode, ← instruction.operand.mapTargets place⟩
  let handlers ← body.handlers.mapM (decodeHandler pool place)
  return ⟨body.maxStack, body.maxLocals, instructions, handlers⟩

end Bytecode

end Retest

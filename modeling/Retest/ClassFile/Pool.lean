import Retest.ClassFile.Constant
import Retest.ClassFile.Cursor
import Retest.Text.Utf8

/-!
# The constant pool

A class file keeps its names and constants in one table and refers to them by
index. `Retest.Pool.read` reads the table; the other functions of
`Retest.Pool` follow indices through it until nothing but values is left. An
index fails if there is no entry under it, or one of another kind.

The first index is 1, and a constant of eight octets takes up two indices, of
which the second is unusable.
-/

namespace Retest

/-- The text that octets of a class file stand for. Valid UTF-8 is taken as it
is; otherwise the two-octet form of the null character is read as such, and
each defect that remains gives a replacement character. -/
def poolText (bytes : List UInt8) : String :=
  (Text.Utf8.decode? bytes).getD (Text.Utf8.decodeLossy (plainNull bytes))
where
  /-- Put the null octet in the place of its two-octet form. -/
  plainNull : List UInt8 → List UInt8
    | 0xC0 :: 0x80 :: rest => 0 :: plainNull rest
    | b :: rest => b :: plainNull rest
    | [] => []

/-- An entry of a constant pool. -/
inductive Entry where
  | unusable
  | text (value : String)
  | int (value : Int32)
  | float (bits : UInt32)
  | long (value : Int64)
  | double (bits : UInt64)
  | unit (name : UInt16)
  | string (value : UInt16)
  | member (interface : Bool) (owner nameAndType : UInt16)
  | nameAndType (name descriptor : UInt16)
  | handle (kind : UInt8) (member : UInt16)
  | methodType (descriptor : UInt16)
  /-- A constant computed at run time. -/
  | dynamic (bootstrap nameAndType : UInt16)
  /-- A call site linked at run time. -/
  | callSite (bootstrap nameAndType : UInt16)
  /-- A module or a package, of which nothing is kept. -/
  | other
deriving DecidableEq, Repr

/-- Whether an entry takes up two indices. -/
def Entry.isWide : Entry → Bool
  | long _ | double _ => true
  | _ => false

/-- The entries of a constant pool, by index. The index 0 and the one after a wide entry hold an
entry that cannot be used. -/
structure Pool where
  entries : Array Entry
deriving Repr

namespace Pool

/-! ### Reading the table -/

open Reader

def readEntry (index : Nat) : Reader Entry := do
  match ← u1 with
  | 1 => return .text (poolText (← take (← u2).toNat))
  | 3 => return .int (← i4)
  | 4 => return .float (← u4)
  | 5 => return .long (← u8).toInt64
  | 6 => return .double (← u8)
  | 7 => return .unit (← u2)
  | 8 => return .string (← u2)
  | 9 | 10 => return .member false (← u2) (← u2)
  | 11 => return .member true (← u2) (← u2)
  | 12 => return .nameAndType (← u2) (← u2)
  | 15 => return .handle (← u1) (← u2)
  | 16 => return .methodType (← u2)
  | 17 => return .dynamic (← u2) (← u2)
  | 18 => return .callSite (← u2) (← u2)
  | 19 | 20 =>
    let _ ← u2
    return .other
  | tag => fail (.unknownTag tag index)

/-- Read the entries for `room` more indices, the first of them `index`. -/
def readEntries : (room index : Nat) → Reader (List Entry)
  | 0, _ => return []
  | room + 1, index => do
    let entry ← readEntry index
    if entry.isWide then
      match room with
      | 0 => fail .poolOverrun
      | room + 1 => return entry :: .unusable :: (← readEntries room (index + 2))
    else return entry :: (← readEntries room (index + 1))

/-- Read a constant pool. Its count is one more than the last index. -/
def read : Reader Pool := do
  match (← u2).toNat with
  | 0 => fail .poolOverrun
  | room + 1 => return ⟨(.unusable :: (← readEntries room 1)).toArray⟩

/-! ### Following indices -/

def entry (pool : Pool) (index : UInt16) : Except Fault Entry :=
  match pool.entries[index.toNat]? with
  | none | some .unusable => .error (.noEntry index)
  | some e => .ok e

def text (pool : Pool) (index : UInt16) : Except Fault String := do
  match ← pool.entry index with
  | .text value => return value
  | _ => .error (.wrongEntry index .text)

def unit (pool : Pool) (index : UInt16) : Except Fault UnitName := do
  match ← pool.entry index with
  | .unit name => return .ofSlashed (← pool.text name)
  | _ => .error (.wrongEntry index .unit)

/-- The unit under an index, where the index 0 stands for none. -/
def unit? (pool : Pool) (index : UInt16) : Except Fault (Option UnitName) :=
  if index = 0 then .ok none else (pool.unit index).map some

def nameAndType (pool : Pool) (index : UInt16) : Except Fault (String × String) := do
  match ← pool.entry index with
  | .nameAndType name descriptor => return (← pool.text name, ← pool.text descriptor)
  | _ => .error (.wrongEntry index .nameAndType)

/-- The member under an index; its name and type are resolved before its owner. -/
def member (pool : Pool) (index : UInt16) : Except Fault MemberRef := do
  match ← pool.entry index with
  | .member interface owner nameAndType =>
    let (name, descriptor) ← pool.nameAndType nameAndType
    return ⟨← pool.unit owner, name, descriptor, interface⟩
  | _ => .error (.wrongEntry index .member)

def handle (pool : Pool) (index : UInt16) : Except Fault Handle := do
  match ← pool.entry index with
  | .handle kind member => return ⟨kind, ← pool.member member⟩
  | _ => .error (.wrongEntry index .handle)

/-- The call site under an index: the index of its bootstrap method, its name and descriptor. -/
def callSite (pool : Pool) (index : UInt16) : Except Fault (UInt16 × String × String) := do
  match ← pool.entry index with
  | .callSite bootstrap nameAndType => return (bootstrap, ← pool.nameAndType nameAndType)
  | _ => .error (.wrongEntry index .callSite)

/-- The constant under an index, with all indices that it holds followed, except that of the
bootstrap method of a constant which is computed at run time. -/
def constant (pool : Pool) (index : UInt16) : Except Fault Constant := do
  match ← pool.entry index with
  | .int value => return .int value
  | .float bits => return .float bits
  | .long value => return .long value
  | .double bits => return .double bits
  | .string value => return .string (← pool.text value)
  | .unit _ => return .unit (← pool.unit index)
  | .methodType descriptor => return .methodType (← pool.text descriptor)
  | .handle _ _ => return .handle (← pool.handle index)
  | .dynamic bootstrap nameAndType =>
    let (name, descriptor) ← pool.nameAndType nameAndType
    return .dynamic bootstrap name descriptor
  | _ => .error (.wrongEntry index .loadable)

end Pool

end Retest

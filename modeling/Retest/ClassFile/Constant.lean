import Retest.Text.Quoted
import Retest.UnitName

/-!
# Constants and references

What the entries of a constant pool stand for once all indices are resolved:
members of units, handles on them, and the constants that code can load. Each
has a text, which is what a fingerprint sees of it; no text mentions the pool,
so its layout cannot be seen.
-/

namespace Retest

/-- A field or method of a unit, as code names it. -/
structure MemberRef where
  owner : UnitName
  name : String
  descriptor : String
  /-- Whether the reference is to a method of an interface. -/
  interface : Bool
deriving DecidableEq, Repr

namespace MemberRef

def signature (ref : MemberRef) : Signature := ref.name ++ ref.descriptor

/-- The text of a reference: owner, number sign, signature. -/
def text (ref : MemberRef) : String := ref.owner ++ "#" ++ ref.signature

end MemberRef

/-- A handle on a member: its reference kind and the member. -/
structure Handle where
  kind : UInt8
  member : MemberRef
deriving DecidableEq, Repr

namespace Handle

/-- Whether the handle reads or writes a field; otherwise it calls a method. -/
def isField (handle : Handle) : Bool := handle.kind ≤ 4

/-- The text of a handle. -/
def text (handle : Handle) : String := s!"mh:{handle.kind}:" ++ handle.member.text

end Handle

/-- A constant that code can load. -/
inductive Constant where
  | int (value : Int32)
  /-- A number of single precision, by its bits. -/
  | float (bits : UInt32)
  | long (value : Int64)
  /-- A number of double precision, by its bits. -/
  | double (bits : UInt64)
  | string (value : String)
  | unit (name : UnitName)
  | methodType (descriptor : String)
  | handle (handle : Handle)
  /-- A constant computed at run time by a bootstrap method. -/
  | dynamic (bootstrap : UInt16) (name descriptor : String)
deriving DecidableEq, Repr

/-- The text of a constant, which begins with its kind, so that constants of two kinds never have
the same text. Numbers with a fraction are written by their bits. -/
def Constant.text : Constant → String
  | int value => s!"int:{value.toInt}"
  | float bits => "float:" ++ Text.hexPadded 8 bits.toNat
  | long value => s!"long:{value.toInt}"
  | double bits => "double:" ++ Text.hexPadded 16 bits.toNat
  | string value => "str:" ++ Text.quoted value
  | unit name => "class:" ++ name
  | methodType descriptor => "mtype:" ++ descriptor
  | handle h => h.text
  | dynamic bootstrap name descriptor => s!"dyn:{bootstrap}:{name}:{descriptor}"

/-- A bootstrap method: the handle that is called, and the constants it is given. -/
structure Bootstrap where
  handle : Handle
  arguments : List Constant
deriving DecidableEq, Repr

def Bootstrap.text (bootstrap : Bootstrap) : String :=
  bootstrap.handle.text ++ "[" ++ ",".intercalate (bootstrap.arguments.map Constant.text) ++ "]"

end Retest

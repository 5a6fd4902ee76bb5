import Retest.Text.Blank
import Retest.Text.Search
import Retest.UnitName

/-!
# Dependencies

What a test can depend on: a whole unit, one of its methods, or one of its
fields. A dependency has a text, `com.foo.A`, `com.foo.A#f()V` or
`com.foo.A.count:I`, under which the dependency store keeps it, and
`Retest.Dependency.parse?` reads such a text back. Not every dependency
survives the way through its text: a unit name may hold a colon, for instance,
and is then read as a field or not at all.

Dependencies are ordered with the units first, then the methods, then the
fields, each by owner and then by what tells them apart within it.
-/

namespace Retest

structure MethodKey where
  owner : UnitName
  signature : Signature
deriving DecidableEq, Repr

structure FieldKey where
  owner : UnitName
  name : String
  descriptor : String
deriving DecidableEq, Repr

/-- **What a test can depend on.** Members are kept apart by owner and signature or slot, so that a
method which is inherited is another dependency than that of the heir. -/
inductive Dependency where
  /-- A whole unit. -/
  | unit (name : UnitName)
  /-- A method of a unit. -/
  | method (key : MethodKey)
  /-- A field of a unit. -/
  | field (key : FieldKey)
deriving DecidableEq, Repr

/-! ### Methods and fields -/

namespace MethodKey

/-- The name of the method, without the descriptor. -/
def name (key : MethodKey) : String := key.signature.methodName

def isInitializer (key : MethodKey) : Bool := key.signature.isInitializer

/-- The text of a method: owner, number sign, signature. -/
def text (key : MethodKey) : String := key.owner ++ "#" ++ key.signature

/-- Read the text of a method. The owner ends at the first number sign and is
not empty, the signature holds an opening parenthesis. -/
def parse? (s : String) : Option MethodKey := do
  let (owner, signature) ← Text.splitFirst? '#' s.toList
  if owner.isEmpty || !signature.contains '(' then none
  else some ⟨.ofList owner, .ofList signature⟩

end MethodKey

namespace FieldKey

/-- How a field is known inside its unit: name, colon, descriptor. -/
def slot (key : FieldKey) : String := key.name ++ ":" ++ key.descriptor

/-- The field of a unit with a slot; there is none if no colon stands in it. -/
def ofSlot? (owner : UnitName) (slot : String) : Option FieldKey :=
  (Text.splitFirst? ':' slot.toList).map fun (name, descriptor) =>
    ⟨owner, .ofList name, .ofList descriptor⟩

/-- The text of a field: owner, full stop, name, colon, descriptor. -/
def text (key : FieldKey) : String := key.owner ++ "." ++ key.name ++ ":" ++ key.descriptor

/-- Read the text of a field, which holds no number sign. The descriptor starts
after the first colon, the name after the last full stop before it; none of the
three parts is empty. -/
def parse? (s : String) : Option FieldKey := do
  if s.toList.contains '#' then none
  else
    let (head, descriptor) ← Text.splitFirst? ':' s.toList
    let (owner, name) ← Text.splitLast? '.' head
    if owner.isEmpty || name.isEmpty || descriptor.isEmpty then none
    else some ⟨.ofList owner, .ofList name, .ofList descriptor⟩

end FieldKey

namespace Dependency

/-- The unit whose class file tells whether the dependency has changed. -/
def owner : Dependency → UnitName
  | unit name => name
  | method key => key.owner
  | field key => key.owner

def isUnit : Dependency → Bool
  | unit _ => true
  | _ => false

/-- The text of a dependency. -/
def text : Dependency → String
  | unit name => name
  | method key => key.text
  | field key => key.text

/-- The identifier that stands for every dependency at once. -/
def wildcard : String := "*"

/-- Read the text of a dependency: a method if there is a number sign, else a
field if there is a colon, else a unit. The empty text, the wildcard and a text
with white space are no dependencies. -/
def parse? (s : String) : Option Dependency :=
  let cs := s.toList
  if cs.isEmpty || s == wildcard || cs.any Text.isBlank then none
  else if cs.contains '#' then (MethodKey.parse? s).map method
  else if cs.contains ':' then (FieldKey.parse? s).map field
  else some (unit s)

/-! ### The order -/

/-- The place of a kind of dependency: units, methods, fields. -/
def rank : Dependency → Nat
  | unit _ => 0
  | method _ => 1
  | field _ => 2

/-- What tells dependencies of one kind and owner apart first: the signature or the field's name. -/
def member : Dependency → String
  | unit _ => ""
  | method key => key.signature
  | field key => key.name

/-- What tells them apart last: the field's descriptor. -/
def descriptor : Dependency → String
  | unit _ | method _ => ""
  | field key => key.descriptor

instance : Ord Dependency where
  compare := compareLex (compareOn rank)
    (compareLex (compareOn owner) (compareLex (compareOn member) (compareOn descriptor)))

instance : Std.TransOrd Dependency :=
  inferInstanceAs (Std.TransCmp (compareLex (compareOn rank)
    (compareLex (compareOn owner) (compareLex (compareOn member) (compareOn descriptor)))))

/-- Dependencies that agree in all that the order looks at are equal. -/
theorem eq_of_parts {a b : Dependency} (hr : a.rank = b.rank) (ho : a.owner = b.owner)
    (hm : a.member = b.member) (hd : a.descriptor = b.descriptor) : a = b := by
  cases a <;> cases b <;> simp only [rank] at hr <;> simp_all [owner, member, descriptor]
  case method.method key key' => cases key; cases key'; simp_all
  case field.field key key' => cases key; cases key'; simp_all

instance : Std.LawfulEqOrd Dependency where
  compare_self := Std.ReflCmp.compare_self
  eq_of_compare {a b} h := by
    have h : compareLex (compareOn rank) (compareLex (compareOn owner)
      (compareLex (compareOn member) (compareOn descriptor))) a b = .eq := h
    simp only [compareLex_eq_eq, compareOn] at h
    exact eq_of_parts (Std.LawfulEqOrd.eq_of_compare h.1) (Std.LawfulEqOrd.eq_of_compare h.2.1)
      (Std.LawfulEqOrd.eq_of_compare h.2.2.1) (Std.LawfulEqOrd.eq_of_compare h.2.2.2)

end Dependency

end Retest

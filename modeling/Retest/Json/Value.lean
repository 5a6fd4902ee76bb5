import Retest.Sorted.Map

/-!
# JSON values

The values of JSON texts, as far as this library looks at them, and the rules
by which a record of named fields is taken from one.

Two things are legal in a JSON text and yet without meaning here, and the type
says so. A string may name half of a surrogate pair: such a string has no text,
and `none` stands for it. A numeral may have a sign, a fraction or an exponent:
nothing in this library is read from one, and `otherNumber` stands for them all.

A record is written as an object or as an array (`Retest.Json.record?`):

* in an object the fields stand under their names in any order, other names are
  passed over, and no field stands twice;
* in an array the fields stand in the order of their declaration; those at the
  end may be missing, and nothing follows the last.
-/

namespace Retest

/-- **A JSON value**, as far as it is told apart here. -/
inductive Json where
  | null
  | bool (value : Bool)
  /-- A natural number, written with digits only. -/
  | natural (value : Nat)
  /-- Any other number. -/
  | otherNumber
  /-- A string, or `none` if an escape in it names half of a surrogate pair. -/
  | string (text : Option String)
  | array (items : List Json)
  /-- The members in the order in which they stand, repeated names included. -/
  | object (members : List (Option String × Json))

namespace Json

/-! ### Simple values -/

def text? : Json → Option String
  | string text => text
  | _ => none

/-- A natural number below `bound`. -/
def naturalBelow? (bound : Nat) : Json → Option Nat
  | natural n => if n < bound then some n else none
  | _ => none

/-- `null`, or a value that is read. -/
def nullable? {α : Type} (read : Json → Option α) : Json → Option (Option α)
  | null => some none
  | j => (read j).map some

def list? {α : Type} (read : Json → Option α) : Json → Option (List α)
  | array items => items.mapM read
  | _ => none

def set? (j : Json) : Option (SortedSet String) := (j.list? text?).map .ofList

def member? {α : Type} (read : Json → Option α) (m : Option String × Json) :
    Option (String × α) := do
  let name ← m.1
  let value ← read m.2
  return (name, value)

/-- The members of an object as a map, all of them read. Of members with the same name the last
stays. -/
def map? {α : Type} (read : Json → Option α) : Json → Option (SortedMap String α)
  | object members => (members.mapM (member? read)).map .ofList
  | _ => none

/-- One of a choice of names: the name as a string, or an object whose only member has that name
and is `null`. -/
def choice? {α : Type} (names : List (String × α)) : Json → Option α
  | string (some name) => names.lookup name
  | object [(some name, null)] => names.lookup name
  | _ => none

/-! ### Records -/

/-- What stands in a text for the fields of a record. -/
structure Record where
  /-- Whether the fields stand in an array, by position. -/
  positional : Bool
  /-- For each field, in order, the value that stands for it. -/
  values : List (Option Json)

def membersNamed (name : String) (members : List (Option String × Json)) : List Json :=
  (members.filter (·.1 == some name)).map (·.2)

/-- **The values that stand for the fields of a record.** In an object each field may stand once,
wherever it likes, and other members are passed over; in an array the fields are told by their
places. -/
def record? (names : List String) : Json → Option Record
  | object members =>
    if members.all (·.1.isSome) &&
        names.all (fun name => (membersNamed name members).length ≤ 1) then
      some ⟨false, names.map fun name => (membersNamed name members).head?⟩
    else none
  | array items =>
    if items.length ≤ names.length then
      some ⟨true, items.map some ++ List.replicate (names.length - items.length) none⟩
    else none
  | _ => none

def required? {α : Type} (read : Json → Option α) : Option Json → Option α
  | some j => read j
  | none => none

/-- A field that takes `missing` where it is left out. -/
def optional? {α : Type} (missing : α) (read : Json → Option α) : Option Json → Option α
  | some j => read j
  | none => some missing

end Json

end Retest

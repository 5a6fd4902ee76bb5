import Retest.ClassFile.Fact
import Retest.Hierarchy
import Retest.Settings

/-!
# Inventories

What the class files of a build declare. `Retest.Declarations` takes up the
facts of one class file after another, and two of them can be merged; of two
class files for one unit the later says what the unit is, while the members are
those of both. A `Retest.Inventory` adds the hierarchy of the units, and finds
out which declaration a use of a member refers to.
-/

namespace Retest

/-- **What class files declare.** It does not matter for it in which order class files are taken up,
unless two of them are for the same unit. -/
structure Declarations where
  units : SortedMap UnitName UnitInfo := ∅
  /-- The slots of the methods of each unit. -/
  methods : SortedMap UnitName (SortedSet Signature) := ∅
  /-- The slots of the fields of each unit. -/
  fields : SortedMap UnitName (SortedSet String) := ∅
deriving DecidableEq

namespace Declarations

/-- Take up a fact. Uses say nothing about what is declared. A unit is entered with no members, so
that units without any are known as well. -/
def observe (declared : Declarations) : Fact → Declarations
  | .unit name info =>
    { units := declared.units.insert name info
      methods := declared.methods.addTo name ∅
      fields := declared.fields.addTo name ∅ }
  | .method key _ _ =>
    { declared with methods := declared.methods.addTo key.owner (.ofList [key.signature]) }
  | .field key _ =>
    { declared with fields := declared.fields.addTo key.owner (.ofList [key.slot]) }
  | .call .. | .access .. => declared

/-- Take up a class file, unless its unit is left out. -/
def addClass (settings : Settings) (declared : Declarations) (file : ClassFile) : Declarations :=
  if settings.isExcluded file.name then declared else file.facts.foldl observe declared

def addClasses (settings : Settings) (declared : Declarations) (files : List ClassFile) :
    Declarations :=
  files.foldl (addClass settings) declared

/-- Take up all that others declare, after what is there: on what a unit is the others have the last
word, and members add up. -/
def merge (declared others : Declarations) : Declarations where
  units := declared.units.insertMany others.units.entries
  methods := declared.methods.addAll others.methods
  fields := declared.fields.addAll others.fields

/-- The hierarchy of the units; parents that are left out do not count. -/
def hierarchy (settings : Settings) (declared : Declarations) : Hierarchy :=
  .ofParents (fun unit => !settings.isExcluded unit)
    (declared.units.map fun info => (info.superName, info.interfaces))

end Declarations

/-- What class files declare, and the hierarchy of their units. -/
structure Inventory extends Declarations where
  hierarchy : Hierarchy
deriving DecidableEq

def Declarations.inventory (settings : Settings) (declared : Declarations) : Inventory :=
  { declared with hierarchy := declared.hierarchy settings }

namespace Inventory

def contains (inventory : Inventory) (unit : UnitName) : Bool := inventory.units.contains unit

def methodsOf (inventory : Inventory) (unit : UnitName) : SortedSet Signature :=
  (inventory.methods.get? unit).getD ∅

def declaresMethod (inventory : Inventory) (unit : UnitName) (signature : Signature) : Bool :=
  (inventory.methodsOf unit).contains signature

def declaresField (inventory : Inventory) (unit : UnitName) (slot : String) : Bool :=
  ((inventory.fields.get? unit).getD ∅).contains slot

/-- The first of a unit and its ancestors that passes a test. -/
def findUpward? (inventory : Inventory) (unit : UnitName) (test : UnitName → Bool) :
    Option UnitName :=
  (unit :: inventory.hierarchy.ancestors unit).find? test

/-- The unit whose method is meant by a method of a unit: the nearest one upward that declares it.
-/
def resolveMethod? (inventory : Inventory) (unit : UnitName) (signature : Signature) :
    Option UnitName :=
  inventory.findUpward? unit (inventory.declaresMethod · signature)

def resolveField? (inventory : Inventory) (unit : UnitName) (slot : String) : Option UnitName :=
  inventory.findUpward? unit (inventory.declaresField · slot)

def overriders (inventory : Inventory) (unit : UnitName) (signature : Signature) :
    SortedSet UnitName :=
  (inventory.hierarchy.descendants unit).filter (inventory.declaresMethod · signature)

end Inventory

end Retest

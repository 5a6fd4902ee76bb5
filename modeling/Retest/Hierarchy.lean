import Retest.Sorted.Map
import Retest.Traversal
import Retest.UnitName

/-!
# Hierarchies

Which units are parents of which: the super class of a unit, all its parents,
interfaces included, and, the other way round, the units that have a unit as a
parent. The two directions are kept side by side, and an edge goes into both. A
hierarchy comes from class files that need not fit together, so it may have
cycles; no unit is its own ancestor or descendant all the same.
-/

namespace Retest

/-- Parents of units, and the units whose parents they are. -/
structure Hierarchy where
  superclass : SortedMap UnitName UnitName := ∅
  parents : SortedMap UnitName (SortedSet UnitName) := ∅
  children : SortedMap UnitName (SortedSet UnitName) := ∅
deriving DecidableEq

namespace Hierarchy

def parentsOf (hierarchy : Hierarchy) (unit : UnitName) : SortedSet UnitName :=
  (hierarchy.parents.get? unit).getD ∅

def childrenOf (hierarchy : Hierarchy) (unit : UnitName) : SortedSet UnitName :=
  (hierarchy.children.get? unit).getD ∅

/-- Take up that a unit has a parent, and whether that is its super class. -/
def addEdge (hierarchy : Hierarchy) (child parent : UnitName) (isSuper : Bool) : Hierarchy where
  superclass :=
    if isSuper then hierarchy.superclass.insert child parent else hierarchy.superclass
  parents := hierarchy.parents.addTo child (.ofList [parent])
  children := hierarchy.children.addTo parent (.ofList [child])

/-- Take up the parents that a unit names, the super class first, as far as a
test lets them in. -/
def addUnit (keep : UnitName → Bool) (hierarchy : Hierarchy)
    (unit : UnitName × Option UnitName × List UnitName) : Hierarchy :=
  (unit.2.2.filter keep).foldl (fun h parent => h.addEdge unit.1 parent false)
    ((unit.2.1.filter keep).elim hierarchy fun parent => hierarchy.addEdge unit.1 parent true)

/-- The hierarchy of units with the super class and the interfaces that they name. -/
def ofParents (keep : UnitName → Bool)
    (units : SortedMap UnitName (Option UnitName × List UnitName)) : Hierarchy :=
  units.entries.foldl (addUnit keep) {}

/-- Go from super class to super class, up to the first unit already seen. The fuel bounds the way
by the number of units that have a super class. -/
def chainFrom (hierarchy : Hierarchy) :
    (fuel : Nat) → (seen : List UnitName) → UnitName → List UnitName
  | 0, _, _ => []
  | fuel + 1, seen, unit =>
    match hierarchy.superclass.get? unit with
    | none => []
    | some parent =>
      if seen.contains parent then []
      else parent :: chainFrom hierarchy fuel (parent :: seen) parent

def chain (hierarchy : Hierarchy) (unit : UnitName) : List UnitName :=
  hierarchy.chainFrom hierarchy.superclass.size [unit] unit

/-- **The ancestors of a unit** in the order in which a member is looked for: first the chain of
super classes, then the other ancestors, the near before the far. The whole chain comes before any
interface, also before one that the unit itself names. -/
def ancestors (hierarchy : Hierarchy) (unit : UnitName) : List UnitName :=
  let start := unit :: hierarchy.chain unit
  (sweep (fun u => (hierarchy.parentsOf u).toList) (start.length + hierarchy.parents.total)
    start start).tail

def descendants (hierarchy : Hierarchy) (unit : UnitName) : SortedSet UnitName :=
  .ofList (sweep (fun u => (hierarchy.childrenOf u).toList) (1 + hierarchy.children.total)
    [unit] [unit]).tail

end Hierarchy

end Retest

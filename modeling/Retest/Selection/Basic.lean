import Retest.Selection.Outcome

/-!
# Selections

A selection says which tests have to be run again. It is made from a dependency
store, the snapshots that belong to it, and the build as it is now
(`Retest.Selection.diff`): the outcomes of all units with records are put
together. Tests that may depend on anything are selected if anything has changed
or a unit is new, and tests that the store does not know are selected always.
-/

namespace Retest

/-- **Which tests have to be run again, and why.** Every test there is counts either as affected or
as not affected. -/
structure Selection where
  /-- Whether there was nothing to compare with. -/
  firstRun : Bool := false
  /-- The tests that have to be run again. -/
  affected : SortedSet UnitName := ∅
  /-- The other tests. -/
  unaffected : SortedSet UnitName := ∅
  /-- The texts of the dependencies that have changed. -/
  changed : SortedSet String := ∅
  /-- The units whose class files are gone. -/
  deleted : SortedSet UnitName := ∅
deriving DecidableEq

namespace Selection

/-- All tests are selected, since there is nothing to compare with. -/
def first (tests : SortedSet UnitName) : Selection := { firstRun := true, affected := tests }

def outcomes (context : Context) (store : Store) (build : Build) : List (UnitName × Outcome) :=
  store.owners.toList.map fun unit => (unit, context.outcome build unit (store.recordsOf unit))

/-- The units of a build that neither a snapshot nor a record knows. They select the tests that may
depend on anything, and no others. -/
def newUnits (context : Context) (store : Store) (build : Build) : List UnitName :=
  build.units.filter fun unit => !context.settings.isExcluded unit &&
    !context.snapshots.contains unit && !store.owners.contains unit

def testsOf (store : Store) (id : Dependency) : SortedSet UnitName :=
  (store.records.get? id).elim ∅ StoreRecord.tests

/-- **Put together what became of the units with records.** The tests that are affected are those of
changed and hidden dependencies, those that may depend on anything if there is a change or a new
unit, and those that the store does not know, as far as they are still there. -/
def combine (context : Context) (store : Store) (build : Build)
    (outcomes : List (UnitName × Outcome)) : Selection :=
  let hidden := SortedSet.unions (outcomes.map (·.2.hidden))
  let changed := SortedSet.unions (outcomes.map (·.2.changed)) ∪ hidden
  let recorded := SortedSet.unions (outcomes.map (·.2.affected)) ∪
    SortedSet.unions (hidden.toList.map (testsOf store))
  let anything := if changed.isEmpty && (newUnits context store build).isEmpty then ∅
    else store.wildcard
  let unknown := context.tests \ store.tests
  let affected := (recorded ∪ anything ∪ unknown) ∩ context.tests
  { affected := affected
    unaffected := context.tests \ affected
    changed := .ofList (changed.toList.map Dependency.text)
    deleted := .ofList ((outcomes.filter (·.2.deleted)).map (·.1)) }

/-- Compare a store with a build. -/
def diff (context : Context) (store : Store) (build : Build) : Selection :=
  combine context store build (outcomes context store build)

end Selection

end Retest

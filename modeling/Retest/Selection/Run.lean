import Retest.Selection.Basic
import Retest.Selection.Next
import Retest.Selection.Tests
import Retest.Store.Directory

/-!
# Running selections

A selection in full: analyse the build, select the tests that have to be run
again, and write the store against which the next selection is made
(`Retest.runSelection`). The steps can also be taken one by one, with time
between them in which the directory may change.
-/

namespace Retest

/-- Select tests, comparing a build with what a directory holds. Without a store
all tests are selected. -/
def StoreDirectory.select (directory : StoreDirectory) (settings : Settings)
    (granularity : Granularity) (build : Build) (tests : List UnitName) : Selection :=
  let tests := SortedSet.ofList tests
  match directory.loadStore with
  | none => .first tests
  | some store => .diff ⟨settings, granularity, directory.loadSnapshots, tests⟩ store build

def Analysis.knows (analysis : Analysis) (unit : UnitName) : Bool :=
  analysis.snapshots.contains unit || analysis.failed.contains unit

/-- Write a store and the snapshots of an analysis; nothing is written if a record
belongs to a unit that takes no part in it. -/
def persist (store : Store) (analysis : Analysis) (settings : Settings) : Storing Unit := do
  store.validate analysis.knows
  StoreDirectory.saveStore store settings
  StoreDirectory.saveSnapshots analysis.snapshots.values

/-- What an update amounts to. -/
structure UpdateSummary where
  /-- How many records there are. -/
  records : Nat
  /-- How many tests were run again. -/
  refreshed : Nat
  /-- How many records are no longer there. -/
  pruned : Nat
  /-- How many tests may depend on anything. -/
  wildcard : Nat
deriving DecidableEq, Repr

/-- The store that a selection was made against. It is loaded once more, and may have gone since. -/
def previousStore (selection : Selection) : Storing Store := do
  if selection.firstRun then return {}
  let directory ← get
  match directory.loadStore with
  | some store => return store
  | none => throw (.vanished directory.name)

def Selection.refreshed (selection : Selection) (tests : SortedSet UnitName) :
    SortedSet UnitName :=
  if selection.firstRun then tests else selection.affected ∩ tests

/-- **Write the next store** after the selected tests have been run, and say what became of the
records. -/
def updateStore (settings : Settings) (granularity : Granularity) (analysis : Analysis)
    (tests : List UnitName) (selection : Selection) : Storing UpdateSummary := do
  let tests := SortedSet.ofList tests
  let previous ← previousStore selection
  let refreshed := selection.refreshed tests
  let next := previous.next ⟨analysis, granularity, tests, refreshed⟩
  persist next analysis settings
  return {
    records := next.records.size
    refreshed := refreshed.size
    pruned := (previous.records.filter fun id _ => !next.records.contains id).size
    wildcard := next.wildcard.size }

/-- **Select tests and write the next store**, in one step. If no tests are given
they are found in the build. -/
def runSelection (settings : Settings) (build : Build) (tests : Option (List UnitName))
    (external : List (UnitName × UnitName)) : Storing Selection := do
  let analysis := build.analyze settings external
  let tests := tests.getD (analysis.tests settings)
  let selection := (← get).select settings settings.granularity build tests
  let _ ← updateStore settings settings.granularity analysis tests selection
  return selection

end Retest

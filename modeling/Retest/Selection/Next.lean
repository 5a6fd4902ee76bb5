import Retest.Analysis
import Retest.CallGraph.Footprint
import Retest.Store.Basic

/-!
# The next store

After the selected tests have been run, a new dependency store takes the place of
the old (`Retest.Store.next`). It is made in several passes over one map of records.
The first gives a record to each unit of the build, and when members are tracked to
each member, with the fingerprints of now and without tests. Records of units whose
class files cannot be read are then put in as they were. What follows only adds tests
to the records that are there by now: a test that was not run again is added where it
stood, and one that was run again wherever its footprint reaches now.
-/

namespace Retest

/-- The records for a unit, without tests. A field whose slot cannot be taken apart has none, and
one with a colon in its name has a record under another name. -/
def Snapshot.records (granularity : Granularity) (unit : UnitName) (snapshot : Snapshot) :
    List (Dependency × StoreRecord) :=
  (.unit unit, ⟨snapshot.whole, ∅⟩) :: match granularity with
    | .unit => []
    | .member =>
      (snapshot.signatures.filterMap fun signature =>
        (snapshot.method? signature).map fun f => (.method ⟨unit, signature⟩, ⟨f, ∅⟩)) ++
      snapshot.fields.entries.filterMap fun (slot, f) =>
        (FieldKey.ofSlot? unit slot).map fun key => (.field key, ⟨f, ∅⟩)

namespace Store

/-- What the next store is made from, beside the previous one. -/
structure Renewal where
  analysis : Analysis
  granularity : Granularity
  /-- The tests there are. -/
  tests : SortedSet UnitName
  /-- The tests that were run again. -/
  refreshed : SortedSet UnitName

/-- Add tests to records. Nothing is done for a dependency that has no record. -/
def addTests (records : SortedMap Dependency StoreRecord)
    (named : List (Dependency × SortedSet UnitName)) : SortedMap Dependency StoreRecord :=
  named.foldl (fun records e => records.modify e.1 fun record =>
    { record with tests := record.tests ∪ e.2 }) records

namespace Renewal

def freshRecords (renewal : Renewal) : SortedMap Dependency StoreRecord :=
  renewal.analysis.snapshots.entries.foldl (fun records e =>
    records.insertMany (e.2.records renewal.granularity e.1)) ∅

/-- Units that cannot be read keep their previous records, so that the next selection still sees
what depends on them. -/
def base (renewal : Renewal) (previous : Store) : SortedMap Dependency StoreRecord :=
  previous.records.entries.foldl (fun records e =>
    if renewal.analysis.failed.contains e.1.owner then records.insert e.1 e.2 else records)
    renewal.freshRecords

/-- The tests of a set that are there and were not run again. -/
def carried (renewal : Renewal) (tests : SortedSet UnitName) : SortedSet UnitName :=
  tests.filter fun t => renewal.tests.contains t && !renewal.refreshed.contains t

def footprints (renewal : Renewal) : List (UnitName × Footprint) :=
  renewal.refreshed.toList.map fun t => (t, renewal.analysis.graph.footprint t)

/-- The records in which a test stands that reaches a node: that of the unit, and when members are
tracked that of the member. -/
def recordIds (renewal : Renewal) (node : Dependency) : List Dependency :=
  .unit node.owner ::
    if renewal.granularity == .member && !node.isUnit then [node] else []

/-- Add a test that was run again where its footprint reaches. -/
def addFootprint (renewal : Renewal) (store : Store) (test : UnitName) (footprint : Footprint) :
    Store :=
  { store with
    wildcard := if footprint.reflective then store.wildcard.insert test else store.wildcard
    records := addTests store.records
      (((footprint.dependencies renewal.analysis.graph).flatMap renewal.recordIds).map
        fun id => (id, .ofList [test])) }

end Renewal

/-- **The next store.** Tests are only added to records that are there by then, so a test whose
footprint reaches something without a record is not remembered for it; its unit has a record in any
case. -/
def next (previous : Store) (renewal : Renewal) : Store :=
  let carried := addTests (renewal.base previous)
    (previous.records.entries.map fun e => (e.1, renewal.carried e.2.tests))
  let start : Store := { wildcard := renewal.carried previous.wildcard, records := carried }
  { renewal.footprints.foldl (fun store e => renewal.addFootprint store e.1 e.2) start with
    knownTests := renewal.tests }

end Store

end Retest

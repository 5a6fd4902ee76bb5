import Retest.Build.Basic
import Retest.Settings
import Retest.Snapshot.Change
import Retest.Store.Basic

/-!
# What became of a unit

For one unit that the dependency store has records for, a
`Retest.Selection.Outcome` says which of them have changed, and which tests that
concerns. Where something is not known, more tests are taken than would be
needed, never fewer: if the class file is gone or cannot be read, all records of
the unit count as changed.

With records for whole units only, a unit either has changed or it has not. With
records for members, tests are taken that use a changed member; beyond that

* all tests of the unit, if its parents or its header have changed, or if it is a
  test fixture and has new methods;
* tests that depend on the unit and on none of its members;
* tests that inherit from a unit with new instance methods;
* tests of a method of an ancestor that a new instance method hides;
* the unit itself, if it is a test.
-/

namespace Retest.Selection

/-- What a selection compares a build with. -/
structure Context where
  settings : Settings
  granularity : Granularity
  /-- The snapshots of the units at the time of the last selection. -/
  snapshots : SortedMap UnitName Snapshot
  /-- The tests there are. -/
  tests : SortedSet UnitName

/-- What became of a unit. Hidden dependencies belong to other units; the tests that they concern
are looked up when the outcomes are put together. -/
structure Outcome where
  /-- Tests that are concerned. -/
  affected : SortedSet UnitName := ∅
  /-- Dependencies that have changed. -/
  changed : SortedSet Dependency := ∅
  /-- Methods of ancestors that are hidden by new ones. -/
  hidden : SortedSet Dependency := ∅
  /-- Whether the class file is gone. -/
  deleted : Bool := false

def Outcome.everything (records : SortedMap Dependency StoreRecord) : Outcome where
  affected := .unions (records.values.map StoreRecord.tests)
  changed := records.keys

namespace Context

/-! ### Hierarchies in snapshots -/

/-- Whether a unit has a parent, or is one, in the application. -/
def inHierarchy (context : Context) (after : Snapshot) : Bool :=
  after.parents.any (fun parent => !context.settings.isExcluded parent) ||
    context.snapshots.values.any fun s => s.parents.contains after.name

/-- Look for snapshots over a queue of names. A name is looked at when it comes to the front: it is
passed over if the unit is left out or has no snapshot, or if the name that the snapshot gives was
met before. Otherwise the parents that the snapshot names join the queue. -/
def walk (context : Context) : (fuel : Nat) → (queue seen : List UnitName) → List Snapshot
  | 0, _, _ => []
  | _ + 1, [], _ => []
  | fuel + 1, unit :: queue, seen =>
    if context.settings.isExcluded unit then context.walk fuel queue seen
    else
      match context.snapshots.get? unit with
      | none => context.walk fuel queue seen
      | some s =>
        if seen.contains s.name then context.walk fuel queue seen
        else s :: context.walk fuel (queue ++ s.parents) (seen ++ [s.name])

/-- The ancestors of a unit that have a snapshot, the near before the far. -/
def ancestors (context : Context) (snapshot : Snapshot) : List Snapshot :=
  -- no snapshot is met twice, so each name queued stands for a place among the parents
  let fuel := snapshot.parents.length + (context.snapshots.values.flatMap Snapshot.parents).length
  context.walk fuel snapshot.parents [snapshot.name]

def inheritsFrom (context : Context) (test unit : UnitName) : Bool :=
  (context.snapshots.get? test).any fun s => (context.ancestors s).any (·.name == unit)

/-! ### Units whose members are tracked -/

/-- The dependencies of a unit that have changed. The unit as a whole is always among them. -/
def changedIn (unit : UnitName) (before after : Snapshot) : SortedSet Dependency :=
  SortedSet.ofList [.unit unit] ∪ changedMethods before after ∪ changedFields before after

/-- **The methods of ancestors that are hidden by new ones**, for each new method the nearest. A
test of such a method may now call the new one without any of the members it used having changed. -/
def hiddenBy (context : Context) (before after : Snapshot) : SortedSet Dependency :=
  .ofList ((addedInstanceMethods before after).toList.filterMap fun signature =>
    ((context.ancestors after).find? (·.instanceMethods.contains signature)).map fun ancestor =>
      .method ⟨ancestor.name, signature⟩)

/-- Whether all tests of a unit are concerned. The effect of other parents or of another header
cannot be pinned to members; and test runners call the methods of a fixture, whatever they are. -/
def escalates (context : Context) (unit : UnitName) (kinds : List ChangeKind) : Bool :=
  kinds.any ChangeKind.isConservative ||
    (context.settings.isFixture unit && kinds.any ChangeKind.addsMethods)

/-- **The tests that are concerned by changes of a unit**: those of a changed member, and of the
tests that are recorded for the unit those that the change may reach in another way. The unit itself
is one of them if it is a test. -/
def affectedBy (context : Context) (unit : UnitName)
    (records : SortedMap Dependency StoreRecord) (before after : Snapshot) : SortedSet UnitName :=
  let members := records.filter fun id _ => !id.isUnit
  let changed := changedIn unit before after
  let memberTests := SortedSet.unions (members.values.map StoreRecord.tests)
  let unitTests := SortedSet.unions ((records.filter fun id _ => id.isUnit).values.map
    StoreRecord.tests)
  let direct := SortedSet.unions ((members.filter fun id _ => changed.contains id).values.map
    StoreRecord.tests)
  let escalated := context.escalates unit (classify before after)
  let addsMethods := !(addedInstanceMethods before after).isEmpty
  let indirect := unitTests.filter fun test =>
    escalated || addsMethods && context.inheritsFrom test unit || !memberTests.contains test
  direct ∪ indirect ∪ (context.tests.filter (· == unit))

def memberOutcome (context : Context) (unit : UnitName)
    (records : SortedMap Dependency StoreRecord) (before after : Snapshot) : Outcome :=
  if (classify before after).isEmpty then {}
  else
    { affected := context.affectedBy unit records before after
      changed := changedIn unit before after
      hidden := context.hiddenBy before after }

/-! ### All units -/

/-- What became of a unit with a class file that can be read. It is looked into only if some record
does not fit any more. Where there is no snapshot to compare with, all that may have changed counts
as changed. -/
def compareWith (context : Context) (unit : UnitName)
    (records : SortedMap Dependency StoreRecord) (after : Snapshot) : Outcome :=
  let mismatched := records.filter fun id r => after.fingerprint? id != some r.fingerprint
  if mismatched.isEmpty then {}
  else
    match context.granularity, context.snapshots.get? unit with
    | .unit, some before =>
      if equivalent before after (context.settings.isFixture unit) (context.inHierarchy after) then
        {}
      else .everything mismatched
    | .unit, none => .everything mismatched
    | .member, some before => context.memberOutcome unit records before after
    | .member, none => .everything records

def inspect (context : Context) (unit : UnitName) (records : SortedMap Dependency StoreRecord)
    (bytes : List UInt8) : Outcome :=
  match Snapshot.decode bytes with
  | .error _ => .everything records
  | .ok (_, after) => context.compareWith unit records after

def sameChecksum (context : Context) (unit : UnitName) (bytes : List UInt8) : Bool :=
  (context.snapshots.get? unit).any (·.crc == Digest.Crc32.check bytes)

/-- **What became of a unit**, given the records it owns. A class file with the
checksum of the last time is not looked at. -/
def outcome (context : Context) (build : Build) (unit : UnitName)
    (records : SortedMap Dependency StoreRecord) : Outcome :=
  match build.locate unit with
  | none => { Outcome.everything records with deleted := true }
  | some bytes =>
    if context.sameChecksum unit bytes then {} else context.inspect unit records bytes

end Context

end Retest.Selection

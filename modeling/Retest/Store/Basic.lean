import Retest.Digest.Fingerprint
import Retest.Error
import Retest.Sorted.Map

/-!
# Dependency stores

A dependency store remembers, for each dependency, the fingerprint it had and
the tests that depend on it; and the tests that may depend on anything, since
they use reflection.
-/

namespace Retest

structure StoreRecord where
  fingerprint : Fingerprint
  /-- The tests that depend on it. -/
  tests : SortedSet UnitName
deriving DecidableEq

/-- **A dependency store**: what the next selection goes by. -/
structure Store where
  /-- The tests that may depend on anything. -/
  wildcard : SortedSet UnitName := ∅
  records : SortedMap Dependency StoreRecord := ∅
  /-- Tests that are known, whether or not a record names them. -/
  knownTests : SortedSet UnitName := ∅
deriving DecidableEq

namespace Store

def insert (store : Store) (id : Dependency) (record : StoreRecord) : Store :=
  { store with records := store.records.insert id record }

def recordTests (store : Store) : SortedSet UnitName :=
  .unions (store.records.values.map StoreRecord.tests)

/-- All tests that the store names. A test that is missing here is run again whatever has changed.
-/
def tests (store : Store) : SortedSet UnitName :=
  store.wildcard ∪ store.knownTests ∪ store.recordTests

def owners (store : Store) : SortedSet UnitName :=
  .ofList (store.records.keys.toList.map Dependency.owner)

def recordsOf (store : Store) (unit : UnitName) : SortedMap Dependency StoreRecord :=
  store.records.filter fun id _ => id.owner == unit

/-- The dependencies whose units do not pass a test. -/
def orphans (store : Store) (present : UnitName → Bool) : SortedSet Dependency :=
  store.records.keys.filter fun id => !present id.owner

/-- Make sure that every record belongs to a unit that is there. -/
def validate (store : Store) (present : UnitName → Bool) : Except Error Unit :=
  match (store.orphans present).toList with
  | [] => .ok ()
  | first :: others => .error (.orphaned (others.length + 1) first)

end Store

end Retest

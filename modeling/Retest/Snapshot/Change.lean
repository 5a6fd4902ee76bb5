import Retest.Snapshot.Basic

/-!
# Changes of a unit

What is different between two snapshots of a unit: which kinds of changes there
are (`Retest.classify`), which methods and fields they concern
(`Retest.changedMethods`, `Retest.changedFields`), and whether the two can stand
for one another when only whole units are tracked (`Retest.equivalent`).

A method that disappears while one with the same fingerprint appears is taken
for a renamed one; `Retest.MethodDiff` pairs such methods up, each at most once,
the first in order with the first.
-/

namespace Retest

/-! ### Methods that come and go -/

/-- How two collections of methods differ. -/
structure MethodDiff where
  /-- Methods that are new or have a new fingerprint, and are no renamed ones. -/
  added : List Signature := []
  /-- Methods that are gone or had another fingerprint, and were not renamed. -/
  removed : List Signature := []
  /-- Methods that were renamed, with their old and new slots. -/
  renamed : List (Signature × Signature) := []
deriving DecidableEq, Repr

namespace MethodDiff

def isEmpty (diff : MethodDiff) : Bool :=
  diff.added.isEmpty && diff.removed.isEmpty && diff.renamed.isEmpty

def onlyAdds (diff : MethodDiff) : Bool := diff.removed.isEmpty && diff.renamed.isEmpty

/-- Pair the methods that disappeared with those that appeared. A method whose
slot is still in use is not paired. -/
def pair (before after : SortedMap Signature Fingerprint) :
    (old new : List (Signature × Fingerprint)) → MethodDiff
  | [], new => { added := new.map (·.1) }
  | (slot, fingerprint) :: old, new =>
    let found := if after.contains slot then none
      else new.find? fun (s, f) => f = fingerprint && !before.contains s
    match found with
    | some match_ =>
      let rest := pair before after old (new.erase match_)
      { rest with renamed := (slot, match_.1) :: rest.renamed }
    | none =>
      let rest := pair before after old new
      { rest with removed := slot :: rest.removed }

def leftOver (m n : SortedMap Signature Fingerprint) : List (Signature × Fingerprint) :=
  m.entries.filter fun (slot, fingerprint) => n.get? slot != some fingerprint

/-- **How two collections of methods differ.** A method whose fingerprint is another one is in both
parts left over, and so counts as removed and as added. -/
def between (before after : SortedMap Signature Fingerprint) : MethodDiff :=
  pair before after (leftOver before after) (leftOver after before)

end MethodDiff

/-! ### Kinds of changes -/

/-- Why two snapshots of a unit differ. -/
inductive ChangeKind where
  | superClassChanged
  | interfacesChanged
  | headerChanged
  | fieldAdded
  | fieldRemoved
  | fieldChanged
  | constructorUpdated
  | instanceMethodAdded
  | instanceMethodRemoved
  | instanceMethodRenamed
  | staticMethodAdded
  | staticMethodRemoved
  | staticMethodRenamed
  | exceptionsChanged
  | modifierChanged
deriving DecidableEq, Repr

namespace ChangeKind

def all : List ChangeKind :=
  [superClassChanged, interfacesChanged, headerChanged, fieldAdded, fieldRemoved, fieldChanged,
    constructorUpdated, instanceMethodAdded, instanceMethodRemoved, instanceMethodRenamed,
    staticMethodAdded, staticMethodRemoved, staticMethodRenamed, exceptionsChanged, modifierChanged]

/-- Whether the effect of a change cannot be pinned to members: what is inherited may be different
now, or how the unit as a whole is treated. -/
def isConservative : ChangeKind → Bool
  | superClassChanged | interfacesChanged | headerChanged => true
  | _ => false

def addsMethods : ChangeKind → Bool
  | instanceMethodAdded | staticMethodAdded => true
  | _ => false

def label : ChangeKind → String
  | superClassChanged => "super class changed"
  | interfacesChanged => "interfaces changed"
  | headerChanged => "class modifier changed"
  | fieldAdded => "field added"
  | fieldRemoved => "field removed"
  | fieldChanged => "field changed"
  | constructorUpdated => "constructor updated"
  | instanceMethodAdded => "instance method added"
  | instanceMethodRemoved => "instance method removed"
  | instanceMethodRenamed => "instance method signature changed"
  | staticMethodAdded => "static method added"
  | staticMethodRemoved => "static method removed"
  | staticMethodRenamed => "static method signature changed"
  | exceptionsChanged => "exceptions changed"
  | modifierChanged => "modifier changed"

end ChangeKind

namespace Snapshot

def extraDeclarations (snapshot other : Snapshot) : SortedSet String :=
  snapshot.declarations \ other.declarations

def retagsField (before after : Snapshot) : Bool :=
  before.fields.entries.any fun (slot, f) => (after.fields.get? slot).any (· != f)

def changesHeader {α : Type} [BEq α] (part : MethodHeader → α) (before after : Snapshot) : Bool :=
  before.methodHeaders.entries.any fun (slot, h) =>
    (after.methodHeaders.get? slot).any (part · != part h)

end Snapshot

/-- **Whether a kind of change took place** between two snapshots of a unit. Fields are told apart
by their declarations, so a field with another initial value counts as removed and added, which is a
change. -/
def ChangeKind.occurs (before after : Snapshot) : ChangeKind → Bool
  | superClassChanged => before.superName != after.superName
  | interfacesChanged => before.interfaces != after.interfaces
  | headerChanged => before.header != after.header
  | fieldAdded =>
    !(after.extraDeclarations before).isEmpty && (before.extraDeclarations after).isEmpty
  | fieldRemoved =>
    (after.extraDeclarations before).isEmpty && !(before.extraDeclarations after).isEmpty
  | fieldChanged =>
    !(after.extraDeclarations before).isEmpty && !(before.extraDeclarations after).isEmpty ||
      before.retagsField after
  | constructorUpdated => before.constructors != after.constructors
  | instanceMethodAdded => !(instanceDiff before after).added.isEmpty
  | instanceMethodRemoved => !(instanceDiff before after).removed.isEmpty
  | instanceMethodRenamed => !(instanceDiff before after).renamed.isEmpty
  | staticMethodAdded => !(staticDiff before after).added.isEmpty
  | staticMethodRemoved => !(staticDiff before after).removed.isEmpty
  | staticMethodRenamed => !(staticDiff before after).renamed.isEmpty
  | exceptionsChanged => before.changesHeader MethodHeader.exceptions after
  | modifierChanged => before.changesHeader MethodHeader.access after
where
  /-- How the instance methods differ. -/
  instanceDiff (before after : Snapshot) : MethodDiff :=
    .between before.instanceMethods after.instanceMethods
  /-- How the static methods differ. -/
  staticDiff (before after : Snapshot) : MethodDiff :=
    .between before.staticMethods after.staticMethods

/-- **The kinds of changes** between two snapshots of a unit, in order. -/
def classify (before after : Snapshot) : List ChangeKind :=
  ChangeKind.all.filter (ChangeKind.occurs before after)

/-! ### Changed members -/

/-- The fingerprints of all methods, by slot. Should a slot be of more than one
kind, the static method counts most and the constructor least. -/
def Snapshot.methods (snapshot : Snapshot) : SortedMap Signature Fingerprint :=
  (snapshot.constructors.insertMany snapshot.instanceMethods.entries).insertMany
    snapshot.staticMethods.entries

/-- The methods that have different fingerprints in two snapshots, or are in only one of them. -/
def changedMethods (before after : Snapshot) : SortedSet Dependency :=
  let old := before.methods.entries.filter fun (slot, f) => after.methods.get? slot != some f
  let new := after.methods.entries.filter fun (slot, _) => !before.methods.contains slot
  .ofList (old.map (fun e => .method ⟨before.name, e.1⟩) ++
    new.map fun e => .method ⟨after.name, e.1⟩)

/-- The fields that have different fingerprints in two snapshots, or are in only one of them, as far
as their slots can be taken apart. -/
def changedFields (before after : Snapshot) : SortedSet Dependency :=
  let slots := before.fields.keys ∪ after.fields.keys
  let changed := slots.filter fun slot => before.fields.get? slot != after.fields.get? slot
  .ofList (changed.toList.filterMap fun slot => (FieldKey.ofSlot? after.name slot).map .field)

/-- The instance methods that are new. One of them may take the place of one that was inherited. -/
def addedInstanceMethods (before after : Snapshot) : SortedSet Signature :=
  after.instanceMethods.keys.filter fun slot =>
    !before.instanceMethods.contains slot && !slot.isInitializer

/-! ### Equivalence -/

/-- Whether two snapshots of a unit can stand for one another when only whole
units are tracked. Fields may have been added or removed, but not both. Methods
may have been added to a unit that is no fixture and has neither parent nor
child in the application. -/
def equivalent (before after : Snapshot) (isFixture inHierarchy : Bool) : Bool :=
  let instances := MethodDiff.between before.instanceMethods after.instanceMethods
  let statics := MethodDiff.between before.staticMethods after.staticMethods
  before.superName == after.superName && before.interfaces == after.interfaces &&
    before.header == after.header &&
    ((after.extraDeclarations before).isEmpty || (before.extraDeclarations after).isEmpty) &&
    before.constructors == after.constructors &&
    if instances.isEmpty && statics.isEmpty then before.methodHeaders == after.methodHeaders
    else instances.onlyAdds && statics.onlyAdds && !isFixture && !inHierarchy

end Retest

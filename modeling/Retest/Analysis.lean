import Retest.Build.Basic
import Retest.CallGraph.Draft

/-!
# Analysis of a build

All that is known of a build: the snapshots of its units, what they declare, and
who uses what. Units that are left out are not looked at; those that cannot be
read are listed as failed, and do not take part.
-/

namespace Retest

/-- **What is known of a build.** The snapshots hold the fingerprints that a later build is compared
with; the inventory and the call graph say which test depends on what. Of a unit that could not be
read it is only remembered that it failed. -/
structure Analysis where
  /-- The snapshots of the units that could be read. -/
  snapshots : SortedMap UnitName Snapshot
  /-- The units that could not. -/
  failed : SortedSet UnitName
  inventory : Inventory
  graph : CallGraph

def Analysis.fingerprint? (analysis : Analysis) (id : Dependency) : Option Fingerprint :=
  (analysis.snapshots.get? id.owner).bind (·.fingerprint? id)

namespace Build

/-- The units of a build that are looked at. -/
def relevant (build : Build) (settings : Settings) : List UnitName :=
  build.units.filter fun unit => !settings.isExcluded unit

/-- The units that can be read, with what is read. -/
def parsed (build : Build) (settings : Settings) : List (UnitName × ParsedUnit) :=
  (build.relevant settings).filterMap fun unit => (build.parse unit).toOption.map (unit, ·)

def unparsed (build : Build) (settings : Settings) : List UnitName :=
  (build.relevant settings).filter fun unit => (build.parse unit).toOption.isNone

/-- **Analyse a build**, given what else is known of dependencies between units. The inventory comes
first, and is made from all class files that could be read: which declaration a use refers to
depends on all of them. -/
def analyze (build : Build) (settings : Settings) (external : List (UnitName × UnitName)) :
    Analysis :=
  let parsed := build.parsed settings
  let files := parsed.map (·.2.file)
  let inventory := (Declarations.addClasses settings {} files).inventory settings
  { snapshots := .ofList (parsed.map fun (unit, p) => (unit, p.snapshot))
    failed := .ofList (build.unparsed settings)
    inventory := inventory
    graph := CallGraph.ofClasses ⟨inventory, settings⟩ files external }

end Build

end Retest

import Retest.CallGraph.Basic
import Retest.Traversal

/-!
# Footprints

The footprint of a test is everything its methods can reach in a call graph, and
whether anything among it uses reflection.
-/

namespace Retest

/-- What can be reached from somewhere in a call graph. -/
structure Footprint where
  /-- The numbers of the nodes reached. -/
  nodes : SortedSet Nat
  /-- Whether one of them uses reflection. -/
  reflective : Bool
deriving DecidableEq

namespace Footprint

def dependencies (footprint : Footprint) (graph : CallGraph) : List Dependency :=
  footprint.nodes.toList.filterMap fun i => graph.nodes[i]?

def units (footprint : Footprint) (graph : CallGraph) : SortedSet UnitName :=
  .ofList ((footprint.dependencies graph).map Dependency.owner)

def contains (footprint : Footprint) (graph : CallGraph) (node : Dependency) : Bool :=
  (graph.index? node).any footprint.nodes.contains

end Footprint

namespace CallGraph

/-- The ends of all edges. -/
def targets (graph : CallGraph) : List Nat := graph.adjacency.flatMap SortedSet.toList

/-- **Everything that can be reached from nodes**, which are given in any order and may be repeated.
How many rounds the traversal may take is said beforehand, by the nodes that there are to meet, so
that it ends by construction; the rounds never run out (`Retest.CallGraph.traverses_reachFrom`). -/
def reachFrom (graph : CallGraph) (seeds : List Nat) : Footprint :=
  let start := unseen [] seeds
  -- apart from the start, a node is met as the end of an edge
  let nodes := sweep (fun i => (graph.callees i).toList) (start.length + graph.targets.length)
    start start
  ⟨.ofList nodes, nodes.any graph.reflective.contains⟩

def reach (graph : CallGraph) (seeds : SortedSet Nat) : Footprint := graph.reachFrom seeds.toList

/-- **The footprint of a test**: all that its methods reach, those among them that it inherits as a
fixture. -/
def footprint (graph : CallGraph) (test : UnitName) : Footprint :=
  graph.reach (graph.methodsOf test)

end CallGraph

end Retest

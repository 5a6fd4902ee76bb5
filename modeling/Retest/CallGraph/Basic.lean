import Retest.Dependency
import Retest.Sorted.Map

/-!
# Call graphs

A call graph has methods, fields and units as its nodes, each with a number, and
an edge from each method to what it uses. Every node counts as using itself.
-/

namespace Retest

/-- **A finished call graph.** Nodes go by number, and so does all that is known of them. -/
structure CallGraph where
  /-- The nodes; the number of a node is its place in this list. -/
  nodes : List Dependency := []
  /-- For each node the numbers of those it uses. -/
  adjacency : List (SortedSet Nat) := []
  /-- The methods of each unit; with those that a test fixture inherits. -/
  methods : SortedMap UnitName (SortedSet Nat) := ∅
  /-- The methods that use reflection. -/
  reflective : SortedSet Nat := ∅
deriving DecidableEq

namespace CallGraph

def index? (graph : CallGraph) (node : Dependency) : Option Nat := graph.nodes.idxOf? node

/-- The numbers of the nodes that a node uses; none for a number that belongs to no node. -/
def callees (graph : CallGraph) (index : Nat) : SortedSet Nat := (graph.adjacency[index]?).getD ∅

def methodsOf (graph : CallGraph) (unit : UnitName) : SortedSet Nat :=
  (graph.methods.get? unit).getD ∅

def hasEdge (graph : CallGraph) (source target : Dependency) : Bool :=
  match graph.index? source, graph.index? target with
  | some a, some b => (graph.callees a).contains b
  | _, _ => false

/-- The number of edges, without those of nodes to themselves. -/
def edgeCount (graph : CallGraph) : Nat :=
  (graph.adjacency.zipIdx.map fun (targets, i) => (targets.filter (· != i)).size).foldr (· + ·) 0

end CallGraph

end Retest

import Mathlib.Order.Bounds.Defs
import Retest.CallGraph.Footprint

/-!
# What a traversal of a call graph reaches

A traversal is a loop over a queue. As long as the queue is not empty, its first node is taken
off and visited: it is noted whether the node uses reflection, and of the nodes that it uses those
not met before join the queue (`Retest.CallGraph.Traverses`). Nothing bounds the number of rounds
from outside, and a call graph may well have cycles.

The loop ends, since a node joins the queue only when it is met, and apart from the seeds only ends
of edges are met: `Retest.CallGraph.reachFrom` allows for that many rounds, and comes to the end of
the loop (`Retest.CallGraph.traverses_reachFrom`). What it returns are the nodes that some seed
leads to and no others, and whether one of them uses reflection
(`Retest.CallGraph.reachFrom_exact`). This holds of any call graph, and of any list of seeds, in
which numbers may be repeated or belong to no node. So the footprint of a test is the least set
that holds its methods and all that its members use.
-/

namespace Retest.CallGraph

variable {graph : CallGraph}

/-- A node leads to another one by zero or more edges. -/
def Leads (graph : CallGraph) (i j : Nat) : Prop := Reaches (fun i => (graph.callees i).toList) i j

/-- **The loop of a traversal**: from a queue, the nodes met so far and whether one visited so far
uses reflection, it comes to a footprint. -/
inductive Traverses (graph : CallGraph) :
    (queue met : List Nat) → (reflective : Bool) → Footprint → Prop where
  /-- The queue is empty. -/
  | done {met : List Nat} {reflective : Bool} :
    Traverses graph [] met reflective ⟨.ofList met, reflective⟩
  /-- The first node of the queue is visited. -/
  | visit {i : Nat} {queue met : List Nat} {reflective : Bool} {footprint : Footprint} :
    Traverses graph (queue ++ unseen met (graph.callees i).toList)
      (met ++ unseen met (graph.callees i).toList)
      (reflective || graph.reflective.contains i) footprint →
    Traverses graph (i :: queue) met reflective footprint

/-! ### The end of the loop -/

/-- What a node uses is the end of an edge. -/
theorem mem_targets {i j : Nat} (h : j ∈ (graph.callees i).toList) : j ∈ graph.targets := by
  rw [callees] at h
  cases hi : graph.adjacency[i]? with
  | none =>
    rw [hi] at h
    exact absurd h (SortedSet.not_mem_empty j)
  | some set =>
    rw [hi] at h
    exact List.mem_flatMap.2 ⟨set, List.mem_of_getElem? hi, h⟩

/-- With one round for each node that is queued or can still be met, a sweep comes to the end of
the loop. The nodes visited on the way are those of the queue and those met anew. -/
theorem traverses_sweep {fuel : Nat} {queue met : List Nat} (reflective : Bool)
    (hfuel : queue.length + unseenCount met graph.targets ≤ fuel) :
    ∃ more, sweep (fun i => (graph.callees i).toList) fuel queue met = met ++ more ∧
      Traverses graph queue met reflective
        ⟨.ofList (met ++ more), reflective || (queue ++ more).any graph.reflective.contains⟩ := by
  have hdone : ∀ met reflective, Traverses graph [] met reflective
      ⟨.ofList (met ++ []), reflective || ([] ++ []).any graph.reflective.contains⟩ := by
    intro met reflective
    rw [List.append_nil, List.append_nil, List.any_nil, Bool.or_false]
    exact .done
  induction fuel generalizing queue met reflective with
  | zero =>
    obtain rfl : queue = [] := List.length_eq_zero_iff.1 (by omega)
    exact ⟨[], by rw [sweep, List.append_nil], hdone met reflective⟩
  | succ fuel ih =>
    cases queue with
    | nil => exact ⟨[], by rw [sweep, List.append_nil], hdone met reflective⟩
    | cons i queue =>
      have hcount := unseenCount_append (nodup_unseen met (graph.callees i).toList)
        fun j hj => ⟨mem_targets (mem_unseen.1 hj).1, (mem_unseen.1 hj).2⟩
      have hrounds : (queue ++ unseen met (graph.callees i).toList).length +
          unseenCount (met ++ unseen met (graph.callees i).toList) graph.targets ≤ fuel := by
        rw [List.length_append]
        rw [List.length_cons] at hfuel
        omega
      obtain ⟨more, hsweep, hloop⟩ := ih (reflective || graph.reflective.contains i) hrounds
      refine ⟨unseen met (graph.callees i).toList ++ more, ?_, .visit ?_⟩
      · rw [sweep, hsweep, List.append_assoc]
      · rw [List.cons_append, List.any_cons, ← Bool.or_assoc, ← List.append_assoc,
          ← List.append_assoc]
        exact hloop

/-- The rounds that are allowed for are enough. -/
theorem rounds_le (graph : CallGraph) (start : List Nat) :
    start.length + unseenCount start graph.targets ≤ start.length + graph.targets.length :=
  Nat.add_le_add_left (List.length_filter_le _ _) _

/-- **A traversal ends**, and its outcome is that of the loop. -/
theorem traverses_reachFrom (graph : CallGraph) (seeds : List Nat) :
    Traverses graph (unseen [] seeds) (unseen [] seeds) false (graph.reachFrom seeds) := by
  obtain ⟨more, hsweep, hloop⟩ := traverses_sweep false (rounds_le graph (unseen [] seeds))
  rw [Bool.false_or, ← hsweep] at hloop
  exact hloop

/-! ### What is reached -/

/-- **What is reached**: the nodes that a seed leads to. -/
theorem mem_reachFrom {seeds : List Nat} {i : Nat} :
    i ∈ (graph.reachFrom seeds).nodes ↔ ∃ s ∈ seeds, graph.Leads s i := by
  have hstart : ∀ {s : Nat}, s ∈ unseen [] seeds ↔ s ∈ seeds := by
    simp [mem_unseen]
  have htargets : ∀ i j, j ∈ (graph.callees i).toList → j ∈ graph.targets := fun _ _ => mem_targets
  -- at the start, all that was met is queued
  rw [reachFrom, SortedSet.mem_ofList, mem_sweep_iff htargets (rounds_le graph _) (fun _ h => h)
    (fun _ h hnot => absurd h hnot)]
  constructor
  · rintro (hi | ⟨s, hs, hlead⟩)
    · exact ⟨i, hstart.1 hi, .refl i⟩
    · exact ⟨s, hstart.1 hs, hlead⟩
  · rintro ⟨s, hs, hlead⟩
    exact .inr ⟨s, hstart.2 hs, hlead⟩

theorem reflective_reachFrom {seeds : List Nat} :
    (graph.reachFrom seeds).reflective = true ↔
      ∃ i ∈ (graph.reachFrom seeds).nodes, i ∈ graph.reflective := by
  simp [reachFrom, List.any_eq_true]

/-- What is reached is the least set that holds the seeds and all that its members use. -/
theorem isLeast_reachFrom (graph : CallGraph) (seeds : List Nat) :
    IsLeast {set : Set Nat | (∀ s ∈ seeds, s ∈ set) ∧ ∀ i ∈ set, ∀ j ∈ graph.callees i, j ∈ set}
      {i | i ∈ (graph.reachFrom seeds).nodes} := by
  refine ⟨⟨fun s hs => mem_reachFrom.2 ⟨s, hs, .refl s⟩, ?_⟩, ?_⟩
  · intro i hi j hj
    obtain ⟨s, hs, hlead⟩ := mem_reachFrom.1 hi
    exact mem_reachFrom.2 ⟨s, hs, .step hlead hj⟩
  · rintro set ⟨hseeds, hclosed⟩ i hi
    obtain ⟨s, hs, hlead⟩ := mem_reachFrom.1 hi
    induction hlead with
    | refl => exact hseeds s hs
    | step hlead hj ih => exact hclosed _ (ih (mem_reachFrom.2 ⟨s, hs, hlead⟩)) _ hj

/-- **Reachability is exact.** From any list of seeds, the loop of the traversal ends; the nodes
it returns are those that a seed leads to by zero or more edges, and it says that reflection is
used exactly if one of these nodes uses it. In particular the footprint of a test is the least set
that holds the methods of the test and all that its members use. -/
theorem reachFrom_exact (graph : CallGraph) (seeds : List Nat) (test : UnitName) :
    Traverses graph (unseen [] seeds) (unseen [] seeds) false (graph.reachFrom seeds) ∧
      (∀ i, i ∈ (graph.reachFrom seeds).nodes ↔ ∃ s ∈ seeds, graph.Leads s i) ∧
      ((graph.reachFrom seeds).reflective = true ↔
        ∃ i ∈ (graph.reachFrom seeds).nodes, i ∈ graph.reflective) ∧
      IsLeast {set : Set Nat | (∀ i ∈ graph.methodsOf test, i ∈ set) ∧
          ∀ i ∈ set, ∀ j ∈ graph.callees i, j ∈ set}
        {i | i ∈ (graph.footprint test).nodes} ∧
      ((graph.footprint test).reflective = true ↔
        ∃ i ∈ (graph.footprint test).nodes, i ∈ graph.reflective) :=
  ⟨traverses_reachFrom graph seeds, fun _ => mem_reachFrom, reflective_reachFrom,
    isLeast_reachFrom graph (graph.methodsOf test).toList, reflective_reachFrom⟩

-- around a cycle, from a seed that comes twice and one that is no node
example : (reachFrom ⟨[], [.ofList [1], .ofList [2], .ofList [0], .ofList [0]], ∅, .ofList [2]⟩
    [1, 1, 7]) = ⟨.ofList [0, 1, 2, 7], true⟩ := by decide +kernel

end Retest.CallGraph

import Mathlib.Data.List.Nodup
import Retest.CallGraph.Footprint
import Retest.Proofs.CallGraph.Edges

/-!
# What a footprint holds

A footprint is a set of numbers. It can be asked whether it holds a node, for which the
number of the node is looked up; or the nodes with its numbers are listed. The one looks
at the first place of a node, the other at any. Both agree, since no node of a call graph
has two numbers: a draft takes up a node only if it is new
(`Retest.CallGraph.nodup_nodes_ofClasses`), so that a node is held exactly if it is
listed (`Retest.Footprint.contains_iff_mem_dependencies`).
-/

namespace Retest

namespace CallGraph

/-- **No node of a call graph has two numbers.** -/
theorem nodup_nodes_ofClasses (context : Context) (files : List ClassFile)
    (external : List (UnitName × UnitName)) :
    (ofClasses context files external).nodes.Nodup := by
  have hnodes : (ofClasses context files external).nodes =
      unseen [] (namedNodes (allEntries context files external)) := by
    rw [ofClasses_eq_graph]
    exact Draft.nodes_addAll _
  rw [hnodes]
  exact nodup_unseen _ _

end CallGraph

/-! ### Footprints -/

namespace Footprint

variable {footprint : Footprint} {graph : CallGraph} {node : Dependency}

theorem contains_eq_true : footprint.contains graph node = true ↔
    ∃ i, graph.index? node = some i ∧ i ∈ footprint.nodes := by
  rw [contains, Option.any_eq_true]
  exact exists_congr fun i => and_congr_right fun _ => SortedSet.contains_eq_true

theorem mem_dependencies :
    node ∈ footprint.dependencies graph ↔ ∃ i ∈ footprint.nodes, graph.nodes[i]? = some node :=
  List.mem_filterMap

/-- The units of a footprint are those that own a node of it. -/
theorem mem_units {unit : UnitName} :
    unit ∈ footprint.units graph ↔
      ∃ node ∈ footprint.dependencies graph, node.owner = unit := by
  rw [units, SortedSet.mem_ofList, List.mem_map]

/-- A node that is held is listed. -/
theorem mem_dependencies_of_contains (h : footprint.contains graph node = true) :
    node ∈ footprint.dependencies graph := by
  obtain ⟨i, hi, hmem⟩ := contains_eq_true.1 h
  obtain ⟨hlt, hnode, -⟩ := List.idxOf?_eq_some_iff.1 hi
  exact mem_dependencies.2 ⟨i, hmem, List.getElem?_eq_some_iff.2 ⟨hlt, hnode⟩⟩

/-- A footprint that reaches a node reaches the unit that owns it. -/
theorem owner_mem_units (h : node ∈ footprint.dependencies graph) :
    node.owner ∈ footprint.units graph :=
  mem_units.2 ⟨node, h, rfl⟩

/-- **A footprint holds the nodes that it lists**, where no node has two numbers. -/
theorem contains_iff_mem_dependencies (h : graph.nodes.Nodup) :
    footprint.contains graph node = true ↔ node ∈ footprint.dependencies graph := by
  refine ⟨mem_dependencies_of_contains, fun hnode => ?_⟩
  obtain ⟨i, hmem, hi⟩ := mem_dependencies.1 hnode
  obtain ⟨hlt, rfl⟩ := List.getElem?_eq_some_iff.1 hi
  refine contains_eq_true.2 ⟨i, ?_, hmem⟩
  rw [CallGraph.index?_of_mem (List.getElem_mem hlt)]
  exact congrArg some (List.get_idxOf h ⟨i, hlt⟩)

end Footprint

end Retest

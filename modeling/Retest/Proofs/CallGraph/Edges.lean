import Retest.Proofs.CallGraph.Draft

/-!
# The edges of a call graph

A call graph has exactly the edges that follow from the facts of the class files,
from what else is known of dependencies, and from inheritance by test fixtures;
besides, every node has an edge to itself
(`Retest.CallGraph.hasEdge_ofClasses`).

The draft of a call graph is determined by its entries, and so is the graph
(`Retest.CallGraph.ofClasses_eq_graph`). What is kept by number in it can be read back
by name: numbers tell nodes apart, and the ends of all edges are nodes, so that two
nodes are joined exactly if there is an entry for an edge between them
(`Retest.CallGraph.Draft.hasEdge_graph`).
-/

namespace Retest.CallGraph

/-! ### Nodes by number -/

theorem index?_of_mem {graph : CallGraph} {n : Dependency} (hn : n ∈ graph.nodes) :
    graph.index? n = some (graph.nodes.idxOf n) :=
  List.findIdx?_eq_some_of_exists ⟨n, hn, beq_self_eq_true n⟩

/-- The ends of an edge are nodes. -/
theorem mem_nodes_of_hasEdge {graph : CallGraph} {a b : Dependency}
    (h : graph.hasEdge a b = true) : a ∈ graph.nodes ∧ b ∈ graph.nodes := by
  rw [hasEdge] at h
  split at h
  · next i j ha hb =>
    exact ⟨List.isSome_idxOf?.1 (Option.isSome_of_eq_some ha),
      List.isSome_idxOf?.1 (Option.isSome_of_eq_some hb)⟩
  · cases h

/-! ### Finished drafts -/

namespace Draft

/-- Edges add their ends to the lists of their sources, and nothing else. -/
theorem getElem?_foldl_modify (arcs : List Arc) (lists : List (SortedSet Nat)) (i : Nat) :
    (arcs.foldl (fun lists e => lists.modify e.source (·.insert e.target)) lists)[i]? =
      (lists[i]?).map fun set => set.insertMany ((arcs.filter (·.source == i)).map Arc.target) := by
  induction arcs generalizing lists with
  | nil =>
    rw [List.foldl_nil, List.filter_nil, List.map_nil]
    exact Option.map_id_apply.symm
  | cons arc arcs ih =>
    rw [List.foldl_cons, ih, List.getElem?_modify, List.filter_cons]
    by_cases harc : arc.source = i
    · rw [if_pos (beq_iff_eq.2 harc)]
      simp [harc, Function.comp_def, SortedSet.insertMany]
    · rw [if_neg fun hc => harc (beq_iff_eq.1 hc)]
      simp [harc]

variable {draft : Draft} {entries : List Entry} {a b : Dependency} {i j : Nat}

/-- **The list of a node** holds its own number and those that edges lead to. -/
theorem getElem?_adjacency_graph : draft.graph.adjacency[i]? =
    if i < draft.nodes.length then some ((SortedSet.ofList [i]).insertMany
      ((draft.edges.toList.filter (·.source == i)).map Arc.target)) else none := by
  rw [graph, getElem?_foldl_modify, List.getElem?_map]
  split
  · next hi => rw [List.getElem?_range hi, Option.map_some, Option.map_some]
  · next hi =>
    rw [List.getElem?_eq_none (by rw [List.length_range]; omega), Option.map_none, Option.map_none]

theorem length_adjacency_graph : draft.graph.adjacency.length = draft.nodes.length := by
  have hnone : ∀ i, draft.graph.adjacency.length ≤ i ↔ draft.nodes.length ≤ i := by
    intro i
    rw [← List.getElem?_eq_none_iff, getElem?_adjacency_graph]
    split
    · next hi => simp [hi]
    · next hi => simpa using hi
  have hle := (hnone draft.nodes.length).2 (Nat.le_refl _)
  have hge := (hnone draft.graph.adjacency.length).1 (Nat.le_refl _)
  omega

theorem mem_callees_graph :
    j ∈ draft.graph.callees i ↔ i < draft.nodes.length ∧ (j = i ∨ ⟨i, j⟩ ∈ draft.edges) := by
  rw [callees, getElem?_adjacency_graph]
  split
  · next hi =>
    rw [Option.getD_some, SortedSet.mem_insertMany, SortedSet.mem_ofList, List.mem_singleton,
      and_iff_right hi, List.mem_map]
    refine or_congr_right ⟨?_, fun harc => ⟨⟨i, j⟩, List.mem_filter.2 ⟨harc, by simp⟩, rfl⟩⟩
    rintro ⟨arc, harc, rfl⟩
    obtain ⟨hmem, hsource⟩ := List.mem_filter.1 harc
    obtain rfl := beq_iff_eq.1 hsource
    exact hmem
  · next hi => simp [hi]

theorem nodes_addAll (entries : List Entry) :
    (({} : Draft).addAll entries).nodes = unseen [] (namedNodes entries) := by
  rw [addAll_eq_extend]
  rfl

theorem mem_nodes_addAll {n : Dependency} :
    n ∈ (({} : Draft).addAll entries).nodes ↔ ∃ entry ∈ entries, n ∈ entry.nodes := by
  rw [nodes_addAll, mem_unseen, and_iff_left List.not_mem_nil, namedNodes, List.mem_flatMap]

/-- The edges of a draft are between the numbers of nodes that an entry joins. -/
theorem mem_edges_addAll {arc : Arc} : arc ∈ (({} : Draft).addAll entries).edges ↔
    ∃ a b, .edge a b ∈ entries ∧ a ≠ b ∧ arc =
      ⟨(({} : Draft).addAll entries).nodes.idxOf a,
        (({} : Draft).addAll entries).nodes.idxOf b⟩ := by
  have hedges : (({} : Draft).addAll entries).edges =
      .ofList (entries.filterMap (Entry.arc? (({} : Draft).addAll entries).nodes)) := by
    rw [addAll_eq_extend]
    rfl
  rw [hedges, SortedSet.mem_ofList, List.mem_filterMap]
  constructor
  · rintro ⟨entry, hentry, harc⟩
    cases entry with
    | node | method | reflective => cases harc
    | edge a b =>
      rw [Entry.arc?] at harc
      split at harc
      · cases harc
      · next hne => exact ⟨a, b, hentry, hne, (Option.some.inj harc).symm⟩
  · rintro ⟨a, b, hentry, hne, rfl⟩
    exact ⟨_, hentry, if_neg hne⟩

/-- **The edges of a finished draft**: those of its entries, and one from each node to itself. -/
theorem hasEdge_graph : (({} : Draft).addAll entries).graph.hasEdge a b = true ↔
    a = b ∧ a ∈ (({} : Draft).addAll entries).nodes ∨ a ≠ b ∧ .edge a b ∈ entries := by
  have hends : .edge a b ∈ entries → a ∈ (({} : Draft).addAll entries).nodes ∧
      b ∈ (({} : Draft).addAll entries).nodes := fun hentry =>
    ⟨mem_nodes_addAll.2 ⟨_, hentry, List.mem_cons_self⟩,
      mem_nodes_addAll.2 ⟨_, hentry, List.mem_cons_of_mem _ List.mem_cons_self⟩⟩
  have hnodes : (({} : Draft).addAll entries).graph.nodes =
      (({} : Draft).addAll entries).nodes := rfl
  -- numbers tell nodes apart
  have hedge : a ∈ (({} : Draft).addAll entries).nodes → b ∈ (({} : Draft).addAll entries).nodes →
      ((({} : Draft).addAll entries).graph.hasEdge a b = true ↔
        a = b ∨ a ≠ b ∧ .edge a b ∈ entries) := by
    intro ha hb
    rw [hasEdge, index?_of_mem ha, index?_of_mem hb]
    dsimp only
    rw [SortedSet.contains_eq_true, hnodes, mem_callees_graph,
      and_iff_right (List.idxOf_lt_length_of_mem ha), List.idxOf_inj hb, eq_comm, mem_edges_addAll]
    refine or_congr_right ⟨?_, fun h => ⟨a, b, h.2, h.1, rfl⟩⟩
    rintro ⟨a', b', hentry, hne, harc⟩
    obtain ⟨hsource, htarget⟩ := Arc.mk.inj harc
    obtain rfl := (List.idxOf_inj ha).1 hsource
    obtain rfl := (List.idxOf_inj hb).1 htarget
    exact ⟨hne, hentry⟩
  constructor
  · intro h
    obtain ⟨ha, hb⟩ := mem_nodes_of_hasEdge h
    exact ((hedge ha hb).1 h).imp_left fun heq => ⟨heq, ha⟩
  · rintro (⟨rfl, ha⟩ | ⟨hne, hentry⟩)
    · exact (hedge ha ha).2 (.inl rfl)
    · exact (hedge (hends hentry).1 (hends hentry).2).2 (.inr ⟨hne, hentry⟩)

end Draft

/-! ### Entries of class files -/

namespace Context

variable (context : Context)

/-- The edges that follow from the facts of a class file that takes part. -/
def classEdges (file : ClassFile) : List (Dependency × Dependency) :=
  if context.settings.isExcluded file.name || !context.inventory.contains file.name then []
  else file.facts.flatMap context.edges

/-- The edges that follow from a pair of units known to depend on one another. -/
def pairEdges (e : UnitName × UnitName) : List (Dependency × Dependency) :=
  if e.1 = e.2 then [] else context.externalEdges e.1 e.2

/-- The edges for what test fixtures inherit. -/
def inheritedEdges : List (Dependency × Dependency) :=
  context.inherited.flatMap fun e => [(.method e.1, .method e.2)]

theorem addClasses_eq_addAll (draft : Draft) (files : List ClassFile) :
    context.addClasses draft files = draft.addAll (files.flatMap context.classEntries) :=
  List.foldl_flatMap.symm

theorem foldl_addExternal_eq_addAll (draft : Draft) (external : List (UnitName × UnitName)) :
    external.foldl context.addExternal draft =
      draft.addAll (external.flatMap context.externalEntries) :=
  List.foldl_flatMap.symm

variable {context} {a b : Dependency}

theorem edge_mem_map {edges : List (Dependency × Dependency)} :
    Entry.edge a b ∈ edges.map (fun e => Entry.edge e.1 e.2) ↔ (a, b) ∈ edges := by
  rw [List.mem_map]
  constructor
  · rintro ⟨e, he, heq⟩
    obtain ⟨rfl, rfl⟩ := Entry.edge.inj heq
    exact he
  · exact fun he => ⟨_, he, rfl⟩

/-- What a fact says of its own method or field is no edge. -/
theorem edge_not_mem_ownEntries (fact : Fact) : .edge a b ∉ context.ownEntries fact := by
  cases fact with
  | unit | access => exact List.not_mem_nil
  | method | field => simp [ownEntries]
  | call caller owner signature =>
    rw [ownEntries]
    split <;> simp

theorem edge_mem_classEntries {file : ClassFile} :
    .edge a b ∈ context.classEntries file ↔ (a, b) ∈ context.classEdges file := by
  rw [classEntries, classEdges]
  split
  · simp
  · rw [List.mem_flatMap, List.mem_flatMap]
    refine exists_congr fun fact => and_congr_right fun _ => ?_
    rw [entries, List.mem_append, or_iff_right (edge_not_mem_ownEntries fact), edge_mem_map]

theorem edge_mem_externalEntries {e : UnitName × UnitName} :
    .edge a b ∈ context.externalEntries e ↔ (a, b) ∈ context.pairEdges e := by
  rw [externalEntries, pairEdges]
  split
  · simp
  · rw [List.mem_cons, edge_mem_map]
    exact or_iff_right (by simp)

theorem edge_mem_inheritedEntries :
    .edge a b ∈ context.inheritedEntries ↔ (a, b) ∈ context.inheritedEdges := by
  simp [inheritedEntries, inheritedEdges]

end Context

/-! ### The whole -/

section Whole

variable (context : Context) (files : List ClassFile) (external : List (UnitName × UnitName))

/-- All entries for the call graph of class files, in the order in which they are taken up. -/
def allEntries : List Entry :=
  files.flatMap context.classEntries ++ external.flatMap context.externalEntries ++
    context.inheritedEntries

/-- All edges of the call graph of class files, those of nodes to themselves apart. -/
def allEdges : List (Dependency × Dependency) :=
  files.flatMap context.classEdges ++ external.flatMap context.pairEdges ++ context.inheritedEdges

/-- **A call graph is determined by its entries.** -/
theorem ofClasses_eq_graph : ofClasses context files external =
    (({} : Draft).addAll (allEntries context files external)).graph := by
  rw [ofClasses, Context.finish, context.addClasses_eq_addAll, context.foldl_addExternal_eq_addAll,
    allEntries, Draft.addAll_append, Draft.addAll_append]

theorem edge_mem_allEntries {a b : Dependency} :
    .edge a b ∈ allEntries context files external ↔ (a, b) ∈ allEdges context files external := by
  simp only [allEntries, allEdges, List.mem_append, List.mem_flatMap,
    Context.edge_mem_classEntries, Context.edge_mem_externalEntries,
    Context.edge_mem_inheritedEntries]

theorem mem_nodes_ofClasses {n : Dependency} : n ∈ (ofClasses context files external).nodes ↔
    ∃ entry ∈ allEntries context files external, n ∈ entry.nodes := by
  rw [ofClasses_eq_graph]
  exact Draft.mem_nodes_addAll

/-- **The edges of a call graph**: what follows from facts, from dependencies known otherwise and
from inheritance, and an edge from each node to itself. -/
theorem hasEdge_ofClasses {a b : Dependency} :
    (ofClasses context files external).hasEdge a b = true ↔
      a = b ∧ a ∈ (ofClasses context files external).nodes ∨
        a ≠ b ∧ (a, b) ∈ allEdges context files external := by
  rw [ofClasses_eq_graph, Draft.hasEdge_graph, edge_mem_allEntries]
  rfl

/-- The ends of edges that follow from something are nodes. -/
theorem mem_nodes_of_mem_allEdges {a b : Dependency}
    (h : (a, b) ∈ allEdges context files external) :
    a ∈ (ofClasses context files external).nodes ∧
      b ∈ (ofClasses context files external).nodes := by
  have hentry := (edge_mem_allEntries context files external).2 h
  exact ⟨(mem_nodes_ofClasses context files external).2 ⟨_, hentry, List.mem_cons_self⟩,
    (mem_nodes_ofClasses context files external).2
      ⟨_, hentry, List.mem_cons_of_mem _ List.mem_cons_self⟩⟩

/-- Every edge that follows from something is there, also from a node to itself. -/
theorem hasEdge_of_mem_allEdges {a b : Dependency} (h : (a, b) ∈ allEdges context files external) :
    (ofClasses context files external).hasEdge a b = true := by
  by_cases hab : a = b
  · exact (hasEdge_ofClasses context files external).2
      (.inl ⟨hab, (mem_nodes_of_mem_allEdges context files external h).1⟩)
  · exact (hasEdge_ofClasses context files external).2 (.inr ⟨hab, h⟩)

end Whole

end Retest.CallGraph

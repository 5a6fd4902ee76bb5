import Retest.Proofs.CallGraph.Reachability
import Retest.Proofs.CallGraph.Rules

/-!
# Footprints by name

The footprint of a test is found by a traversal of numbers. By name it is the least set that
holds the methods of the test, those that it inherits as a fixture among them, and all that rules
join its members with (`Retest.CallGraph.contains_footprint_iff`).
-/

namespace Retest.CallGraph

/-! ### The methods of a unit -/

namespace Draft

variable {entries : List Entry} {unit : UnitName} {i : Nat}

theorem mem_get?_foldl_assign {nodes : List Dependency} {keys : List MethodKey}
    {methods : SortedMap UnitName (SortedSet Nat)} :
    i ∈ ((keys.foldl (assign nodes) methods).get? unit).getD ∅ ↔
      i ∈ (methods.get? unit).getD ∅ ∨
        ∃ key ∈ keys, key.owner = unit ∧ nodes.idxOf (.method key) = i := by
  induction keys generalizing methods with
  | nil => simp
  | cons key keys ih =>
    rw [List.foldl_cons, ih, assign, SortedMap.mem_get?_addTo, SortedSet.mem_ofList,
      List.mem_singleton, or_assoc]
    simp [eq_comm]

theorem mem_methodsOf_graph : i ∈ (({} : Draft).addAll entries).graph.methodsOf unit ↔
    ∃ key, .method key ∈ entries ∧ key.owner = unit ∧
      (({} : Draft).addAll entries).nodes.idxOf (.method key) = i := by
  have hmethods : (({} : Draft).addAll entries).graph.methods =
      (entries.filterMap Entry.method?).foldl (assign (({} : Draft).addAll entries).nodes) ∅ := by
    rw [addAll_eq_extend]
    rfl
  rw [methodsOf, hmethods, mem_get?_foldl_assign]
  refine (or_iff_right (SortedSet.not_mem_empty i)).trans (exists_congr fun key => ?_)
  refine and_congr_left fun _ => ⟨fun h => ?_, fun h => List.mem_filterMap.2 ⟨_, h, rfl⟩⟩
  obtain ⟨entry, hentry, hkey⟩ := List.mem_filterMap.1 h
  cases entry with
  | method key' =>
    obtain rfl := Option.some.inj hkey
    exact hentry
  | node | edge | reflective => cases hkey

end Draft

/-- **The methods of a unit** are those that an entry gives it. -/
theorem mem_methodsOf_ofClasses {context : Context} {files : List ClassFile}
    {external : List (UnitName × UnitName)} {unit : UnitName} {i : Nat} :
    i ∈ (ofClasses context files external).methodsOf unit ↔
      ∃ key, .method key ∈ allEntries context files external ∧ key.owner = unit ∧
        (ofClasses context files external).nodes.idxOf (.method key) = i := by
  rw [ofClasses_eq_graph]
  exact Draft.mem_methodsOf_graph

theorem getElem?_idxOf_nodes {graph : CallGraph} {n : Dependency} (hn : n ∈ graph.nodes) :
    graph.nodes[graph.nodes.idxOf n]? = some n :=
  List.getElem?_eq_some_iff.2 ⟨List.idxOf_lt_length_of_mem hn, List.getElem_idxOf _⟩

/-- The numbers in the list of a node are its own and those of nodes that an edge leads to. -/
theorem exists_edge_of_mem_callees {context : Context} {files : List ClassFile}
    {external : List (UnitName × UnitName)} {i j : Nat} {a : Dependency}
    (ha : (ofClasses context files external).nodes[i]? = some a)
    (hj : j ∈ (ofClasses context files external).callees i) :
    ∃ b, (ofClasses context files external).nodes[j]? = some b ∧
      (b = a ∨ (a, b) ∈ allEdges context files external) := by
  rw [ofClasses_eq_graph] at ha hj ⊢
  obtain ⟨hi, rfl | harc⟩ := Draft.mem_callees_graph.1 hj
  · exact ⟨a, ha, .inl rfl⟩
  · obtain ⟨a', b, hentry, -, harc⟩ := Draft.mem_edges_addAll.1 harc
    obtain ⟨rfl, rfl⟩ := Arc.mk.inj harc
    have hedge := (edge_mem_allEntries context files external).1 hentry
    obtain ⟨ha', hb⟩ := mem_nodes_of_mem_allEdges context files external hedge
    rw [ofClasses_eq_graph] at ha' hb
    obtain rfl := Option.some.inj ((getElem?_idxOf_nodes ha').symm.trans ha)
    exact ⟨b, getElem?_idxOf_nodes hb, .inr hedge⟩

section Footprint

variable (settings : Settings) (files : List ClassFile) (external : List (UnitName × UnitName))
  (t : UnitName)

/-- **What a test touches**: its own methods, those of ancestors that are its own as far as test
fixtures go, and all that is joined with what it touches. -/
inductive Touches : Dependency → Prop where
  | own {signature : Signature}
      (hdeclares : (Context.ofClasses settings files).inventory.declaresMethod t signature = true) :
      Touches (.method ⟨t, signature⟩)
  | inherits {ancestor : UnitName} {signature : Signature}
      (hancestor : ancestor ∈ (Context.ofClasses settings files).inventory.hierarchy.ancestors t)
      (hdeclares : (Context.ofClasses settings files).inventory.declaresMethod ancestor
        signature = true)
      (hsignature : signature.isInitializer = false)
      (hfixture : settings.isFixture t = true ∨ settings.isFixture ancestor = true) :
      Touches (.method ⟨t, signature⟩)
  | joined {a b : Dependency} (ha : Touches a)
      (hjoins : (Context.ofClasses settings files).Joins (kept settings files) (proper external)
        a b) : Touches b

variable {settings files external t} {n : Dependency}

/-- The methods of a test: those it declares, and those it inherits as a fixture. -/
theorem touches_of_method_mem {key : MethodKey}
    (h : .method key ∈ allEntries (Context.ofClasses settings files) files external) :
    Touches settings files external key.owner (.method key) := by
  rcases List.mem_append.1 h with h | h
  · rcases List.mem_append.1 h with h | h
    · obtain ⟨file, hfile, fact, hfact, h⟩ := mem_flatMap_classEntries.1 h
      rcases List.mem_append.1 h with h | h
      · cases fact with
        | unit | field | access => simp [Context.ownEntries] at h
        | call =>
          rw [Context.ownEntries] at h
          split at h <;> simp at h
        | method key' isStatic isAbstract =>
          obtain rfl := Entry.method.inj (List.mem_singleton.1 h)
          exact .own (declaresMethod_of_mem_facts hfile hfact)
      · obtain ⟨e, -, h⟩ := List.mem_map.1 h
        cases h
    · obtain ⟨e, -, h⟩ := List.mem_flatMap.1 h
      rw [Context.externalEntries] at h
      split at h
      · cases h
      · rcases List.mem_cons.1 h with h | h
        · cases h
        · obtain ⟨e, -, h⟩ := List.mem_map.1 h
          cases h
  · obtain ⟨e, he, h⟩ := List.mem_flatMap.1 h
    rcases List.mem_pair.1 h with h | h
    · obtain ⟨unit, ancestor, signature, ⟨-, hancestor, hdeclares, hsignature, hfixture⟩, rfl⟩ :=
        Context.mem_inherited.1 he
      obtain rfl := Entry.method.inj h
      exact .inherits hancestor hdeclares hsignature hfixture
    · cases h

/-- A method that a test declares has an entry. -/
theorem method_mem_of_declaresMethod {key : MethodKey} (h : (Context.ofClasses settings
      files).inventory.declaresMethod key.owner key.signature = true) :
    .method key ∈ allEntries (Context.ofClasses settings files) files external := by
  obtain ⟨file, hfile, isStatic, isAbstract, hfact⟩ := exists_method_mem_facts h
  refine List.mem_append_left _ (List.mem_append_left _
    (mem_flatMap_classEntries.2 ⟨file, hfile, _, hfact, ?_⟩))
  exact List.mem_append_left _ (List.mem_singleton_self _)

/-- A method that a test inherits as a fixture has an entry. -/
theorem method_mem_of_mem_inherited {e : MethodKey × MethodKey}
    (h : e ∈ (Context.ofClasses settings files).inherited) :
    .method e.1 ∈ allEntries (Context.ofClasses settings files) files external :=
  List.mem_append_right _ (List.mem_flatMap.2 ⟨e, h, List.mem_cons_self⟩)

/-- A method that a test has by an entry is a node, with a number that is among its methods. -/
theorem exists_leads_of_method_mem {signature : Signature} (h : .method ⟨t, signature⟩ ∈
      allEntries (Context.ofClasses settings files) files external) :
    .method ⟨t, signature⟩ ∈ (ofClasses (.ofClasses settings files) files external).nodes ∧
      ∃ s ∈ (ofClasses (.ofClasses settings files) files external).methodsOf t,
        (ofClasses (.ofClasses settings files) files external).Leads s
          ((ofClasses (.ofClasses settings files) files external).nodes.idxOf
            (.method ⟨t, signature⟩)) :=
  ⟨(mem_nodes_ofClasses _ _ _).2 ⟨_, h, List.mem_singleton_self _⟩, _,
    mem_methodsOf_ofClasses.2 ⟨_, h, rfl, rfl⟩, .refl _⟩

/-- What a test touches is a node, with a number that one of its methods leads to. -/
theorem exists_leads_of_touches (h : Touches settings files external t n) :
    n ∈ (ofClasses (.ofClasses settings files) files external).nodes ∧
      ∃ s ∈ (ofClasses (.ofClasses settings files) files external).methodsOf t,
        (ofClasses (.ofClasses settings files) files external).Leads s
          ((ofClasses (.ofClasses settings files) files external).nodes.idxOf n) := by
  induction h with
  | own hdeclares => exact exists_leads_of_method_mem (method_mem_of_declaresMethod hdeclares)
  | inherits hancestor hdeclares hsignature hfixture =>
    exact exists_leads_of_method_mem (method_mem_of_mem_inherited (Context.mem_inherited.2 ⟨t, _, _,
      ⟨Inventory.mem_units_of_mem_ancestors hancestor, hancestor, hdeclares, hsignature, hfixture⟩,
      rfl⟩))
  | @joined a b _ hjoins ih =>
    obtain ⟨ha, s, hs, hlead⟩ := ih
    have hedge := hasEdge_of_mem_allEdges _ files external (mem_allEdges_iff.2 hjoins)
    obtain ⟨-, hb⟩ := mem_nodes_of_hasEdge hedge
    rw [hasEdge, index?_of_mem ha, index?_of_mem hb] at hedge
    exact ⟨hb, s, hs, .step hlead (SortedSet.contains_eq_true.1 hedge)⟩

/-- What a method of a test leads to is the number of a node that the test touches. -/
theorem exists_touches_of_leads {s i : Nat}
    (hs : s ∈ (ofClasses (.ofClasses settings files) files external).methodsOf t)
    (h : (ofClasses (.ofClasses settings files) files external).Leads s i) :
    ∃ n, (ofClasses (.ofClasses settings files) files external).nodes[i]? = some n ∧
      Touches settings files external t n := by
  induction h with
  | refl =>
    obtain ⟨key, hentry, rfl, rfl⟩ := mem_methodsOf_ofClasses.1 hs
    exact ⟨.method key, getElem?_idxOf_nodes ((mem_nodes_ofClasses _ _ _).2
      ⟨_, hentry, List.mem_singleton_self _⟩), touches_of_method_mem hentry⟩
  | step _ hj ih =>
    obtain ⟨a, ha, htouches⟩ := ih
    obtain ⟨b, hb, rfl | hedge⟩ := exists_edge_of_mem_callees ha hj
    · exact ⟨b, hb, htouches⟩
    · exact ⟨b, hb, .joined htouches (mem_allEdges_iff.1 hedge)⟩

/-- **The footprint of a test holds what the test touches.** -/
theorem contains_footprint_iff :
    ((ofClasses (.ofClasses settings files) files external).footprint t).contains
        (ofClasses (.ofClasses settings files) files external) n = true ↔
      Touches settings files external t n := by
  rw [Footprint.contains_iff_mem_dependencies (nodup_nodes_ofClasses _ _ _),
    Footprint.mem_dependencies]
  constructor
  · rintro ⟨i, hi, hn⟩
    obtain ⟨s, hs, hlead⟩ := mem_reachFrom.1 hi
    obtain ⟨m, hm, htouches⟩ := exists_touches_of_leads hs hlead
    obtain rfl := Option.some.inj (hm.symm.trans hn)
    exact htouches
  · intro h
    obtain ⟨hn, s, hs, hlead⟩ := exists_leads_of_touches h
    exact ⟨_, mem_reachFrom.2 ⟨s, hs, hlead⟩, getElem?_idxOf_nodes hn⟩

end Footprint

end Retest.CallGraph

import Retest.Proofs.CallGraph.Dispatch
import Retest.Proofs.CallGraph.Footprint
import Retest.Proofs.CallGraph.Reflection
import Retest.Proofs.Declared
import Retest.Proofs.Snapshot.Change

/-!
# The rules of a call graph

A call graph is made by taking up facts one by one. What comes out is said here without any
order: `Retest.CallGraph.Context.Joins` has one rule for each reason why one node uses another,
and between two different nodes there is an edge if and only if a rule joins them
(`Retest.CallGraph.followsRules_ofClasses`).

The nodes are those that entries name. They are the members of the class files, the units that
others depend on, and what rules join (`Retest.CallGraph.mem_nodes_iff`). The rules speak of all
class files, also of those that are left out. That makes no difference, as no method of a unit that
is left out is a node.

Pairs of units that depend on one another count only if the two are different. If a unit is
paired with itself, its methods do not use it, although it may be a node for another reason
(`Retest.CallGraph.not_hasEdge_sampleBase`).
-/

namespace Retest.CallGraph

namespace Context

/-- **The rules by which one node uses another.** -/
inductive Joins (context : Context) (files : List ClassFile)
    (external : List (UnitName × UnitName)) : Dependency → Dependency → Prop where
  /-- A method uses the static initializer of its unit. -/
  | initializer {key : MethodKey}
      (hmethod : context.inventory.declaresMethod key.owner key.signature = true)
      (hname : key.name ≠ staticInitializerName)
      (hinit : context.inventory.declaresMethod key.owner staticInitializerSignature = true) :
      Joins context files external (.method key) (.method ⟨key.owner, staticInitializerSignature⟩)
  /-- A call uses the method that is found. -/
  | resolved {file : ClassFile} {caller : MethodKey} {owner unit : UnitName}
      {signature : Signature} {kind : CallKind} (hfile : file ∈ files)
      (hfact : .call caller owner signature kind ∈ file.facts)
      (hunit : context.inventory.resolveMethod? owner signature = some unit) :
      Joins context files external (.method caller) (.method ⟨unit, signature⟩)
  /-- A call uses every method below the unit that it names. -/
  | overriding {file : ClassFile} {caller : MethodKey} {owner unit : UnitName}
      {signature : Signature} {kind : CallKind} (hfile : file ∈ files)
      (hfact : .call caller owner signature kind ∈ file.facts)
      (howner : context.settings.isExcluded owner = false)
      (hsignature : signature.isInitializer = false)
      (hunit : unit ∈ context.inventory.hierarchy.descendants owner)
      (hdeclares : context.inventory.declaresMethod unit signature = true) :
      Joins context files external (.method caller) (.method ⟨unit, signature⟩)
  /-- An access uses the field that is found. -/
  | accessed {file : ClassFile} {caller : MethodKey} {field : FieldKey} {unit : UnitName}
      {write isStatic : Bool} (hfile : file ∈ files)
      (hfact : .access caller field write isStatic ∈ file.facts)
      (hunit : context.inventory.resolveField? field.owner field.slot = some unit) :
      Joins context files external (.method caller) (.field { field with owner := unit })
  /-- A field uses the initializer that writes it. -/
  | written {file : ClassFile} {caller : MethodKey} {field : FieldKey} {unit : UnitName}
      {isStatic : Bool} (hfile : file ∈ files)
      (hfact : .access caller field true isStatic ∈ file.facts)
      (hunit : context.inventory.resolveField? field.owner field.slot = some unit)
      (hname : caller.name = if isStatic then staticInitializerName else constructorName) :
      Joins context files external (.field { field with owner := unit }) (.method caller)
  /-- The methods of a unit use what the unit depends on. -/
  | dependent {dependent dependency : UnitName} {signature : Signature}
      (hpair : (dependent, dependency) ∈ external)
      (hdeclares : context.inventory.declaresMethod dependent signature = true) :
      Joins context files external (.method ⟨dependent, signature⟩) (.unit dependency)
  /-- What a unit depends on uses its own methods. -/
  | dependency {dependent dependency : UnitName} {signature : Signature}
      (hpair : (dependent, dependency) ∈ external)
      (hdeclares : context.inventory.declaresMethod dependency signature = true) :
      Joins context files external (.unit dependency) (.method ⟨dependency, signature⟩)
  /-- Where a test fixture is involved, a method uses the one it stands for in an ancestor. -/
  | inherited {unit ancestor : UnitName} {signature : Signature}
      (hancestor : ancestor ∈ context.inventory.hierarchy.ancestors unit)
      (hdeclares : context.inventory.declaresMethod ancestor signature = true)
      (hsignature : signature.isInitializer = false)
      (hfixture : context.settings.isFixture unit = true ∨
        context.settings.isFixture ancestor = true) :
      Joins context files external (.method ⟨unit, signature⟩) (.method ⟨ancestor, signature⟩)

/-! ### The edges of each kind -/

variable {context : Context} {a b : Dependency}

theorem mem_methodsOf {unit : UnitName} {signature : Signature} :
    signature ∈ context.inventory.methodsOf unit ↔
      context.inventory.declaresMethod unit signature = true := by
  rw [Inventory.declaresMethod, SortedSet.contains_eq_true]

theorem mem_edges_method {key : MethodKey} {isStatic isAbstract : Bool} :
    (a, b) ∈ context.edges (.method key isStatic isAbstract) ↔
      key.name ≠ staticInitializerName ∧
        context.inventory.declaresMethod key.owner staticInitializerSignature = true ∧
        a = .method key ∧ b = .method ⟨key.owner, staticInitializerSignature⟩ := by
  rw [edges]
  split
  · next hif =>
    obtain ⟨hname, hinit⟩ := Bool.and_eq_true_iff.1 hif
    rw [List.mem_singleton, Prod.mk.injEq]
    exact ⟨fun h => ⟨bne_iff_ne.1 hname, hinit, h⟩, fun h => h.2.2⟩
  · next hif =>
    refine ⟨fun h => absurd h List.not_mem_nil, fun h => absurd ?_ hif⟩
    exact Bool.and_eq_true_iff.2 ⟨bne_iff_ne.2 h.1, h.2.1⟩

theorem mem_edges_call {caller : MethodKey} {owner : UnitName} {signature : Signature}
    {kind : CallKind} : (a, b) ∈ context.edges (.call caller owner signature kind) ↔
      ∃ unit, (context.settings.isExcluded owner = false ∧
        (context.inventory.resolveMethod? owner signature = some unit ∨
          signature.isInitializer = false ∧ unit ∈ context.inventory.hierarchy.descendants owner ∧
            context.inventory.declaresMethod unit signature = true)) ∧
        a = .method caller ∧ b = .method ⟨unit, signature⟩ := by
  constructor
  · intro h
    have hshape : ∃ unit, a = .method caller ∧ b = .method ⟨unit, signature⟩ := by
      rw [edges, callEdges] at h
      split at h
      · cases h
      · obtain ⟨unit, -, hunit⟩ := List.mem_map.1 h
        exact ⟨unit, (Prod.mk.inj hunit).1.symm, (Prod.mk.inj hunit).2.symm⟩
    obtain ⟨unit, rfl, rfl⟩ := hshape
    exact ⟨unit, mem_callEdges.1 h, rfl, rfl⟩
  · rintro ⟨unit, h, rfl, rfl⟩
    exact mem_callEdges.2 h

theorem mem_edges_access {caller : MethodKey} {field : FieldKey} {write isStatic : Bool} :
    (a, b) ∈ context.edges (.access caller field write isStatic) ↔
      context.settings.isExcluded field.owner = false ∧
        ∃ unit, context.inventory.resolveField? field.owner field.slot = some unit ∧
          (a = .method caller ∧ b = .field { field with owner := unit } ∨
            (write = true ∧
              caller.name = if isStatic then staticInitializerName else constructorName) ∧
            a = .field { field with owner := unit } ∧ b = .method caller) := by
  rw [edges, accessEdges]
  cases context.settings.isExcluded field.owner with
  | true => simp
  | false =>
    cases context.inventory.resolveField? field.owner field.slot with
    | none => simp
    | some unit =>
      rw [if_neg Bool.false_ne_true]
      simp only [List.mem_cons, Prod.mk.injEq, Bool.and_eq_true, beq_iff_eq, true_and,
        Option.some.injEq, exists_eq_left', List.mem_ite_nil_right, List.not_mem_nil, or_false]

theorem mem_pairEdges {e : UnitName × UnitName} : (a, b) ∈ context.pairEdges e ↔ e.1 ≠ e.2 ∧
    ∃ signature, context.inventory.declaresMethod e.1 signature = true ∧
        a = .method ⟨e.1, signature⟩ ∧ b = .unit e.2 ∨
      context.inventory.declaresMethod e.2 signature = true ∧
        a = .unit e.2 ∧ b = .method ⟨e.2, signature⟩ := by
  rw [pairEdges]
  split
  · next heq => simp [heq]
  · next hne =>
    rw [and_iff_right hne, externalEdges, List.mem_append, List.mem_map, List.mem_map,
      ← exists_or]
    refine exists_congr fun signature => ?_
    rw [SortedSet.mem_toList, SortedSet.mem_toList, mem_methodsOf, mem_methodsOf, Prod.mk.injEq,
      Prod.mk.injEq, @eq_comm _ _ a, @eq_comm _ _ a, @eq_comm _ _ b, @eq_comm _ _ b]

theorem mem_inherited {e : MethodKey × MethodKey} : e ∈ context.inherited ↔
    ∃ unit ancestor signature, (unit ∈ context.inventory.units.keys ∧
      ancestor ∈ context.inventory.hierarchy.ancestors unit ∧
      context.inventory.declaresMethod ancestor signature = true ∧
      signature.isInitializer = false ∧ (context.settings.isFixture unit = true ∨
        context.settings.isFixture ancestor = true)) ∧
      e = (⟨unit, signature⟩, ⟨ancestor, signature⟩) := by
  rw [inherited, List.mem_flatMap]
  constructor
  · rintro ⟨unit, hunit, h⟩
    obtain ⟨ancestor, hancestor, h⟩ := List.mem_flatMap.1 h
    split at h
    · next hfixture =>
      obtain ⟨signature, hsignature, rfl⟩ := List.mem_map.1 h
      obtain ⟨hdeclares, hinit⟩ := List.mem_filter.1 hsignature
      exact ⟨unit, ancestor, signature, ⟨hunit, hancestor, mem_methodsOf.1 hdeclares,
        by simpa using hinit, Bool.or_eq_true_iff.1 hfixture⟩, rfl⟩
    · cases h
  · rintro ⟨unit, ancestor, signature, ⟨hunit, hancestor, hdeclares, hinit, hfixture⟩, rfl⟩
    refine ⟨unit, hunit, List.mem_flatMap.2 ⟨ancestor, hancestor, ?_⟩⟩
    rw [if_pos (Bool.or_eq_true_iff.2 hfixture)]
    exact List.mem_map.2 ⟨signature, List.mem_filter.2
      ⟨mem_methodsOf.2 hdeclares, by simp [hinit]⟩, rfl⟩

theorem mem_inheritedEdges : (a, b) ∈ context.inheritedEdges ↔
    ∃ e ∈ context.inherited, a = .method e.1 ∧ b = .method e.2 := by
  simp only [inheritedEdges, List.mem_flatMap, List.mem_singleton, Prod.mk.injEq]

end Context

/-! ### Edges and rules -/

section Rules

variable {settings : Settings} {files : List ClassFile} {external : List (UnitName × UnitName)}
  {a b : Dependency}

/-- The class files that are not left out. -/
def kept (settings : Settings) (files : List ClassFile) : List ClassFile :=
  files.filter fun file => !settings.isExcluded file.name

theorem mem_kept {file : ClassFile} :
    file ∈ kept settings files ↔ file ∈ files ∧ settings.isExcluded file.name = false := by
  rw [kept, List.mem_filter, Bool.not_eq_true']

/-- The pairs of two different units. -/
def proper (external : List (UnitName × UnitName)) : List (UnitName × UnitName) :=
  external.filter fun e => e.1 != e.2

theorem mem_proper {e : UnitName × UnitName} : e ∈ proper external ↔ e ∈ external ∧ e.1 ≠ e.2 := by
  rw [proper, List.mem_filter, bne_iff_ne]

theorem mem_flatMap_classEdges {e : Dependency × Dependency} :
    e ∈ files.flatMap (Context.ofClasses settings files).classEdges ↔
      ∃ file ∈ kept settings files, ∃ fact ∈ file.facts,
        e ∈ (Context.ofClasses settings files).edges fact := by
  simp only [List.mem_flatMap, mem_kept, and_assoc]
  refine exists_congr fun file => and_congr_right fun hfile => ?_
  rw [Context.classEdges]
  cases hkept : settings.isExcluded file.name with
  | true => simp [hkept]
  | false =>
    rw [if_neg (Context.takesPart_ofClasses hfile hkept), List.mem_flatMap]
    exact (and_iff_right rfl).symm

/-- A method that is declared has a fact. -/
theorem exists_method_mem_facts {key : MethodKey} (h : (Context.ofClasses settings
      files).inventory.declaresMethod key.owner key.signature = true) :
    ∃ file ∈ kept settings files, ∃ isStatic isAbstract,
      .method key isStatic isAbstract ∈ file.facts := by
  obtain ⟨file, hfile, hkept, howner, m, hm, hslot⟩ := Inventory.declaresMethod_iff.1 h
  have hkey : key ∈ file.facts.filterMap Fact.methodKey? := by
    rw [file.filterMap_methodKey?_facts, howner]
    exact List.mem_map.2 ⟨m, hm, by rw [hslot]⟩
  obtain ⟨fact, hfact, hfactKey⟩ := List.mem_filterMap.1 hkey
  cases fact with
  | method key' isStatic isAbstract =>
    obtain rfl := Option.some.inj hfactKey
    exact ⟨file, mem_kept.2 ⟨hfile, hkept⟩, isStatic, isAbstract, hfact⟩
  | unit | field | call | access => cases hfactKey

/-- A method that has a fact is declared. -/
theorem declaresMethod_of_mem_facts {file : ClassFile} (hfile : file ∈ kept settings files)
    {key : MethodKey} {isStatic isAbstract : Bool}
    (hfact : .method key isStatic isAbstract ∈ file.facts) :
    (Context.ofClasses settings files).inventory.declaresMethod key.owner key.signature = true := by
  obtain ⟨hfile, hkept⟩ := mem_kept.1 hfile
  have hkey : key ∈ file.facts.filterMap Fact.methodKey? := List.mem_filterMap.2 ⟨_, hfact, rfl⟩
  rw [file.filterMap_methodKey?_facts] at hkey
  obtain ⟨m, hm, rfl⟩ := List.mem_map.1 hkey
  exact Inventory.declaresMethod_iff.2 ⟨file, hfile, hkept, rfl, m, hm, rfl⟩

/-- Every edge of a fact follows from a rule. -/
theorem joins_of_mem_edges {file : ClassFile} {fact : Fact} (hfile : file ∈ kept settings files)
    (hfact : fact ∈ file.facts) (h : (a, b) ∈ (Context.ofClasses settings files).edges fact) :
    (Context.ofClasses settings files).Joins (kept settings files) external a b := by
  cases fact with
  | unit | field => cases h
  | method key isStatic isAbstract =>
    obtain ⟨hname, hinit, rfl, rfl⟩ := Context.mem_edges_method.1 h
    exact .initializer (declaresMethod_of_mem_facts hfile hfact) hname hinit
  | call caller owner signature kind =>
    obtain ⟨unit, ⟨howner, hfound | ⟨hsignature, hbelow, hdeclares⟩⟩, rfl, rfl⟩ :=
      Context.mem_edges_call.1 h
    · exact .resolved hfile hfact hfound
    · exact .overriding hfile hfact howner hsignature hbelow hdeclares
  | access caller field write isStatic =>
    obtain ⟨-, unit, hunit, ⟨rfl, rfl⟩ | ⟨⟨rfl, hname⟩, rfl, rfl⟩⟩ := Context.mem_edges_access.1 h
    · exact .accessed hfile hfact hunit
    · exact .written hfile hfact hunit hname

/-- **The edges of a call graph are the pairs that rules join**, for class files that are not left
out and pairs of different units. -/
theorem mem_allEdges_iff : (a, b) ∈ allEdges (Context.ofClasses settings files) files external ↔
    (Context.ofClasses settings files).Joins (kept settings files) (proper external) a b := by
  rw [allEdges, List.mem_append, List.mem_append, mem_flatMap_classEdges, List.mem_flatMap,
    Context.mem_inheritedEdges]
  constructor
  · rintro ((⟨file, hfile, fact, hfact, h⟩ | ⟨e, he, h⟩) | ⟨e, he, rfl, rfl⟩)
    · exact joins_of_mem_edges hfile hfact h
    · obtain ⟨hne, signature, h⟩ := Context.mem_pairEdges.1 h
      rcases h with ⟨hdeclares, rfl, rfl⟩ | ⟨hdeclares, rfl, rfl⟩
      · exact .dependent (mem_proper.2 ⟨he, hne⟩) hdeclares
      · exact .dependency (mem_proper.2 ⟨he, hne⟩) hdeclares
    · obtain ⟨unit, ancestor, signature, ⟨-, hancestor, hdeclares, hinit, hfixture⟩, rfl⟩ :=
        Context.mem_inherited.1 he
      exact .inherited hancestor hdeclares hinit hfixture
  · intro h
    cases h with
    | initializer hmethod hname hinit =>
      obtain ⟨file, hfile, isStatic, isAbstract, hfact⟩ := exists_method_mem_facts hmethod
      exact .inl (.inl ⟨file, hfile, _, hfact,
        Context.mem_edges_method.2 ⟨hname, hinit, rfl, rfl⟩⟩)
    | resolved hfile hfact hunit =>
      have howner := Inventory.isExcluded_of_findUpward?
        (fun u => Inventory.isExcluded_of_declaresMethod) hunit
      exact .inl (.inl ⟨_, hfile, _, hfact,
        Context.mem_edges_call.2 ⟨_, ⟨howner, .inl hunit⟩, rfl, rfl⟩⟩)
    | overriding hfile hfact howner hsignature hunit hdeclares =>
      exact .inl (.inl ⟨_, hfile, _, hfact, Context.mem_edges_call.2
        ⟨_, ⟨howner, .inr ⟨hsignature, hunit, hdeclares⟩⟩, rfl, rfl⟩⟩)
    | accessed hfile hfact hunit =>
      have howner := Inventory.isExcluded_of_findUpward?
        (fun u => Inventory.isExcluded_of_declaresField) hunit
      exact .inl (.inl ⟨_, hfile, _, hfact,
        Context.mem_edges_access.2 ⟨howner, _, hunit, .inl ⟨rfl, rfl⟩⟩⟩)
    | written hfile hfact hunit hname =>
      have howner := Inventory.isExcluded_of_findUpward?
        (fun u => Inventory.isExcluded_of_declaresField) hunit
      exact .inl (.inl ⟨_, hfile, _, hfact,
        Context.mem_edges_access.2 ⟨howner, _, hunit, .inr ⟨⟨rfl, hname⟩, rfl, rfl⟩⟩⟩)
    | dependent hpair hdeclares =>
      obtain ⟨hpair, hne⟩ := mem_proper.1 hpair
      exact .inl (.inr ⟨_, hpair, Context.mem_pairEdges.2
        ⟨hne, _, .inl ⟨hdeclares, rfl, rfl⟩⟩⟩)
    | dependency hpair hdeclares =>
      obtain ⟨hpair, hne⟩ := mem_proper.1 hpair
      exact .inl (.inr ⟨_, hpair, Context.mem_pairEdges.2
        ⟨hne, _, .inr ⟨hdeclares, rfl, rfl⟩⟩⟩)
    | inherited hancestor hdeclares hsignature hfixture =>
      exact .inr ⟨_, Context.mem_inherited.2 ⟨_, _, _, ⟨Inventory.mem_units_of_mem_ancestors
        hancestor, hancestor, hdeclares, hsignature, hfixture⟩, rfl⟩, rfl, rfl⟩

end Rules

/-! ### The nodes of a call graph -/

section Nodes

variable {settings : Settings} {files : List ClassFile} {external : List (UnitName × UnitName)}
  {n : Dependency}

/-- What a fact says of its own method or field is about a member of the class file. -/
theorem mem_members_of_mem_ownEntries {context : Context} {file : ClassFile} {fact : Fact}
    {entry : Entry} (hfact : fact ∈ file.facts) (hentry : entry ∈ context.ownEntries fact)
    (h : n ∈ entry.nodes) : n ∈ file.members := by
  cases fact with
  | unit | access => cases hentry
  | field key =>
    obtain rfl := List.mem_singleton.1 hentry
    have hkey : key ∈ file.facts.filterMap Fact.fieldKey? := List.mem_filterMap.2 ⟨_, hfact, rfl⟩
    rw [file.filterMap_fieldKey?_facts] at hkey
    obtain ⟨f, hf, rfl⟩ := List.mem_map.1 hkey
    rw [List.mem_singleton.1 h]
    exact List.mem_append_right _ (List.mem_map.2 ⟨f, hf, rfl⟩)
  | method key =>
    obtain rfl := List.mem_singleton.1 hentry
    have hkey : key ∈ file.facts.filterMap Fact.methodKey? := List.mem_filterMap.2 ⟨_, hfact, rfl⟩
    rw [file.filterMap_methodKey?_facts] at hkey
    obtain ⟨m, hm, rfl⟩ := List.mem_map.1 hkey
    rw [List.mem_singleton.1 h]
    exact List.mem_append_left _ (List.mem_map.2 ⟨m, hm, rfl⟩)
  | call caller owner signature kind =>
    rw [Context.ownEntries] at hentry
    split at hentry
    · obtain rfl := List.mem_singleton.1 hentry
      obtain ⟨m, hm, rfl⟩ := ClassFile.exists_method_of_mem_facts hfact rfl
      rw [List.mem_singleton.1 h]
      exact List.mem_append_left _ (List.mem_map.2 ⟨m, hm, rfl⟩)
    · cases hentry

/-- Every member of a class file has a fact that is about it. -/
theorem exists_mem_ownEntries_of_mem_members {context : Context} {file : ClassFile}
    (h : n ∈ file.members) :
    ∃ fact ∈ file.facts, ∃ entry ∈ context.ownEntries fact, n ∈ entry.nodes := by
  rcases List.mem_append.1 h with h | h
  · obtain ⟨m, hm, rfl⟩ := List.mem_map.1 h
    exact ⟨_, List.mem_append_right _ (List.mem_flatMap.2 ⟨m, hm, List.mem_cons_self⟩),
      _, List.mem_singleton_self _, List.mem_singleton_self _⟩
  · obtain ⟨f, hf, rfl⟩ := List.mem_map.1 h
    exact ⟨_, List.mem_append_left _ (List.mem_cons_of_mem _ (List.mem_map.2 ⟨f, hf, rfl⟩)),
      _, List.mem_singleton_self _, List.mem_singleton_self _⟩

theorem mem_flatMap_classEntries {entry : Entry} :
    entry ∈ files.flatMap (Context.ofClasses settings files).classEntries ↔
      ∃ file ∈ kept settings files, ∃ fact ∈ file.facts,
        entry ∈ (Context.ofClasses settings files).entries fact := by
  simp only [List.mem_flatMap, mem_kept, and_assoc]
  refine exists_congr fun file => and_congr_right fun hfile => ?_
  rw [Context.classEntries]
  cases hkept : settings.isExcluded file.name with
  | true => simp [hkept]
  | false =>
    rw [if_neg (Context.takesPart_ofClasses hfile hkept), List.mem_flatMap]
    exact (and_iff_right rfl).symm

/-- A node is joined with another by a rule. -/
def Context.Joined (context : Context) (files : List ClassFile)
    (external : List (UnitName × UnitName)) (n : Dependency) : Prop :=
  ∃ m, context.Joins files external n m ∨ context.Joins files external m n

/-- The ends of an edge are joined by a rule. -/
theorem joined_of_edge_mem {a b : Dependency}
    (hentry : .edge a b ∈ allEntries (Context.ofClasses settings files) files external)
    (h : n ∈ (Entry.edge a b).nodes) :
    (Context.ofClasses settings files).Joined (kept settings files) (proper external) n := by
  have hjoins := mem_allEdges_iff.1 ((edge_mem_allEntries _ files external).1 hentry)
  rcases List.mem_pair.1 h with rfl | rfl
  · exact ⟨b, .inl hjoins⟩
  · exact ⟨a, .inr hjoins⟩

/-- What is inherited is joined by a rule. -/
theorem joined_of_mem_inheritedEntries {entry : Entry}
    (hentry : entry ∈ (Context.ofClasses settings files).inheritedEntries) (h : n ∈ entry.nodes) :
    (Context.ofClasses settings files).Joined (kept settings files) (proper external) n := by
  obtain ⟨e, he, hmem⟩ := List.mem_flatMap.1 hentry
  have hedge : Entry.edge (.method e.1) (.method e.2) ∈
      allEntries (Context.ofClasses settings files) files external :=
    List.mem_append_right _ (List.mem_flatMap.2
      ⟨e, he, List.mem_cons_of_mem _ (List.mem_singleton_self _)⟩)
  refine joined_of_edge_mem hedge ?_
  rcases List.mem_pair.1 hmem with rfl | rfl
  · exact List.mem_cons.2 (.inl (List.mem_singleton.1 h))
  · exact h

/-- **The nodes of a call graph** are the members of class files, the units that others depend on,
and what rules join. -/
theorem mem_nodes_iff : n ∈ (ofClasses (.ofClasses settings files) files external).nodes ↔
    (∃ file ∈ kept settings files, n ∈ file.members) ∨ (∃ e ∈ proper external, n = .unit e.2) ∨
      (Context.ofClasses settings files).Joined (kept settings files) (proper external) n := by
  constructor
  · intro h
    obtain ⟨entry, hentry, hn⟩ := (mem_nodes_ofClasses _ _ _).1 h
    have hjoined : ∀ a b, entry = .edge a b → (Context.ofClasses settings files).Joined
        (kept settings files) (proper external) n := by
      rintro a b rfl
      exact joined_of_edge_mem hentry hn
    rcases List.mem_append.1 hentry with hmem | hmem
    · rcases List.mem_append.1 hmem with hmem | hmem
      · obtain ⟨file, hfile, fact, hfact, hmem⟩ := mem_flatMap_classEntries.1 hmem
        rcases List.mem_append.1 hmem with hmem | hmem
        · exact .inl ⟨file, hfile, mem_members_of_mem_ownEntries hfact hmem hn⟩
        · obtain ⟨e, -, rfl⟩ := List.mem_map.1 hmem
          exact .inr (.inr (hjoined _ _ rfl))
      · obtain ⟨e, he, hmem⟩ := List.mem_flatMap.1 hmem
        rw [Context.externalEntries] at hmem
        split at hmem
        · cases hmem
        · next hne =>
          rcases List.mem_cons.1 hmem with rfl | hmem
          · exact .inr (.inl ⟨e, mem_proper.2 ⟨he, hne⟩, List.mem_singleton.1 hn⟩)
          · obtain ⟨e, -, rfl⟩ := List.mem_map.1 hmem
            exact .inr (.inr (hjoined _ _ rfl))
    · exact .inr (.inr (joined_of_mem_inheritedEntries hmem hn))
  · rintro (⟨file, hfile, h⟩ | ⟨e, he, rfl⟩ | ⟨m, h | h⟩)
    · obtain ⟨fact, hfact, entry, hentry, hn⟩ := exists_mem_ownEntries_of_mem_members h
      refine (mem_nodes_ofClasses _ _ _).2 ⟨entry, List.mem_append_left _ (List.mem_append_left _
        (mem_flatMap_classEntries.2 ⟨file, hfile, fact, hfact, ?_⟩)), hn⟩
      exact List.mem_append_left _ hentry
    · obtain ⟨he, hne⟩ := mem_proper.1 he
      refine (mem_nodes_ofClasses _ _ _).2 ⟨.node (.unit e.2), List.mem_append_left _
        (List.mem_append_right _ (List.mem_flatMap.2 ⟨e, he, ?_⟩)), List.mem_singleton_self _⟩
      rw [Context.externalEntries, if_neg hne]
      exact List.mem_cons_self
    · exact (mem_nodes_of_mem_allEdges _ files external (mem_allEdges_iff.2 h)).1
    · exact (mem_nodes_of_mem_allEdges _ files external (mem_allEdges_iff.2 h)).2

end Nodes

/-! ### Nodes of units that are left out -/

/-- A node is no method of a unit that is left out. -/
def TakesPart (settings : Settings) : Dependency → Prop
  | .method key => settings.isExcluded key.owner = false
  | .unit _ | .field _ => True

section TakesPart

variable {settings : Settings} {files : List ClassFile} {external : List (UnitName × UnitName)}
  {a b n : Dependency}

theorem takesPart_caller {file : ClassFile} (hfile : file ∈ kept settings files) {fact : Fact}
    (hfact : fact ∈ file.facts) {caller : MethodKey} (hcaller : fact.caller? = some caller) :
    TakesPart settings (.method caller) := by
  rw [TakesPart, ClassFile.owner_of_mem_facts hfact hcaller]
  exact (mem_kept.1 hfile).2

/-- What rules join takes part. -/
theorem takesPart_of_joins (h : (Context.ofClasses settings files).Joins (kept settings files)
    external a b) : TakesPart settings a ∧ TakesPart settings b := by
  cases h with
  | initializer hmethod hname hinit =>
    exact ⟨Inventory.isExcluded_of_declaresMethod hmethod,
      Inventory.isExcluded_of_declaresMethod hinit⟩
  | resolved hfile hfact hunit =>
    exact ⟨takesPart_caller hfile hfact rfl, Inventory.isExcluded_of_declaresMethod
      (Inventory.declaresMethod_of_resolveMethod? hunit)⟩
  | overriding hfile hfact howner hsignature hunit hdeclares =>
    exact ⟨takesPart_caller hfile hfact rfl, Inventory.isExcluded_of_declaresMethod hdeclares⟩
  | accessed hfile hfact hunit => exact ⟨takesPart_caller hfile hfact rfl, trivial⟩
  | written hfile hfact hunit hname => exact ⟨trivial, takesPart_caller hfile hfact rfl⟩
  | dependent hpair hdeclares =>
    exact ⟨Inventory.isExcluded_of_declaresMethod hdeclares, trivial⟩
  | dependency hpair hdeclares =>
    exact ⟨trivial, Inventory.isExcluded_of_declaresMethod hdeclares⟩
  | inherited hancestor hdeclares hsignature hfixture =>
    exact ⟨Declarations.isExcluded_of_mem_units (Inventory.mem_units_of_mem_ancestors hancestor),
      Inventory.isExcluded_of_declaresMethod hdeclares⟩

/-- **No method of a unit that is left out is a node.** -/
theorem takesPart_of_mem_nodes
    (h : n ∈ (ofClasses (.ofClasses settings files) files external).nodes) :
    TakesPart settings n := by
  rcases mem_nodes_iff.1 h with ⟨file, hfile, h⟩ | ⟨e, he, rfl⟩ | ⟨m, h | h⟩
  · rcases List.mem_append.1 h with h | h
    · obtain ⟨m, -, rfl⟩ := List.mem_map.1 h
      exact (mem_kept.1 hfile).2
    · obtain ⟨f, -, rfl⟩ := List.mem_map.1 h
      trivial
  · trivial
  · exact (takesPart_of_joins h).1
  · exact (takesPart_of_joins h).2

/-- Rules need only the class files with facts about the two nodes. -/
theorem Context.Joins.of_files {context : Context} {files' : List ClassFile}
    (h : context.Joins files external a b)
    (hfiles : ∀ file ∈ files, ∀ fact ∈ file.facts, ∀ caller, fact.caller? = some caller →
      a = .method caller ∨ b = .method caller → file ∈ files') :
    context.Joins files' external a b := by
  cases h with
  | initializer hmethod hname hinit => exact .initializer hmethod hname hinit
  | resolved hfile hfact hunit =>
    exact .resolved (hfiles _ hfile _ hfact _ rfl (.inl rfl)) hfact hunit
  | overriding hfile hfact howner hsignature hunit hdeclares =>
    exact .overriding (hfiles _ hfile _ hfact _ rfl (.inl rfl)) hfact howner hsignature hunit
      hdeclares
  | accessed hfile hfact hunit =>
    exact .accessed (hfiles _ hfile _ hfact _ rfl (.inl rfl)) hfact hunit
  | written hfile hfact hunit hname =>
    exact .written (hfiles _ hfile _ hfact _ rfl (.inr rfl)) hfact hunit hname
  | dependent hpair hdeclares => exact .dependent hpair hdeclares
  | dependency hpair hdeclares => exact .dependency hpair hdeclares
  | inherited hancestor hdeclares hsignature hfixture =>
    exact .inherited hancestor hdeclares hsignature hfixture

/-- **Between nodes that take part, the class files that are left out make no difference.** -/
theorem joins_kept_iff {context : Context} (ha : TakesPart settings a) (hb : TakesPart settings b) :
    context.Joins (kept settings files) external a b ↔ context.Joins files external a b := by
  constructor
  · intro h
    exact h.of_files fun file hfile _ _ _ _ _ => (mem_kept.1 hfile).1
  · intro h
    refine h.of_files fun file hfile fact hfact caller hcaller hend => mem_kept.2 ⟨hfile, ?_⟩
    have hpart : TakesPart settings (.method caller) := by
      rcases hend with rfl | rfl
      · exact ha
      · exact hb
    rwa [TakesPart, ClassFile.owner_of_mem_facts hfact hcaller] at hpart

end TakesPart

/-! ### The whole -/

/-- **A call graph follows the rules**: its nodes are the members of the class files that are not
left out, the units that others depend on, and what rules join; two different nodes have an edge
exactly if a rule joins them; no node occurs twice, and each has an increasing list of numbers of
nodes, its own among them. -/
structure FollowsRules (graph : CallGraph) (context : Context) (files : List ClassFile)
    (external : List (UnitName × UnitName)) : Prop where
  nodes : ∀ n, n ∈ graph.nodes ↔ (∃ file ∈ kept context.settings files, n ∈ file.members) ∨
    (∃ e ∈ external, n = .unit e.2) ∨
    context.Joined (kept context.settings files) external n
  edges : ∀ a ∈ graph.nodes, ∀ b ∈ graph.nodes, a ≠ b →
    (graph.hasEdge a b = true ↔ context.Joins files external a b)
  nodup : graph.nodes.Nodup
  lists : graph.adjacency.length = graph.nodes.length
  increasing : ∀ targets ∈ graph.adjacency, targets.toList.Pairwise (· < ·)
  inside : ∀ targets ∈ graph.adjacency, ∀ i ∈ targets, i < graph.nodes.length
  own : ∀ i < graph.nodes.length, i ∈ graph.callees i

section Whole

variable (settings : Settings) (files : List ClassFile) (external : List (UnitName × UnitName))

/-- Every node has a list. -/
theorem length_adjacency_ofClasses {context : Context} :
    (ofClasses context files external).adjacency.length =
      (ofClasses context files external).nodes.length := by
  rw [ofClasses_eq_graph]
  exact Draft.length_adjacency_graph

/-- Every node has itself in its list. -/
theorem mem_callees_self {context : Context} {i : Nat}
    (hi : i < (ofClasses context files external).nodes.length) :
    i ∈ (ofClasses context files external).callees i := by
  have hnode := List.getElem_mem hi
  have hself := (hasEdge_ofClasses context files external).2 (.inl ⟨rfl, hnode⟩)
  rw [hasEdge, index?_of_mem hnode] at hself
  rwa [(nodup_nodes_ofClasses context files external).idxOf_getElem i hi,
    SortedSet.contains_eq_true] at hself

/-- All numbers in the list of a node are those of nodes. -/
theorem lt_length_of_mem_adjacency {context : Context} {targets : SortedSet Nat}
    (htargets : targets ∈ (ofClasses context files external).adjacency) {i : Nat}
    (hi : i ∈ targets) : i < (ofClasses context files external).nodes.length := by
  obtain ⟨k, hk⟩ := List.getElem?_of_mem htargets
  have hcallees : i ∈ (ofClasses context files external).callees k := by
    rw [callees, hk]
    exact hi
  rw [ofClasses_eq_graph, Draft.mem_callees_graph] at hcallees
  rw [ofClasses_eq_graph]
  rcases hcallees with ⟨hlt, rfl | harc⟩
  · exact hlt
  · obtain ⟨a, b, hentry, -, harc⟩ := Draft.mem_edges_addAll.1 harc
    obtain ⟨-, rfl⟩ := Arc.mk.inj harc
    exact List.idxOf_lt_length_of_mem (Draft.mem_nodes_addAll.2
      ⟨_, hentry, List.mem_cons_of_mem _ List.mem_cons_self⟩)

/-- **The call graph of class files follows the rules**, with the pairs of different units that are
known to depend on one another. -/
theorem followsRules_ofClasses : (ofClasses (.ofClasses settings files) files external).FollowsRules
    (.ofClasses settings files) files (proper external) where
  nodes _ := mem_nodes_iff
  edges a ha b hb hne := by
    rw [hasEdge_ofClasses, mem_allEdges_iff,
      joins_kept_iff (takesPart_of_mem_nodes ha) (takesPart_of_mem_nodes hb)]
    exact (or_iff_right fun h => hne h.1).trans (and_iff_right hne)
  nodup := nodup_nodes_ofClasses _ _ _
  lists := length_adjacency_ofClasses files external
  increasing targets _ := targets.sorted.imp Nat.compare_eq_lt.1
  inside _ htargets _ := lt_length_of_mem_adjacency files external htargets
  own _ := mem_callees_self files external

end Whole

/-! ### A unit that is paired with itself -/

/-- A class with one method. -/
def sampleBase : List ClassFile :=
  [sampleClass 0x0021 "shop.Base" "java.lang.Object" [] [("run", [])]]

/-- Another unit depends on the class, and the class on itself. -/
def samplePairs : List (UnitName × UnitName) :=
  [("shop.Main", "shop.Base"), ("shop.Base", "shop.Base")]

example : (ofClasses (.ofClasses {} sampleBase) sampleBase samplePairs).nodes =
    [.method ⟨"shop.Base", "run()V"⟩, .unit "shop.Base"] := by
  decide +kernel

/-- The unit is a node, since another depends on it. By the rules its method would use it, and the
method does not. -/
theorem not_hasEdge_sampleBase :
    .method ⟨"shop.Base", "run()V"⟩ ∈
        (ofClasses (.ofClasses {} sampleBase) sampleBase samplePairs).nodes ∧
      .unit "shop.Base" ∈ (ofClasses (.ofClasses {} sampleBase) sampleBase samplePairs).nodes ∧
      (Context.ofClasses {} sampleBase).Joins sampleBase samplePairs
        (.method ⟨"shop.Base", "run()V"⟩) (.unit "shop.Base") ∧
      (ofClasses (.ofClasses {} sampleBase) sampleBase samplePairs).hasEdge
        (.method ⟨"shop.Base", "run()V"⟩) (.unit "shop.Base") = false := by
  have hpair : ("shop.Base", "shop.Base") ∈ samplePairs := by decide
  refine ⟨by decide +kernel, by decide +kernel, ?_, by decide +kernel⟩
  exact .dependent hpair (by decide +kernel)

end Retest.CallGraph

import Retest.Proofs.CallGraph.Dispatch

/-!
# Methods that use reflection

Reflection is noticed where a method calls one of a few methods of the standard
library, and only if the unit named in the call is left out of the analysis.
`Retest.CallGraph.usesReflection_ofClasses` says which methods are marked in a call
graph: exactly those with such a call. The standard library is left out as long as
`java.` is among the prefixes of what is left out
(`Retest.isExcluded_of_isReflective`), and then it makes no difference that the unit
has to be; settings that replace the prefixes can lose it.

As with edges, the marks are kept by number and come from entries: a method is marked exactly
if there is an entry that says so (`Retest.CallGraph.usesReflection_iff_mem_entries`).
-/

namespace Retest

/-! ### Calls that use reflection -/

theorem Text.eq_append_of_dropStart? {start s rest : List Char}
    (h : dropStart? start s = some rest) : s = start ++ rest := by
  induction start generalizing s with
  | nil => exact Option.some.inj h
  | cons c start ih =>
    cases s with
    | nil => cases h
    | cons d s =>
      rw [dropStart?] at h
      split at h
      · next hcd => rw [hcd, ih h, List.cons_append]
      · cases h

/-- What begins as a pattern that starts with a text begins with the text. -/
theorem prefix_of_beginsAs {t : String} {pieces : List PatternPiece} {s : List Char}
    (h : beginsAs (.text t :: pieces) s = true) : t.toList <+: s := by
  rw [beginsAs] at h
  split at h
  · next rest hrest => exact ⟨rest, (Text.eq_append_of_dropStart? hrest).symm⟩
  · cases h

/-- A text without a character that begins a text with the character begins what stands before. -/
theorem prefix_of_prefix_append_cons {start s t : List Char} {c : Char} (hc : c ∉ start)
    (h : start <+: s ++ c :: t) : start <+: s := by
  rcases List.prefix_or_prefix_of_prefix h (List.prefix_append s (c :: t)) with h' | ⟨rest, rfl⟩
  · exact h'
  · cases rest with
    | nil => exact (List.append_nil s).symm ▸ List.prefix_rfl
    | cons d rest =>
      have hd : d = c := by
        have hrest := (List.prefix_append_right_inj s).1 h
        exact (List.cons_prefix_cons.1 hrest).1
      exact absurd (List.mem_append_right s (hd ▸ List.mem_cons_self)) hc

/-- All patterns are for the standard library. -/
theorem prefix_of_mem_reflectionPatterns :
    ∀ pattern ∈ reflectionPatterns, ∃ t pieces, pattern = .text t :: pieces ∧
      "java.".toList <+: t.toList := by
  intro pattern hpattern
  simp only [reflectionPatterns, List.mem_cons, List.not_mem_nil, or_false] at hpattern
  rcases hpattern with rfl | rfl | rfl | rfl | rfl | rfl | rfl | rfl | rfl | rfl
  all_goals exact ⟨_, _, rfl, by decide⟩

/-- Calls that use reflection are calls of the standard library. -/
theorem beginsWith_of_isReflective {owner : UnitName} {signature : Signature}
    (h : isReflective owner signature = true) : Text.beginsWith owner "java." = true := by
  obtain ⟨pattern, hpattern, hbegins⟩ := List.any_eq_true.1 h
  obtain ⟨t, pieces, rfl, ht⟩ := prefix_of_mem_reflectionPatterns pattern hpattern
  have hjava : "java.".toList <+: owner.toList ++ '#' :: signature.toList := by
    have hwhole := ht.trans (prefix_of_beginsAs hbegins)
    simpa [String.toList_append] using hwhole
  exact List.isPrefixOf_iff_prefix.2 (prefix_of_prefix_append_cons (by decide) hjava)

example : isReflective "java.util.ServiceLoader" "loadInstalled(Ljava/lang/Class;)V" = true ∧
    Text.beginsWith "java.util.ServiceLoader" "java." = true := by
  decide +kernel

/-- **Where the standard library is left out**, so is the unit named in every call that uses
reflection. -/
theorem isExcluded_of_isReflective {settings : Settings} {owner : UnitName} {signature : Signature}
    (hjava : "java." ∈ settings.excludedPrefixes) (h : isReflective owner signature = true) :
    settings.isExcluded owner = true :=
  List.any_eq_true.2 ⟨"java.", hjava, beginsWith_of_isReflective h⟩

namespace CallGraph

/-! ### Entries that mark a method -/

namespace Context

variable {context : Context} {key : MethodKey}

/-- A fact marks its caller if the call uses reflection and the unit that it names is left out. -/
theorem reflective_mem_entries {fact : Fact} : .reflective key ∈ context.entries fact ↔
    ∃ owner signature kind, fact = .call key owner signature kind ∧
      isReflective owner signature = true ∧ context.settings.isExcluded owner = true := by
  have hedges : .reflective key ∉
      (context.edges fact).map fun e => Entry.edge e.1 e.2 := by simp
  rw [entries, List.mem_append, or_iff_left hedges]
  cases fact with
  | unit | field | method | access => simp [ownEntries]
  | call caller owner signature kind =>
    rw [ownEntries]
    split
    · next hcall =>
      rw [Bool.and_eq_true] at hcall
      rw [List.mem_singleton, Entry.reflective.injEq]
      constructor
      · rintro rfl
        exact ⟨owner, signature, kind, rfl, hcall.2, hcall.1⟩
      · rintro ⟨_, _, _, heq, -⟩
        cases heq
        rfl
    · next hcall =>
      refine iff_of_false List.not_mem_nil ?_
      rintro ⟨_, _, _, heq, hreflective, hexcluded⟩
      cases heq
      exact hcall (Bool.and_eq_true_iff.2 ⟨hexcluded, hreflective⟩)

/-- All that is marked is marked by facts of class files. -/
theorem reflective_mem_allEntries {files : List ClassFile}
    {external : List (UnitName × UnitName)} :
    .reflective key ∈ allEntries context files external ↔
      ∃ file ∈ files, .reflective key ∈ context.classEntries file := by
  have hexternal : .reflective key ∉ external.flatMap context.externalEntries := by
    intro hmem
    obtain ⟨e, -, hmem⟩ := List.mem_flatMap.1 hmem
    rw [externalEntries] at hmem
    split at hmem <;> simp at hmem
  have hinherited : .reflective key ∉ context.inheritedEntries := by simp [inheritedEntries]
  rw [allEntries, List.mem_append, or_iff_left hinherited, List.mem_append,
    or_iff_left hexternal, List.mem_flatMap]

end Context

/-! ### The whole -/

/-- Whether a node is marked as using reflection. -/
def usesReflection (graph : CallGraph) (node : Dependency) : Bool :=
  (graph.index? node).any graph.reflective.contains

theorem usesReflection_eq_true {graph : CallGraph} {node : Dependency} :
    graph.usesReflection node = true ↔ ∃ i, graph.index? node = some i ∧ i ∈ graph.reflective := by
  rw [usesReflection, Option.any_eq_true]
  exact exists_congr fun i => and_congr_right fun _ => SortedSet.contains_eq_true

section Whole

variable {context : Context} {settings : Settings} {files : List ClassFile}
  {external : List (UnitName × UnitName)} {n : Dependency}

/-- The marks of a call graph are on the numbers of the methods that entries mark. -/
theorem mem_reflective_ofClasses {i : Nat} :
    i ∈ (CallGraph.ofClasses context files external).reflective ↔
      ∃ key, .reflective key ∈ allEntries context files external ∧
        (CallGraph.ofClasses context files external).index? (.method key) = some i := by
  have hreflective : (CallGraph.ofClasses context files external).reflective =
      .ofList (((allEntries context files external).filterMap Entry.reflective?).map fun key =>
        (CallGraph.ofClasses context files external).nodes.idxOf (.method key)) := by
    rw [ofClasses_eq_graph, Draft.addAll_eq_extend]
    rfl
  rw [hreflective, SortedSet.mem_ofList, List.mem_map]
  constructor
  · rintro ⟨key, hkey, rfl⟩
    obtain ⟨entry, hentry, hmarked⟩ := List.mem_filterMap.1 hkey
    cases entry with
    | node | edge | method => cases hmarked
    | reflective key' =>
      obtain rfl := Option.some.inj hmarked
      exact ⟨key', hentry, index?_of_mem ((mem_nodes_ofClasses _ _ _).2
        ⟨_, hentry, List.mem_singleton_self _⟩)⟩
  · rintro ⟨key, hentry, hindex⟩
    have hnode : .method key ∈ (CallGraph.ofClasses context files external).nodes :=
      (mem_nodes_ofClasses _ _ _).2 ⟨_, hentry, List.mem_singleton_self _⟩
    rw [index?_of_mem hnode] at hindex
    exact ⟨key, List.mem_filterMap.2 ⟨_, hentry, rfl⟩, Option.some.inj hindex⟩

theorem usesReflection_iff_mem_entries :
    (CallGraph.ofClasses context files external).usesReflection n = true ↔
      ∃ key, n = .method key ∧ .reflective key ∈ allEntries context files external := by
  rw [usesReflection_eq_true]
  simp only [mem_reflective_ofClasses]
  constructor
  · rintro ⟨i, hindex, key, hentry, hkey⟩
    refine ⟨key, ?_, hentry⟩
    -- numbers tell nodes apart
    have hnode : n ∈ (CallGraph.ofClasses context files external).nodes :=
      List.isSome_idxOf?.1 (Option.isSome_of_eq_some hindex)
    have hmarked : .method key ∈ (CallGraph.ofClasses context files external).nodes :=
      List.isSome_idxOf?.1 (Option.isSome_of_eq_some hkey)
    rw [index?_of_mem hnode] at hindex
    rw [index?_of_mem hmarked] at hkey
    exact (List.idxOf_inj hnode).1 (Option.some.inj (hindex.trans hkey.symm))
  · rintro ⟨key, rfl, hentry⟩
    have hnode : .method key ∈ (CallGraph.ofClasses context files external).nodes :=
      (mem_nodes_ofClasses _ _ _).2 ⟨_, hentry, List.mem_singleton_self _⟩
    exact ⟨_, index?_of_mem hnode, key, hentry, index?_of_mem hnode⟩

/-- **Which methods are marked**: those of a class file that takes part, with a call that uses
reflection and names a unit that is left out. -/
theorem usesReflection_ofClasses :
    (CallGraph.ofClasses (.ofClasses settings files) files external).usesReflection n = true ↔
      ∃ file ∈ files, settings.isExcluded file.name = false ∧ ∃ caller owner signature kind,
        .call caller owner signature kind ∈ file.facts ∧ n = .method caller ∧
          isReflective owner signature = true ∧ settings.isExcluded owner = true := by
  simp only [usesReflection_iff_mem_entries, Context.reflective_mem_allEntries]
  constructor
  · rintro ⟨key, rfl, file, hfile, hentry⟩
    cases hkept : settings.isExcluded file.name with
    | true => simp [Context.classEntries, hkept] at hentry
    | false =>
      rw [Context.classEntries, if_neg (Context.takesPart_ofClasses hfile hkept)] at hentry
      obtain ⟨fact, hfact, hentry⟩ := List.mem_flatMap.1 hentry
      obtain ⟨owner, signature, kind, rfl, hcall⟩ := Context.reflective_mem_entries.1 hentry
      exact ⟨file, hfile, hkept, key, owner, signature, kind, hfact, rfl, hcall⟩
  · rintro ⟨file, hfile, hkept, caller, owner, signature, kind, hfact, rfl, hcall⟩
    refine ⟨caller, rfl, file, hfile, ?_⟩
    rw [Context.classEntries, if_neg (Context.takesPart_ofClasses hfile hkept)]
    exact List.mem_flatMap.2 ⟨_, hfact, Context.reflective_mem_entries.2
      ⟨owner, signature, kind, rfl, hcall⟩⟩

/-- Marked numbers are numbers of nodes. -/
theorem exists_index?_of_mem_reflective {i : Nat}
    (hi : i ∈ (CallGraph.ofClasses context files external).reflective) :
    ∃ n, (CallGraph.ofClasses context files external).index? n = some i := by
  obtain ⟨key, -, hindex⟩ := mem_reflective_ofClasses.1 hi
  exact ⟨_, hindex⟩

end Whole

end CallGraph

end Retest

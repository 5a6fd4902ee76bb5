import Retest.Proofs.CallGraph.Reachability
import Retest.Proofs.CallGraph.Reflection
import Retest.Proofs.Selection.Soundness

/-!
# Tests that use reflection

A test that was run again may depend on anything from then on if its footprint holds a
method that uses reflection. `Retest.Store.mem_wildcard_next_of_reflection` puts together
which methods these are and which tests it concerns: none is missed as long as the standard
library is among what is left out of the analysis.

Settings can leave out something else instead. Then calls of the standard library are
calls of unknown units, and no use of reflection is noticed
(`Retest.Store.not_mem_wildcard_samplePluginRenewal`).
-/

namespace Retest

namespace CallGraph

/-! ### Footprints -/

theorem reflective_reach {graph : CallGraph} {seeds : SortedSet Nat} :
    (graph.reach seeds).reflective = true ↔
      ∃ i ∈ (graph.reach seeds).nodes, i ∈ graph.reflective :=
  reflective_reachFrom

/-- **A footprint uses reflection** exactly if it holds a node that is marked. -/
theorem reflective_footprint_iff {context : Context} {files : List ClassFile}
    {external : List (UnitName × UnitName)} {graph : CallGraph} {t : UnitName}
    (hgraph : graph = .ofClasses context files external) :
    (graph.footprint t).reflective = true ↔
      ∃ n, graph.usesReflection n = true ∧ (graph.footprint t).contains graph n = true := by
  rw [footprint, reflective_reach]
  constructor
  · rintro ⟨i, hreached, hi⟩
    obtain ⟨n, hindex⟩ := exists_index?_of_mem_reflective (hgraph ▸ hi)
    rw [← hgraph] at hindex
    exact ⟨n, usesReflection_eq_true.2 ⟨i, hindex, hi⟩,
      Footprint.contains_eq_true.2 ⟨i, hindex, hreached⟩⟩
  · rintro ⟨n, hreflection, hcontains⟩
    obtain ⟨i, hindex, hi⟩ := usesReflection_eq_true.1 hreflection
    obtain ⟨j, hindex', hreached⟩ := Footprint.contains_eq_true.1 hcontains
    cases hindex.symm.trans hindex'
    exact ⟨i, hreached, hi⟩

example :
    let load : Instruction := ⟨0xb8, .method ⟨"java.lang.Class", "forName", "()V", false⟩⟩
    let method : MethodDecl := ⟨0x0001, "test", "()V", [], none, [], some ⟨1, 1, [load], []⟩⟩
    let files : List ClassFile := [⟨"shop.LoadTest", 0x0021, none, [], none, [], [], [method]⟩]
    ((ofClasses (.ofClasses {} files) files []).footprint "shop.LoadTest").reflective = true := by
  decide +kernel

end CallGraph

namespace Store

variable {renewal : Renewal} {previous : Store} {t : UnitName}

/-- A test that was run again may depend on anything exactly if its footprint uses reflection. -/
theorem mem_wildcard_next_iff (ht : t ∈ renewal.refreshed) :
    t ∈ (previous.next renewal).wildcard ↔
      (renewal.analysis.graph.footprint t).reflective = true := by
  rw [mem_wildcard_next]
  constructor
  · rintro (⟨-, -, hnot⟩ | ⟨-, hreflective⟩)
    · exact absurd ht hnot
    · exact hreflective
  · exact fun hreflective => .inr ⟨ht, hreflective⟩

/-- **Tests that use reflection may depend on anything.** The methods that use it are those with a
call that is known to, of a unit that is left out; if the standard library is left out, all with
such a call. A test that was run again may depend on anything exactly if its footprint holds one of
them. -/
theorem mem_wildcard_next_of_reflection {settings : Settings} {files : List ClassFile}
    {external : List (UnitName × UnitName)} {graph : CallGraph}
    (hgraph : graph = .ofClasses (.ofClasses settings files) files external) :
    (∀ n, graph.usesReflection n = true ↔
      ∃ file ∈ files, settings.isExcluded file.name = false ∧ ∃ caller owner signature kind,
        .call caller owner signature kind ∈ file.facts ∧ n = .method caller ∧
          isReflective owner signature = true ∧ settings.isExcluded owner = true) ∧
    ("java." ∈ settings.excludedPrefixes →
      ∀ file ∈ files, settings.isExcluded file.name = false →
        ∀ caller owner signature kind, .call caller owner signature kind ∈ file.facts →
          isReflective owner signature = true → graph.usesReflection (.method caller) = true) ∧
    ∀ (previous : Store) (renewal : Renewal), renewal.analysis.graph = graph →
      ∀ t ∈ renewal.refreshed, (t ∈ (previous.next renewal).wildcard ↔
        ∃ n, graph.usesReflection n = true ∧ (graph.footprint t).contains graph n = true) := by
  have hmarked (n : Dependency) : graph.usesReflection n = true ↔ _ :=
    hgraph ▸ CallGraph.usesReflection_ofClasses
  refine ⟨hmarked, ?_, ?_⟩
  · intro hjava file hfile hkept caller owner signature kind hcall hreflective
    exact (hmarked _).2 ⟨file, hfile, hkept, caller, owner, signature, kind, hcall, rfl,
      hreflective, isExcluded_of_isReflective hjava hreflective⟩
  · intro previous renewal hrenewal t ht
    rw [mem_wildcard_next_iff ht, hrenewal, CallGraph.reflective_footprint_iff hgraph]

/-! ### A test that loads a class by name -/

/-- A test that calls a method, which loads a class by its name. -/
def samplePluginTest : ClassSpec :=
  (ClassSpec.addMethod { name := "shop.PluginTest" }
    { access := 0x0001, name := "testLoad", descriptor := "()V"
      code := some [.aload 0, .member 0xb6 "shop.PluginTest" "load" "()V", .ret] }).addMethod
    { access := 0x0001, name := "load", descriptor := "()V"
      code := some [.aload 1,
        .member 0xb8 "java.lang.Class" "forName" "(Ljava/lang/String;)Ljava/lang/Class;",
        .pop, .ret] }

/-- A build of the test alone. -/
def samplePluginBuild : Build :=
  .ofMap (.ofList [("shop.PluginTest", samplePluginTest.assemble)])

/-- The test is run. -/
def samplePluginRenewal (settings : Settings) : Renewal :=
  ⟨samplePluginBuild.analyze settings [], .member, .ofList ["shop.PluginTest"],
    .ofList ["shop.PluginTest"]⟩

/-- The method that loads the class. -/
def samplePluginLoad : MethodKey := ⟨"shop.PluginTest", "load()V"⟩

/-- The settings of a project that leaves out its test framework only. -/
def sampleJunitOnly : Settings := { excludedPrefixes := ["org.junit."] }

theorem isReflective_samplePluginLoad :
    isReflective "java.lang.Class" "forName(Ljava/lang/String;)Ljava/lang/Class;" = true := by
  decide +kernel

/-- Whatever is left out, the method makes the call and the test reaches the method. -/
theorem calls_samplePluginBuild : ∀ settings ∈ [{}, sampleJunitOnly],
    (∃ e ∈ samplePluginBuild.parsed settings, settings.isExcluded e.2.file.name = false ∧
      .call samplePluginLoad "java.lang.Class" "forName(Ljava/lang/String;)Ljava/lang/Class;"
        .static ∈ e.2.file.facts) ∧
    ((samplePluginBuild.analyze settings []).graph.footprint "shop.PluginTest").contains
      (samplePluginBuild.analyze settings []).graph (.method samplePluginLoad) = true := by
  decide +kernel

/-- By default, the test may depend on anything. -/
theorem mem_wildcard_samplePluginRenewal :
    "shop.PluginTest" ∈ (Store.next {} (samplePluginRenewal {})).wildcard := by
  obtain ⟨⟨e, he, hkept, hcall⟩, hreached⟩ :=
    calls_samplePluginBuild {} List.mem_cons_self
  obtain ⟨-, hmarked, htests⟩ :=
    mem_wildcard_next_of_reflection (samplePluginBuild.graph_analyze {} [])
  refine (htests {} (samplePluginRenewal {}) rfl "shop.PluginTest" (by decide)).2
    ⟨.method samplePluginLoad, ?_, hreached⟩
  exact hmarked (by decide) e.2.file (List.mem_map_of_mem he) hkept _ _ _ _ hcall
    isReflective_samplePluginLoad

/-- With the other settings, nothing is marked. -/
theorem reflective_sampleJunitOnly :
    (samplePluginBuild.analyze sampleJunitOnly []).graph.reflective = ∅ := by
  decide +kernel

/-- With the other settings, the method is not marked, and the test that reaches it is not among
those that may depend on anything. -/
theorem not_mem_wildcard_samplePluginRenewal :
    (∃ e ∈ samplePluginBuild.parsed sampleJunitOnly,
      sampleJunitOnly.isExcluded e.2.file.name = false ∧
      .call samplePluginLoad "java.lang.Class" "forName(Ljava/lang/String;)Ljava/lang/Class;"
        .static ∈ e.2.file.facts) ∧
    isReflective "java.lang.Class" "forName(Ljava/lang/String;)Ljava/lang/Class;" = true ∧
    (samplePluginBuild.analyze sampleJunitOnly []).graph.usesReflection
      (.method samplePluginLoad) = false ∧
    ((samplePluginBuild.analyze sampleJunitOnly []).graph.footprint "shop.PluginTest").contains
      (samplePluginBuild.analyze sampleJunitOnly []).graph (.method samplePluginLoad) = true ∧
    "shop.PluginTest" ∉ (Store.next {} (samplePluginRenewal sampleJunitOnly)).wildcard := by
  obtain ⟨hcalls, hreached⟩ := calls_samplePluginBuild sampleJunitOnly (by simp)
  refine ⟨hcalls, isReflective_samplePluginLoad, ?_, hreached, ?_⟩
  · rw [← Bool.not_eq_true, CallGraph.usesReflection_eq_true, reflective_sampleJunitOnly]
    rintro ⟨i, -, hi⟩
    exact SortedSet.not_mem_empty i hi
  · rw [mem_wildcard_next_iff (SortedSet.mem_ofList.2 (List.mem_singleton_self _))]
    intro hreflective
    obtain ⟨i, -, hi⟩ := CallGraph.reflective_reach.1 hreflective
    rw [samplePluginRenewal, reflective_sampleJunitOnly] at hi
    exact SortedSet.not_mem_empty i hi

end Store

end Retest

import Retest.Analysis
import Retest.Proofs.CallGraph.Edges
import Retest.Proofs.Hierarchy
import Retest.Proofs.Inventory

/-!
# The methods that a call may run

A call names a unit and a signature; which method runs is decided by the unit of
the receiver. The call graph has an edge for the method found upward from the unit
that is named, and one for every method below that unit
(`Retest.CallGraph.Context.mem_callEdges`). So it has an edge for the method that
runs exactly as far as that one is found from the named unit, or lies below it
(`Retest.CallGraph.hasEdge_of_call`). On a chain of super classes this is always
so.

Interfaces are another matter: a class may inherit, from a super class that knows
nothing of an interface, the method that it has to have for the interface. Such a
method is neither above nor below the interface, and a call by way of the interface
has no edge to it (`Retest.CallGraph.not_hasEdge_sampleJobs_indirect`).
-/

namespace Retest

namespace CallGraph

namespace Context

/-- What class files declare, taken together. -/
def ofClasses (settings : Settings) (files : List ClassFile) : Context :=
  ⟨(Declarations.addClasses settings {} files).inventory settings, settings⟩

@[simp] theorem settings_ofClasses (settings : Settings) (files : List ClassFile) :
    (ofClasses settings files).settings = settings := rfl

variable {context : Context} {caller : MethodKey} {owner unit : UnitName} {signature : Signature}
  {kind : CallKind}

/-- **The edges for a call**: to the method found upward, and to all methods below. -/
theorem mem_callEdges :
    (.method caller, .method ⟨unit, signature⟩) ∈ context.callEdges caller owner signature ↔
      context.settings.isExcluded owner = false ∧
        (context.inventory.resolveMethod? owner signature = some unit ∨
          signature.isInitializer = false ∧ unit ∈ context.inventory.hierarchy.descendants owner ∧
            context.inventory.declaresMethod unit signature = true) := by
  rw [callEdges]
  cases hexcluded : context.settings.isExcluded owner with
  | true => simp
  | false =>
    cases hinitializer : signature.isInitializer with
    | true => simp
    | false => simp [Inventory.overriders]

/-- A method of `owner` may be that of a unit, as far as the call graph goes: it is found there
from `owner`, or the unit lies below. -/
def Covers (context : Context) (owner : UnitName) (signature : Signature)
    (unit : UnitName) : Prop :=
  context.inventory.resolveMethod? owner signature = some unit ∨
    unit ∈ context.inventory.hierarchy.descendants owner

/-- The edges for a call, to units that declare the method. -/
theorem mem_edges_call_iff_covers (howner : context.settings.isExcluded owner = false)
    (hsignature : signature.isInitializer = false)
    (hdeclares : context.inventory.declaresMethod unit signature = true) :
    (.method caller, .method ⟨unit, signature⟩) ∈
        context.edges (.call caller owner signature kind) ↔
          context.Covers owner signature unit := by
  rw [edges, mem_callEdges, Covers]
  simp [howner, hsignature, hdeclares]

/-- On a chain of super classes, what a call runs is covered. -/
theorem covers_of_chain {settings : Settings} {files : List ClassFile} {receiver : UnitName}
    (howner : owner ∈ receiver :: (ofClasses settings files).inventory.hierarchy.chain receiver)
    (hunit : unit ∈ receiver :: (ofClasses settings files).inventory.hierarchy.chain receiver)
    (hrun : (ofClasses settings files).inventory.resolveMethod? receiver signature = some unit) :
    (ofClasses settings files).Covers owner signature unit :=
  Inventory.resolveMethod?_of_chain (Hierarchy.coherent_ofParents _ _) howner hunit hrun

end Context

/-- A class file takes part unless its unit is left out. -/
theorem Context.takesPart_ofClasses {settings : Settings} {files : List ClassFile}
    {file : ClassFile} (hfile : file ∈ files) (hkept : settings.isExcluded file.name = false) :
    ¬((ofClasses settings files).settings.isExcluded file.name ||
      !(ofClasses settings files).inventory.contains file.name) = true := by
  have hcontains : (ofClasses settings files).inventory.contains file.name = true :=
    SortedMap.contains_eq_true.2 (Declarations.mem_units_addClasses hfile hkept)
  simp [hcontains, hkept]

/-- The edges of the facts of a class file are in the call graph. -/
theorem hasEdge_of_mem_facts {settings : Settings} {files : List ClassFile}
    {external : List (UnitName × UnitName)} {file : ClassFile} {fact : Fact} {a b : Dependency}
    (hfile : file ∈ files) (hkept : settings.isExcluded file.name = false)
    (hfact : fact ∈ file.facts) (hedge : (a, b) ∈ (Context.ofClasses settings files).edges fact) :
    (CallGraph.ofClasses (.ofClasses settings files) files external).hasEdge a b = true := by
  have hclass : (a, b) ∈ (Context.ofClasses settings files).classEdges file := by
    rw [Context.classEdges, if_neg (Context.takesPart_ofClasses hfile hkept)]
    exact List.mem_flatMap.2 ⟨fact, hfact, hedge⟩
  refine hasEdge_of_mem_allEdges _ files external ?_
  exact List.mem_append_left _ (List.mem_append_left _ (List.mem_flatMap.2 ⟨file, hfile, hclass⟩))

section Dispatch

variable {settings : Settings} {files : List ClassFile} {external : List (UnitName × UnitName)}
  {file : ClassFile} {caller : MethodKey} {owner receiver unit : UnitName} {signature : Signature}
  {kind : CallKind}

/-- **What a call may run.** A call of a method of `owner` runs the method that is found from the
receiver. The call gives an edge to that method exactly if it is also found from `owner`, or lies
below `owner`, and then the call graph has the edge. This is so if the receiver is of the unit
named in the call, and if that unit is a super class of the receiver and the method is found on
the receiver or on one of its super classes. -/
theorem hasEdge_of_call (hfile : file ∈ files) (hkept : settings.isExcluded file.name = false)
    (hcall : .call caller owner signature kind ∈ file.facts)
    (howner : settings.isExcluded owner = false) (hsignature : signature.isInitializer = false)
    (hrun : (Context.ofClasses settings files).inventory.resolveMethod? receiver signature =
      some unit) :
    ((.method caller, .method ⟨unit, signature⟩) ∈
        (Context.ofClasses settings files).edges (.call caller owner signature kind) ↔
      (Context.ofClasses settings files).Covers owner signature unit) ∧
    ((Context.ofClasses settings files).Covers owner signature unit →
      (CallGraph.ofClasses (.ofClasses settings files) files external).hasEdge
        (.method caller) (.method ⟨unit, signature⟩) = true) ∧
    (receiver = owner ∨
        owner ∈ (Context.ofClasses settings files).inventory.hierarchy.chain receiver ∧
          unit ∈ receiver :: (Context.ofClasses settings files).inventory.hierarchy.chain receiver →
      (CallGraph.ofClasses (.ofClasses settings files) files external).hasEdge
        (.method caller) (.method ⟨unit, signature⟩) = true) := by
  have hedges : (.method caller, .method ⟨unit, signature⟩) ∈
      (Context.ofClasses settings files).edges (.call caller owner signature kind) ↔
      (Context.ofClasses settings files).Covers owner signature unit :=
    Context.mem_edges_call_iff_covers howner hsignature
      (Inventory.declaresMethod_of_resolveMethod? hrun)
  have hthere : (Context.ofClasses settings files).Covers owner signature unit →
      (CallGraph.ofClasses (.ofClasses settings files) files external).hasEdge
        (.method caller) (.method ⟨unit, signature⟩) = true := fun hcovers =>
    hasEdge_of_mem_facts hfile hkept hcall (hedges.2 hcovers)
  refine ⟨hedges, hthere, ?_⟩
  rintro (rfl | ⟨hchain, hunit⟩)
  · exact hthere (.inl hrun)
  · exact hthere (Context.covers_of_chain (List.mem_cons_of_mem _ hchain) hunit hrun)

/-- A unit with methods that call what they are given. -/
def sampleClass (access : Access) (name superName : UnitName) (interfaces : List UnitName)
    (methods : List (String × List MemberRef)) : ClassFile where
  name := name
  access := access
  superName := some superName
  interfaces := interfaces
  signature := none
  annotations := []
  fields := []
  methods := methods.map fun (method, calls) =>
    { access := 0x0001, name := method, descriptor := "()V", exceptions := [], signature := none
      annotations := []
      code := some ⟨1, 1, calls.map fun ref => ⟨if ref.interface then 0xb9 else 0xb6, .method ref⟩,
        []⟩ }

/-- A program that runs something, as a task or by way of an interface. -/
def sampleMain : ClassFile :=
  sampleClass 0x0021 "shop.Main" "java.lang.Object" []
    [("direct", [⟨"shop.Task", "run", "()V", false⟩]),
      ("indirect", [⟨"shop.Runner", "run", "()V", true⟩])]

/-- The program, and a job, which is a task and implements the interface. Its method comes from a
super class of tasks, which does not know the interface. -/
def sampleJobs : List ClassFile :=
  [sampleClass 0x0021 "shop.Base" "java.lang.Object" [] [("run", [])],
    sampleClass 0x0601 "shop.Runner" "java.lang.Object" [] [("run", [])],
    sampleClass 0x0021 "shop.Task" "shop.Base" [] [],
    sampleClass 0x0021 "shop.Job" "shop.Task" ["shop.Runner"] [],
    sampleMain]

/-- A job that is run as a task. -/
theorem hasEdge_sampleJobs_direct :
    (Context.ofClasses {} sampleJobs).inventory.resolveMethod? "shop.Job" "run()V" =
        some "shop.Base" ∧
      "shop.Job" ∈ (Context.ofClasses {} sampleJobs).inventory.hierarchy.descendants "shop.Task" ∧
      (CallGraph.ofClasses (.ofClasses {} sampleJobs) sampleJobs []).hasEdge
        (.method ⟨"shop.Main", "direct()V"⟩) (.method ⟨"shop.Base", "run()V"⟩) = true := by
  have hfile : sampleMain ∈ sampleJobs := by decide +kernel
  have hcall : .call ⟨"shop.Main", "direct()V"⟩ "shop.Task" "run()V" .virtual ∈
      sampleMain.facts := by decide +kernel
  have hrun : (Context.ofClasses {} sampleJobs).inventory.resolveMethod? "shop.Job" "run()V" =
      some "shop.Base" := by decide +kernel
  refine ⟨hrun, by decide +kernel, ?_⟩
  exact (hasEdge_of_call hfile (by decide +kernel) hcall (by decide +kernel) (by decide +kernel)
    hrun).2.2 (.inr (by decide +kernel))

/-- A job that is run by way of the interface: nothing leads to the method that runs. -/
theorem not_hasEdge_sampleJobs_indirect :
    sampleMain ∈ sampleJobs ∧ ({} : Settings).isExcluded sampleMain.name = false ∧
      .call ⟨"shop.Main", "indirect()V"⟩ "shop.Runner" "run()V" .interface ∈ sampleMain.facts ∧
      ({} : Settings).isExcluded "shop.Runner" = false ∧
      Signature.isInitializer "run()V" = false ∧
      "shop.Job" ∈ (Context.ofClasses {} sampleJobs).inventory.hierarchy.descendants "shop.Runner" ∧
      (Context.ofClasses {} sampleJobs).inventory.resolveMethod? "shop.Job" "run()V" =
        some "shop.Base" ∧
      (CallGraph.ofClasses (.ofClasses {} sampleJobs) sampleJobs []).hasEdge
        (.method ⟨"shop.Main", "indirect()V"⟩) (.method ⟨"shop.Base", "run()V"⟩) = false := by
  decide +kernel

end Dispatch

end CallGraph

/-- The call graph of a build is that of its class files. -/
theorem Build.graph_analyze (build : Build) (settings : Settings)
    (external : List (UnitName × UnitName)) :
    (build.analyze settings external).graph =
      .ofClasses (.ofClasses settings ((build.parsed settings).map (·.2.file)))
        ((build.parsed settings).map (·.2.file)) external := rfl

end Retest

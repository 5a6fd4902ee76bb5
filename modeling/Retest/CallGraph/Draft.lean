import Retest.CallGraph.Basic
import Retest.CallGraph.Reflection
import Retest.Inventory

/-!
# Drafting call graphs

A call graph is put together from the facts of class files, with an inventory to
say which declaration each use refers to. `Retest.CallGraph.Context.edges` gives
the edges that follow from a fact:

* a method uses the static initializer of its unit;
* a call uses the method found from the unit named in the call upward, and, unless
  it is a constructor, every overriding method below that unit;
* an access uses the field found upward from the unit named; and a field uses the
  initializer that writes it, so that what is computed there is reached with it.

What follows from facts is a list of entries: a node, an edge, a method that
belongs to its unit, or a method that uses reflection. A `Retest.CallGraph.Draft`
takes up one entry after another. It gives each node a number when the node is
first met, the next one that is free, and keeps edges, methods and marks by number.
Two drafts number the nodes each in its own way. To merge them, the nodes of the
second are looked up in the first, those that are new get numbers there, and all
that the second holds is taken over under the new numbers.
-/

namespace Retest.CallGraph

/-- What tells which declaration a use refers to. -/
structure Context where
  inventory : Inventory
  settings : Settings

/-- The numbers of two nodes, of which the first uses the second. -/
structure Arc where
  source : Nat
  target : Nat
deriving DecidableEq

namespace Arc

instance : Ord Arc where
  compare := compareLex (compareOn source) (compareOn target)

instance : Std.TransOrd Arc :=
  inferInstanceAs (Std.TransCmp (compareLex (compareOn source) (compareOn target)))

instance : Std.LawfulEqOrd Arc where
  compare_self := Std.ReflCmp.compare_self
  eq_of_compare {a b} h := by
    have h : compareLex (compareOn source) (compareOn target) a b = .eq := h
    simp only [compareLex_eq_eq, compareOn] at h
    cases a
    cases b
    rw [mk.injEq]
    exact ⟨Std.LawfulEqOrd.eq_of_compare h.1, Std.LawfulEqOrd.eq_of_compare h.2⟩

def renumber (number : Nat → Nat) (arc : Arc) : Arc := ⟨number arc.source, number arc.target⟩

end Arc

/-- What a draft takes up in one step. -/
inductive Entry where
  | node (n : Dependency)
  | edge (source target : Dependency)
  | method (key : MethodKey)
  | reflective (key : MethodKey)
deriving DecidableEq

/-- A call graph in the making. The number of a node is its place in the list of
nodes; a node has no edge to itself here. -/
structure Draft where
  nodes : List Dependency := []
  edges : SortedSet Arc := ∅
  methods : SortedMap UnitName (SortedSet Nat) := ∅
  reflective : SortedSet Nat := ∅
deriving DecidableEq

namespace Draft

/-- The number of a node, and the draft with the node. A node that is new comes
last, at the place where looking for it ends. -/
def intern (draft : Draft) (n : Dependency) : Nat × Draft :=
  (draft.nodes.idxOf n,
    if draft.nodes.contains n then draft else { draft with nodes := draft.nodes ++ [n] })

def add (draft : Draft) : Entry → Draft
  | .node n => (draft.intern n).2
  | .edge a b =>
    let first := draft.intern a
    let second := first.2.intern b
    if first.1 = second.1 then second.2
    else { second.2 with edges := second.2.edges.insert ⟨first.1, second.1⟩ }
  | .method key =>
    let own := draft.intern (.method key)
    { own.2 with methods := own.2.methods.addTo key.owner (.ofList [own.1]) }
  | .reflective key =>
    let own := draft.intern (.method key)
    { own.2 with reflective := own.2.reflective.insert own.1 }

def addAll (draft : Draft) (entries : List Entry) : Draft := entries.foldl add draft

/-- The numbers of nodes, which are taken up one after the other. -/
def internAll (draft : Draft) : List Dependency → List Nat × Draft
  | [] => ([], draft)
  | n :: nodes =>
    let first := draft.intern n
    let rest := first.2.internAll nodes
    (first.1 :: rest.1, rest.2)

/-- **Take up all that another draft holds.** The numbers of the other draft are
places in the list of the numbers that its nodes get here. -/
def merge (draft other : Draft) : Draft :=
  let interned := draft.internAll other.nodes
  let number := fun i => interned.1.getD i 0
  let edges := other.edges.image (Arc.renumber number)
  { nodes := interned.2.nodes
    edges := interned.2.edges ∪ edges.filter fun e => e.source != e.target
    methods := interned.2.methods.addAll (other.methods.map (·.image number))
    reflective := interned.2.reflective ∪ other.reflective.image number }

/-- The finished graph: every node uses itself, and what its edges lead to. -/
def graph (draft : Draft) : CallGraph where
  nodes := draft.nodes
  adjacency := draft.edges.toList.foldl (fun lists e => lists.modify e.source (·.insert e.target))
    ((List.range draft.nodes.length).map fun i => .ofList [i])
  methods := draft.methods
  reflective := draft.reflective

end Draft

/-! ### Edges from facts -/

namespace Context

/-- The edges for a call. The method is looked for upward from the unit that the call names, since
it may be inherited; and below that unit, every method with the signature may turn out to be the one
that is called. -/
def callEdges (context : Context) (caller : MethodKey) (owner : UnitName)
    (signature : Signature) : List (Dependency × Dependency) :=
  if context.settings.isExcluded owner then []
  else
    let found := (context.inventory.resolveMethod? owner signature).toList
    let overriding := if signature.isInitializer then []
      else (context.inventory.overriders owner signature).toList
    (found ++ overriding).map fun unit => (.method caller, .method ⟨unit, signature⟩)

/-- The edges for an access to a field, which is looked for upward as well. If an initializer writes
the field, the field uses the initializer in turn. -/
def accessEdges (context : Context) (caller : MethodKey) (field : FieldKey)
    (write isStatic : Bool) : List (Dependency × Dependency) :=
  if context.settings.isExcluded field.owner then []
  else
    match context.inventory.resolveField? field.owner field.slot with
    | none => []
    | some unit =>
      let resolved : Dependency := .field { field with owner := unit }
      let initializer := if isStatic then staticInitializerName else constructorName
      (.method caller, resolved) ::
        if write && caller.name == initializer then [(resolved, .method caller)] else []

/-- The edges that follow from a fact, in order. -/
def edges (context : Context) : Fact → List (Dependency × Dependency)
  | .unit .. | .field .. => []
  | .method key _ _ =>
    if key.name != staticInitializerName &&
        context.inventory.declaresMethod key.owner staticInitializerSignature then
      [(.method key, .method ⟨key.owner, staticInitializerSignature⟩)]
    else []
  | .call caller owner signature _ => context.callEdges caller owner signature
  | .access caller field write isStatic => context.accessEdges caller field write isStatic

/-- What a fact says of the method or field that it is about. Of calls of methods
outside of the build only those that use reflection count. -/
def ownEntries (context : Context) : Fact → List Entry
  | .method key _ _ => [.method key]
  | .field key _ => [.node (.field key)]
  | .call caller owner signature _ =>
    if context.settings.isExcluded owner && isReflective owner signature then [.reflective caller]
    else []
  | .unit .. | .access .. => []

def entries (context : Context) (fact : Fact) : List Entry :=
  context.ownEntries fact ++ (context.edges fact).map fun e => .edge e.1 e.2

/-- The entries of a class file, unless its unit is left out. -/
def classEntries (context : Context) (file : ClassFile) : List Entry :=
  if context.settings.isExcluded file.name || !context.inventory.contains file.name then []
  else file.facts.flatMap context.entries

def addClass (context : Context) (draft : Draft) (file : ClassFile) : Draft :=
  draft.addAll (context.classEntries file)

def addClasses (context : Context) (draft : Draft) (files : List ClassFile) : Draft :=
  files.foldl context.addClass draft

/-! ### Edges from elsewhere -/

/-- The edges that follow from one unit depending on another: all methods of the
one use the other, and the other uses all its methods. -/
def externalEdges (context : Context) (dependent dependency : UnitName) :
    List (Dependency × Dependency) :=
  (context.inventory.methodsOf dependent).toList.map
      (fun signature => (.method ⟨dependent, signature⟩, .unit dependency)) ++
    (context.inventory.methodsOf dependency).toList.map
      fun signature => (.unit dependency, .method ⟨dependency, signature⟩)

def externalEntries (context : Context) (e : UnitName × UnitName) : List Entry :=
  if e.1 = e.2 then []
  else .node (.unit e.2) :: (context.externalEdges e.1 e.2).map fun e => .edge e.1 e.2

def addExternal (context : Context) (draft : Draft) (e : UnitName × UnitName) : Draft :=
  draft.addAll (context.externalEntries e)

/-- The methods that units inherit where a test fixture is involved: for each the
method of the heir and the method inherited. -/
def inherited (context : Context) : List (MethodKey × MethodKey) :=
  context.inventory.units.keys.toList.flatMap fun unit =>
    (context.inventory.hierarchy.ancestors unit).flatMap fun ancestor =>
      if context.settings.isFixture unit || context.settings.isFixture ancestor then
        ((context.inventory.methodsOf ancestor).toList.filter fun s => !s.isInitializer).map
          fun signature => (⟨unit, signature⟩, ⟨ancestor, signature⟩)
      else []

/-- The entries for what is inherited: the method is one of the heir, and uses the
method inherited. -/
def inheritedEntries (context : Context) : List Entry :=
  context.inherited.flatMap fun e => [.method e.1, .edge (.method e.1) (.method e.2)]

/-- **Finish a call graph**: add what is inherited, and list the edges of each node. -/
def finish (context : Context) (draft : Draft) : CallGraph :=
  (draft.addAll context.inheritedEntries).graph

end Context

/-- The call graph of class files, given their inventory and what else is known
of dependencies between units. -/
def ofClasses (context : Context) (files : List ClassFile) (external : List (UnitName × UnitName)) :
    CallGraph :=
  context.finish (external.foldl context.addExternal (context.addClasses {} files))

end Retest.CallGraph

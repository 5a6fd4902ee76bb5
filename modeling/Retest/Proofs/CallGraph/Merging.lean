import Retest.Proofs.CallGraph.Dispatch

/-!
# Merging what was made apart

The class files of a build can be taken up one after another, or in parts whose
results are merged. A `Retest.Division` says how: which stretches of the list
are taken up apart, and in which order the results are brought together. Whatever
the division, the result is that of taking up the whole list in order
(`Retest.CallGraph.inventory_graph_of_division`); even the nodes of the call graph get the
same numbers, since merging appends what is new in the order in which it was new.

For that it is enough that merging what was taken up apart is the same as taking it
up on the spot (`Retest.Division.run_eq_foldl`). What is declared is kept by name, and
there it follows from the same for one item. Drafts of call graphs are kept by number,
and drafts that were made apart number their nodes differently; that they can be
merged all the same is `Retest.CallGraph.Draft.merge_addAll`.
-/

namespace Retest

/-! ### Divisions -/

/-- How the work on a list is divided: stretches that are taken up apart, and results that are
merged, the earlier one first. A stretch may be empty. -/
inductive Division (α : Type) where
  | stretch (items : List α)
  | merged (left right : Division α)

namespace Division

variable {α σ : Type}

/-- The list that is divided. -/
def items : Division α → List α
  | stretch l => l
  | merged left right => left.items ++ right.items

/-- What comes out: each stretch is folded onto nothing, and results are merged. -/
def run (empty : σ) (step : σ → α → σ) (merge : σ → σ → σ) : Division α → σ
  | stretch l => l.foldl step empty
  | merged left right => merge (left.run empty step merge) (right.run empty step merge)

/-- **A division does not matter** if merging what was taken up apart is taking it up. -/
theorem run_eq_foldl {empty : σ} {step : σ → α → σ} {merge : σ → σ → σ}
    (hmerge : ∀ (s : σ) (l : List α), merge s (l.foldl step empty) = l.foldl step s)
    (division : Division α) :
    division.run empty step merge = division.items.foldl step empty := by
  induction division with
  | stretch l => rfl
  | merged left right hleft hright =>
    rw [run, hleft, hright, hmerge, items, List.foldl_append]

end Division

/-! ### What is declared -/

/-- Storing entries and one more is storing one more after the entries. -/
theorem SortedMap.insertMany_insert {κ β : Type} [Ord κ] [Std.TransOrd κ] [Std.LawfulEqOrd κ]
    [DecidableEq κ] (base m : SortedMap κ β) (k : κ) (v : β) :
    base.insertMany (m.insert k v).entries = (base.insertMany m.entries).insert k v := by
  refine ext_get? fun k' => ?_
  rw [get?_insertMany, lastValue?_entries, get?_insert, get?_insert, get?_insertMany,
    lastValue?_entries]
  by_cases hk : k' = k
  · rw [if_pos hk, if_pos hk, Option.some_or]
  · rw [if_neg hk, if_neg hk]

namespace Declarations

theorem merge_observe (declared others : Declarations) (fact : Fact) :
    declared.merge (others.observe fact) = (declared.merge others).observe fact := by
  cases fact with
  | unit | method | field =>
    simp only [observe, merge, SortedMap.insertMany_insert, SortedMap.addAll_addTo]
  | call | access => rfl

/-- A class file is taken up after a merge as before it. -/
theorem merge_addClass (settings : Settings) (declared others : Declarations) (file : ClassFile) :
    declared.merge (others.addClass settings file) =
      (declared.merge others).addClass settings file := by
  rw [addClass, addClass]
  split
  · rfl
  · exact (List.foldl_hom (merge declared) fun others fact =>
      (merge_observe declared others fact).symm).symm

/-- To merge what class files declare is to take them up. -/
theorem merge_addClasses (settings : Settings) (declared : Declarations) (files : List ClassFile) :
    declared.merge (addClasses settings {} files) = addClasses settings declared files := by
  have hhom : files.foldl (addClass settings) (declared.merge {}) =
      declared.merge (files.foldl (addClass settings) {}) :=
    List.foldl_hom declared.merge fun others file =>
      (merge_addClass settings declared others file).symm
  exact hhom.symm

end Declarations

/-! ### Drafts of call graphs -/

namespace CallGraph.Context

/-- To merge the draft of class files is to take them up. -/
theorem merge_addClasses (context : Context) (draft : Draft) (files : List ClassFile) :
    draft.merge (context.addClasses {} files) = context.addClasses draft files := by
  rw [addClasses_eq_addAll, addClasses_eq_addAll, Draft.merge_addAll]

end CallGraph.Context

/-! ### The whole -/

/-- What class files declare, taken up by a division. -/
def Division.declarations (settings : Settings) (division : Division ClassFile) : Declarations :=
  division.run {} (Declarations.addClass settings) Declarations.merge

/-- The draft of a call graph, taken up by a division. -/
def Division.draft (context : CallGraph.Context) (division : Division ClassFile) :
    CallGraph.Draft :=
  division.run {} context.addClass CallGraph.Draft.merge

namespace CallGraph

/-- **However the class files are divided**, and differently for the inventory and for the call
graph, the inventory and the finished call graph are those of taking up all files in order. -/
theorem inventory_graph_of_division {files : List ClassFile} {first second : Division ClassFile}
    (hfirst : first.items = files) (hsecond : second.items = files) (settings : Settings)
    (external : List (UnitName × UnitName)) :
    let inventory := (first.declarations settings).inventory settings
    let context : Context := ⟨inventory, settings⟩
    inventory = (Declarations.addClasses settings {} files).inventory settings ∧
      context.finish (external.foldl context.addExternal (second.draft context)) =
        ofClasses (.ofClasses settings files) files external := by
  intro inventory context
  have hinventory : inventory = (Declarations.addClasses settings {} files).inventory settings := by
    rw [Declarations.addClasses, ← hfirst,
      ← Division.run_eq_foldl (Declarations.merge_addClasses settings)]
    rfl
  -- the second division works in the context that the first one has led to
  have hcontext : context = .ofClasses settings files :=
    congrArg (Context.mk · settings) hinventory
  refine ⟨hinventory, ?_⟩
  rw [← hcontext, ofClasses, Context.addClasses, ← hsecond,
    ← Division.run_eq_foldl context.merge_addClasses]
  rfl

/-- A program divided in two ways, with empty stretches in both. -/
theorem inventory_graph_sampleJobs :
    let first : Division ClassFile :=
      .merged (.merged (.stretch []) (.stretch (sampleJobs.take 2))) (.stretch (sampleJobs.drop 2))
    let second : Division ClassFile :=
      .merged (.stretch (sampleJobs.take 4)) (.merged (.stretch (sampleJobs.drop 4)) (.stretch []))
    let context : Context := ⟨(first.declarations {}).inventory {}, {}⟩
    first.items = sampleJobs ∧ second.items = sampleJobs ∧
      context.inventory = (Declarations.addClasses {} {} sampleJobs).inventory {} ∧
      context.finish
          ([("shop.Main", "shop.Job")].foldl context.addExternal (second.draft context)) =
        ofClasses (.ofClasses {} sampleJobs) sampleJobs [("shop.Main", "shop.Job")] := by
  intro first second context
  have hfirst : first.items = sampleJobs := rfl
  have hsecond : second.items = sampleJobs := rfl
  exact ⟨hfirst, hsecond, inventory_graph_of_division hfirst hsecond {} _⟩

end CallGraph

end Retest

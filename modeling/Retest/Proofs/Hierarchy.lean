import Retest.Inventory
import Retest.Proofs.Sorted

/-!
# Looking up and down a hierarchy

The descendants of a unit are the other units that are reached from it by going
from parents to children (`Retest.Hierarchy.mem_descendants`). A member is looked
for in a unit, then along the chain of its super classes, and only then in its
other ancestors (`Retest.Hierarchy.ancestors_eq_append`).

For two units on one chain of super classes looking upward fits together: what is
found from the lower one lies at or below the upper one, or is found from it as
well (`Retest.Inventory.resolveMethod?_of_chain`). Nothing of the kind holds of
interfaces, where the lower unit may find a method on a super class that the
upper one has nothing to do with.
-/

namespace Retest

/-- Ways can be gone back. -/
theorem Reaches.reverse {α : Type} {next prev : α → List α} (h : ∀ a b, b ∈ next a → a ∈ prev b)
    {a b : α} (hab : Reaches next a b) : Reaches prev b a := by
  induction hab with
  | refl => exact .refl a
  | step _ hc ih => exact (Reaches.single (h _ _ hc)).trans ih

namespace Hierarchy

variable {h : Hierarchy} {unit x : UnitName}

/-! ### Edges -/

theorem mem_parentsOf_addEdge {child parent : UnitName} {isSuper : Bool} :
    x ∈ (h.addEdge child parent isSuper).parentsOf unit ↔
      x ∈ h.parentsOf unit ∨ unit = child ∧ x = parent := by
  rw [parentsOf, addEdge, SortedMap.mem_get?_addTo, SortedSet.mem_ofList, List.mem_singleton]
  rfl

theorem mem_childrenOf_addEdge {child parent : UnitName} {isSuper : Bool} :
    x ∈ (h.addEdge child parent isSuper).childrenOf unit ↔
      x ∈ h.childrenOf unit ∨ unit = parent ∧ x = child := by
  rw [childrenOf, addEdge, SortedMap.mem_get?_addTo, SortedSet.mem_ofList, List.mem_singleton]
  rfl

theorem superclass_addEdge {child parent : UnitName} {isSuper : Bool}
    (hsuper : (h.addEdge child parent isSuper).superclass.get? unit = some x) :
    h.superclass.get? unit = some x ∨ unit = child ∧ x = parent := by
  rw [addEdge] at hsuper
  cases isSuper with
  | false => exact .inl hsuper
  | true =>
    rw [if_pos rfl, SortedMap.get?_insert] at hsuper
    split at hsuper
    · next hunit => exact .inr ⟨hunit, (Option.some.inj hsuper).symm⟩
    · exact .inl hsuper

/-- **The parts of a hierarchy fit together**: the super class of a unit is one of its parents, and
the children of a unit are the units that have it as a parent. -/
structure Coherent (h : Hierarchy) : Prop where
  super : ∀ ⦃unit parent⦄, h.superclass.get? unit = some parent → parent ∈ h.parentsOf unit
  converse : ∀ {unit child}, child ∈ h.childrenOf unit ↔ unit ∈ h.parentsOf child

namespace Coherent

theorem empty : ({} : Hierarchy).Coherent where
  super unit parent hsuper := absurd hsuper (by simp)
  converse := iff_of_false (SortedSet.not_mem_empty _) (SortedSet.not_mem_empty _)

/-- An edge is put into both directions. -/
theorem addEdge (hcoherent : h.Coherent) (child parent : UnitName) (isSuper : Bool) :
    (h.addEdge child parent isSuper).Coherent where
  super unit x hsuper := by
    rcases superclass_addEdge hsuper with hsuper | ⟨rfl, rfl⟩
    · exact mem_parentsOf_addEdge.2 (.inl (hcoherent.super hsuper))
    · exact mem_parentsOf_addEdge.2 (.inr ⟨rfl, rfl⟩)
  converse := by
    intro unit x
    rw [mem_childrenOf_addEdge, mem_parentsOf_addEdge, hcoherent.converse,
      and_comm (a := unit = parent)]

theorem addUnit (hcoherent : h.Coherent) (keep : UnitName → Bool)
    (unit : UnitName × Option UnitName × List UnitName) : (h.addUnit keep unit).Coherent := by
  rw [Hierarchy.addUnit]
  refine List.foldlRecOn _ _ ?_ fun h hcoherent parent _ => hcoherent.addEdge unit.1 parent false
  cases unit.2.1.filter keep with
  | none => exact hcoherent
  | some parent => exact hcoherent.addEdge unit.1 parent true

end Coherent

/-- **The two directions of a hierarchy that was made from class files are converse.** -/
theorem coherent_ofParents (keep : UnitName → Bool)
    (units : SortedMap UnitName (Option UnitName × List UnitName)) :
    (ofParents keep units).Coherent :=
  List.foldlRecOn _ _ .empty fun _ hcoherent unit _ => hcoherent.addUnit keep unit

/-! ### Descendants -/

/-- **The descendants of a unit** are the other units reached from it by going to children. -/
theorem mem_descendants : x ∈ h.descendants unit ↔
    x ≠ unit ∧ Reaches (fun u => (h.childrenOf u).toList) unit x := by
  have hnodes : ∀ a b, b ∈ (h.childrenOf a).toList →
      b ∈ h.children.values.flatMap SortedSet.toList :=
    fun _ _ hb => SortedMap.mem_values_flatMap hb
  have hfuel : [unit].length + unseenCount [unit] (h.children.values.flatMap SortedSet.toList) ≤
      1 + h.children.total := by
    have hle : unseenCount [unit] (h.children.values.flatMap SortedSet.toList) ≤
        (h.children.values.flatMap SortedSet.toList).length := List.length_filter_le _ _
    rw [SortedMap.length_values_flatMap] at hle
    rw [List.length_singleton]
    omega
  rw [descendants, SortedSet.mem_ofList, mem_tail_sweep (List.pairwise_singleton _ unit),
    mem_sweep_iff hnodes hfuel (fun _ ha => ha) fun _ ha hn => absurd ha hn]
  refine and_congr_right fun _ => ⟨?_, fun hreach => .inr ⟨unit, List.mem_singleton_self _, hreach⟩⟩
  rintro (hx | ⟨a, ha, hax⟩)
  · exact List.mem_singleton.1 hx ▸ .refl _
  · exact List.mem_singleton.1 ha ▸ hax

/-! ### Chains of super classes -/

/-- The ancestors begin with the chain of super classes. -/
theorem ancestors_eq_append (h : Hierarchy) (unit : UnitName) :
    ∃ others, h.ancestors unit = h.chain unit ++ others := by
  obtain ⟨met, hmet⟩ := sweep_eq_append (fun u => (h.parentsOf u).toList)
    ((unit :: h.chain unit).length + h.parents.total) (unit :: h.chain unit) (unit :: h.chain unit)
  exact ⟨met, by rw [ancestors, hmet, List.cons_append, List.tail_cons]⟩

/-- With more seen, and less fuel, a chain ends sooner. -/
theorem chainFrom_mono {fuel fuel' : Nat} {seen seen' : List UnitName} (hfuel : fuel' ≤ fuel)
    (hseen : ∀ u ∈ seen, u ∈ seen') :
    h.chainFrom fuel' seen' unit <+: h.chainFrom fuel seen unit := by
  induction fuel' generalizing fuel seen seen' unit with
  | zero => exact List.nil_prefix
  | succ fuel' ih =>
    obtain ⟨k, rfl⟩ : ∃ k, fuel = k + 1 := ⟨fuel - 1, by omega⟩
    rw [chainFrom, chainFrom]
    cases h.superclass.get? unit with
    | none => exact List.prefix_refl _
    | some parent =>
      dsimp only
      by_cases hparent : parent ∈ seen'
      · rw [if_pos (List.contains_iff_mem.2 hparent)]
        exact List.nil_prefix
      · have hparent' : parent ∉ seen := fun hmem => hparent (hseen parent hmem)
        rw [if_neg fun hc => hparent (List.contains_iff_mem.1 hc),
          if_neg fun hc => hparent' (List.contains_iff_mem.1 hc), List.prefix_cons_inj]
        refine ih (by omega) fun u hu => ?_
        rcases List.mem_cons.1 hu with rfl | hu
        · exact List.mem_cons_self
        · exact List.mem_cons_of_mem _ (hseen u hu)

/-- Behind a unit on a chain the chain goes on from there, and the units before it lead up to it. -/
theorem of_chainFrom_eq_append {fuel : Nat} {seen before after : List UnitName}
    (hunit : unit ∈ seen) (hsplit : unit :: h.chainFrom fuel seen unit = before ++ x :: after) :
    (∃ fuel' seen', fuel' ≤ fuel ∧ x ∈ seen' ∧ after = h.chainFrom fuel' seen' x) ∧
      ∀ u ∈ before, Reaches (fun u => (h.superclass.get? u).toList) u x := by
  induction before generalizing fuel seen unit with
  | nil =>
    obtain ⟨rfl, hafter⟩ := List.cons.inj hsplit
    exact ⟨⟨fuel, seen, Nat.le_refl fuel, hunit, hafter.symm⟩, by simp⟩
  | cons b before ih =>
    obtain ⟨rfl, hrest⟩ := List.cons.inj hsplit
    cases fuel with
    | zero => exact absurd hrest.symm (by simp [chainFrom])
    | succ fuel =>
      rw [chainFrom] at hrest
      cases hparent : h.superclass.get? unit with
      | none => exact absurd hrest.symm (by simp [hparent])
      | some parent =>
        rw [hparent] at hrest
        dsimp only at hrest
        by_cases hseen : parent ∈ seen
        · rw [if_pos (List.contains_iff_mem.2 hseen)] at hrest
          exact absurd hrest.symm (by simp)
        · rw [if_neg fun hc => hseen (List.contains_iff_mem.1 hc)] at hrest
          obtain ⟨⟨fuel', seen', hfuel, hx, hafter⟩, hbefore⟩ := ih List.mem_cons_self hrest
          refine ⟨⟨fuel', seen', by omega, hx, hafter⟩, fun u hu => ?_⟩
          rcases List.mem_cons.1 hu with rfl | hu
          · -- one step up, and then on from the super class
            refine (Reaches.single (b := parent) (by simp [hparent])).trans ?_
            cases before with
            | nil => exact (List.cons.inj hrest).1 ▸ .refl _
            | cons c before =>
              obtain ⟨rfl, -⟩ := List.cons.inj hrest
              exact hbefore _ List.mem_cons_self
          · exact hbefore u hu

/-! ### Hierarchies of units with their parents -/

section OfParents

variable {keep : UnitName → Bool} {units : SortedMap UnitName (Option UnitName × List UnitName)}
  {parent : UnitName}

theorem mem_parentsOf_foldl_addEdge {child : UnitName} {parents : List UnitName} :
    parent ∈ (parents.foldl (fun h p => h.addEdge child p false) h).parentsOf unit ↔
      parent ∈ h.parentsOf unit ∨ unit = child ∧ parent ∈ parents := by
  induction parents generalizing h with
  | nil => simp
  | cons p parents ih =>
    rw [List.foldl_cons, ih, mem_parentsOf_addEdge, List.mem_cons, or_assoc, ← and_or_left]

theorem mem_parentsOf_addUnit {named : UnitName × Option UnitName × List UnitName} :
    parent ∈ (h.addUnit keep named).parentsOf unit ↔ parent ∈ h.parentsOf unit ∨
      unit = named.1 ∧ parent ∈ named.2.1.toList ++ named.2.2 ∧ keep parent = true := by
  rw [addUnit, mem_parentsOf_foldl_addEdge, List.mem_filter, List.mem_append]
  have hsuper : parent ∈ ((named.2.1.filter keep).elim h
      fun p => h.addEdge named.1 p true).parentsOf unit ↔
        parent ∈ h.parentsOf unit ∨
          unit = named.1 ∧ parent ∈ named.2.1.toList ∧ keep parent = true := by
    rw [Option.mem_toList, ← Option.filter_eq_some_iff]
    cases named.2.1.filter keep with
    | none => simp
    | some p =>
      rw [Option.elim_some, mem_parentsOf_addEdge, Option.some.injEq, eq_comm (a := p)]
  rw [hsuper, or_assoc, ← and_or_left, ← or_and_right]

theorem mem_parentsOf_foldl_addUnit {named : List (UnitName × Option UnitName × List UnitName)} :
    parent ∈ (named.foldl (addUnit keep) h).parentsOf unit ↔ parent ∈ h.parentsOf unit ∨
      ∃ names, (unit, names) ∈ named ∧
        parent ∈ names.1.toList ++ names.2 ∧ keep parent = true := by
  induction named generalizing h with
  | nil => simp
  | cons n named ih =>
    rw [List.foldl_cons, ih, mem_parentsOf_addUnit, or_assoc]
    simp only [List.mem_cons, or_and_right, exists_or]
    refine or_congr_right (or_congr_left ⟨?_, ?_⟩)
    · rintro ⟨rfl, hparent⟩
      exact ⟨n.2, rfl, hparent⟩
    · rintro ⟨names, rfl, hparent⟩
      exact ⟨rfl, hparent⟩

/-- **The parents of a unit** are those that it names and that are let in. -/
theorem mem_parentsOf_ofParents : parent ∈ (ofParents keep units).parentsOf unit ↔
    ∃ names, units.get? unit = some names ∧
      parent ∈ names.1.toList ++ names.2 ∧ keep parent = true := by
  rw [ofParents, mem_parentsOf_foldl_addUnit]
  simp only [SortedMap.get?_eq_some_iff]
  exact or_iff_right (SortedSet.not_mem_empty parent)

theorem superclass_addUnit (named : UnitName × Option UnitName × List UnitName) :
    (h.addUnit keep named).superclass = (named.2.1.filter keep).elim h.superclass
      fun parent => h.superclass.insert named.1 parent := by
  have hfold : ∀ (parents : List UnitName) (h : Hierarchy),
      (parents.foldl (fun h p => h.addEdge named.1 p false) h).superclass = h.superclass := by
    intro parents
    induction parents with
    | nil => exact fun _ => rfl
    | cons p parents ih => exact fun h => ih (h.addEdge named.1 p false)
  rw [addUnit, hfold]
  cases named.2.1.filter keep <;> rfl

/-- A unit that had no super class has the one that it names. -/
theorem get?_superclass_addUnit {named : UnitName × Option UnitName × List UnitName}
    (hnone : h.superclass.get? named.1 = none) :
    (h.addUnit keep named).superclass.get? unit =
      if unit = named.1 then named.2.1.filter keep else h.superclass.get? unit := by
  rw [superclass_addUnit]
  by_cases hunit : unit = named.1
  · subst hunit
    cases named.2.1.filter keep with
    | none => simpa using hnone
    | some p => simp [SortedMap.get?_insert]
  · cases named.2.1.filter keep with
    | none => simp [hunit]
    | some p => simp [SortedMap.get?_insert, hunit]

/-- Units that are taken up in order, each of them once, keep the super classes they name. -/
theorem superclass_foldl_addUnit {named : List (UnitName × Option UnitName × List UnitName)}
    (hsorted : named.Pairwise fun a b => compare a.1 b.1 = .lt)
    (hnone : ∀ n ∈ named, h.superclass.get? n.1 = none) :
    (named.foldl (addUnit keep) h).superclass.get? unit = some parent ↔
      h.superclass.get? unit = some parent ∨
        ∃ names, (unit, names) ∈ named ∧ names.1.filter keep = some parent := by
  induction named generalizing h with
  | nil => simp
  | cons n named ih =>
    obtain ⟨hn, hnamed⟩ := List.pairwise_cons.1 hsorted
    have hget : ∀ u, (h.addUnit keep n).superclass.get? u =
        if u = n.1 then n.2.1.filter keep else h.superclass.get? u := fun _ =>
      get?_superclass_addUnit (hnone n List.mem_cons_self)
    have hlater : ∀ m ∈ named, (h.addUnit keep n).superclass.get? m.1 = none := by
      intro m hm
      have hne : m.1 ≠ n.1 := fun heq => compare_self_ne_lt n.1 (by simpa [heq] using hn m hm)
      rw [hget, if_neg hne]
      exact hnone m (List.mem_cons_of_mem _ hm)
    rw [List.foldl_cons, ih hnamed hlater, hget]
    simp only [List.mem_cons, or_and_right, exists_or]
    by_cases hunit : unit = n.1
    · subst hunit
      rw [if_pos rfl, hnone n List.mem_cons_self]
      constructor
      · rintro (hsuper | hsuper)
        · exact .inr (.inl ⟨n.2, rfl, hsuper⟩)
        · exact .inr (.inr hsuper)
      · rintro (hsuper | ⟨names, heq, hsuper⟩ | hsuper)
        · cases hsuper
        · exact .inl ((congrArg Prod.snd heq) ▸ hsuper)
        · exact .inr hsuper
    · rw [if_neg hunit]
      refine or_congr_right ⟨.inr, fun hsuper => hsuper.resolve_left ?_⟩
      rintro ⟨names, rfl, -⟩
      exact hunit rfl

/-- **The super class of a unit** is the one that it names, if it is let in. -/
theorem superclass_ofParents : (ofParents keep units).superclass.get? unit = some parent ↔
    ∃ names, units.get? unit = some names ∧ names.1 = some parent ∧ keep parent = true := by
  rw [ofParents, superclass_foldl_addUnit units.sorted fun _ _ => rfl]
  simp only [SortedMap.get?_eq_some_iff, Option.filter_eq_some_iff]
  exact or_iff_right (by simp)

end OfParents

/-- Units below another on a chain of super classes are its descendants. -/
theorem Coherent.mem_descendants_of_reaches (hcoherent : h.Coherent) (hne : x ≠ unit)
    (hreach : Reaches (fun u => (h.superclass.get? u).toList) x unit) : x ∈ h.descendants unit :=
  mem_descendants.2 ⟨hne, hreach.reverse fun _ _ hb =>
    hcoherent.converse.2 (hcoherent.super (Option.mem_toList.1 hb))⟩

end Hierarchy

namespace Inventory

variable {inventory : Inventory} {upper lower unit : UnitName} {signature : Signature}

theorem declaresMethod_of_resolveMethod?
    (hresolve : inventory.resolveMethod? lower signature = some unit) :
    inventory.declaresMethod unit signature = true :=
  (List.find?_some hresolve :)

theorem declaresField_of_resolveField? {slot : String}
    (hresolve : inventory.resolveField? lower slot = some unit) :
    inventory.declaresField unit slot = true :=
  (List.find?_some hresolve :)

/-- What comes first on the way up the super classes is what is found. -/
theorem findUpward?_of_way {test : UnitName → Bool} {way : List UnitName}
    (hway : way <+: inventory.hierarchy.chain upper)
    (hfind : (upper :: way).find? test = some unit) :
    inventory.findUpward? upper test = some unit := by
  obtain ⟨others, hothers⟩ := inventory.hierarchy.ancestors_eq_append upper
  obtain ⟨rest, hrest⟩ := hway
  rw [findUpward?, hothers, ← hrest, List.append_assoc, ← List.cons_append, List.find?_append,
    hfind, Option.some_or]

/-- **Two units on one chain of super classes**: what the lower one finds on the chain is found
from the upper one too, or lies below it. -/
theorem resolveMethod?_of_chain (hcoherent : inventory.hierarchy.Coherent)
    (hupper : upper ∈ lower :: inventory.hierarchy.chain lower)
    (hunit : unit ∈ lower :: inventory.hierarchy.chain lower)
    (hresolve : inventory.resolveMethod? lower signature = some unit) :
    inventory.resolveMethod? upper signature = some unit ∨
      unit ∈ inventory.hierarchy.descendants upper := by
  obtain ⟨before, after, hsplit⟩ := List.append_of_mem hupper
  obtain ⟨⟨fuel, seen, hfuel, hseen, hafter⟩, hbefore⟩ :=
    Hierarchy.of_chainFrom_eq_append (List.mem_singleton.2 rfl) hsplit
  have hway : after <+: inventory.hierarchy.chain upper :=
    hafter ▸ Hierarchy.chainFrom_mono hfuel fun u hu => List.mem_singleton.1 hu ▸ hseen
  have hdeclares := declaresMethod_of_resolveMethod? hresolve
  obtain ⟨others, hothers⟩ := inventory.hierarchy.ancestors_eq_append lower
  -- what is looked through from below: the units under `upper`, the chain from there, the others
  rw [resolveMethod?, findUpward?, hothers, ← List.cons_append, hsplit, List.append_assoc,
    List.find?_append] at hresolve
  cases hlow : before.find? (inventory.declaresMethod · signature) with
  | some found =>
    rw [hlow, Option.some_or] at hresolve
    obtain rfl := Option.some.inj hresolve
    by_cases heq : found = upper
    · subst heq
      exact .inl (findUpward?_of_way List.nil_prefix (List.find?_cons_of_pos hdeclares))
    · exact .inr (hcoherent.mem_descendants_of_reaches heq
        (hbefore found (List.mem_of_find?_eq_some hlow)))
  | none =>
    rw [hlow, Option.none_or, List.find?_append] at hresolve
    cases hhigh : (upper :: after).find? (inventory.declaresMethod · signature) with
    | some found =>
      rw [hhigh, Option.some_or] at hresolve
      exact .inl (findUpward?_of_way hway (hhigh.trans hresolve))
    | none =>
      -- then nothing on the chain declares the method, though `unit` does
      rw [hsplit] at hunit
      rcases List.mem_append.1 hunit with hmem | hmem
      · exact absurd hdeclares (List.find?_eq_none.1 hlow unit hmem)
      · exact absurd hdeclares (List.find?_eq_none.1 hhigh unit hmem)

end Inventory

end Retest

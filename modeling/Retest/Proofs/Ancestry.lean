import Mathlib.Data.List.Chain
import Mathlib.Logic.Relation
import Retest.Proofs.Hierarchy

/-!
# Ancestors and descendants

Ancestors are looked up in two passes that share what they have seen: first the
super classes are climbed one after the other, and then all parents are visited
breadth first, beginning with the units of the climb. Descendants are looked up in
one pass the other way round. Both are exact, and each is the converse of the other
(`Retest.Declarations.ancestors_descendants_exact`), for any class files whatsoever:
a unit may name itself as a parent, the parents may go round in circles, and a parent
need not be there at all.

The measure of the climb is the number of units that have a super class and have not
been seen. It falls with each step, since a unit that is climbed from has a super
class, so the climb ends at a unit without a super class or at one whose super class
was seen before (`Retest.Hierarchy.isClimb_chain`). Neither pass looks at anything but the
parents of what it visits, so the ancestors of a unit are the same in two hierarchies
that agree on the way up (`Retest.Hierarchy.ancestors_congr`).
-/

namespace Retest

variable {α : Type} {next : α → List α}

/-- Reachability is the reflexive and transitive closure of single steps. -/
theorem reaches_iff_reflTransGen {a b : α} :
    Reaches next a b ↔ Relation.ReflTransGen (fun a b => b ∈ next a) a b := by
  constructor
  · intro h
    induction h with
    | refl => exact .refl
    | step _ hc ih => exact .tail ih hc
  · intro h
    induction h with
    | refl => exact .refl a
    | tail _ hc ih => exact .step ih hc

/-- Another node is reached by one or more steps. -/
theorem reaches_iff_transGen {a b : α} (hne : b ≠ a) :
    Reaches next a b ↔ Relation.TransGen (fun a b => b ∈ next a) a b := by
  rw [reaches_iff_reflTransGen, Relation.reflTransGen_iff_eq_or_transGen, or_iff_right hne]

/-! ### What a sweep depends on -/

section Sweep

variable [BEq α] [LawfulBEq α] {next' : α → List α}

/-- With enough fuel, more of it makes no difference. -/
theorem sweep_of_le {nodes : List α} (hnodes : ∀ a b, b ∈ next a → b ∈ nodes) {fuel fuel' : Nat}
    {queue seen : List α} (hfuel : queue.length + unseenCount seen nodes ≤ fuel)
    (hle : fuel ≤ fuel') : sweep next fuel' queue seen = sweep next fuel queue seen := by
  induction fuel generalizing fuel' queue seen with
  | zero =>
    obtain rfl : queue = [] := List.length_eq_zero_iff.1 (by omega)
    cases fuel' <;> rfl
  | succ fuel ih =>
    obtain ⟨k, rfl⟩ : ∃ k, fuel' = k + 1 := ⟨fuel' - 1, by omega⟩
    cases queue with
    | nil => rfl
    | cons a queue =>
      have hcount := unseenCount_append (nodup_unseen seen (next a)) fun b hb =>
        ⟨hnodes a b (mem_unseen.1 hb).1, (mem_unseen.1 hb).2⟩
      rw [sweep, sweep]
      refine ih ?_ (by omega)
      rw [List.length_append]
      rw [List.length_cons] at hfuel
      omega

omit [LawfulBEq α] in
/-- A sweep looks only at the neighbours of what it lists. -/
theorem sweep_congr {fuel : Nat} {queue seen : List α} (hqueue : ∀ a ∈ queue, a ∈ seen)
    (h : ∀ a ∈ sweep next fuel queue seen, next' a = next a) :
    sweep next' fuel queue seen = sweep next fuel queue seen := by
  induction fuel generalizing queue seen with
  | zero => rfl
  | succ fuel ih =>
    cases queue with
    | nil => rfl
    | cons a queue =>
      obtain ⟨met, hmet⟩ := sweep_eq_append next (fuel + 1) (a :: queue) seen
      have ha : next' a = next a := by
        refine h a ?_
        rw [hmet]
        exact List.mem_append_left _ (hqueue a List.mem_cons_self)
      rw [sweep, sweep, ha]
      refine ih (fun b hb => ?_) h
      rcases List.mem_append.1 hb with hb | hb
      · exact List.mem_append_left _ (hqueue b (List.mem_cons_of_mem _ hb))
      · exact List.mem_append_right _ hb

end Sweep

namespace Hierarchy

variable {h h' : Hierarchy} {unit x y : UnitName}

/-! ### The climb -/

/-- **The super classes of a unit, one after the other**, up to the first unit that was seen or that
comes again. -/
structure IsClimb (super : UnitName → UnitName → Prop) (seen : List UnitName) (unit : UnitName)
    (chain : List UnitName) : Prop where
  /-- Each is the super class of the one before it, and the first that of the unit. -/
  climbs : List.IsChain super (unit :: chain)
  /-- No unit comes twice. -/
  nodup : chain.Nodup
  /-- No unit was seen before. -/
  fresh : ∀ u ∈ chain, u ∉ seen
  /-- The last has no super class, or one that was seen or came before. -/
  complete : ∀ last ∈ (unit :: chain).getLast?, ∀ parent, super last parent →
    parent ∈ seen ∨ parent ∈ chain

namespace IsClimb

variable {super : UnitName → UnitName → Prop} {seen chain : List UnitName} {parent : UnitName}

/-- The climb ends where there is no super class that was not seen. -/
theorem nil (hseen : ∀ parent, super unit parent → parent ∈ seen) : IsClimb super seen unit [] where
  climbs := .singleton unit
  nodup := .nil
  fresh u hu := absurd hu List.not_mem_nil
  complete last hlast parent hparent := by
    rw [List.getLast?_singleton, Option.mem_some] at hlast
    exact .inl (hseen parent (hlast ▸ hparent))

/-- Else it goes on from the super class. -/
theorem cons (hparent : super unit parent) (hseen : parent ∉ seen)
    (hclimb : IsClimb super (parent :: seen) parent chain) :
    IsClimb super seen unit (parent :: chain) where
  climbs := .cons_cons hparent hclimb.climbs
  nodup := List.nodup_cons.2
    ⟨fun hmem => hclimb.fresh parent hmem List.mem_cons_self, hclimb.nodup⟩
  fresh u hu := by
    rcases List.mem_cons.1 hu with rfl | hu
    · exact hseen
    · exact fun hmem => hclimb.fresh u hu (List.mem_cons_of_mem _ hmem)
  complete last hlast p hp := by
    rw [List.getLast?_cons_cons] at hlast
    rcases hclimb.complete last hlast p hp with hmem | hmem
    · rcases List.mem_cons.1 hmem with rfl | hmem
      · exact .inr List.mem_cons_self
      · exact .inl hmem
    · exact .inr (List.mem_cons_of_mem _ hmem)

/-- What is climbed from the first super class on. -/
theorem tail (hclimb : IsClimb super seen unit (parent :: chain)) :
    super unit parent ∧ parent ∉ seen ∧ IsClimb super (parent :: seen) parent chain := by
  obtain ⟨hnot, hnodup⟩ := List.nodup_cons.1 hclimb.nodup
  obtain ⟨hparent, hchain⟩ := List.isChain_cons_cons.1 hclimb.climbs
  refine ⟨hparent, hclimb.fresh parent List.mem_cons_self, hchain, hnodup, fun u hu hmem => ?_,
    fun last hlast p hp => ?_⟩
  · rcases List.mem_cons.1 hmem with rfl | hmem
    · exact hnot hu
    · exact hclimb.fresh u (List.mem_cons_of_mem _ hu) hmem
  · rw [← List.getLast?_cons_cons (a := unit)] at hlast
    rcases hclimb.complete last hlast p hp with hmem | hmem
    · exact .inl (List.mem_cons_of_mem _ hmem)
    · rcases List.mem_cons.1 hmem with rfl | hmem
      · exact .inl List.mem_cons_self
      · exact .inr hmem

end IsClimb

/-- A unit is the super class of another. -/
def Extends (h : Hierarchy) (unit parent : UnitName) : Prop :=
  h.superclass.get? unit = some parent

/-- **There is one way up.** Two hierarchies in which the units on the way have the same super
classes are climbed alike. -/
theorem IsClimb.eq_of_agree {seen chain chain' : List UnitName}
    (hclimb : IsClimb h.Extends seen unit chain)
    (hclimb' : IsClimb h'.Extends seen unit chain')
    (hagree : ∀ u ∈ unit :: chain, h'.superclass.get? u = h.superclass.get? u) :
    chain' = chain := by
  induction chain generalizing seen unit chain' with
  | nil =>
    cases chain' with
    | nil => rfl
    | cons parent chain' =>
      obtain ⟨hparent, hfresh, -⟩ := hclimb'.tail
      rw [Extends, hagree unit List.mem_cons_self] at hparent
      rcases hclimb.complete unit rfl parent hparent with hmem | hmem
      · exact absurd hmem hfresh
      · cases hmem
  | cons parent chain ih =>
    obtain ⟨hparent, hfresh, hrest⟩ := hclimb.tail
    have hparent' : h'.Extends unit parent := (hagree unit List.mem_cons_self).trans hparent
    cases chain' with
    | nil =>
      rcases hclimb'.complete unit rfl parent hparent' with hmem | hmem
      · exact absurd hmem hfresh
      · cases hmem
    | cons other chain' =>
      obtain ⟨hother, -, hrest'⟩ := hclimb'.tail
      obtain rfl := Option.some.inj (hparent'.symm.trans hother)
      rw [ih hrest hrest' fun u hu => hagree u (List.mem_cons_of_mem _ hu)]

/-- With fuel for each unit that has a super class and has not been seen, and for the present one,
all super classes are climbed. -/
theorem isClimb_chainFrom {fuel : Nat} {seen : List UnitName}
    (hfuel : ∀ parent, h.Extends unit parent →
      unseenCount seen h.superclass.keys.toList < fuel) :
    IsClimb h.Extends seen unit (h.chainFrom fuel seen unit) := by
  induction fuel generalizing seen unit with
  | zero => exact .nil fun parent hparent => absurd (hfuel parent hparent) (Nat.not_lt_zero _)
  | succ fuel ih =>
    rw [chainFrom]
    cases hsuper : h.superclass.get? unit with
    | none =>
      refine .nil fun parent hparent => ?_
      rw [Extends, hsuper] at hparent
      cases hparent
    | some parent =>
      dsimp only
      by_cases hseen : parent ∈ seen
      · rw [if_pos (List.contains_iff_mem.2 hseen)]
        refine .nil fun p hp => ?_
        rw [Extends, hsuper] at hp
        exact Option.some.inj hp ▸ hseen
      · rw [if_neg fun hc => hseen (List.contains_iff_mem.1 hc)]
        refine .cons hsuper hseen (ih fun p hp => ?_)
        -- to climb on, the super class needs one itself, and so it is a unit less to be seen
        have hkey : parent ∈ h.superclass.keys.toList := SortedMap.mem_keys_of_get? hp
        have hcount := unseenCount_append_singleton hkey hseen
        have hstart := hfuel parent hsuper
        rw [unseenCount_cons]
        omega

/-- **The chain of super classes is complete**, up to the first unit that comes again. -/
theorem isClimb_chain (h : Hierarchy) (unit : UnitName) :
    IsClimb h.Extends [unit] unit (h.chain unit) := by
  refine isClimb_chainFrom fun parent hparent => ?_
  have hkey : unit ∈ h.superclass.keys.toList := SortedMap.mem_keys_of_get? hparent
  have hcount := unseenCount_append_singleton hkey (List.not_mem_nil (a := unit))
  have hall : unseenCount [] h.superclass.keys.toList ≤ h.superclass.keys.toList.length :=
    List.length_filter_le _ _
  have hlength : h.superclass.keys.toList.length = h.superclass.size := List.length_map _
  rw [List.nil_append] at hcount
  omega

theorem nodup_cons_chain (h : Hierarchy) (unit : UnitName) : (unit :: h.chain unit).Nodup :=
  List.nodup_cons.2 ⟨fun hmem => (isClimb_chain h unit).fresh unit hmem List.mem_cons_self,
    (isClimb_chain h unit).nodup⟩

/-- The units of the climb are reached by going to parents. -/
theorem Coherent.reaches_of_mem_chain (hcoherent : h.Coherent) (hx : x ∈ unit :: h.chain unit) :
    Reaches (fun u => (h.parentsOf u).toList) unit x :=
  (isClimb_chain h unit).climbs.induction _ _
    (fun _ _ hparent hreach => .step hreach (hcoherent.super hparent)) (fun _ => .refl unit) x hx

/-! ### Ancestors -/

/-- The rounds that are allowed for are enough to meet all ancestors. -/
theorem rounds_ancestors_le (h : Hierarchy) (start : List UnitName) :
    start.length + unseenCount start (h.parents.values.flatMap SortedSet.toList) ≤
      start.length + h.parents.total := by
  have hall : unseenCount start (h.parents.values.flatMap SortedSet.toList) ≤
      (h.parents.values.flatMap SortedSet.toList).length := List.length_filter_le _ _
  rw [SortedMap.length_values_flatMap] at hall
  omega

/-- **The ancestors of a unit** are the other units reached from it by going to parents. -/
theorem Coherent.mem_ancestors (hcoherent : h.Coherent) : x ∈ h.ancestors unit ↔
    x ≠ unit ∧ Reaches (fun u => (h.parentsOf u).toList) unit x := by
  have hnodes : ∀ a b, b ∈ (h.parentsOf a).toList →
      b ∈ h.parents.values.flatMap SortedSet.toList :=
    fun _ _ hb => SortedMap.mem_values_flatMap hb
  rw [ancestors, mem_tail_sweep (nodup_cons_chain h unit),
    mem_sweep_iff hnodes (h.rounds_ancestors_le _) (fun _ ha => ha) fun _ ha hn => absurd ha hn]
  refine and_congr_right fun _ => ⟨?_, fun hreach => .inr ⟨unit, List.mem_cons_self, hreach⟩⟩
  rintro (hx | ⟨a, ha, hax⟩)
  · exact hcoherent.reaches_of_mem_chain hx
  · exact (hcoherent.reaches_of_mem_chain ha).trans hax

theorem nodup_ancestors (h : Hierarchy) (unit : UnitName) : (h.ancestors unit).Nodup :=
  (nodup_sweep _ (nodup_cons_chain h unit)).tail

/-- **The ancestors of a unit depend on the parents of the unit and of its ancestors only.** -/
theorem ancestors_congr
    (hsuper : ∀ u ∈ unit :: h.ancestors unit, h'.superclass.get? u = h.superclass.get? u)
    (hparents : ∀ u ∈ unit :: h.ancestors unit, h'.parentsOf u = h.parentsOf u) :
    h'.ancestors unit = h.ancestors unit := by
  have hnodes : ∀ (h : Hierarchy) a b, b ∈ (h.parentsOf a).toList →
      b ∈ h.parents.values.flatMap SortedSet.toList :=
    fun _ _ _ hb => SortedMap.mem_values_flatMap hb
  have hchain : h'.chain unit = h.chain unit := by
    refine (isClimb_chain h unit).eq_of_agree (isClimb_chain h' unit) fun u hu => hsuper u ?_
    obtain ⟨others, hothers⟩ := h.ancestors_eq_append unit
    rw [hothers]
    exact List.mem_append_left others hu
  -- with fuel for both, one sweep goes the way of the other
  obtain ⟨fuel, hle, hle'⟩ : ∃ fuel, (unit :: h.chain unit).length + h.parents.total ≤ fuel ∧
      (unit :: h.chain unit).length + h'.parents.total ≤ fuel :=
    ⟨_, Nat.le_max_left _ _, Nat.le_max_right _ _⟩
  have hall := sweep_of_le (hnodes h) (h.rounds_ancestors_le (unit :: h.chain unit)) hle
  have hall' := sweep_of_le (hnodes h') (h'.rounds_ancestors_le (unit :: h.chain unit)) hle'
  obtain ⟨met, hmet⟩ := sweep_eq_append (fun u => (h.parentsOf u).toList)
    ((unit :: h.chain unit).length + h.parents.total) (unit :: h.chain unit) (unit :: h.chain unit)
  have hlisted : sweep (fun u => (h.parentsOf u).toList) fuel (unit :: h.chain unit)
      (unit :: h.chain unit) = unit :: h.ancestors unit := by
    rw [hall, ancestors, hmet]
    rfl
  rw [ancestors, ancestors, hchain, ← hall, ← hall']
  refine congrArg List.tail (sweep_congr (fun _ ha => ha) fun u hu => ?_)
  rw [hlisted] at hu
  exact congrArg SortedSet.toList (hparents u hu)

/-- **Looking up and looking down are converse.** -/
theorem Coherent.mem_ancestors_iff_mem_descendants (hcoherent : h.Coherent) :
    y ∈ h.ancestors x ↔ x ∈ h.descendants y := by
  rw [hcoherent.mem_ancestors, mem_descendants, ne_comm]
  refine and_congr_right fun _ => ⟨fun hup => hup.reverse ?_, fun hdown => hdown.reverse ?_⟩
  · exact fun _ _ hb => hcoherent.converse.2 hb
  · exact fun _ _ hb => hcoherent.converse.1 hb

end Hierarchy

/-! ### What class files declare -/

namespace Declarations

variable {settings : Settings} {declared : Declarations} {unit parent : UnitName}

/-- **A unit names a parent**: its super class or one of its interfaces, and none that is left
out. -/
def HasParent (settings : Settings) (declared : Declarations) (unit parent : UnitName) : Prop :=
  ∃ info, declared.units.get? unit = some info ∧ parent ∈ info.parents ∧
    settings.isExcluded parent = false

/-- A unit names a super class that is not left out. -/
def HasSuper (settings : Settings) (declared : Declarations) (unit parent : UnitName) : Prop :=
  ∃ info, declared.units.get? unit = some info ∧ info.superName = some parent ∧
    settings.isExcluded parent = false

/-- A unit is named as a parent by another. -/
def HasChild (settings : Settings) (declared : Declarations) (unit child : UnitName) : Prop :=
  declared.HasParent settings child unit

theorem mem_parentsOf_hierarchy :
    parent ∈ (declared.hierarchy settings).parentsOf unit ↔
      declared.HasParent settings unit parent := by
  rw [hierarchy, Hierarchy.mem_parentsOf_ofParents, SortedMap.get?_map, HasParent]
  cases declared.units.get? unit with
  | none => simp
  | some info => simp [UnitInfo.parents]

theorem extends_hierarchy :
    (declared.hierarchy settings).Extends unit parent ↔ declared.HasSuper settings unit parent := by
  rw [hierarchy, Hierarchy.Extends, Hierarchy.superclass_ofParents, SortedMap.get?_map, HasSuper]
  cases declared.units.get? unit with
  | none => simp
  | some info => simp

theorem coherent_hierarchy (settings : Settings) (declared : Declarations) :
    (declared.hierarchy settings).Coherent :=
  Hierarchy.coherent_ofParents _ _

/-- **The children that are kept of a unit** are the units that name it as a parent. -/
theorem mem_childrenOf_hierarchy {child : UnitName} :
    child ∈ (declared.hierarchy settings).childrenOf unit ↔
      declared.HasChild settings unit child :=
  (coherent_hierarchy settings declared).converse.trans mem_parentsOf_hierarchy

/-- One or more steps to a parent lead to the ancestors. -/
theorem mem_ancestors_hierarchy {x y : UnitName} :
    y ∈ (declared.hierarchy settings).ancestors x ↔
      y ≠ x ∧ Relation.TransGen (declared.HasParent settings) x y := by
  have hparents : (fun u p => p ∈ ((declared.hierarchy settings).parentsOf u).toList) =
      declared.HasParent settings := by
    ext u p
    exact mem_parentsOf_hierarchy
  rw [(coherent_hierarchy settings declared).mem_ancestors, ← hparents]
  exact and_congr_right reaches_iff_transGen

/-- One or more steps to a child lead to the descendants. -/
theorem mem_descendants_hierarchy {x y : UnitName} :
    x ∈ (declared.hierarchy settings).descendants y ↔
      x ≠ y ∧ Relation.TransGen (declared.HasChild settings) y x := by
  have hchildren : (fun u c => c ∈ ((declared.hierarchy settings).childrenOf u).toList) =
      declared.HasChild settings := by
    ext u c
    exact mem_childrenOf_hierarchy
  rw [Hierarchy.mem_descendants, ← hchildren]
  exact and_congr_right reaches_iff_transGen

/-- The super classes of a unit come first among its ancestors. -/
theorem exists_isClimb_ancestors_eq_append (settings : Settings) (declared : Declarations)
    (x : UnitName) : ∃ chain others, Hierarchy.IsClimb (declared.HasSuper settings) [x] x chain ∧
      (declared.hierarchy settings).ancestors x = chain ++ others := by
  have hsuper : (declared.hierarchy settings).Extends = declared.HasSuper settings := by
    ext u p
    exact extends_hierarchy
  obtain ⟨others, hothers⟩ := (declared.hierarchy settings).ancestors_eq_append x
  exact ⟨_, others, hsuper ▸ Hierarchy.isClimb_chain _ x, hothers⟩

/-- **Ancestors and descendants are exact and converse.** Whatever class files declare, circles of
parents included: the ancestors of a unit are listed without repetition, they are the other units
that one or more steps to a parent lead to, and they begin with the super classes of the unit in
order, up to the first unit that comes again; the descendants of a unit are the other units that
one or more steps to a child lead to; and a unit is an ancestor of another exactly if that one is
its descendant. Parents and children are kept in two maps, and each is the converse of the
other. -/
theorem ancestors_descendants_exact (settings : Settings) (declared : Declarations)
    (x y : UnitName) :
    ((declared.inventory settings).hierarchy.ancestors x).Nodup ∧
      (y ∈ (declared.inventory settings).hierarchy.ancestors x ↔
        y ≠ x ∧ Relation.TransGen (declared.HasParent settings) x y) ∧
      (∃ chain others, Hierarchy.IsClimb (declared.HasSuper settings) [x] x chain ∧
        (declared.inventory settings).hierarchy.ancestors x = chain ++ others) ∧
      (x ∈ (declared.inventory settings).hierarchy.descendants y ↔
        x ≠ y ∧ Relation.TransGen (declared.HasChild settings) y x) ∧
      (y ∈ (declared.inventory settings).hierarchy.ancestors x ↔
        x ∈ (declared.inventory settings).hierarchy.descendants y) ∧
      (y ∈ (declared.inventory settings).hierarchy.parentsOf x ↔
        declared.HasParent settings x y) ∧
      (x ∈ (declared.inventory settings).hierarchy.childrenOf y ↔
        y ∈ (declared.inventory settings).hierarchy.parentsOf x) := by
  have hhierarchy : (declared.inventory settings).hierarchy = declared.hierarchy settings := rfl
  have hcoherent := coherent_hierarchy settings declared
  rw [hhierarchy]
  exact ⟨Hierarchy.nodup_ancestors _ _, mem_ancestors_hierarchy,
    exists_isClimb_ancestors_eq_append settings declared x, mem_descendants_hierarchy,
    hcoherent.mem_ancestors_iff_mem_descendants, mem_parentsOf_hierarchy, hcoherent.converse⟩

-- super classes in a circle, with an interface on the way and one that is left out
example :
    let cart : UnitInfo := ⟨some "shop.Box", ["shop.Named", "java.io.Closeable"], false, false⟩
    let box : UnitInfo := ⟨some "shop.Crate", [], false, false⟩
    let crate : UnitInfo := ⟨some "shop.Cart", ["shop.Crate"], false, false⟩
    (hierarchy {} ⟨.ofList [("shop.Cart", cart), ("shop.Box", box), ("shop.Crate", crate)],
      ∅, ∅⟩).ancestors "shop.Box" = ["shop.Crate", "shop.Cart", "shop.Named"] := by
  decide +kernel

end Declarations

end Retest

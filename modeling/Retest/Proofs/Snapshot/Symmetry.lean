import Mathlib.Data.List.Zip
import Mathlib.Data.Prod.Basic
import Retest.Proofs.Snapshot.Unchanged

/-!
# Changes seen from the other side

Whoever goes back from a new snapshot to the old one meets the same changes, with members
that come for members that go (`Retest.ChangeKind.mirrored`). `Retest.classify_swap` says
that the kinds of changes and the differences of methods have this symmetry.

Most of it can be read off from the definitions. The exception is the pairing of renamed
methods, which walks through the old slots and gives each the first new one that is still
free (`Retest.MethodDiff.pair`); seen from the other side, it is the new slots that choose.
But slots choose only among those with their own fingerprint, and both sides are in order.
So for each fingerprint the first is paired with the first, the second with the second, until
one side runs out (`Retest.MethodDiff.mem_renamed_pair_iff`), and this no longer tells which
side chose.
-/

namespace Retest

namespace MethodDiff

variable {before after : SortedMap Signature Fingerprint}

/-! ### Renamed methods, fingerprint by fingerprint -/

/-- The slots with a fingerprint that are not in use in another collection. -/
def missing (other : SortedMap Signature Fingerprint) (f : Fingerprint)
    (entries : List (Signature × Fingerprint)) : List Signature :=
  (entries.filter fun e => e.2 = f && !other.contains e.1).map (·.1)

section Missing

variable {other : SortedMap Signature Fingerprint} {f : Fingerprint}
  {entry : Signature × Fingerprint} {entries : List (Signature × Fingerprint)}

theorem missing_cons_of_get? (h : other.get? entry.1 = none) :
    missing other entry.2 (entry :: entries) = entry.1 :: missing other entry.2 entries := by
  simp [missing, SortedMap.contains, h]

theorem missing_cons_of_ne (h : entry.2 ≠ f) :
    missing other f (entry :: entries) = missing other f entries := by
  simp [missing, h]

theorem missing_cons_of_contains (h : other.contains entry.1 = true) :
    missing other f (entry :: entries) = missing other f entries := by
  simp [missing, h]

theorem missing_append (front entries : List (Signature × Fingerprint)) :
    missing other f (front ++ entries) = missing other f front ++ missing other f entries := by
  rw [missing, List.filter_append, List.map_append]
  rfl

end Missing

/-- A partner is the first of the new slots that is free and has the fingerprint, and taking it out
leaves the others as they are. -/
theorem missing_of_partner? {entry partner : Signature × Fingerprint}
    {new : List (Signature × Fingerprint)} (h : partner? before after entry new = some partner) :
    missing before entry.2 new = partner.1 :: missing before entry.2 (new.erase partner) ∧
      ∀ f, f ≠ entry.2 → missing before f (new.erase partner) = missing before f new := by
  obtain ⟨-, hfingerprint, -, hfresh⟩ := partner?_eq_some h
  rw [partner?] at h
  split at h
  · cases h
  obtain ⟨-, front, rest, rfl, hfront⟩ := List.find?_eq_some_iff_append.1 h
  have hnot : partner ∉ front := fun hmem => by
    have hpartner := hfront partner hmem
    simp [hfingerprint, SortedMap.contains, hfresh] at hpartner
  have herase : (front ++ partner :: rest).erase partner = front ++ rest := by
    rw [List.erase_append_right _ hnot, List.erase_cons_head]
  have hempty : missing before entry.2 front = [] := by
    rw [missing, List.map_eq_nil_iff, List.filter_eq_nil_iff]
    exact fun e he => by simpa only [Bool.not_eq_true, Bool.not_eq_true'] using hfront e he
  rw [herase]
  refine ⟨?_, fun f hf => ?_⟩
  · rw [missing_append, missing_append, hempty, ← hfingerprint, missing_cons_of_get? hfresh]
    rfl
  · rw [missing_append, missing_append,
      missing_cons_of_ne fun heq => hf (heq.symm.trans hfingerprint)]

/-- An old slot without a partner is in use afterwards, or no new slot with its fingerprint is
free. -/
theorem missing_of_partner?_eq_none {entry : Signature × Fingerprint}
    {new : List (Signature × Fingerprint)} (h : partner? before after entry new = none) :
    after.contains entry.1 = true ∨ missing before entry.2 new = [] := by
  by_cases hgone : after.get? entry.1 = none
  · right
    rw [missing, List.map_eq_nil_iff, List.filter_eq_nil_iff]
    intro e he hfree
    simp only [Bool.and_eq_true, decide_eq_true_eq, Bool.not_eq_true', SortedMap.contains,
      Option.isSome_eq_false_iff, Option.isNone_iff_eq_none] at hfree
    exact ne_of_partner?_eq_none h hgone he hfree.2 hfree.1
  · left
    exact Option.isSome_iff_ne_none.2 hgone

/-- **Renamed methods are paired in order**: for each fingerprint, the first that is gone with the
first that is new, the second with the second, and so on. -/
theorem mem_renamed_pair_iff {old new : List (Signature × Fingerprint)}
    {e : Signature × Signature} :
    e ∈ (pair before after old new).renamed ↔
      ∃ f, e ∈ (missing after f old).zip (missing before f new) := by
  induction old generalizing new with
  | nil => simp [pair, missing]
  | cons entry old ih =>
    cases h : partner? before after entry new with
    | some partner =>
      -- the pair that is made is the first one for its fingerprint, and the others stay
      obtain ⟨hown, hothers⟩ := missing_of_partner? h
      have hgone := (partner?_eq_some h).2.2.1
      rw [pair_cons_of_some h, List.mem_cons, ih]
      constructor
      · rintro (rfl | ⟨f, hf⟩)
        · refine ⟨entry.2, ?_⟩
          rw [missing_cons_of_get? hgone, hown]
          exact List.mem_cons_self
        · refine ⟨f, ?_⟩
          by_cases heq : f = entry.2
          · subst heq
            rw [missing_cons_of_get? hgone, hown]
            exact List.mem_cons_of_mem _ hf
          · rwa [missing_cons_of_ne (Ne.symm heq), ← hothers f heq]
      · rintro ⟨f, hf⟩
        by_cases heq : f = entry.2
        · subst heq
          rw [missing_cons_of_get? hgone, hown, List.zip_cons_cons, List.mem_cons] at hf
          exact hf.imp_right fun hf => ⟨_, hf⟩
        · rw [missing_cons_of_ne (Ne.symm heq), ← hothers f heq] at hf
          exact .inr ⟨f, hf⟩
    | none =>
      rw [pair_cons_of_none h, ih]
      refine exists_congr fun f => ?_
      by_cases heq : f = entry.2
      · subst heq
        rcases missing_of_partner?_eq_none h with hused | hempty
        · rw [missing_cons_of_contains hused]
        · rw [hempty, List.zip_nil_right, List.zip_nil_right]
      · rw [missing_cons_of_ne (Ne.symm heq)]

/-! ### Differences from both sides -/

variable (before after)

/-- **Renamed methods are the same pairs from both sides.** -/
theorem perm_renamed_swap :
    (between after before).renamed.Perm ((between before after).renamed.map Prod.swap) := by
  have hnodup : ∀ m n : SortedMap Signature Fingerprint, (between m n).renamed.Nodup :=
    fun _ _ => .of_map _ (List.nodup_append.1 nodup_renamed_between).1
  refine (List.perm_ext_iff_of_nodup (hnodup after before)
    ((hnodup before after).map Prod.swap_injective)).2 fun e => ?_
  rw [between, mem_renamed_pair_iff, List.mem_map]
  constructor
  · rintro ⟨f, hf⟩
    rw [← List.zip_swap, List.mem_map] at hf
    obtain ⟨e', he', rfl⟩ := hf
    exact ⟨e', mem_renamed_pair_iff.2 ⟨f, he'⟩, rfl⟩
  · rintro ⟨e', he', rfl⟩
    obtain ⟨f, hf⟩ := mem_renamed_pair_iff.1 he'
    exact ⟨f, List.zip_swap _ _ ▸ List.mem_map_of_mem hf⟩

variable {before after}

/-- What was removed is what was left over and not renamed. -/
theorem mem_removed_between {slot : Signature} : slot ∈ (between before after).removed ↔
    slot ∈ (leftOver before after).map (·.1) ∧ slot ∉ (between before after).renamed.map (·.1) := by
  have hperm := perm_between_old before after
  have hapart := (List.nodup_append.1 (hperm.nodup_iff.2 (nodup_map_leftOver before after))).2.2
  rw [← hperm.mem_iff, List.mem_append]
  exact ⟨fun h => ⟨.inl h, fun h' => hapart slot h slot h' rfl⟩, fun h => h.1.resolve_right h.2⟩

/-- What was added is what is left over and not renamed. -/
theorem mem_added_between {slot : Signature} : slot ∈ (between before after).added ↔
    slot ∈ (leftOver after before).map (·.1) ∧ slot ∉ (between before after).renamed.map (·.2) := by
  have hperm := perm_between_new before after
  have hapart := (List.nodup_append.1 (hperm.nodup_iff.2 (nodup_map_leftOver after before))).2.2
  rw [← hperm.mem_iff, List.mem_append]
  exact ⟨fun h => ⟨.inl h, fun h' => hapart slot h slot h' rfl⟩, fun h => h.1.resolve_right h.2⟩

variable (before after)

/-- **What is added from one side is removed from the other.** -/
theorem added_swap : (between after before).added = (between before after).removed := by
  have hremoved : (between before after).removed.Pairwise fun a b => compare a b = .lt :=
    (pairwise_map_leftOver before after).sublist (sublist_pair before after _ _).1
  have hadded : (between after before).added.Pairwise fun a b => compare a b = .lt :=
    (pairwise_map_leftOver before after).sublist (sublist_pair after before _ _).2
  -- both are in order, so that it is enough to compare what they hold
  have hmem : ∀ slot, slot ∈ (between after before).added ↔
      slot ∈ (between before after).removed := by
    intro slot
    have hrenamed := (perm_renamed_swap before after).map (·.2)
    rw [List.map_map] at hrenamed
    rw [mem_added_between, mem_removed_between, hrenamed.mem_iff]
    rfl
  exact congrArg SortedSet.toList
    (SortedSet.ext_mem hmem : (⟨_, hadded⟩ : SortedSet Signature) = ⟨_, hremoved⟩)

/-- Renamed methods are listed in the order of their old slots. -/
theorem sublist_renamed_pair (old new : List (Signature × Fingerprint)) :
    ((pair before after old new).renamed.map (·.1)).Sublist (old.map (·.1)) := by
  induction old generalizing new with
  | nil => exact .slnil
  | cons entry old ih =>
    cases h : partner? before after entry new with
    | some partner =>
      rw [pair_cons_of_some h, List.map_cons, List.map_cons]
      exact (ih _).cons_cons _
    | none =>
      rw [pair_cons_of_none h, List.map_cons]
      exact (ih _).cons _

theorem pairwise_renamed :
    ((between before after).renamed.map (·.1)).Pairwise fun a b => compare a b = .lt :=
  (pairwise_map_leftOver before after).sublist (sublist_renamed_pair before after _ _)

end MethodDiff

/-! ### Kinds of changes from both sides -/

/-- The kind of a change for whoever takes it back. -/
def ChangeKind.mirrored : ChangeKind → ChangeKind
  | fieldAdded => fieldRemoved
  | fieldRemoved => fieldAdded
  | instanceMethodAdded => instanceMethodRemoved
  | instanceMethodRemoved => instanceMethodAdded
  | staticMethodAdded => staticMethodRemoved
  | staticMethodRemoved => staticMethodAdded
  | kind => kind

/-- Two maps differ in a part of what both have, from whichever side one looks. -/
theorem SortedMap.any_part_ne_comm {α β : Type} [BEq α] [LawfulBEq α] (part : β → α)
    (m n : SortedMap String β) :
    (m.entries.any fun e => (n.get? e.1).any (part · != part e.2)) =
      n.entries.any fun e => (m.get? e.1).any (part · != part e.2) := by
  rw [Bool.eq_iff_iff, ← not_iff_not, Bool.not_eq_true, Bool.not_eq_true,
    any_part_ne_eq_false, any_part_ne_eq_false]
  exact ⟨fun h k v w hv hw => (h k w v hw hv).symm, fun h k v w hv hw => (h k w v hw hv).symm⟩

/-- **A kind of change is seen from one side if its mirror image is seen from the other.** -/
theorem ChangeKind.occurs_swap (before after : Snapshot) (kind : ChangeKind) :
    kind.occurs after before = kind.mirrored.occurs before after := by
  have hrenamed : ∀ m n : SortedMap Signature Fingerprint,
      (MethodDiff.between n m).renamed.isEmpty = (MethodDiff.between m n).renamed.isEmpty := by
    intro m n
    rw [(MethodDiff.perm_renamed_swap m n).isEmpty_eq, List.isEmpty_map]
  cases kind with
  | superClassChanged | interfacesChanged | headerChanged | constructorUpdated => exact bne_comm
  | fieldAdded | fieldRemoved => exact Bool.and_comm _ _
  | fieldChanged =>
    exact congrArg₂ or (Bool.and_comm _ _) (SortedMap.any_part_ne_comm id _ _)
  | instanceMethodAdded | staticMethodAdded =>
    exact congrArg (fun l => !l.isEmpty) (MethodDiff.added_swap _ _)
  | instanceMethodRemoved | staticMethodRemoved =>
    exact congrArg (fun l => !l.isEmpty) (MethodDiff.added_swap _ _).symm
  | instanceMethodRenamed | staticMethodRenamed => exact congrArg not (hrenamed _ _)
  | exceptionsChanged | modifierChanged => exact SortedMap.any_part_ne_comm _ _ _

/-- **Changes are the same from both sides.** Between two snapshots, the kinds of changes from the
second to the first are those from the first to the second, with members that come and members that
go exchanged. And of two collections of methods, those removed one way are those added the other
way, and those renamed are the same pairs, turned round and in the order of their other slots. -/
theorem classify_swap :
    (∀ before after : Snapshot, classify after before =
      ChangeKind.all.filter fun kind => kind.mirrored ∈ classify before after) ∧
    ∀ before after : SortedMap Signature Fingerprint,
      (MethodDiff.between after before).added = (MethodDiff.between before after).removed ∧
      (MethodDiff.between after before).removed = (MethodDiff.between before after).added ∧
      (MethodDiff.between after before).renamed.Perm
        ((MethodDiff.between before after).renamed.map Prod.swap) ∧
      ((MethodDiff.between after before).renamed.map (·.1)).Pairwise
        fun a b => compare a b = .lt := by
  refine ⟨fun before after => List.filter_congr fun kind _ => ?_, fun before after =>
    ⟨MethodDiff.added_swap before after, (MethodDiff.added_swap after before).symm,
      MethodDiff.perm_renamed_swap before after, MethodDiff.pairwise_renamed after before⟩⟩
  rw [ChangeKind.occurs_swap, Bool.eq_iff_iff, decide_eq_true_iff, mem_classify]

/-- Two methods with one fingerprint go and three come, from both sides. -/
example : MethodDiff.between (.ofList [("d()V", ⟨"1"⟩), ("e()V", ⟨"1"⟩)])
      (.ofList [("a()V", ⟨"1"⟩), ("b()V", ⟨"1"⟩), ("c()V", ⟨"1"⟩)]) =
        ⟨["c()V"], [], [("d()V", "a()V"), ("e()V", "b()V")]⟩ ∧
    MethodDiff.between (.ofList [("a()V", ⟨"1"⟩), ("b()V", ⟨"1"⟩), ("c()V", ⟨"1"⟩)])
      (.ofList [("d()V", ⟨"1"⟩), ("e()V", ⟨"1"⟩)]) =
        ⟨[], ["c()V"], [("a()V", "d()V"), ("b()V", "e()V")]⟩ := by
  decide +kernel

end Retest

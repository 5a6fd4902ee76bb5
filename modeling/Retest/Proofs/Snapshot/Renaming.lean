import Mathlib.Data.List.Nodup
import Retest.Proofs.Analysis
import Retest.Snapshot.Change

/-!
# Methods that come, go and are renamed

Two collections of methods are compared slot by slot. Slots with different entries
are left over, and of these an old one and a new one with the same fingerprint are
taken for one method that was renamed. `Retest.MethodDiff.Exact` says what the outcome
has to be: the slots left over on either side, each once and on its own side, renamed
methods that are gone from one side and new on the other, and no two left that could
still be paired. `Retest.MethodDiff.exact_between` says that this is what comes out.

The pairing walks through the old slots and takes each partner out of the new ones
(`Retest.MethodDiff.pair`). So its invariants are about whatever is still to be walked
through: what comes out is a rearrangement of what went in
(`Retest.MethodDiff.perm_pair_old`, `Retest.MethodDiff.perm_pair_new`), and what no
partner was found for at its turn has none among those that stay to the end, since the
new ones only become fewer (`Retest.MethodDiff.get?_ne_of_mem_pair`).
-/

namespace Retest.MethodDiff

variable {before after : SortedMap Signature Fingerprint}

/-! ### What is left over -/

theorem mem_leftOver {m n : SortedMap Signature Fingerprint} {slot : Signature} {f : Fingerprint} :
    (slot, f) ∈ leftOver m n ↔ m.get? slot = some f ∧ n.get? slot ≠ some f := by
  rw [leftOver, List.mem_filter, SortedMap.get?_eq_some_iff]
  simp

theorem mem_map_leftOver {m n : SortedMap Signature Fingerprint} {slot : Signature} :
    slot ∈ (leftOver m n).map (·.1) ↔ ∃ f, m.get? slot = some f ∧ n.get? slot ≠ some f := by
  simp [List.mem_map, mem_leftOver]

/-- The slots left over are in order. -/
theorem pairwise_map_leftOver (m n : SortedMap Signature Fingerprint) :
    ((leftOver m n).map (·.1)).Pairwise fun a b => compare a b = .lt :=
  List.pairwise_map.2 (m.sorted.sublist List.filter_sublist)

theorem nodup_map_leftOver (m n : SortedMap Signature Fingerprint) :
    ((leftOver m n).map (·.1)).Nodup := by
  refine (pairwise_map_leftOver m n).imp fun {a b} hlt hab => ?_
  subst hab
  exact compare_self_ne_lt a hlt

/-! ### One step -/

/-- The partner of an old slot: the first new one with its fingerprint, if the old slot is no longer
in use and the new one was not in use before. -/
def partner? (before after : SortedMap Signature Fingerprint) (entry : Signature × Fingerprint)
    (new : List (Signature × Fingerprint)) : Option (Signature × Fingerprint) :=
  if after.contains entry.1 then none
  else new.find? fun e => e.2 = entry.2 && !before.contains e.1

theorem pair_cons_of_some {entry partner : Signature × Fingerprint}
    {old new : List (Signature × Fingerprint)}
    (h : partner? before after entry new = some partner) : pair before after (entry :: old) new =
      { pair before after old (new.erase partner) with
        renamed :=
          (entry.1, partner.1) :: (pair before after old (new.erase partner)).renamed } := by
  obtain ⟨slot, f⟩ := entry
  rw [pair]
  split
  · next other hother => rw [Option.some.inj (hother.symm.trans h)]
  · next hnone => cases hnone.symm.trans h

theorem pair_cons_of_none {entry : Signature × Fingerprint}
    {old new : List (Signature × Fingerprint)} (h : partner? before after entry new = none) :
    pair before after (entry :: old) new =
      { pair before after old new with
        removed := entry.1 :: (pair before after old new).removed } := by
  obtain ⟨slot, f⟩ := entry
  rw [pair]
  split
  · next other hother => cases hother.symm.trans h
  · rfl

theorem partner?_eq_some {entry partner : Signature × Fingerprint}
    {new : List (Signature × Fingerprint)} (h : partner? before after entry new = some partner) :
    partner ∈ new ∧ partner.2 = entry.2 ∧ after.get? entry.1 = none ∧
      before.get? partner.1 = none := by
  rw [partner?] at h
  split at h
  · cases h
  · next hgone =>
    have hfound := List.find?_some h
    simp only [Bool.and_eq_true, decide_eq_true_eq, Bool.not_eq_true'] at hfound
    exact ⟨List.mem_of_find?_eq_some h, hfound.1, by simpa [SortedMap.contains] using hgone,
      by simpa [SortedMap.contains] using hfound.2⟩

theorem ne_of_partner?_eq_none {entry e : Signature × Fingerprint}
    {new : List (Signature × Fingerprint)} (h : partner? before after entry new = none)
    (hgone : after.get? entry.1 = none) (he : e ∈ new) (hfresh : before.get? e.1 = none) :
    e.2 ≠ entry.2 := by
  have hcontains : ¬after.contains entry.1 = true := by simp [SortedMap.contains, hgone]
  rw [partner?, if_neg hcontains, List.find?_eq_none] at h
  intro heq
  exact h e he (by simp [heq, SortedMap.contains, hfresh])

/-! ### The whole walk -/

/-- No old slot is lost, and none is made up. -/
theorem perm_pair_old (before after : SortedMap Signature Fingerprint)
    (old new : List (Signature × Fingerprint)) :
    ((pair before after old new).removed ++ (pair before after old new).renamed.map (·.1)).Perm
      (old.map (·.1)) := by
  induction old generalizing new with
  | nil => exact .refl _
  | cons entry old ih =>
    cases h : partner? before after entry new with
    | some partner =>
      rw [pair_cons_of_some h, List.map_cons, List.map_cons]
      exact List.perm_middle.trans ((ih (new.erase partner)).cons _)
    | none =>
      rw [pair_cons_of_none h, List.map_cons, List.cons_append]
      exact (ih new).cons _

/-- No new slot is lost, and none is made up. -/
theorem perm_pair_new (before after : SortedMap Signature Fingerprint)
    (old new : List (Signature × Fingerprint)) :
    ((pair before after old new).added ++ (pair before after old new).renamed.map (·.2)).Perm
      (new.map (·.1)) := by
  induction old generalizing new with
  | nil => exact .of_eq (List.append_nil _)
  | cons entry old ih =>
    cases h : partner? before after entry new with
    | some partner =>
      -- the partner is taken out of the new slots and put among the renamed ones
      have hnew : (new.map (·.1)).Perm (partner.1 :: (new.erase partner).map (·.1)) :=
        (List.perm_cons_erase (partner?_eq_some h).1).map (·.1)
      rw [pair_cons_of_some h, List.map_cons]
      exact (List.perm_middle.trans ((ih (new.erase partner)).cons _)).trans hnew.symm
    | none =>
      rw [pair_cons_of_none h]
      exact ih new

/-- The slots that were not renamed stay in order. -/
theorem sublist_pair (before after : SortedMap Signature Fingerprint)
    (old new : List (Signature × Fingerprint)) :
    (pair before after old new).removed.Sublist (old.map (·.1)) ∧
      (pair before after old new).added.Sublist (new.map (·.1)) := by
  induction old generalizing new with
  | nil => exact ⟨.refl _, .refl _⟩
  | cons entry old ih =>
    cases h : partner? before after entry new with
    | some partner =>
      rw [pair_cons_of_some h, List.map_cons]
      obtain ⟨hremoved, hadded⟩ := ih (new.erase partner)
      exact ⟨hremoved.cons _, hadded.trans (List.erase_sublist.map _)⟩
    | none =>
      rw [pair_cons_of_none h, List.map_cons]
      exact ⟨(ih new).1.cons_cons _, (ih new).2⟩

/-- A renamed method is gone under the old slot and new under the other, with the same
fingerprint. -/
theorem of_mem_renamed_pair {old new : List (Signature × Fingerprint)} {e : Signature × Signature}
    (he : e ∈ (pair before after old new).renamed) :
    ∃ f, (e.1, f) ∈ old ∧ (e.2, f) ∈ new ∧ after.get? e.1 = none ∧ before.get? e.2 = none := by
  induction old generalizing new with
  | nil => cases he
  | cons entry old ih =>
    cases h : partner? before after entry new with
    | some partner =>
      rw [pair_cons_of_some h] at he
      rcases List.mem_cons.1 he with rfl | he
      · obtain ⟨hmem, heq, hgone, hfresh⟩ := partner?_eq_some h
        exact ⟨entry.2, List.mem_cons_self, heq ▸ hmem, hgone, hfresh⟩
      · obtain ⟨f, hold, hnew, hgone, hfresh⟩ := ih he
        exact ⟨f, List.mem_cons_of_mem _ hold, List.mem_of_mem_erase hnew, hgone, hfresh⟩
    | none =>
      rw [pair_cons_of_none h] at he
      obtain ⟨f, hold, hnew, hgone, hfresh⟩ := ih he
      exact ⟨f, List.mem_cons_of_mem _ hold, hnew, hgone, hfresh⟩

/-- **No two that could be paired are left**: what is removed and gone has another fingerprint than
what is added and new. -/
theorem get?_ne_of_mem_pair {old new : List (Signature × Fingerprint)}
    (hold : ∀ e ∈ old, before.get? e.1 = some e.2) (hnew : ∀ e ∈ new, after.get? e.1 = some e.2)
    {o n : Signature} (ho : o ∈ (pair before after old new).removed)
    (hn : n ∈ (pair before after old new).added) (hgone : after.get? o = none)
    (hfresh : before.get? n = none) : before.get? o ≠ after.get? n := by
  induction old generalizing new with
  | nil => cases ho
  | cons entry old ih =>
    have hold' : ∀ e ∈ old, before.get? e.1 = some e.2 := fun e he =>
      hold e (List.mem_cons_of_mem _ he)
    cases h : partner? before after entry new with
    | some partner =>
      rw [pair_cons_of_some h] at ho hn
      exact ih hold' (fun e he => hnew e (List.mem_of_mem_erase he)) ho hn
    | none =>
      rw [pair_cons_of_none h] at ho hn
      rcases List.mem_cons.1 ho with rfl | ho
      · -- what stays to the end was there when this slot looked for its partner
        obtain ⟨e, he, rfl⟩ := List.mem_map.1 ((sublist_pair before after old new).2.subset hn)
        rw [hold entry List.mem_cons_self, hnew e he]
        exact fun heq => ne_of_partner?_eq_none h hgone he hfresh (Option.some.inj heq).symm
      · exact ih hold' hnew ho hn

/-! ### Differences -/

variable (before after)

theorem perm_between_old :
    ((between before after).removed ++ (between before after).renamed.map (·.1)).Perm
      ((leftOver before after).map (·.1)) :=
  perm_pair_old before after _ _

theorem perm_between_new :
    ((between before after).added ++ (between before after).renamed.map (·.2)).Perm
      ((leftOver after before).map (·.1)) :=
  perm_pair_new before after _ _

variable {before after}

/-- **The old slots of a difference**: those with another entry afterwards, or none. -/
theorem mem_between_old {slot : Signature} :
    slot ∈ (between before after).removed ∨ slot ∈ (between before after).renamed.map (·.1) ↔
      ∃ f, before.get? slot = some f ∧ after.get? slot ≠ some f := by
  rw [← List.mem_append, (perm_between_old before after).mem_iff, mem_map_leftOver]

/-- **The new slots of a difference**: those with another entry before, or none. -/
theorem mem_between_new {slot : Signature} :
    slot ∈ (between before after).added ∨ slot ∈ (between before after).renamed.map (·.2) ↔
      ∃ f, after.get? slot = some f ∧ before.get? slot ≠ some f := by
  rw [← List.mem_append, (perm_between_new before after).mem_iff, mem_map_leftOver]

/-- A method that is no longer there as it was is removed or renamed. -/
theorem ne_nil_of_gone {slot : Signature} {f : Fingerprint} (hbefore : before.get? slot = some f)
    (hafter : after.get? slot ≠ some f) :
    (between before after).removed ≠ [] ∨ (between before after).renamed ≠ [] := by
  rcases mem_between_old.2 ⟨f, hbefore, hafter⟩ with h | h
  · exact .inl (List.ne_nil_of_mem h)
  · exact .inr (mt List.map_eq_nil_iff.2 (List.ne_nil_of_mem h))

/-- One that was not there as it is now is added or renamed. -/
theorem ne_nil_of_new {slot : Signature} {f : Fingerprint} (hbefore : before.get? slot ≠ some f)
    (hafter : after.get? slot = some f) :
    (between before after).added ≠ [] ∨ (between before after).renamed ≠ [] := by
  rcases mem_between_new.2 ⟨f, hafter, hbefore⟩ with h | h
  · exact .inl (List.ne_nil_of_mem h)
  · exact .inr (mt List.map_eq_nil_iff.2 (List.ne_nil_of_mem h))

/-- **Where there is no difference, the collections are the same.** -/
theorem eq_of_between (hadded : (between before after).added = [])
    (hremoved : (between before after).removed = [])
    (hrenamed : (between before after).renamed = []) : before = after := by
  refine SortedMap.ext_get? fun slot => Option.ext fun f => ⟨fun hf => ?_, fun hf => ?_⟩
  · by_contra hne
    have hslot := mem_between_old.2 ⟨f, hf, hne⟩
    simp [hremoved, hrenamed] at hslot
  · by_contra hne
    have hslot := mem_between_new.2 ⟨f, hf, hne⟩
    simp [hadded, hrenamed] at hslot

/-- A renamed method is gone under its old slot, was not there under its new one, and has kept its
fingerprint. -/
theorem of_mem_renamed_between {e : Signature × Signature}
    (he : e ∈ (between before after).renamed) :
    after.get? e.1 = none ∧ before.get? e.2 = none ∧
      ∃ f, before.get? e.1 = some f ∧ after.get? e.2 = some f := by
  obtain ⟨f, hold, hnew, hgone, hfresh⟩ := of_mem_renamed_pair he
  exact ⟨hgone, hfresh, f, (mem_leftOver.1 hold).1, (mem_leftOver.1 hnew).1⟩

/-- No slot is in two pairs, on whichever side. -/
theorem nodup_renamed_between :
    ((between before after).renamed.map (·.1) ++
      (between before after).renamed.map (·.2)).Nodup := by
  have hold := (perm_between_old before after).nodup_iff.2 (nodup_map_leftOver before after)
  have hnew := (perm_between_new before after).nodup_iff.2 (nodup_map_leftOver after before)
  refine List.nodup_append.2 ⟨(List.nodup_append.1 hold).2.1, (List.nodup_append.1 hnew).2.1, ?_⟩
  -- an old slot was in use before, and a new one was not
  rintro a ha b hb rfl
  obtain ⟨e, he, rfl⟩ := List.mem_map.1 ha
  obtain ⟨e', he', heq⟩ := List.mem_map.1 hb
  obtain ⟨-, -, f, hf, -⟩ := of_mem_renamed_between he
  have hfresh := (of_mem_renamed_between he').2.1
  rw [heq, hf] at hfresh
  cases hfresh

/-- **What the difference of two collections of methods has to be.** -/
structure Exact (before after : SortedMap Signature Fingerprint) (diff : MethodDiff) : Prop where
  /-- The slots removed or renamed are those that have another entry afterwards, or none. -/
  old : ∀ slot, slot ∈ diff.removed ∨ slot ∈ diff.renamed.map (·.1) ↔
    ∃ f, before.get? slot = some f ∧ after.get? slot ≠ some f
  /-- None of them is both. -/
  old_apart : ∀ slot ∈ diff.removed, slot ∉ diff.renamed.map (·.1)
  /-- The slots added or renamed to are those that had another entry before, or none. -/
  new : ∀ slot, slot ∈ diff.added ∨ slot ∈ diff.renamed.map (·.2) ↔
    ∃ f, after.get? slot = some f ∧ before.get? slot ≠ some f
  /-- None of them is both. -/
  new_apart : ∀ slot ∈ diff.added, slot ∉ diff.renamed.map (·.2)
  /-- A renamed method is gone, is new, and has kept its fingerprint. -/
  renamed : ∀ e ∈ diff.renamed, after.get? e.1 = none ∧ before.get? e.2 = none ∧
    ∃ f, before.get? e.1 = some f ∧ after.get? e.2 = some f
  /-- No slot is in two pairs. -/
  once : (diff.renamed.map (·.1) ++ diff.renamed.map (·.2)).Nodup
  /-- No two that could be paired are left. -/
  maximal : ∀ o ∈ diff.removed, ∀ n ∈ diff.added, after.get? o = none → before.get? n = none →
    before.get? o ≠ after.get? n
  /-- Slots are listed in order, each once. -/
  sorted : diff.removed.Pairwise (fun a b => compare a b = .lt) ∧
    diff.added.Pairwise fun a b => compare a b = .lt

/-- **The difference of two collections of methods is exact, and no pair is missed.** -/
theorem exact_between (before after : SortedMap Signature Fingerprint) :
    Exact before after (between before after) where
  old _ := mem_between_old
  old_apart slot hremoved hrenamed :=
    (List.nodup_append.1 ((perm_between_old before after).nodup_iff.2
      (nodup_map_leftOver before after))).2.2 slot hremoved slot hrenamed rfl
  new _ := mem_between_new
  new_apart slot hadded hrenamed :=
    (List.nodup_append.1 ((perm_between_new before after).nodup_iff.2
      (nodup_map_leftOver after before))).2.2 slot hadded slot hrenamed rfl
  renamed _ := of_mem_renamed_between
  once := nodup_renamed_between
  maximal _ ho _ hn := get?_ne_of_mem_pair (fun _ he => (mem_leftOver.1 he).1)
    (fun _ he => (mem_leftOver.1 he).1) ho hn
  sorted :=
    ⟨(pairwise_map_leftOver before after).sublist (sublist_pair before after _ _).1,
      (pairwise_map_leftOver after before).sublist (sublist_pair before after _ _).2⟩

/-- Of two methods with one fingerprint that are gone, the first is taken for the new one. -/
example : between (.ofList [("f()V", ⟨"1"⟩), ("g()V", ⟨"1"⟩), ("h()V", ⟨"2"⟩)])
    (.ofList [("h()V", ⟨"3"⟩), ("k()V", ⟨"1"⟩)]) =
      ⟨["h()V"], ["g()V", "h()V"], [("f()V", "k()V")]⟩ := by
  decide +kernel

end Retest.MethodDiff

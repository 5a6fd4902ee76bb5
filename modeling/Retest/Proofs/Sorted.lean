import Retest.Sorted.Map

/-!
# More on sorted sets and maps

What a set or a map is after it was taken apart and put together again, and what
a map made from a list holds. A list may name a key more than once; as long as
it never says two different things of one key, the order of its entries does not
matter (`Retest.SortedMap.lastValue?_eq_some`).
-/

namespace Retest

namespace SortedSet

variable {α : Type} [Ord α] [Std.TransOrd α] [Std.LawfulEqOrd α]

/-- A set is the set of its elements. -/
@[simp] theorem ofList_toList (s : SortedSet α) : ofList s.toList = s :=
  ext_mem fun a => by rw [mem_ofList, mem_toList]

/-- A filter that every element passes changes nothing. -/
theorem filter_eq_self {s : SortedSet α} {p : α → Bool} (h : ∀ a ∈ s, p a = true) :
    s.filter p = s :=
  ext_mem fun a => by
    rw [mem_filter]
    exact ⟨And.left, fun ha => ⟨ha, h a ha⟩⟩

theorem eq_empty_of_forall {s : SortedSet α} (h : ∀ a, a ∉ s) : s = ∅ :=
  ext_mem fun a => by
    rw [mem_empty]
    exact iff_false_intro (h a)

theorem union_assoc (s t u : SortedSet α) : s ∪ t ∪ u = s ∪ (t ∪ u) :=
  ext_mem fun a => by simp only [mem_union, or_assoc]

theorem union_ofList (s : SortedSet α) (l : List α) : s ∪ ofList l = s.insertMany l :=
  ext_mem fun a => by rw [mem_union, mem_ofList, mem_insertMany]

@[simp] theorem union_empty (s : SortedSet α) : s ∪ ∅ = s := rfl

@[simp] theorem empty_union (s : SortedSet α) : ∅ ∪ s = s :=
  ext_mem fun a => by simp

end SortedSet

namespace SortedMap

variable {κ β : Type} [Ord κ]

@[simp] theorem get?_empty (k : κ) : (∅ : SortedMap κ β).get? k = none := rfl

variable [Std.LawfulEqOrd κ]

theorem mem_keys_of_get? {m : SortedMap κ β} {k : κ} {v : β} (h : m.get? k = some v) :
    k ∈ m.keys :=
  mem_keys.2 ⟨v, h⟩

theorem isEmpty_eq_true_iff {m : SortedMap κ β} : m.isEmpty = true ↔ ∀ k, m.get? k = none := by
  rw [isEmpty, List.isEmpty_iff]
  constructor
  · intro h k
    rw [get?, h]
    rfl
  · intro h
    refine List.eq_nil_iff_forall_not_mem.2 fun e he => ?_
    have hsome : m.get? e.1 = some e.2 := get?_eq_some_iff.2 he
    rw [h] at hsome
    cases hsome

/-- A look-up after filtering. -/
theorem get?_filter (m : SortedMap κ β) (p : κ → β → Bool) (k : κ) :
    (m.filter p).get? k = (m.get? k).filter (p k) := by
  ext v
  rw [get?_filter_eq_some, Option.filter_eq_some_iff]

/-! ### What a list of entries says of a key -/

theorem mem_of_lastValue? {l : List (κ × β)} {k : κ} {v : β} (h : lastValue? l k = some v) :
    (k, v) ∈ l := by
  obtain ⟨e, he, rfl⟩ := Option.map_eq_some_iff.1 h
  have hk : k = e.1 := by
    have hc := List.find?_some he
    exact Std.LawfulEqOrd.eq_of_compare (eq_of_beq hc)
  subst hk
  exact List.mem_reverse.1 (List.mem_of_find?_eq_some he)

theorem lastValue?_eq_none {l : List (κ × β)} {k : κ} (h : ∀ v, (k, v) ∉ l) :
    lastValue? l k = none := by
  cases hl : lastValue? l k with
  | none => rfl
  | some v => exact absurd (mem_of_lastValue? hl) (h v)

theorem exists_lastValue?_of_mem {l : List (κ × β)} {k : κ} {v : β} (h : (k, v) ∈ l) :
    ∃ v', lastValue? l k = some v' := by
  have hsome : (l.reverse.find? (compare k ·.1 == .eq)).isSome = true := by
    rw [List.find?_isSome]
    exact ⟨(k, v), List.mem_reverse.2 h, by simp⟩
  obtain ⟨e, he⟩ := Option.isSome_iff_exists.1 hsome
  exact ⟨e.2, by rw [lastValue?, he]; rfl⟩

/-- **A list that agrees with itself about a key says what any of its entries says.** -/
theorem lastValue?_eq_some {l : List (κ × β)} {k : κ} {v : β} (h : (k, v) ∈ l)
    (hl : ∀ v', (k, v') ∈ l → v' = v) : lastValue? l k = some v := by
  obtain ⟨v', hlast⟩ := exists_lastValue?_of_mem h
  rw [hlast, hl v' (mem_of_lastValue? hlast)]

/-- If a list says one thing of a key at most, this is what counts. -/
theorem lastValue?_eq_of_mem_iff {l : List (κ × β)} {k : κ} {o : Option β}
    (h : ∀ v, (k, v) ∈ l ↔ o = some v) : lastValue? l k = o := by
  cases o with
  | none => exact lastValue?_eq_none fun v hv => Option.some_ne_none v ((h v).1 hv).symm
  | some v => exact lastValue?_eq_some ((h v).2 rfl) fun w hw => (Option.some.inj ((h w).1 hw)).symm

theorem lastValue?_entries (m : SortedMap κ β) (k : κ) : lastValue? m.entries k = m.get? k :=
  lastValue?_eq_of_mem_iff fun _ => get?_eq_some_iff.symm

variable [Std.TransOrd κ] [DecidableEq κ]

/-! ### Maps of sets -/

section Sets

variable {α : Type} [Ord α] [Std.TransOrd α] [Std.LawfulEqOrd α]

theorem get?_addTo (m : SortedMap κ (SortedSet α)) (k k' : κ) (more : SortedSet α) :
    (m.addTo k more).get? k' =
      if k' = k then some ((m.get? k).getD ∅ ∪ more) else m.get? k' := by
  rw [addTo, alter, get?_insert]

theorem mem_get?_addTo {m : SortedMap κ (SortedSet α)} {k k' : κ} {more : SortedSet α} {x : α} :
    x ∈ ((m.addTo k more).get? k').getD ∅ ↔
      x ∈ (m.get? k').getD ∅ ∨ k' = k ∧ x ∈ more := by
  rw [get?_addTo]
  by_cases hk : k' = k
  · subst hk
    simp
  · simp [hk]

/-- What is under a key after adding a map of sets: what was there, with what the other map has. -/
theorem get?_addAll (base m : SortedMap κ (SortedSet α)) (k : κ) :
    (base.addAll m).get? k =
      (m.get? k).elim (base.get? k) fun more => some ((base.get? k).getD ∅ ∪ more) := by
  suffices h : ∀ l : List (κ × SortedSet α), l.Pairwise (fun a b => compare a.1 b.1 = .lt) →
      ∀ b : SortedMap κ (SortedSet α), (l.foldl (fun b e => b.addTo e.1 e.2) b).get? k =
        ((l.find? (compare k ·.1 == .eq)).map (·.2)).elim (b.get? k)
          fun more => some ((b.get? k).getD ∅ ∪ more) from h _ m.sorted base
  intro l hl
  induction l with
  | nil => exact fun b => rfl
  | cons e l ih =>
    obtain ⟨he, htl⟩ := List.pairwise_cons.1 hl
    intro b
    rw [List.foldl_cons, ih htl, get?_addTo]
    by_cases hk : k = e.1
    · -- no later entry has this key
      have hnone : l.find? (compare k ·.1 == .eq) = none := by
        refine List.find?_eq_none.2 fun x hx hc => ?_
        have hlt := he x hx
        rw [← hk, eq_of_beq hc] at hlt
        cases hlt
      subst hk
      simp [hnone]
    · have hne : (compare k e.1 == .eq) = false :=
        beq_eq_false_iff_ne.2 fun hc => hk (Std.LawfulEqOrd.eq_of_compare hc)
      rw [if_neg hk, List.find?_cons, hne]

theorem addAll_addTo (base m : SortedMap κ (SortedSet α)) (k : κ) (more : SortedSet α) :
    base.addAll (m.addTo k more) = (base.addAll m).addTo k more := by
  refine ext_get? fun k' => ?_
  rw [get?_addAll, get?_addTo, get?_addTo, get?_addAll]
  by_cases hk : k' = k
  · subst hk
    cases hm : m.get? k' with
    | none => simp
    | some s => simp [SortedSet.union_assoc]
  · rw [if_neg hk, if_neg hk, get?_addAll]

/-- Changing the sets of a map before or after adding to one. -/
theorem map_addTo {β : Type} [Ord β] [Std.TransOrd β] [Std.LawfulEqOrd β] (f : α → β)
    (m : SortedMap κ (SortedSet α)) (k : κ) (more : SortedSet α) :
    (m.addTo k more).map (·.image f) = (m.map (·.image f)).addTo k (more.image f) := by
  have himage : ∀ s : SortedSet α, (s ∪ more).image f = s.image f ∪ more.image f := by
    intro s
    refine SortedSet.ext_mem fun b => ?_
    simp only [SortedSet.mem_image, SortedSet.mem_union, or_and_right, exists_or]
  refine ext_get? fun k' => ?_
  rw [get?_map, get?_addTo, get?_addTo, get?_map, get?_map]
  by_cases hk : k' = k
  · subst hk
    rw [if_pos rfl, if_pos rfl, Option.map_some, himage]
    cases m.get? k' <;> rfl
  · rw [if_neg hk, if_neg hk]

omit [Std.TransOrd κ] [DecidableEq κ] [Std.TransOrd α] [Std.LawfulEqOrd α] in
theorem mem_values_flatMap {m : SortedMap κ (SortedSet α)} {k : κ} {x : α}
    (hx : x ∈ (m.get? k).getD ∅) : x ∈ m.values.flatMap SortedSet.toList := by
  cases hget : m.get? k with
  | none =>
    rw [hget] at hx
    exact absurd hx (SortedSet.not_mem_empty x)
  | some set =>
    rw [hget] at hx
    exact List.mem_flatMap.2 ⟨set, mem_values.2 ⟨k, hget⟩, hx⟩

omit [Std.LawfulEqOrd κ] [Std.TransOrd κ] [DecidableEq κ] [Std.TransOrd α]
  [Std.LawfulEqOrd α] in
theorem length_values_flatMap (m : SortedMap κ (SortedSet α)) :
    (m.values.flatMap SortedSet.toList).length = m.total := by
  rw [total]
  induction m.values with
  | nil => rfl
  | cons set values ih =>
    rw [List.flatMap_cons, List.length_append, ih]
    rfl

end Sets

/-- A map is the map of its entries. -/
@[simp] theorem ofList_entries (m : SortedMap κ β) : ofList m.entries = m :=
  ext_get? fun k => by rw [get?_ofList, lastValue?_entries]

/-- Every entry of a map that is made from a list stands in that list. -/
theorem mem_of_get?_ofList {l : List (κ × β)} {k : κ} {v : β} (h : (ofList l).get? k = some v) :
    (k, v) ∈ l :=
  mem_of_lastValue? (by rwa [get?_ofList] at h)

/-- Where a list says one thing of a key at most, look-ups find just what it says. -/
theorem get?_ofList_eq_some_iff {l : List (κ × β)} {k : κ}
    (hl : ∀ v w, (k, v) ∈ l → (k, w) ∈ l → w = v) {v : β} :
    (ofList l).get? k = some v ↔ (k, v) ∈ l := by
  refine ⟨mem_of_get?_ofList, fun h => ?_⟩
  rw [get?_ofList]
  exact lastValue?_eq_some h fun w hw => hl v w h hw

end SortedMap

end Retest

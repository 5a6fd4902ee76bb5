import Retest.Sorted.Set

/-!
# Sorted maps

A finite map, kept as the list of its entries in strictly increasing order of
their keys. As with `Retest.SortedSet`, the representation is canonical: a map
is determined by its look-ups (`Retest.SortedMap.ext_get?`), and listing it
yields the order in which it is printed and written.

The one operation that rebuilds the list is `Retest.SortedMap.insert`, whose
law is `Retest.SortedMap.get?_insert`; the others keep the keys or drop some.
-/

namespace Retest

/-- **A finite map**, as the list of its entries by increasing key. Two maps with the same entries
are equal, in whatever order the entries were stored. -/
structure SortedMap (κ β : Type) [Ord κ] where
  /-- The entries, by increasing key. -/
  entries : List (κ × β)
  /-- Each key lies below all that follow it. -/
  sorted : entries.Pairwise (fun a b => compare a.1 b.1 = .lt)

namespace SortedMap

variable {κ β γ : Type} [Ord κ]

theorem ext_entries {m n : SortedMap κ β} (h : m.entries = n.entries) : m = n := by
  cases m; cases n; cases h; rfl

instance [DecidableEq κ] [DecidableEq β] : DecidableEq (SortedMap κ β) := fun m n =>
  if h : m.entries = n.entries then isTrue (ext_entries h)
  else isFalse fun he => h (congrArg entries he)

def empty : SortedMap κ β := ⟨[], .nil⟩

instance : EmptyCollection (SortedMap κ β) := ⟨empty⟩

instance : Inhabited (SortedMap κ β) := ⟨empty⟩

@[simp] theorem entries_empty : (∅ : SortedMap κ β).entries = [] := rfl

def size (m : SortedMap κ β) : Nat := m.entries.length

def isEmpty (m : SortedMap κ β) : Bool := m.entries.isEmpty

def get? (m : SortedMap κ β) (k : κ) : Option β :=
  (m.entries.find? (compare k ·.1 == .eq)).map (·.2)

def contains (m : SortedMap κ β) (k : κ) : Bool := (m.get? k).isSome

def keys (m : SortedMap κ β) : SortedSet κ := ⟨m.entries.map (·.1), m.sorted.map _ fun _ _ h => h⟩

/-- The values, by increasing key. -/
def values (m : SortedMap κ β) : List β := m.entries.map (·.2)

/-- How many elements the sets of a map have, taken together. -/
def total {α : Type} [Ord α] (m : SortedMap κ (SortedSet α)) : Nat :=
  (m.values.map SortedSet.size).foldr (· + ·) 0

/-- Change every value, knowing its key. -/
def mapWithKey (m : SortedMap κ β) (f : κ → β → γ) : SortedMap κ γ :=
  ⟨m.entries.map fun e => (e.1, f e.1 e.2), m.sorted.map _ fun _ _ h => h⟩

def map (m : SortedMap κ β) (f : β → γ) : SortedMap κ γ := m.mapWithKey fun _ => f

def filter (m : SortedMap κ β) (p : κ → β → Bool) : SortedMap κ β :=
  ⟨m.entries.filter fun e => p e.1 e.2, m.sorted.filter _⟩

def erase (m : SortedMap κ β) (k : κ) : SortedMap κ β := m.filter fun k' _ => compare k k' != .eq

/-! ### Insertion -/

/-- Put an entry at its place in a list of entries by increasing key, in the
place of the entry with that key if there is one. -/
def place (k : κ) (v : β) : List (κ × β) → List (κ × β)
  | [] => [(k, v)]
  | e :: l =>
    match compare k e.1 with
    | .lt => (k, v) :: e :: l
    | .eq => (k, v) :: l
    | .gt => e :: place k v l

theorem mem_of_mem_place {k : κ} {v : β} {x : κ × β} {l : List (κ × β)} (h : x ∈ place k v l) :
    x = (k, v) ∨ x ∈ l := by
  induction l with
  | nil => simpa [place] using h
  | cons e l ih =>
    cases hc : compare k e.1 with
    | lt => simpa [place, hc] using h
    | eq =>
      rw [place, hc] at h
      exact (List.mem_cons.1 h).imp_right (List.mem_cons_of_mem _)
    | gt =>
      rw [place, hc] at h
      rcases List.mem_cons.1 h with rfl | h
      · exact .inr List.mem_cons_self
      · exact (ih h).imp_right (List.mem_cons_of_mem _)

variable [Std.TransOrd κ] [Std.LawfulEqOrd κ]

theorem pairwise_place {k : κ} {v : β} {l : List (κ × β)}
    (h : l.Pairwise (fun a b => compare a.1 b.1 = .lt)) :
    (place k v l).Pairwise (fun a b => compare a.1 b.1 = .lt) := by
  induction l with
  | nil => simp [place]
  | cons e l ih =>
    obtain ⟨he, hl⟩ := List.pairwise_cons.1 h
    cases hc : compare k e.1 with
    | lt =>
      simp only [place, hc]
      refine List.pairwise_cons.2 ⟨fun x hx => ?_, h⟩
      rcases List.mem_cons.1 hx with rfl | hx
      · exact hc
      · exact Std.TransCmp.lt_trans hc (he x hx)
    | eq =>
      simp only [place, hc]
      refine List.pairwise_cons.2 ⟨fun x hx => ?_, hl⟩
      rw [show k = e.1 from Std.LawfulEqOrd.eq_of_compare hc]
      exact he x hx
    | gt =>
      simp only [place, hc]
      refine List.pairwise_cons.2 ⟨fun x hx => ?_, ih hl⟩
      rcases mem_of_mem_place hx with rfl | hx
      · exact Std.OrientedCmp.lt_of_gt hc
      · exact he x hx

/-- Store a value under a key, in the place of any value it had. -/
def insert (m : SortedMap κ β) (k : κ) (v : β) : SortedMap κ β :=
  ⟨place k v m.entries, pairwise_place m.sorted⟩

/-- Store, under a key, a value that depends on the one it had. -/
def alter (m : SortedMap κ β) (k : κ) (f : Option β → β) : SortedMap κ β :=
  m.insert k (f (m.get? k))

/-- Change the value that is stored under a key, if there is one. -/
def modify (m : SortedMap κ β) (k : κ) (f : β → β) : SortedMap κ β :=
  match m.get? k with
  | none => m
  | some v => m.insert k (f v)

/-- Store every entry of a list; of entries with the same key the last stays. -/
def insertMany (m : SortedMap κ β) (l : List (κ × β)) : SortedMap κ β :=
  l.foldl (fun m e => m.insert e.1 e.2) m

def ofList (l : List (κ × β)) : SortedMap κ β := (∅ : SortedMap κ β).insertMany l

/-! ### Maps of sets -/

section Sets

variable {α : Type} [Ord α] [Std.TransOrd α] [Std.LawfulEqOrd α]

/-- Add elements to the set that is stored under a key. -/
def addTo (m : SortedMap κ (SortedSet α)) (k : κ) (more : SortedSet α) :
    SortedMap κ (SortedSet α) :=
  m.alter k fun old => old.getD ∅ ∪ more

/-- Add to each set what another map has under its key. -/
def addAll (m others : SortedMap κ (SortedSet α)) : SortedMap κ (SortedSet α) :=
  others.entries.foldl (fun m e => m.addTo e.1 e.2) m

end Sets

/-! ### Look-ups -/

/-- Reading after a store sees the stored value under its key and the older ones elsewhere. -/
theorem get?_insert [DecidableEq κ] (m : SortedMap κ β) (k k' : κ) (v : β) :
    (m.insert k v).get? k' = if k' = k then some v else m.get? k' := by
  suffices h : ∀ l : List (κ × β),
      ((place k v l).find? (compare k' ·.1 == .eq)).map (·.2) =
        if k' = k then some v else (l.find? (compare k' ·.1 == .eq)).map (·.2) from h m.entries
  have eq_iff : ∀ a : κ, (compare k' a == .eq) = decide (k' = a) := fun a => by
    rw [Bool.eq_iff_iff]; simp
  intro l
  induction l with
  | nil => by_cases hk : k' = k <;> simp [place, eq_iff, hk]
  | cons e l ih =>
    cases hc : compare k e.1 with
    | lt => by_cases hk : k' = k <;> simp [place, hc, eq_iff, hk, List.find?_cons]
    | eq =>
      have hke : k = e.1 := Std.LawfulEqOrd.eq_of_compare hc
      by_cases hk : k' = k <;> simp [place, eq_iff, hk, ← hke]
    | gt =>
      by_cases hke : k' = e.1
      · have hk : ¬ k' = k := by
          rintro rfl
          rw [hke, compare_self] at hc
          cases hc
        simp [place, hc, hke, hke ▸ hk]
      · simp only [eq_iff] at ih
        simp [place, hc, eq_iff, hke, ih]

theorem get?_modify [DecidableEq κ] (m : SortedMap κ β) (k k' : κ) (f : β → β) :
    (m.modify k f).get? k' = (m.get? k').map fun v => if k' = k then f v else v := by
  rw [modify]
  by_cases hk : k' = k
  · subst hk
    split
    · next hnone => rw [hnone, Option.map_none]
    · next v hv => rw [get?_insert, if_pos rfl, hv, Option.map_some, if_pos rfl]
  · simp only [hk, if_false, Option.map_id']
    split
    · rfl
    · rw [get?_insert, if_neg hk]

/-- What a list of entries says of a key: the value of the last entry for it. -/
def lastValue? (l : List (κ × β)) (k : κ) : Option β :=
  (l.reverse.find? (compare k ·.1 == .eq)).map (·.2)

/-- Storing the entries of a list lets the last of them speak, and what was there where none
does. -/
theorem get?_insertMany [DecidableEq κ] (m : SortedMap κ β) (l : List (κ × β)) (k : κ) :
    (m.insertMany l).get? k = (lastValue? l k).or (m.get? k) := by
  induction l generalizing m with
  | nil => simp [insertMany, lastValue?]
  | cons e l ih =>
    have hm : m.insertMany (e :: l) = (m.insert e.1 e.2).insertMany l := rfl
    rw [hm, ih, get?_insert]
    simp only [lastValue?, List.reverse_cons, List.find?_append]
    cases hf : l.reverse.find? (compare k ·.1 == .eq) with
    | some f => simp
    | none =>
      by_cases hk : k = e.1
      · simp [hk]
      · have hc : ¬ compare k e.1 = .eq := fun h => hk (Std.LawfulEqOrd.eq_of_compare h)
        simp [hk, hc]

/-- What the map of a list holds under a key: the value of the last entry for it. -/
theorem get?_ofList [DecidableEq κ] (l : List (κ × β)) (k : κ) :
    (ofList l).get? k = lastValue? l k := by
  rw [ofList, get?_insertMany]
  simp [get?]

omit [Std.TransOrd κ] in
/-- A look-up finds exactly the entries. -/
theorem get?_eq_some_iff {m : SortedMap κ β} {k : κ} {v : β} :
    m.get? k = some v ↔ (k, v) ∈ m.entries := by
  suffices h : ∀ l : List (κ × β), l.Pairwise (fun a b => compare a.1 b.1 = .lt) →
      ((l.find? (compare k ·.1 == .eq)).map (·.2) = some v ↔ (k, v) ∈ l) from h _ m.sorted
  intro l hl
  induction l with
  | nil => simp
  | cons e l ih =>
    obtain ⟨he, htl⟩ := List.pairwise_cons.1 hl
    cases hc : compare k e.1 == .eq with
    | true =>
      have hke : k = e.1 := Std.LawfulEqOrd.eq_of_compare (eq_of_beq hc)
      rw [List.find?_cons, hc]
      constructor
      · intro h
        have hv : e.2 = v := by simpa using h
        exact List.mem_cons.2 (.inl (Prod.ext hke hv.symm))
      · intro h
        rcases List.mem_cons.1 h with h | h
        · simp [← h]
        · -- a second entry with this key would lie above itself
          have hlt := he _ h
          rw [show (k, v).1 = e.1 from hke, compare_self] at hlt
          cases hlt
    | false =>
      have hne : (k, v) ≠ e := by
        rintro rfl
        rw [compare_self] at hc
        cases hc
      rw [List.find?_cons, hc, ih htl, List.mem_cons]
      exact ⟨.inr, fun h => h.resolve_left hne⟩

omit [Std.TransOrd κ] in
theorem mem_keys {m : SortedMap κ β} {k : κ} : k ∈ m.keys ↔ ∃ v, m.get? k = some v := by
  have hk : k ∈ m.keys ↔ k ∈ m.entries.map (·.1) := Iff.rfl
  rw [hk, List.mem_map]
  constructor
  · rintro ⟨⟨k', v⟩, he, rfl⟩
    exact ⟨v, get?_eq_some_iff.2 he⟩
  · rintro ⟨v, hv⟩
    exact ⟨(k, v), get?_eq_some_iff.1 hv, rfl⟩

omit [Std.TransOrd κ] in
@[simp] theorem contains_eq_true {m : SortedMap κ β} {k : κ} :
    m.contains k = true ↔ k ∈ m.keys := by
  rw [mem_keys, contains, Option.isSome_iff_exists]

omit [Std.TransOrd κ] in
theorem mem_values {m : SortedMap κ β} {v : β} : v ∈ m.values ↔ ∃ k, m.get? k = some v := by
  rw [values, List.mem_map]
  constructor
  · rintro ⟨⟨k, v'⟩, he, rfl⟩
    exact ⟨k, get?_eq_some_iff.2 he⟩
  · rintro ⟨k, hk⟩
    exact ⟨(k, v), get?_eq_some_iff.1 hk, rfl⟩

omit [Std.TransOrd κ] in
@[simp] theorem get?_mapWithKey (m : SortedMap κ β) (f : κ → β → γ) (k : κ) :
    (m.mapWithKey f).get? k = (m.get? k).map (f k) := by
  have key : ∀ l : List (κ × β),
      (((l.map fun e => (e.1, f e.1 e.2)).find? (compare k ·.1 == .eq)).map (·.2)) =
        ((l.find? (compare k ·.1 == .eq)).map (·.2)).map (f k) := by
    intro l
    induction l with
    | nil => rfl
    | cons e l ih =>
      by_cases hc : compare k e.1 = .eq
      · have hk : k = e.1 := Std.LawfulEqOrd.eq_of_compare hc
        simp [← hk]
      · have hb : (compare k e.1 == .eq) = false := by simpa using hc
        simpa [List.find?_cons, hb] using ih
  exact key m.entries

omit [Std.TransOrd κ] in
@[simp] theorem get?_map (m : SortedMap κ β) (f : β → γ) (k : κ) :
    (m.map f).get? k = (m.get? k).map f := get?_mapWithKey m _ k

omit [Std.TransOrd κ] in
theorem get?_filter_eq_some {m : SortedMap κ β} {p : κ → β → Bool} {k : κ} {v : β} :
    (m.filter p).get? k = some v ↔ m.get? k = some v ∧ p k v = true := by
  rw [get?_eq_some_iff, get?_eq_some_iff]
  exact List.mem_filter

/-- **Extensionality**: maps with the same look-ups are equal. -/
theorem ext_get? {m n : SortedMap κ β} (h : ∀ k, m.get? k = n.get? k) : m = n := by
  have hm : ∀ e, e ∈ m.entries ↔ e ∈ n.entries := fun e => by
    rw [← get?_eq_some_iff, ← get?_eq_some_iff, h]
  apply ext_entries
  have nodup : ∀ l : SortedMap κ β, l.entries.Nodup := fun l => by
    refine l.sorted.imp fun {a b} hab he => ?_
    rw [← he] at hab
    exact compare_self_ne_lt _ hab
  have perm : m.entries.Perm n.entries :=
    (List.perm_ext_iff_of_nodup (nodup m) (nodup n)).2 hm
  refine perm.eq_of_pairwise (fun a b _ _ hab hba => ?_) m.sorted n.sorted
  exact absurd (Std.TransCmp.lt_trans hab hba) (compare_self_ne_lt _)

end SortedMap

end Retest

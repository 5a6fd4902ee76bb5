/-!
# Sorted sets

A finite set of keys, kept as the strictly increasing list of its elements.
The order is part of every answer this library gives – sets are printed,
compared and written to files in key order – so it is part of the type: two
sets with the same elements are the same value (`Retest.SortedSet.ext_mem`),
and `Retest.SortedSet.toList` lists them in increasing order.

Insertion is one pass over the list. Everything else is a fold of insertions
or a filter, and is described by its effect on membership.
-/

namespace Retest

theorem compare_self {α : Type} [Ord α] [Std.ReflOrd α] (a : α) : compare a a = .eq :=
  Std.ReflCmp.compare_self

theorem compare_self_ne_lt {α : Type} [Ord α] [Std.ReflOrd α] (a : α) : compare a a ≠ .lt := by
  simp

/-- **A set of keys**, as the strictly increasing list of its elements. Two sets with the same
elements are equal, in whatever order the elements were added. -/
structure SortedSet (α : Type) [Ord α] where
  /-- The elements, in increasing order. -/
  toList : List α
  /-- Each element lies below all that follow it. -/
  sorted : toList.Pairwise (fun a b => compare a b = .lt)

namespace SortedSet

variable {α : Type} [Ord α]

theorem ext_toList {s t : SortedSet α} (h : s.toList = t.toList) : s = t := by
  cases s; cases t; cases h; rfl

instance [DecidableEq α] : DecidableEq (SortedSet α) := fun s t =>
  if h : s.toList = t.toList then isTrue (ext_toList h)
  else isFalse fun he => h (congrArg toList he)

instance : Membership α (SortedSet α) := ⟨fun s a => a ∈ s.toList⟩

@[simp] theorem mem_toList {s : SortedSet α} {a : α} : a ∈ s.toList ↔ a ∈ s := Iff.rfl

def empty : SortedSet α := ⟨[], .nil⟩

instance : EmptyCollection (SortedSet α) := ⟨empty⟩

instance : Inhabited (SortedSet α) := ⟨empty⟩

@[simp] theorem toList_empty : (∅ : SortedSet α).toList = [] := rfl

theorem not_mem_empty (a : α) : a ∉ (∅ : SortedSet α) := List.not_mem_nil

@[simp] theorem mem_empty {a : α} : a ∈ (∅ : SortedSet α) ↔ False :=
  ⟨not_mem_empty a, False.elim⟩

theorem nodup_toList [Std.ReflOrd α] (s : SortedSet α) : s.toList.Nodup := by
  refine s.sorted.imp fun {a b} hab he => ?_
  rw [← he] at hab
  exact compare_self_ne_lt _ hab

def size (s : SortedSet α) : Nat := s.toList.length

def isEmpty (s : SortedSet α) : Bool := s.toList.isEmpty

@[simp] theorem isEmpty_eq_true {s : SortedSet α} : s.isEmpty = true ↔ s = ∅ := by
  rw [isEmpty, List.isEmpty_iff]
  exact ⟨fun h => ext_toList h, fun h => h ▸ rfl⟩

def contains (s : SortedSet α) (a : α) : Bool := s.toList.any (compare a · == .eq)

def filter (s : SortedSet α) (p : α → Bool) : SortedSet α :=
  ⟨s.toList.filter p, s.sorted.filter p⟩

@[simp] theorem mem_filter {s : SortedSet α} {p : α → Bool} {a : α} :
    a ∈ s.filter p ↔ a ∈ s ∧ p a = true := List.mem_filter

/-! ### Insertion -/

/-- Put `a` at its place in an increasing list, unless it is there already. -/
def place (a : α) : List α → List α
  | [] => [a]
  | b :: l =>
    match compare a b with
    | .lt => a :: b :: l
    | .eq => b :: l
    | .gt => b :: place a l

section

variable [Std.LawfulEqOrd α]

theorem mem_place {a x : α} {l : List α} : x ∈ place a l ↔ x = a ∨ x ∈ l := by
  induction l with
  | nil => simp [place]
  | cons b l ih =>
    cases h : compare a b with
    | lt => simp [place, h]
    | eq =>
      have hab : a = b := Std.LawfulEqOrd.eq_of_compare h
      simp [place, hab]
    | gt => simp [place, h, ih, or_left_comm]

@[simp] theorem contains_eq_true {s : SortedSet α} {a : α} : s.contains a = true ↔ a ∈ s := by
  simp only [contains, List.any_eq_true, beq_iff_eq]
  constructor
  · rintro ⟨x, hx, h⟩
    exact Std.LawfulEqOrd.eq_of_compare h ▸ hx
  · exact fun h => ⟨a, h, compare_self a⟩

@[simp] theorem contains_eq_false {s : SortedSet α} {a : α} : s.contains a = false ↔ a ∉ s := by
  rw [← contains_eq_true, Bool.not_eq_true]

instance (s : SortedSet α) (a : α) : Decidable (a ∈ s) :=
  decidable_of_iff (s.contains a = true) contains_eq_true

def inter (s t : SortedSet α) : SortedSet α := s.filter t.contains

instance : Inter (SortedSet α) := ⟨inter⟩

@[simp] theorem mem_inter {s t : SortedSet α} {x : α} : x ∈ s ∩ t ↔ x ∈ s ∧ x ∈ t := by
  show x ∈ s.filter t.contains ↔ _
  simp

def diff (s t : SortedSet α) : SortedSet α := s.filter fun a => !t.contains a

instance : SDiff (SortedSet α) := ⟨diff⟩

@[simp] theorem mem_diff {s t : SortedSet α} {x : α} : x ∈ s \ t ↔ x ∈ s ∧ x ∉ t := by
  show x ∈ s.filter (fun a => !t.contains a) ↔ _
  rw [mem_filter, Bool.not_eq_true', Bool.eq_false_iff, ne_eq, contains_eq_true]

end

variable [Std.TransOrd α] [Std.LawfulEqOrd α]

theorem pairwise_place {a : α} {l : List α} (h : l.Pairwise (fun a b => compare a b = .lt)) :
    (place a l).Pairwise (fun a b => compare a b = .lt) := by
  induction l with
  | nil => simp [place]
  | cons b l ih =>
    obtain ⟨hb, hl⟩ := List.pairwise_cons.1 h
    cases hc : compare a b with
    | lt =>
      simp only [place, hc]
      refine List.pairwise_cons.2 ⟨fun x hx => ?_, h⟩
      rcases List.mem_cons.1 hx with rfl | hx
      · exact hc
      · exact Std.TransCmp.lt_trans hc (hb x hx)
    | eq => simpa only [place, hc] using h
    | gt =>
      simp only [place, hc]
      refine List.pairwise_cons.2 ⟨fun x hx => ?_, ih hl⟩
      rcases mem_place.1 hx with rfl | hx
      · exact Std.OrientedCmp.lt_of_gt hc
      · exact hb x hx

def insert (s : SortedSet α) (a : α) : SortedSet α := ⟨place a s.toList, pairwise_place s.sorted⟩

@[simp] theorem mem_insert {s : SortedSet α} {a x : α} : x ∈ s.insert a ↔ x = a ∨ x ∈ s := mem_place

/-- Add every element of a list. -/
def insertMany (s : SortedSet α) (l : List α) : SortedSet α := l.foldl insert s

@[simp] theorem mem_insertMany {s : SortedSet α} {l : List α} {x : α} :
    x ∈ s.insertMany l ↔ x ∈ s ∨ x ∈ l := by
  induction l generalizing s with
  | nil => simp [insertMany]
  | cons a l ih =>
    have h := ih (s := s.insert a)
    simp only [insertMany, List.foldl_cons] at h ⊢
    simp [h, or_assoc, or_left_comm]

def ofList (l : List α) : SortedSet α := (∅ : SortedSet α).insertMany l

@[simp] theorem mem_ofList {l : List α} {x : α} : x ∈ ofList l ↔ x ∈ l := by
  simp [ofList, not_mem_empty]

/-! ### Unions -/

def union (s t : SortedSet α) : SortedSet α := s.insertMany t.toList

instance : Union (SortedSet α) := ⟨union⟩

@[simp] theorem mem_union {s t : SortedSet α} {x : α} : x ∈ s ∪ t ↔ x ∈ s ∨ x ∈ t := mem_insertMany

def unions (l : List (SortedSet α)) : SortedSet α := l.foldl union ∅

@[simp] theorem mem_unions {l : List (SortedSet α)} {x : α} :
    x ∈ unions l ↔ ∃ s ∈ l, x ∈ s := by
  have key : ∀ (l : List (SortedSet α)) (t : SortedSet α),
      x ∈ l.foldl union t ↔ x ∈ t ∨ ∃ s ∈ l, x ∈ s := by
    intro l
    induction l with
    | nil => simp
    | cons s l ih =>
      intro t
      have hs : x ∈ t.union s ↔ x ∈ t ∨ x ∈ s := mem_union
      simp [ih, hs, or_assoc]
  simpa [unions] using key l ∅

def image {β : Type} [Ord β] [Std.TransOrd β] [Std.LawfulEqOrd β] (s : SortedSet α) (f : α → β) :
    SortedSet β :=
  ofList (s.toList.map f)

omit [Std.TransOrd α] [Std.LawfulEqOrd α] in
@[simp] theorem mem_image {β : Type} [Ord β] [Std.TransOrd β] [Std.LawfulEqOrd β]
    {s : SortedSet α} {f : α → β} {x : β} : x ∈ s.image f ↔ ∃ a ∈ s, f a = x := by
  rw [image, mem_ofList, List.mem_map]
  rfl

/-- **Extensionality**: sets with the same elements are equal, because an
increasing list is determined by its elements. -/
theorem ext_mem {s t : SortedSet α} (h : ∀ a, a ∈ s ↔ a ∈ t) : s = t := by
  have key : ∀ l l' : List α, l.Pairwise (fun a b => compare a b = .lt) →
      l'.Pairwise (fun a b => compare a b = .lt) → (∀ a, a ∈ l ↔ a ∈ l') → l = l' := by
    intro l
    induction l with
    | nil =>
      intro l' _ _ hm
      cases l' with
      | nil => rfl
      | cons b l' => exact absurd ((hm b).2 List.mem_cons_self) List.not_mem_nil
    | cons a l ih =>
      intro l' hl hl' hm
      cases l' with
      | nil => exact absurd ((hm a).1 List.mem_cons_self) List.not_mem_nil
      | cons b l' =>
        obtain ⟨ha, htl⟩ := List.pairwise_cons.1 hl
        obtain ⟨hb, htl'⟩ := List.pairwise_cons.1 hl'
        -- the two heads are both least, hence equal
        have hab : a = b := by
          rcases List.mem_cons.1 ((hm a).1 List.mem_cons_self) with h | h
          · exact h
          · rcases List.mem_cons.1 ((hm b).2 List.mem_cons_self) with h' | h'
            · exact h'.symm
            · exact absurd (Std.TransCmp.lt_trans (ha b h') (hb a h)) (compare_self_ne_lt a)
        subst hab
        refine congrArg _ (ih l' htl htl' fun x => ⟨fun hx => ?_, fun hx => ?_⟩)
        · rcases List.mem_cons.1 ((hm x).1 (List.mem_cons_of_mem _ hx)) with rfl | hx'
          · exact absurd (ha x hx) (compare_self_ne_lt x)
          · exact hx'
        · rcases List.mem_cons.1 ((hm x).2 (List.mem_cons_of_mem _ hx)) with rfl | hx'
          · exact absurd (hb x hx) (compare_self_ne_lt x)
          · exact hx'
  exact ext_toList (key _ _ s.sorted t.sorted h)

end SortedSet

end Retest

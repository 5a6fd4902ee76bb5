/-!
# Breadth-first traversal

`Retest.sweep next fuel queue seen` visits what can be reached from a queue of
nodes, the neighbours of each node in the order given, and lists all nodes in
the order in which they are met. Each node is queued at most once, so the fuel
needed is the length of the queue and the number of nodes that can still be met.

Reachability itself is the relation `Retest.Reaches`. With enough fuel the two
agree (`Retest.mem_sweep_iff`): a sweep meets a node exactly if it is seen from
the start or reached from the queue. What was seen stays in front
(`Retest.sweep_eq_append`), and no node is listed twice (`Retest.nodup_sweep`).
-/

namespace Retest

/-- The elements of a list that have not been seen, each once. -/
def unseen {α : Type} [BEq α] (seen : List α) : List α → List α
  | [] => []
  | a :: l => if seen.contains a then unseen seen l else a :: unseen (a :: seen) l

/-- **Visit the nodes of a queue** and all that follows from them; the result lists the nodes seen
before, and then those met, in the order of meeting. A node joins the queue when it is met, and so
at most once; with one round for each node that can be met, the fuel does not run out. -/
def sweep {α : Type} [BEq α] (next : α → List α) :
    (fuel : Nat) → (queue seen : List α) → List α
  | 0, _, seen => seen
  | _ + 1, [], seen => seen
  | fuel + 1, a :: queue, seen =>
    let fresh := unseen seen (next a)
    sweep next fuel (queue ++ fresh) (seen ++ fresh)

/-- A node is reached from another by zero or more steps to a neighbour. -/
inductive Reaches {α : Type} (next : α → List α) : α → α → Prop where
  | refl (a : α) : Reaches next a a
  | step {a b c : α} : Reaches next a b → c ∈ next b → Reaches next a c

section

variable {α : Type} {next : α → List α}

theorem Reaches.single {a b : α} (h : b ∈ next a) : Reaches next a b := .step (.refl a) h

theorem Reaches.trans {a b c : α} (h : Reaches next a b) (h' : Reaches next b c) :
    Reaches next a c := by
  induction h' with
  | refl => exact h
  | step _ hc ih => exact .step ih hc

/-- A set that holds a node and all neighbours of its members holds all that the node reaches. -/
theorem Reaches.mem_of_closed {a b : α} (h : Reaches next a b) {s : List α} (ha : a ∈ s)
    (hs : ∀ x ∈ s, ∀ y ∈ next x, y ∈ s) : b ∈ s := by
  induction h with
  | refl => exact ha
  | step _ hc ih => exact hs _ ih _ hc

end

variable {α : Type} [BEq α] [LawfulBEq α] {next : α → List α}

/-! ### What is new in a list -/

theorem mem_unseen {seen l : List α} {x : α} : x ∈ unseen seen l ↔ x ∈ l ∧ x ∉ seen := by
  induction l generalizing seen with
  | nil => simp [unseen]
  | cons a l ih =>
    by_cases ha : a ∈ seen
    · rw [unseen, if_pos (List.contains_iff_mem.2 ha), ih]
      constructor
      · exact fun ⟨hx, hs⟩ => ⟨List.mem_cons_of_mem _ hx, hs⟩
      · rintro ⟨hx, hs⟩
        rcases List.mem_cons.1 hx with rfl | hx
        · exact absurd ha hs
        · exact ⟨hx, hs⟩
    · rw [unseen, if_neg fun h => ha (List.contains_iff_mem.1 h), List.mem_cons, ih]
      constructor
      · rintro (rfl | ⟨hx, hs⟩)
        · exact ⟨List.mem_cons_self, ha⟩
        · exact ⟨List.mem_cons_of_mem _ hx, fun h => hs (List.mem_cons_of_mem _ h)⟩
      · rintro ⟨hx, hs⟩
        by_cases hxa : x = a
        · exact .inl hxa
        · refine .inr ⟨(List.mem_cons.1 hx).resolve_left hxa, fun h => ?_⟩
          exact (List.mem_cons.1 h).elim hxa hs

theorem nodup_unseen (seen l : List α) : (unseen seen l).Nodup := by
  induction l generalizing seen with
  | nil => simp [unseen]
  | cons a l ih =>
    by_cases ha : a ∈ seen
    · rw [unseen, if_pos (List.contains_iff_mem.2 ha)]
      exact ih seen
    · rw [unseen, if_neg fun h => ha (List.contains_iff_mem.1 h), List.nodup_cons]
      exact ⟨fun h => (mem_unseen.1 h).2 List.mem_cons_self, ih _⟩

/-! ### The order of a sweep -/

omit [LawfulBEq α] in
/-- A sweep only adds to what was seen. -/
theorem sweep_eq_append (next : α → List α) (fuel : Nat) (queue seen : List α) :
    ∃ met, sweep next fuel queue seen = seen ++ met := by
  induction fuel generalizing queue seen with
  | zero => exact ⟨[], by simp [sweep]⟩
  | succ fuel ih =>
    cases queue with
    | nil => exact ⟨[], by simp [sweep]⟩
    | cons a queue =>
      obtain ⟨met, h⟩ := ih (queue ++ unseen seen (next a)) (seen ++ unseen seen (next a))
      exact ⟨unseen seen (next a) ++ met, by rw [sweep, h, List.append_assoc]⟩

/-- A sweep lists no node twice. -/
theorem nodup_sweep (fuel : Nat) {queue seen : List α} (h : seen.Nodup) :
    (sweep next fuel queue seen).Nodup := by
  induction fuel generalizing queue seen with
  | zero => simpa [sweep] using h
  | succ fuel ih =>
    cases queue with
    | nil => simpa [sweep] using h
    | cons a queue =>
      refine ih (List.nodup_append.2 ⟨h, nodup_unseen _ _, fun x hx y hy hxy => ?_⟩)
      exact (mem_unseen.1 hy).2 (hxy ▸ hx)

/-- What a sweep lists first was seen at the start, and is not met again. -/
theorem mem_tail_sweep {fuel : Nat} {queue seen : List α} {a x : α} (hnodup : (a :: seen).Nodup) :
    x ∈ (sweep next fuel queue (a :: seen)).tail ↔
      x ≠ a ∧ x ∈ sweep next fuel queue (a :: seen) := by
  obtain ⟨met, hmet⟩ := sweep_eq_append next fuel queue (a :: seen)
  have hall : (sweep next fuel queue (a :: seen)).Nodup := nodup_sweep fuel hnodup
  rw [hmet, List.cons_append] at hall ⊢
  rw [List.tail_cons, List.mem_cons]
  constructor
  · intro hx
    exact ⟨fun heq => (List.nodup_cons.1 hall).1 (heq ▸ hx), .inr hx⟩
  · rintro ⟨hne, hx⟩
    exact hx.resolve_left hne

/-! ### What a sweep meets -/

/-- A sweep meets nothing that is not reached. -/
theorem reaches_of_mem_sweep {fuel : Nat} {queue seen : List α} {x : α}
    (h : x ∈ sweep next fuel queue seen) : x ∈ seen ∨ ∃ a ∈ queue, Reaches next a x := by
  induction fuel generalizing queue seen with
  | zero => exact .inl (by simpa [sweep] using h)
  | succ fuel ih =>
    cases queue with
    | nil => exact .inl (by simpa [sweep] using h)
    | cons a queue =>
      -- what is new came from `a` in one step
      have fresh : ∀ y ∈ unseen seen (next a), Reaches next a y := fun y hy =>
        .single (mem_unseen.1 hy).1
      rcases ih h with h | ⟨b, hb, hbx⟩
      · rcases List.mem_append.1 h with h | h
        · exact .inl h
        · exact .inr ⟨a, List.mem_cons_self, fresh x h⟩
      · rcases List.mem_append.1 hb with hb | hb
        · exact .inr ⟨b, List.mem_cons_of_mem _ hb, hbx⟩
        · exact .inr ⟨a, List.mem_cons_self, (fresh b hb).trans hbx⟩

/-- How many places of a list hold a node that has not been seen. -/
def unseenCount (seen nodes : List α) : Nat := (nodes.filter fun a => !seen.contains a).length

theorem unseenCount_cons (seen nodes : List α) (a : α) :
    unseenCount (a :: seen) nodes = unseenCount (seen ++ [a]) nodes := by
  refine congrArg List.length (List.filter_congr fun b _ => ?_)
  rw [Bool.eq_iff_iff]
  simp [or_comm]

/-- Seeing a node that is there leaves fewer to see. -/
theorem unseenCount_append_singleton {seen nodes : List α} {a : α} (ha : a ∈ nodes)
    (hs : a ∉ seen) : unseenCount (seen ++ [a]) nodes + 1 ≤ unseenCount seen nodes := by
  have mono : ∀ l : List α, unseenCount (seen ++ [a]) l ≤ unseenCount seen l := fun l => by
    refine List.Sublist.length_le ?_
    have hsub : l.filter (fun x => !(seen ++ [a]).contains x) =
        (l.filter fun x => !seen.contains x).filter fun x => !(seen ++ [a]).contains x := by
      rw [List.filter_filter]
      refine List.filter_congr fun x _ => ?_
      by_cases hx : x ∈ seen <;> simp [hx]
    rw [hsub]
    exact List.filter_sublist
  induction nodes with
  | nil => exact absurd ha List.not_mem_nil
  | cons b l ih =>
    by_cases hb : b = a
    · subst hb
      have hl := mono l
      simp only [unseenCount] at hl ⊢
      simpa [List.filter_cons, hs] using hl
    · have hal : a ∈ l := (List.mem_cons.1 ha).resolve_left fun h => hb h.symm
      have hl := ih hal
      simp only [unseenCount] at hl ⊢
      by_cases hbs : b ∈ seen
      · simpa [List.filter_cons, hbs] using hl
      · simpa [List.filter_cons, hbs, hb] using hl

/-- Seeing new nodes leaves that many fewer to see. -/
theorem unseenCount_append {seen nodes fresh : List α} (hn : fresh.Nodup)
    (h : ∀ a ∈ fresh, a ∈ nodes ∧ a ∉ seen) :
    unseenCount (seen ++ fresh) nodes + fresh.length ≤ unseenCount seen nodes := by
  induction fresh generalizing seen with
  | nil => simp
  | cons a l ih =>
    obtain ⟨hal, hl⟩ := List.nodup_cons.1 hn
    have hrest : unseenCount (seen ++ [a] ++ l) nodes + l.length ≤
        unseenCount (seen ++ [a]) nodes := ih hl fun b hb => by
      refine ⟨(h b (List.mem_cons_of_mem _ hb)).1, fun hm => ?_⟩
      rcases List.mem_append.1 hm with hm | hm
      · exact (h b (List.mem_cons_of_mem _ hb)).2 hm
      · exact hal (List.mem_singleton.1 hm ▸ hb)
    have hone := unseenCount_append_singleton (h a List.mem_cons_self).1 (h a List.mem_cons_self).2
    rw [List.append_assoc, List.singleton_append] at hrest
    rw [List.length_cons]
    omega

/-- With enough fuel, what a sweep lists is closed under neighbours, provided that
this already holds for what was seen and is no longer queued. -/
theorem closed_sweep {nodes : List α} (hnodes : ∀ a b, b ∈ next a → b ∈ nodes) {fuel : Nat}
    {queue seen : List α} (hfuel : queue.length + unseenCount seen nodes ≤ fuel)
    (hqueue : ∀ a ∈ queue, a ∈ seen)
    (hseen : ∀ a ∈ seen, a ∉ queue → ∀ b ∈ next a, b ∈ seen) :
    ∀ a ∈ sweep next fuel queue seen, ∀ b ∈ next a, b ∈ sweep next fuel queue seen := by
  induction fuel generalizing queue seen with
  | zero =>
    have hq : queue = [] := List.length_eq_zero_iff.1 (by omega)
    subst hq
    simpa [sweep] using hseen
  | succ fuel ih =>
    cases queue with
    | nil => simpa [sweep] using hseen
    | cons a queue =>
      rw [sweep]
      refine ih ?_ ?_ ?_
      · have hcount : unseenCount (seen ++ unseen seen (next a)) nodes +
            (unseen seen (next a)).length ≤ unseenCount seen nodes :=
          unseenCount_append (nodup_unseen _ _) fun b hb =>
            ⟨hnodes a b (mem_unseen.1 hb).1, (mem_unseen.1 hb).2⟩
        simp only [List.length_cons, List.length_append] at hfuel ⊢
        omega
      · intro b hb
        rcases List.mem_append.1 hb with hb | hb
        · exact List.mem_append_left _ (hqueue b (List.mem_cons_of_mem _ hb))
        · exact List.mem_append_right _ hb
      · intro b hb hbq c hc
        have hbs : b ∈ seen := (List.mem_append.1 hb).resolve_right fun h =>
          hbq (List.mem_append_right _ h)
        by_cases hcs : c ∈ seen
        · exact List.mem_append_left _ hcs
        · by_cases hba : b = a
          · subst hba
            exact List.mem_append_right _ (mem_unseen.2 ⟨hc, hcs⟩)
          · refine List.mem_append_left _ (hseen b hbs (fun h => ?_) c hc)
            rcases List.mem_cons.1 h with h | h
            · exact hba h
            · exact hbq (List.mem_append_left _ h)

/-- **A sweep meets exactly what is reached.** -/
theorem mem_sweep_iff {nodes : List α} (hnodes : ∀ a b, b ∈ next a → b ∈ nodes) {fuel : Nat}
    {queue seen : List α} (hfuel : queue.length + unseenCount seen nodes ≤ fuel)
    (hqueue : ∀ a ∈ queue, a ∈ seen)
    (hseen : ∀ a ∈ seen, a ∉ queue → ∀ b ∈ next a, b ∈ seen) {x : α} :
    x ∈ sweep next fuel queue seen ↔ x ∈ seen ∨ ∃ a ∈ queue, Reaches next a x := by
  refine ⟨reaches_of_mem_sweep, fun h => ?_⟩
  obtain ⟨met, hmet⟩ := sweep_eq_append next fuel queue seen
  have hmem : ∀ a ∈ seen, a ∈ sweep next fuel queue seen := fun a ha =>
    hmet ▸ List.mem_append_left _ ha
  rcases h with h | ⟨a, ha, hax⟩
  · exact hmem x h
  · exact hax.mem_of_closed (hmem a (hqueue a ha)) (closed_sweep hnodes hfuel hqueue hseen)

end Retest

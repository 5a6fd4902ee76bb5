import Mathlib.Data.List.Basic
import Retest.CallGraph.Draft
import Retest.Proofs.Sorted
import Retest.Traversal

/-!
# What a draft holds

A draft numbers its nodes as they come, so what it holds depends on the order of its
entries, and two drafts of parts of a build number the same node differently. All the
same a draft is determined by the list of entries that it has taken up: the nodes are
those that the entries name, each at its first place, and edges, methods and marks are
those of the entries under the numbers that the nodes have in the end
(`Retest.CallGraph.Draft.addAll_eq_extend`). A number never changes once it is given.

So a draft stands for a list of entries, and to merge a draft is to take up its list
(`Retest.CallGraph.Draft.merge_addAll`). The second draft has been numbered on its own;
the new number of each of its nodes is where the node is found, or comes to stand, in the
first.
-/

namespace Retest

/-! ### Lists that take up what is new -/

section Taken

variable {α : Type} [BEq α] [LawfulBEq α] {seen l : List α} {a : α}

/-- What is new depends only on what has been seen, not on the order in which. -/
theorem unseen_congr {seen seen' : List α} (h : ∀ x, x ∈ seen ↔ x ∈ seen') (l : List α) :
    unseen seen l = unseen seen' l := by
  induction l generalizing seen seen' with
  | nil => rfl
  | cons a l ih =>
    have hcons : ∀ x, x ∈ a :: seen ↔ x ∈ a :: seen' := fun x => by
      rw [List.mem_cons, List.mem_cons, h]
    rw [unseen, unseen, ih h, ih hcons]
    have hcontains : seen.contains a = seen'.contains a := by
      rw [Bool.eq_iff_iff, List.contains_iff_mem, List.contains_iff_mem, h]
    rw [hcontains]

/-- A list with the elements of another that it lacks behind it, each once. -/
def taken (seen l : List α) : List α := seen ++ unseen seen l

omit [LawfulBEq α] in
@[simp] theorem taken_nil (seen : List α) : taken seen [] = seen := List.append_nil seen

theorem mem_taken {x : α} : x ∈ taken seen l ↔ x ∈ seen ∨ x ∈ l := by
  rw [taken, List.mem_append, mem_unseen]
  by_cases hx : x ∈ seen <;> simp [hx]

theorem taken_cons_of_mem (h : a ∈ seen) : taken seen (a :: l) = taken seen l := by
  rw [taken, unseen, if_pos (List.contains_iff_mem.2 h), taken]

theorem taken_cons_of_not_mem (h : a ∉ seen) :
    taken seen (a :: l) = taken (seen ++ [a]) l := by
  rw [taken, unseen, if_neg fun hc => h (List.contains_iff_mem.1 hc), taken, List.append_assoc,
    List.singleton_append]
  refine congrArg (fun rest => seen ++ a :: rest) (unseen_congr (fun x => ?_) l)
  rw [List.mem_cons, List.mem_append, List.mem_singleton, or_comm]

theorem taken_append (seen l l' : List α) : taken seen (l ++ l') = taken (taken seen l) l' := by
  induction l generalizing seen with
  | nil => rw [List.nil_append, taken_nil]
  | cons a l ih =>
    rw [List.cons_append]
    by_cases ha : a ∈ seen
    · rw [taken_cons_of_mem ha, taken_cons_of_mem ha, ih]
    · rw [taken_cons_of_not_mem ha, taken_cons_of_not_mem ha, ih]

/-- What is new in a list is new without its repetitions. -/
theorem unseen_unseen (seen seen' l : List α) :
    unseen seen (unseen seen' l) = unseen (seen' ++ seen) l := by
  induction l generalizing seen seen' with
  | nil => rfl
  | cons a l ih =>
    by_cases ha' : a ∈ seen'
    · rw [unseen, if_pos (List.contains_iff_mem.2 ha'), ih, unseen,
        if_pos (List.contains_iff_mem.2 (List.mem_append_left _ ha'))]
    · rw [unseen, if_neg fun hc => ha' (List.contains_iff_mem.1 hc)]
      by_cases ha : a ∈ seen
      · rw [unseen, if_pos (List.contains_iff_mem.2 ha), ih, unseen,
          if_pos (List.contains_iff_mem.2 (List.mem_append_right _ ha))]
        refine unseen_congr (fun x => ?_) l
        rw [List.cons_append, List.mem_cons]
        refine ⟨fun hx => hx.elim ?_ id, .inr⟩
        rintro rfl
        exact List.mem_append_right _ ha
      · have happend : a ∉ seen' ++ seen := fun hx => (List.mem_append.1 hx).elim ha' ha
        rw [unseen, if_neg fun hc => ha (List.contains_iff_mem.1 hc), ih, unseen,
          if_neg fun hc => happend (List.contains_iff_mem.1 hc)]
        refine congrArg (a :: ·) (unseen_congr (fun x => ?_) l)
        simp only [List.mem_append, List.mem_cons]
        tauto

theorem taken_unseen (seen l : List α) : taken seen (unseen [] l) = taken seen l := by
  rw [taken, unseen_unseen, List.nil_append, taken]

/-- **An element keeps its place** when more is taken up. -/
theorem idxOf_taken (h : a ∈ seen) (l : List α) : (taken seen l).idxOf a = seen.idxOf a :=
  List.idxOf_append_of_mem h

/-- The place of an element is where it is found, or else the end. -/
theorem idxOf_taken_cons (seen l : List α) (a : α) :
    (taken seen (a :: l)).idxOf a = seen.idxOf a := by
  by_cases ha : a ∈ seen
  · rw [taken_cons_of_mem ha, idxOf_taken ha]
  · rw [taken_cons_of_not_mem ha, idxOf_taken (List.mem_append_right _ (List.mem_singleton_self a)),
      List.idxOf_append_of_notMem ha, List.idxOf_eq_length ha, List.idxOf_cons_self, Nat.add_zero]

end Taken

namespace CallGraph

namespace Entry

/-- The nodes that an entry names. -/
def nodes : Entry → List Dependency
  | node n => [n]
  | edge a b => [a, b]
  | method key | reflective key => [.method key]

/-- The edge of an entry, with the places of its ends among nodes. -/
def arc? (nodes : List Dependency) : Entry → Option Arc
  | edge a b => if a = b then none else some ⟨nodes.idxOf a, nodes.idxOf b⟩
  | node _ | method _ | reflective _ => none

def method? : Entry → Option MethodKey
  | method key => some key
  | node _ | edge .. | reflective _ => none

def reflective? : Entry → Option MethodKey
  | reflective key => some key
  | node _ | edge .. | method _ => none

variable {entry : Entry} {nodes : List Dependency}

/-- An edge needs only the places of its own ends. -/
theorem arc?_map {nodes' : List Dependency} {number : Nat → Nat}
    (h : ∀ n ∈ entry.nodes, number (nodes.idxOf n) = nodes'.idxOf n) :
    (entry.arc? nodes).map (Arc.renumber number) = entry.arc? nodes' := by
  cases entry with
  | node | method | reflective => rfl
  | edge a b =>
    rw [arc?, arc?]
    split
    · rfl
    · rw [Option.map_some, Arc.renumber, h a List.mem_cons_self,
        h b (List.mem_cons_of_mem _ List.mem_cons_self)]

/-- An edge is between two places. -/
theorem source_ne_target_of_arc? (hnodes : ∀ n ∈ entry.nodes, n ∈ nodes) {arc : Arc}
    (h : entry.arc? nodes = some arc) : arc.source ≠ arc.target := by
  cases entry with
  | node | method | reflective => cases h
  | edge a b =>
    rw [arc?] at h
    split at h
    · cases h
    · next hne =>
      obtain rfl := Option.some.inj h
      exact fun heq => hne ((List.idxOf_inj (hnodes a List.mem_cons_self)).1 heq)

theorem mem_nodes_of_method? {key : MethodKey} (h : entry.method? = some key) :
    .method key ∈ entry.nodes := by
  cases entry with
  | method key' =>
    obtain rfl := Option.some.inj h
    exact List.mem_singleton_self _
  | node | edge | reflective => cases h

theorem mem_nodes_of_reflective? {key : MethodKey} (h : entry.reflective? = some key) :
    .method key ∈ entry.nodes := by
  cases entry with
  | reflective key' =>
    obtain rfl := Option.some.inj h
    exact List.mem_singleton_self _
  | node | edge | method => cases h

end Entry

/-! ### The draft of a list of entries -/

/-- The nodes that entries name. -/
def namedNodes (entries : List Entry) : List Dependency := entries.flatMap Entry.nodes

theorem mem_namedNodes {entries : List Entry} {entry : Entry} {n : Dependency}
    (hentry : entry ∈ entries) (hn : n ∈ entry.nodes) : n ∈ namedNodes entries :=
  List.mem_flatMap.2 ⟨entry, hentry, hn⟩

namespace Draft

/-- Put a method among those of its unit, by its place among nodes. -/
def assign (nodes : List Dependency) (methods : SortedMap UnitName (SortedSet Nat))
    (key : MethodKey) : SortedMap UnitName (SortedSet Nat) :=
  methods.addTo key.owner (.ofList [nodes.idxOf (.method key)])

/-- A draft with the entries of a list, under the numbers that its nodes have then. -/
def extend (draft : Draft) (entries : List Entry) : Draft :=
  let nodes := taken draft.nodes (namedNodes entries)
  { nodes := nodes
    edges := draft.edges.insertMany (entries.filterMap (Entry.arc? nodes))
    methods := (entries.filterMap Entry.method?).foldl (assign nodes) draft.methods
    reflective := draft.reflective.insertMany
      ((entries.filterMap Entry.reflective?).map fun key => nodes.idxOf (.method key)) }

variable {draft : Draft}

theorem intern_eq (draft : Draft) (n : Dependency) :
    draft.intern n = (draft.nodes.idxOf n, { draft with nodes := taken draft.nodes [n] }) := by
  rw [intern]
  by_cases hn : n ∈ draft.nodes
  · rw [if_pos (List.contains_iff_mem.2 hn), taken_cons_of_mem hn, taken_nil]
  · rw [if_neg fun hc => hn (List.contains_iff_mem.1 hc), taken_cons_of_not_mem hn, taken_nil]

/-- **What one entry does to a draft.** -/
theorem add_eq_extend (draft : Draft) (entry : Entry) : draft.add entry = draft.extend [entry] := by
  have hidx : ∀ n, (taken draft.nodes [n]).idxOf n = draft.nodes.idxOf n := idxOf_taken_cons _ []
  cases entry with
  | node n => rw [add, intern_eq]; rfl
  | method key =>
    simp only [add, intern_eq]
    rw [← hidx]
    rfl
  | reflective key =>
    simp only [add, intern_eq]
    rw [← hidx]
    rfl
  | edge a b =>
    have hnodes : taken (taken draft.nodes [a]) [b] = taken draft.nodes [a, b] :=
      (taken_append draft.nodes [a] [b]).symm
    have ha : draft.nodes.idxOf a = (taken draft.nodes [a, b]).idxOf a :=
      (idxOf_taken_cons _ _ a).symm
    have hb : (taken draft.nodes [a]).idxOf b = (taken draft.nodes [a, b]).idxOf b := by
      rw [← hnodes, idxOf_taken_cons]
    have hmem : a ∈ taken draft.nodes [a, b] := mem_taken.2 (.inr List.mem_cons_self)
    have hextend : ∀ arcs, [Entry.edge a b].filterMap (Entry.arc? (taken draft.nodes [a, b])) =
        arcs → draft.extend [.edge a b] =
          { draft with
            nodes := taken draft.nodes [a, b], edges := draft.edges.insertMany arcs } := by
      rintro arcs rfl
      rfl
    simp only [add, intern_eq]
    rw [ha, hb, hnodes]
    by_cases hab : a = b
    · have harc : (Entry.edge a b).arc? (taken draft.nodes [a, b]) = none := if_pos hab
      rw [hextend [] (List.filterMap_cons_none harc), hab, if_pos rfl]
      rfl
    · have harc : (Entry.edge a b).arc? (taken draft.nodes [a, b]) =
          some ⟨(taken draft.nodes [a, b]).idxOf a, (taken draft.nodes [a, b]).idxOf b⟩ :=
        if_neg hab
      rw [hextend _ (List.filterMap_cons_some harc),
        if_neg fun heq => hab ((List.idxOf_inj hmem).1 heq)]
      rfl

theorem namedNodes_append (l l' : List Entry) :
    namedNodes (l ++ l') = namedNodes l ++ namedNodes l' := List.flatMap_append

/-- Which numbers entries give depends only on the places of the nodes that they name. -/
theorem extend_congr {entries : List Entry} {nodes nodes' : List Dependency}
    (h : ∀ n ∈ namedNodes entries, nodes.idxOf n = nodes'.idxOf n) :
    entries.filterMap (Entry.arc? nodes) = entries.filterMap (Entry.arc? nodes') ∧
      (∀ methods, (entries.filterMap Entry.method?).foldl (assign nodes) methods =
        (entries.filterMap Entry.method?).foldl (assign nodes') methods) ∧
      (entries.filterMap Entry.reflective?).map (fun key => nodes.idxOf (.method key)) =
        (entries.filterMap Entry.reflective?).map fun key => nodes'.idxOf (.method key) := by
  refine ⟨List.filterMap_congr fun entry hentry => ?_, fun methods => ?_, ?_⟩
  · have hid : Arc.renumber id = id := rfl
    have harc : (entry.arc? nodes).map (Arc.renumber id) = entry.arc? nodes' :=
      Entry.arc?_map fun n hn => h n (mem_namedNodes hentry hn)
    rwa [hid, Option.map_id, id] at harc
  · refine List.foldl_ext _ _ _ fun methods key hkey => ?_
    obtain ⟨entry, hentry, hmethod⟩ := List.mem_filterMap.1 hkey
    rw [assign, assign, h _ (mem_namedNodes hentry (Entry.mem_nodes_of_method? hmethod))]
  · refine List.map_congr_left fun key hkey => ?_
    obtain ⟨entry, hentry, hreflective⟩ := List.mem_filterMap.1 hkey
    exact h _ (mem_namedNodes hentry (Entry.mem_nodes_of_reflective? hreflective))

/-- **Numbers stay.** Entries that are taken up later change nothing of what is there. -/
theorem extend_append (draft : Draft) (l l' : List Entry) :
    draft.extend (l ++ l') = (draft.extend l).extend l' := by
  have hnodes : taken draft.nodes (namedNodes (l ++ l')) =
      taken (taken draft.nodes (namedNodes l)) (namedNodes l') := by
    rw [namedNodes_append, taken_append]
  have hidx : ∀ n ∈ namedNodes l,
      (taken (taken draft.nodes (namedNodes l)) (namedNodes l')).idxOf n =
        (taken draft.nodes (namedNodes l)).idxOf n := fun n hn =>
    idxOf_taken (mem_taken.2 (.inr hn)) _
  obtain ⟨harcs, hmethods, hreflective⟩ := extend_congr hidx
  simp only [extend, hnodes, List.filterMap_append, List.map_append, List.foldl_append,
    SortedSet.insertMany, harcs, hmethods, hreflective]

/-- **A draft is determined by the entries that it takes up.** -/
theorem addAll_eq_extend (draft : Draft) (entries : List Entry) :
    draft.addAll entries = draft.extend entries := by
  induction entries generalizing draft with
  | nil => rw [extend, addAll, namedNodes, List.flatMap_nil, taken_nil]; rfl
  | cons entry entries ih =>
    have hcons : draft.extend (entry :: entries) = (draft.extend [entry]).extend entries :=
      extend_append draft [entry] entries
    rw [hcons, ← add_eq_extend]
    exact ih (draft.add entry)

theorem addAll_append (draft : Draft) (l l' : List Entry) :
    draft.addAll (l ++ l') = (draft.addAll l).addAll l' := List.foldl_append

/-! ### Merging -/

theorem internAll_eq (draft : Draft) (l : List Dependency) :
    draft.internAll l =
      (l.map (taken draft.nodes l).idxOf, { draft with nodes := taken draft.nodes l }) := by
  induction l generalizing draft with
  | nil => rw [internAll, taken_nil, List.map_nil]
  | cons n l ih =>
    have hcons : taken draft.nodes (n :: l) = taken (taken draft.nodes [n]) l :=
      taken_append draft.nodes [n] l
    simp only [internAll, intern_eq, ih, List.map_cons]
    rw [← hcons, idxOf_taken_cons]

/-- The numbers of another draft lead to the numbers that its nodes get. -/
theorem getD_map_idxOf {nodes nodes' : List Dependency} {n : Dependency} (h : n ∈ nodes) :
    (nodes.map nodes'.idxOf).getD (nodes.idxOf n) 0 = nodes'.idxOf n := by
  rw [List.getD_eq_getElem?_getD, List.getElem?_map, List.getElem?_idxOf h, Option.map_some,
    Option.getD_some]

section Renumbering

variable {entries : List Entry} {nodes nodes' : List Dependency} {number : Nat → Nat}

/-- Edges under new numbers are the edges that the entries give for the new places. -/
theorem filter_image_renumber
    (hnumber : ∀ n ∈ namedNodes entries, number (nodes.idxOf n) = nodes'.idxOf n)
    (hnodes : ∀ n ∈ namedNodes entries, n ∈ nodes') :
    ((SortedSet.ofList (entries.filterMap (Entry.arc? nodes))).image (Arc.renumber number)).filter
        (fun e => e.source != e.target) =
      .ofList (entries.filterMap (Entry.arc? nodes')) := by
  have harc : ∀ entry ∈ entries, (entry.arc? nodes).map (Arc.renumber number) =
      entry.arc? nodes' := fun entry hentry =>
    Entry.arc?_map fun n hn => hnumber n (mem_namedNodes hentry hn)
  refine SortedSet.ext_mem fun arc => ?_
  rw [SortedSet.mem_filter, SortedSet.mem_image, SortedSet.mem_ofList, List.mem_filterMap,
    bne_iff_ne]
  constructor
  · rintro ⟨⟨old, hold, rfl⟩, -⟩
    obtain ⟨entry, hentry, hold⟩ := List.mem_filterMap.1 (SortedSet.mem_ofList.1 hold)
    exact ⟨entry, hentry, by rw [← harc entry hentry, hold, Option.map_some]⟩
  · rintro ⟨entry, hentry, hnew⟩
    have hne := Entry.source_ne_target_of_arc?
      (fun n hn => hnodes n (mem_namedNodes hentry hn)) hnew
    rw [← harc entry hentry] at hnew
    obtain ⟨old, hold, rfl⟩ := Option.map_eq_some_iff.1 hnew
    exact ⟨⟨old, SortedSet.mem_ofList.2 (List.mem_filterMap.2 ⟨entry, hentry, hold⟩), rfl⟩, hne⟩

/-- Marks under new numbers are the marks that the entries give for the new places. -/
theorem image_idxOf
    (hnumber : ∀ n ∈ namedNodes entries, number (nodes.idxOf n) = nodes'.idxOf n) :
    (SortedSet.ofList ((entries.filterMap Entry.reflective?).map
        fun key => nodes.idxOf (.method key))).image number =
      .ofList ((entries.filterMap Entry.reflective?).map
        fun key => nodes'.idxOf (.method key)) := by
  refine SortedSet.ext_mem fun i => ?_
  simp only [SortedSet.mem_image, SortedSet.mem_ofList, List.mem_map, exists_exists_and_eq_and]
  refine exists_congr fun key => and_congr_right fun hkey => ?_
  obtain ⟨entry, hentry, hreflective⟩ := List.mem_filterMap.1 hkey
  rw [hnumber _ (mem_namedNodes hentry (Entry.mem_nodes_of_reflective? hreflective))]

/-- Methods under new numbers are the methods that the entries give for the new places. -/
theorem addAll_map_assign {keys : List MethodKey}
    (hnumber : ∀ key ∈ keys, number (nodes.idxOf (.method key)) = nodes'.idxOf (.method key))
    (base methods : SortedMap UnitName (SortedSet Nat)) :
    base.addAll ((keys.foldl (assign nodes) methods).map (·.image number)) =
      keys.foldl (assign nodes') (base.addAll (methods.map (·.image number))) := by
  induction keys generalizing methods with
  | nil => rfl
  | cons key keys ih =>
    have himage : (SortedSet.ofList [nodes.idxOf (.method key)]).image number =
        .ofList [nodes'.idxOf (.method key)] := by
      rw [← hnumber key List.mem_cons_self]
      rfl
    rw [List.foldl_cons, ih fun k hk => hnumber k (List.mem_cons_of_mem _ hk), List.foldl_cons]
    refine congrArg (fun m => keys.foldl (assign nodes') m) ?_
    rw [assign, assign, SortedMap.map_addTo, SortedMap.addAll_addTo, himage]

end Renumbering

/-- **To merge a draft is to take up its entries.** -/
theorem merge_addAll (draft : Draft) (entries : List Entry) :
    draft.merge (({} : Draft).addAll entries) = draft.addAll entries := by
  have htaken : taken draft.nodes (taken [] (namedNodes entries)) =
      taken draft.nodes (namedNodes entries) := taken_unseen _ _
  have hnumber : ∀ n ∈ namedNodes entries,
      ((taken [] (namedNodes entries)).map (taken draft.nodes (namedNodes entries)).idxOf).getD
        ((taken [] (namedNodes entries)).idxOf n) 0 =
          (taken draft.nodes (namedNodes entries)).idxOf n := fun n hn =>
    getD_map_idxOf (mem_taken.2 (.inr hn))
  have hkeys : ∀ key ∈ entries.filterMap Entry.method?, .method key ∈ namedNodes entries := by
    intro key hkey
    obtain ⟨entry, hentry, hmethod⟩ := List.mem_filterMap.1 hkey
    exact mem_namedNodes hentry (Entry.mem_nodes_of_method? hmethod)
  rw [addAll_eq_extend, addAll_eq_extend]
  simp only [merge, extend, internAll_eq, htaken]
  refine congr (congr (congrArg _ ?_) ?_) ?_
  · exact (congrArg (draft.edges ∪ ·) (filter_image_renumber hnumber
      fun n hn => mem_taken.2 (.inr hn))).trans (SortedSet.union_ofList _ _)
  · exact addAll_map_assign (fun key hkey => hnumber _ (hkeys key hkey)) draft.methods ∅
  · exact (congrArg (draft.reflective ∪ ·) (image_idxOf hnumber)).trans
      (SortedSet.union_ofList _ _)

-- the second draft has the two nodes in the other order
example :
    let first := ({} : Draft).addAll [.node (.unit "shop.Job"), .node (.unit "shop.Base")]
    let second := ({} : Draft).addAll [.edge (.unit "shop.Base") (.unit "shop.Job")]
    second.edges.toList = [⟨0, 1⟩] ∧ (first.merge second).edges.toList = [⟨1, 0⟩] := by
  decide

end Draft

end CallGraph

end Retest

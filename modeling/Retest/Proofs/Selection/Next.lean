import Retest.Proofs.Analysis
import Retest.Proofs.CallGraph.Footprint
import Retest.Proofs.Store.Text
import Retest.Selection.Basic
import Retest.Selection.Next

/-!
# What the next store holds

The passes in which the next store is made come to one rule for each record
(`Retest.Store.get?_records_next`): those that make records store them one after the
other (`Retest.Store.Renewal.base_eq`), and all that follow add tests to a record that
is there, so that their order does not matter.

So the next store has a record for each dependency that is tracked and has a
fingerprint in the analysis (`Retest.Store.get?_records_next_eq_some`); a field
whose name holds a colon is never tracked, since its slot is read as that of
another field. In a record of a unit that can be read stand the tests that were run
again and reach the dependency, and those that stood there before and were not run
again (`Retest.Store.Renewal.mem_testsFor`).

The next store can be written and read again (`Retest.Store.readable_next`).
-/

namespace Retest

/-! ### Records of one unit -/

/-- **A dependency is tracked** if it can have a record. -/
def Dependency.IsTracked (granularity : Granularity) : Dependency → Prop
  | .unit _ => True
  | .method _ => granularity = .member
  | .field key => granularity = .member ∧ ':' ∉ key.name.toList

instance (granularity : Granularity) : (id : Dependency) → Decidable (id.IsTracked granularity)
  | .unit _ => inferInstanceAs (Decidable True)
  | .method _ => inferInstanceAs (Decidable (_ = _))
  | .field _ => inferInstanceAs (Decidable (_ ∧ _))

theorem Snapshot.mem_signatures_of_method? {s : Snapshot} {signature : Signature} {f : Fingerprint}
    (h : s.method? signature = some f) : signature ∈ s.signatures := by
  simp only [signatures, List.mem_append, SortedSet.mem_toList]
  obtain h | h | h := get?_of_method? h
  · exact .inl (.inl (SortedMap.mem_keys_of_get? h))
  · exact .inl (.inr (SortedMap.mem_keys_of_get? h))
  · exact .inr (SortedMap.mem_keys_of_get? h)

/-- The records for a unit: one for each dependency that is tracked and has a fingerprint. -/
theorem Snapshot.mem_records {s : Snapshot} {granularity : Granularity} {id : Dependency}
    {record : StoreRecord} :
    (id, record) ∈ s.records granularity s.name ↔
      id.IsTracked granularity ∧ ∃ f, s.fingerprint? id = some f ∧ record = ⟨f, ∅⟩ := by
  -- the records are those of the unit, of its methods, and of its fields, in this order
  constructor
  · intro h
    rcases List.mem_cons.1 h with h | h
    · cases h
      exact ⟨trivial, s.whole, fingerprint?_unit rfl, rfl⟩
    · cases granularity with
      | unit => cases h
      | member =>
        rcases List.mem_append.1 h with h | h
        · obtain ⟨signature, -, h⟩ := List.mem_filterMap.1 h
          obtain ⟨f, hf, h⟩ := Option.map_eq_some_iff.1 h
          cases h
          exact ⟨rfl, f, (fingerprint?_method rfl).trans hf, rfl⟩
        · obtain ⟨⟨slot, f⟩, hslot, h⟩ := List.mem_filterMap.1 h
          obtain ⟨key, hkey, h⟩ := Option.map_eq_some_iff.1 h
          cases h
          obtain ⟨howner, rfl, hcolon⟩ := FieldKey.ofSlot?_eq_some_iff.1 hkey
          refine ⟨⟨rfl, hcolon⟩, f, ?_, rfl⟩
          rw [fingerprint?_field howner]
          exact SortedMap.get?_eq_some_iff.2 hslot
  · rintro ⟨htracked, f, hf, rfl⟩
    have howner := owner_of_fingerprint? hf
    cases id with
    | unit name =>
      obtain rfl : name = s.name := howner
      rw [fingerprint?_unit rfl] at hf
      cases hf
      exact List.mem_cons_self
    | method key =>
      obtain ⟨owner, signature⟩ := key
      obtain rfl : owner = s.name := howner
      obtain rfl : granularity = .member := htracked
      rw [fingerprint?_method rfl] at hf
      refine List.mem_cons_of_mem _ (List.mem_append_left _ (List.mem_filterMap.2
        ⟨signature, mem_signatures_of_method? hf, ?_⟩))
      rw [hf]
      rfl
    | field key =>
      obtain ⟨rfl, hcolon⟩ := htracked
      rw [fingerprint?_field (k := key) howner] at hf
      refine List.mem_cons_of_mem _ (List.mem_append_right _ (List.mem_filterMap.2
        ⟨(key.slot, f), SortedMap.get?_eq_some_iff.1 hf, ?_⟩))
      dsimp only
      rw [FieldKey.ofSlot?_eq_some_iff.2 ⟨howner, rfl, hcolon⟩]
      rfl

/-- The fingerprints of an analysis are those of its snapshots. -/
theorem Analysis.fingerprint?_eq_some {analysis : Analysis} {id : Dependency} {f : Fingerprint} :
    analysis.fingerprint? id = some f ↔
      ∃ s, analysis.snapshots.get? id.owner = some s ∧ s.fingerprint? id = some f :=
  Option.bind_eq_some_iff

/-- **All dependencies of an analysis that get a record read back.** -/
def Analysis.ReadsBack (analysis : Analysis) (granularity : Granularity) : Prop :=
  ∀ id : Dependency, id.IsTracked granularity → ∀ f, analysis.fingerprint? id = some f →
    id.ReadsBack

/-- It is enough to look at the records that would be made. -/
theorem Build.readsBack_analyze_iff {build : Build} {settings : Settings}
    {external : List (UnitName × UnitName)} {granularity : Granularity} :
    (build.analyze settings external).ReadsBack granularity ↔
      ∀ e ∈ build.parsed settings, ∀ r ∈ e.2.snapshot.records granularity e.1, r.1.ReadsBack := by
  have hcoherent := build.coherent_analyze settings external
  constructor
  · rintro h ⟨unit, p⟩ hp ⟨id, record⟩ hrecord
    have hs : (build.analyze settings external).snapshots.get? unit = some p.snapshot :=
      get?_snapshots_analyze.2 ⟨p, hp, rfl⟩
    obtain rfl := hcoherent.named hs
    obtain ⟨htracked, f, hf, -⟩ := Snapshot.mem_records.1 hrecord
    refine h id htracked f (Analysis.fingerprint?_eq_some.2 ⟨p.snapshot, ?_, hf⟩)
    rwa [Snapshot.owner_of_fingerprint? hf]
  · intro h id htracked f hf
    obtain ⟨s, hs, hf⟩ := Analysis.fingerprint?_eq_some.1 hf
    obtain ⟨p, hp, rfl⟩ := get?_snapshots_analyze.1 hs
    refine h (id.owner, p) hp (id, ⟨f, ∅⟩) ?_
    have hname := hcoherent.named hs
    dsimp only
    rw [← hname]
    exact Snapshot.mem_records.2 ⟨htracked, f, hf, rfl⟩

instance (build : Build) (settings : Settings) (external : List (UnitName × UnitName))
    (granularity : Granularity) :
    Decidable ((build.analyze settings external).ReadsBack granularity) :=
  decidable_of_iff _ Build.readsBack_analyze_iff.symm

namespace Store

open Selection (testsOf)

theorem mem_testsOf {store : Store} {id : Dependency} {t : UnitName} :
    t ∈ testsOf store id ↔ ∃ record, store.records.get? id = some record ∧ t ∈ record.tests := by
  rw [testsOf]
  cases store.records.get? id <;> simp

/-! ### Adding tests to records -/

section

variable {records : SortedMap Dependency StoreRecord}
  {named : List (Dependency × SortedSet UnitName)} {id : Dependency}

/-- The tests that a list names for a dependency. -/
def namedFor (named : List (Dependency × SortedSet UnitName)) (id : Dependency) :
    SortedSet UnitName :=
  .unions ((named.filter fun e => e.1 = id).map (·.2))

theorem mem_namedFor {t : UnitName} :
    t ∈ namedFor named id ↔ ∃ tests, (id, tests) ∈ named ∧ t ∈ tests := by
  simp only [namedFor, SortedSet.mem_unions, List.mem_map, List.mem_filter, decide_eq_true_eq,
    Prod.exists]
  constructor
  · rintro ⟨tests, ⟨id', _, ⟨hnamed, rfl⟩, rfl⟩, ht⟩
    exact ⟨_, hnamed, ht⟩
  · rintro ⟨tests, hnamed, ht⟩
    exact ⟨tests, ⟨id, tests, ⟨hnamed, rfl⟩, rfl⟩, ht⟩

/-- **A pass that adds tests keeps the records**, and gives each the tests that are named for it. -/
theorem get?_addTests : (addTests records named).get? id = (records.get? id).map fun record =>
    { record with tests := record.tests ∪ namedFor named id } := by
  induction named generalizing records with
  | nil =>
    have hnil : addTests records [] = records := rfl
    rw [hnil]
    cases records.get? id <;> rfl
  | cons e named ih =>
    have hcons : addTests records (e :: named) = addTests (records.modify e.1 fun record =>
      { record with tests := record.tests ∪ e.2 }) named := rfl
    rw [hcons, ih, SortedMap.get?_modify, Option.map_map]
    refine congrArg (fun f => (records.get? id).map f) (funext fun record => ?_)
    obtain ⟨id', tests⟩ := e
    rw [Function.comp_apply]
    by_cases hid : id = id'
    · subst hid
      rw [if_pos rfl, StoreRecord.mk.injEq]
      refine ⟨rfl, SortedSet.ext_mem fun t => ?_⟩
      simp only [SortedSet.mem_union, mem_namedFor, List.mem_cons, Prod.mk.injEq, true_and,
        or_and_right, exists_or, exists_eq_left, or_assoc]
    · rw [if_neg hid, StoreRecord.mk.injEq]
      refine ⟨rfl, SortedSet.ext_mem fun t => ?_⟩
      simp only [SortedSet.mem_union, mem_namedFor, List.mem_cons, Prod.mk.injEq, hid, false_and,
        false_or]

theorem addTests_append (named' : List (Dependency × SortedSet UnitName)) :
    addTests records (named ++ named') = addTests (addTests records named) named' :=
  List.foldl_append

end

namespace Renewal

variable {renewal : Renewal} {previous : Store} {id : Dependency}

/-! ### Records of all units -/

/-- The records before any test is added: those of units that can be read, and the previous ones
of units that cannot. -/
theorem base_eq (renewal : Renewal) (previous : Store) : renewal.base previous =
    (SortedMap.ofList (renewal.analysis.snapshots.entries.flatMap fun e =>
      e.2.records renewal.granularity e.1)).insertMany
        (previous.records.filter fun id _ =>
          renewal.analysis.failed.contains id.owner).entries := by
  have hfresh : renewal.freshRecords = .ofList (renewal.analysis.snapshots.entries.flatMap fun e =>
      e.2.records renewal.granularity e.1) :=
    List.foldl_flatMap.symm
  rw [base, hfresh]
  exact List.foldl_filter.symm

/-- The record of a dependency of a unit that can be read, without tests. -/
def fresh? (renewal : Renewal) (id : Dependency) : Option StoreRecord :=
  if id.IsTracked renewal.granularity then (renewal.analysis.fingerprint? id).map (⟨·, ∅⟩) else none

theorem fresh?_eq_some {record : StoreRecord} : renewal.fresh? id = some record ↔
    id.IsTracked renewal.granularity ∧
      ∃ f, renewal.analysis.fingerprint? id = some f ∧ record = ⟨f, ∅⟩ := by
  rw [fresh?]
  split
  · next h =>
    rw [Option.map_eq_some_iff]
    simp only [h, true_and, eq_comm]
  · next h => simp [h]

theorem get?_ofList_records (h : renewal.analysis.Coherent) :
    (SortedMap.ofList (renewal.analysis.snapshots.entries.flatMap fun e =>
      e.2.records renewal.granularity e.1)).get? id = renewal.fresh? id := by
  have hmem : ∀ record, (id, record) ∈ (renewal.analysis.snapshots.entries.flatMap fun e =>
      e.2.records renewal.granularity e.1) ↔ renewal.fresh? id = some record := by
    intro record
    rw [List.mem_flatMap, fresh?_eq_some]
    constructor
    · rintro ⟨⟨unit, s⟩, hentry, hrecord⟩
      have hget := SortedMap.get?_eq_some_iff.2 hentry
      obtain rfl := h.named hget
      obtain ⟨htracked, f, hf, rfl⟩ := Snapshot.mem_records.1 hrecord
      refine ⟨htracked, f, Analysis.fingerprint?_eq_some.2 ⟨s, ?_, hf⟩, rfl⟩
      rwa [Snapshot.owner_of_fingerprint? hf]
    · rintro ⟨htracked, f, hf, rfl⟩
      obtain ⟨s, hget, hf⟩ := Analysis.fingerprint?_eq_some.1 hf
      refine ⟨(id.owner, s), SortedMap.get?_eq_some_iff.1 hget, ?_⟩
      rw [← h.named hget]
      exact Snapshot.mem_records.2 ⟨htracked, f, hf, rfl⟩
  rw [SortedMap.get?_ofList]
  exact SortedMap.lastValue?_eq_of_mem_iff hmem

/-- Where a unit cannot be read its records are kept. -/
theorem get?_base_of_failed (h : renewal.analysis.Coherent)
    (hfailed : id.owner ∈ renewal.analysis.failed) :
    (renewal.base previous).get? id = previous.records.get? id := by
  have hfresh : renewal.fresh? id = none := by
    cases hf : renewal.fresh? id with
    | none => rfl
    | some record =>
      obtain ⟨-, f, hf, -⟩ := fresh?_eq_some.1 hf
      obtain ⟨s, hs, -⟩ := Analysis.fingerprint?_eq_some.1 hf
      exact absurd hfailed (h.apart hs)
  rw [base_eq, SortedMap.get?_insertMany, SortedMap.lastValue?_entries, SortedMap.get?_filter,
    get?_ofList_records h, hfresh, Option.or_none]
  cases previous.records.get? id <;> simp [hfailed]

/-- All other records are those of the analysis. -/
theorem get?_base_of_not_failed (h : renewal.analysis.Coherent)
    (hread : id.owner ∉ renewal.analysis.failed) :
    (renewal.base previous).get? id = renewal.fresh? id := by
  rw [base_eq, SortedMap.get?_insertMany, SortedMap.lastValue?_entries, SortedMap.get?_filter,
    get?_ofList_records h]
  cases previous.records.get? id with
  | none => rfl
  | some record =>
    rw [Option.filter_some, SortedSet.contains_eq_false.2 hread]
    rfl

/-! ### Tests -/

/-- Whether a footprint reaches a record. A unit is reached with anything it
owns; a member is looked at only when members are tracked. -/
def reaches (renewal : Renewal) (footprint : Footprint) : Dependency → Bool
  | .unit unit => (footprint.units renewal.analysis.graph).contains unit
  | id => renewal.granularity == .member &&
    (footprint.dependencies renewal.analysis.graph).contains id

/-- Where members are tracked, a member is reached if it is among the nodes. -/
theorem reaches_of_not_isUnit {footprint : Footprint} (hgranularity : renewal.granularity = .member)
    (hmember : id.isUnit = false) : renewal.reaches footprint id = true ↔
      id ∈ footprint.dependencies renewal.analysis.graph := by
  cases id with
  | unit name => cases hmember
  | method key => simp [reaches, hgranularity]
  | field key => simp [reaches, hgranularity]

theorem reaches_unit_iff {footprint : Footprint} {unit : UnitName} :
    renewal.reaches footprint (.unit unit) = true ↔
      ∃ node ∈ footprint.dependencies renewal.analysis.graph, node.owner = unit := by
  rw [reaches, SortedSet.contains_eq_true, Footprint.mem_units]

theorem mem_recordIds {node : Dependency} : id ∈ renewal.recordIds node ↔
    id = .unit node.owner ∨ renewal.granularity = .member ∧ id = node := by
  cases node with
  | unit name =>
    simp only [recordIds, Dependency.isUnit, Bool.not_true, Bool.and_false, Bool.false_eq_true,
      if_false, List.mem_singleton]
    exact (or_iff_left_of_imp fun h => h.2).symm
  | method key => cases hg : renewal.granularity <;> simp [recordIds, Dependency.isUnit, hg]
  | field key => cases hg : renewal.granularity <;> simp [recordIds, Dependency.isUnit, hg]

/-- A record is reached if a node stands for it. -/
theorem reaches_iff {footprint : Footprint} : renewal.reaches footprint id = true ↔
    ∃ node ∈ footprint.dependencies renewal.analysis.graph, id ∈ renewal.recordIds node := by
  simp only [mem_recordIds]
  cases id with
  | unit unit =>
    rw [reaches_unit_iff]
    refine exists_congr fun node => and_congr_right fun _ => ?_
    rw [Dependency.unit.injEq, eq_comm, or_iff_left_of_imp]
    rintro ⟨-, rfl⟩
    rfl
  | method key => simp [reaches, and_comm]
  | field key => simp [reaches, and_comm]

/-- The tests run again whose footprints reach a record. -/
def reaching (renewal : Renewal) (id : Dependency) : SortedSet UnitName :=
  renewal.refreshed.filter fun t => renewal.reaches (renewal.analysis.graph.footprint t) id

/-- The tests that the next store names for a dependency, those of a kept record apart. -/
def testsFor (renewal : Renewal) (previous : Store) (id : Dependency) : SortedSet UnitName :=
  renewal.carried (testsOf previous id) ∪ renewal.reaching id

theorem mem_carried {tests : SortedSet UnitName} {t : UnitName} :
    t ∈ renewal.carried tests ↔ t ∈ tests ∧ t ∈ renewal.tests ∧ t ∉ renewal.refreshed := by
  simp [carried]

theorem mem_footprints {t : UnitName} {footprint : Footprint} :
    (t, footprint) ∈ renewal.footprints ↔
      t ∈ renewal.refreshed ∧ footprint = renewal.analysis.graph.footprint t := by
  rw [footprints, List.mem_map]
  constructor
  · rintro ⟨u, hu, h⟩
    cases h
    exact ⟨hu, rfl⟩
  · rintro ⟨ht, rfl⟩
    exact ⟨t, ht, rfl⟩

/-- A test stands where it stood, or where its footprint reaches if it was run again. -/
theorem mem_testsFor {t : UnitName} : t ∈ renewal.testsFor previous id ↔
    (t ∈ testsOf previous id ∧ t ∈ renewal.tests ∧ t ∉ renewal.refreshed) ∨
      (t ∈ renewal.refreshed ∧ renewal.reaches (renewal.analysis.graph.footprint t) id = true) := by
  rw [testsFor, SortedSet.mem_union, mem_carried, reaching, SortedSet.mem_filter]

/-! ### All passes together -/

/-- What the passes after the first two add, from the first to the last. -/
def named (renewal : Renewal) (previous : Store) : List (Dependency × SortedSet UnitName) :=
  previous.records.entries.map (fun e => (e.1, renewal.carried e.2.tests)) ++
    renewal.footprints.flatMap fun e =>
      ((e.2.dependencies renewal.analysis.graph).flatMap renewal.recordIds).map
        fun id => (id, .ofList [e.1])

theorem namedFor_named : namedFor (renewal.named previous) id = renewal.testsFor previous id := by
  apply SortedSet.ext_mem
  intro t
  simp only [mem_namedFor, named, List.mem_append, or_and_right, exists_or]
  rw [mem_testsFor]
  refine or_congr ?_ ?_
  · rw [mem_testsOf]
    constructor
    · rintro ⟨tests, hmem, ht⟩
      obtain ⟨⟨id', record⟩, hentry, heq⟩ := List.mem_map.1 hmem
      cases heq
      obtain ⟨ht, hthere⟩ := mem_carried.1 ht
      exact ⟨⟨record, SortedMap.get?_eq_some_iff.2 hentry, ht⟩, hthere⟩
    · rintro ⟨⟨record, hget, ht⟩, hthere⟩
      exact ⟨_, List.mem_map_of_mem (SortedMap.get?_eq_some_iff.1 hget), mem_carried.2 ⟨ht, hthere⟩⟩
  · rw [reaches_iff]
    constructor
    · rintro ⟨tests, hmem, ht⟩
      obtain ⟨⟨u, footprint⟩, hfootprint, hmem⟩ := List.mem_flatMap.1 hmem
      obtain ⟨id', hid, heq⟩ := List.mem_map.1 hmem
      cases heq
      obtain rfl := List.mem_singleton.1 (SortedSet.mem_ofList.1 ht)
      obtain ⟨hrefreshed, rfl⟩ := mem_footprints.1 hfootprint
      exact ⟨hrefreshed, List.mem_flatMap.1 hid⟩
    · rintro ⟨hrefreshed, hid⟩
      exact ⟨.ofList [t], List.mem_flatMap.2 ⟨_, mem_footprints.2 ⟨hrefreshed, rfl⟩,
        List.mem_map_of_mem (List.mem_flatMap.2 hid)⟩,
        SortedSet.mem_ofList.2 (List.mem_singleton_self t)⟩

/-- What the loop over footprints does to the records and to the tests that may depend on
anything. -/
theorem foldl_addFootprint (footprints : List (UnitName × Footprint)) (store : Store) :
    footprints.foldl (fun store e => renewal.addFootprint store e.1 e.2) store =
      { store with
        wildcard := store.wildcard.insertMany ((footprints.filter (·.2.reflective)).map (·.1))
        records := addTests store.records (footprints.flatMap fun e =>
          ((e.2.dependencies renewal.analysis.graph).flatMap renewal.recordIds).map
            fun id => (id, .ofList [e.1])) } := by
  induction footprints generalizing store with
  | nil => rfl
  | cons e footprints ih =>
    rw [List.foldl_cons, ih, List.flatMap_cons, addTests_append, Store.mk.injEq]
    refine ⟨?_, rfl, rfl⟩
    rw [addFootprint, List.filter_cons]
    split
    · rfl
    · rfl

end Renewal

variable {renewal : Renewal} {previous : Store} {id : Dependency}

/-- **The records of the next store**, before they are told apart by units. -/
theorem get?_records_next : (previous.next renewal).records.get? id =
    ((renewal.base previous).get? id).map fun record =>
      { record with tests := record.tests ∪ renewal.testsFor previous id } := by
  have hrecords : (previous.next renewal).records =
      addTests (renewal.base previous) (renewal.named previous) := by
    rw [Renewal.named, addTests_append, next, Renewal.foldl_addFootprint]
  rw [hrecords, get?_addTests, Renewal.namedFor_named]

theorem mem_wildcard_next {t : UnitName} : t ∈ (previous.next renewal).wildcard ↔
    (t ∈ previous.wildcard ∧ t ∈ renewal.tests ∧ t ∉ renewal.refreshed) ∨
      (t ∈ renewal.refreshed ∧ (renewal.analysis.graph.footprint t).reflective = true) := by
  rw [next, Renewal.foldl_addFootprint]
  dsimp only
  rw [SortedSet.mem_insertMany, Renewal.mem_carried]
  refine or_congr Iff.rfl ?_
  simp only [List.mem_map, List.mem_filter, Prod.exists, Renewal.mem_footprints]
  constructor
  · rintro ⟨u, footprint, ⟨⟨hu, rfl⟩, hreflective⟩, rfl⟩
    exact ⟨hu, hreflective⟩
  · rintro ⟨ht, hreflective⟩
    exact ⟨t, _, ⟨⟨ht, rfl⟩, hreflective⟩, rfl⟩

/-- **A record of the next store**, for a unit that can be read. -/
theorem get?_records_next_eq_some (h : renewal.analysis.Coherent)
    (hread : id.owner ∉ renewal.analysis.failed) {record : StoreRecord} :
    (previous.next renewal).records.get? id = some record ↔
      id.IsTracked renewal.granularity ∧
        renewal.analysis.fingerprint? id = some record.fingerprint ∧
        record.tests = renewal.testsFor previous id := by
  rw [get?_records_next, Renewal.get?_base_of_not_failed h hread, Option.map_eq_some_iff]
  constructor
  · rintro ⟨fresh, hfresh, rfl⟩
    obtain ⟨htracked, f, hf, rfl⟩ := Renewal.fresh?_eq_some.1 hfresh
    exact ⟨htracked, hf, SortedSet.empty_union _⟩
  · rintro ⟨htracked, hf, htests⟩
    refine ⟨⟨record.fingerprint, ∅⟩, Renewal.fresh?_eq_some.2 ⟨htracked, _, hf, rfl⟩, ?_⟩
    rw [SortedSet.empty_union, ← htests]

/-- A record of the next store, for a unit that cannot be read: a previous one with at least the
tests it had. -/
theorem get?_records_next_of_failed (h : renewal.analysis.Coherent)
    (hfailed : id.owner ∈ renewal.analysis.failed) {record : StoreRecord}
    (hget : (previous.next renewal).records.get? id = some record) :
    ∃ kept, previous.records.get? id = some kept ∧ record.fingerprint = kept.fingerprint ∧
      record.tests = kept.tests ∪ renewal.testsFor previous id := by
  rw [get?_records_next, Renewal.get?_base_of_failed h hfailed, Option.map_eq_some_iff] at hget
  obtain ⟨kept, hkept, rfl⟩ := hget
  exact ⟨kept, hkept, rfl, rfl⟩

/-! ### The next store can be written -/

/-- Every test that the next store names is there, those of kept records apart. -/
theorem mem_tests_of_mem_testsFor (hrefreshed : ∀ t ∈ renewal.refreshed, t ∈ renewal.tests)
    {t : UnitName} (ht : t ∈ renewal.testsFor previous id) : t ∈ renewal.tests := by
  rcases Renewal.mem_testsFor.1 ht with ht | ht
  · exact ht.2.1
  · exact hrefreshed t ht.1

theorem mem_tests_of_mem_wildcard_next (hrefreshed : ∀ t ∈ renewal.refreshed, t ∈ renewal.tests)
    {t : UnitName} (ht : t ∈ (previous.next renewal).wildcard) : t ∈ renewal.tests := by
  rcases mem_wildcard_next.1 ht with ht | ht
  · exact ht.2.1
  · exact hrefreshed t ht.1

/-- The dependencies of the next store read back if those of the analysis do. -/
theorem readsBack_next_iff (h : renewal.analysis.Coherent)
    (hprevious : ∀ {id record}, previous.records.get? id = some record → id.ReadsBack) :
    (∀ {id record}, (previous.next renewal).records.get? id = some record → id.ReadsBack) ↔
      renewal.analysis.ReadsBack renewal.granularity := by
  constructor
  · intro hnext id htracked f hf
    obtain ⟨s, hs, -⟩ := Analysis.fingerprint?_eq_some.1 hf
    exact hnext ((get?_records_next_eq_some h (h.apart hs)).2
      ⟨htracked, (show _ = some (StoreRecord.mk f _).fingerprint from hf), rfl⟩)
  · intro hids id record hget
    by_cases hfailed : id.owner ∈ renewal.analysis.failed
    · obtain ⟨kept, hkept, -⟩ := get?_records_next_of_failed h hfailed hget
      exact hprevious hkept
    · obtain ⟨htracked, hf, -⟩ := (get?_records_next_eq_some h hfailed).1 hget
      exact hids id htracked _ hf

theorem isHex_next (h : renewal.analysis.Coherent)
    (hprevious : ∀ {id record}, previous.records.get? id = some record → record.fingerprint.IsHex)
    {id : Dependency} {record : StoreRecord}
    (hget : (previous.next renewal).records.get? id = some record) : record.fingerprint.IsHex := by
  by_cases hfailed : id.owner ∈ renewal.analysis.failed
  · obtain ⟨kept, hkept, hf, -⟩ := get?_records_next_of_failed h hfailed hget
    exact hf ▸ hprevious hkept
  · exact h.isHex ((get?_records_next_eq_some h hfailed).1 hget).2.1

/-- Every test that the next store names was named before, is there, or was run again. -/
theorem mem_tests_next (h : renewal.analysis.Coherent) {t : UnitName}
    (ht : t ∈ (previous.next renewal).tests) :
    t ∈ previous.tests ∨ t ∈ renewal.tests ∨ t ∈ renewal.refreshed := by
  have hfor : ∀ {id}, t ∈ renewal.testsFor previous id →
      t ∈ renewal.tests ∨ t ∈ renewal.refreshed := fun ht =>
     (Renewal.mem_testsFor.1 ht).imp (fun h => h.2.1) fun h => h.1
  rw [tests, SortedSet.mem_union, SortedSet.mem_union] at ht
  rcases ht with (ht | ht) | ht
  · exact .inr ((mem_wildcard_next.1 ht).imp (fun h => h.2.1) fun h => h.1)
  · exact .inr (.inl ht)
  · obtain ⟨id, record, hget, ht⟩ := mem_recordTests.1 ht
    by_cases hfailed : id.owner ∈ renewal.analysis.failed
    · obtain ⟨kept, hkept, -, hrecord⟩ := get?_records_next_of_failed h hfailed hget
      rw [hrecord, SortedSet.mem_union] at ht
      refine ht.imp (fun ht => ?_) hfor
      exact SortedSet.mem_union.2 (.inr (mem_recordTests.2 ⟨id, kept, hkept, ht⟩))
    · rw [((get?_records_next_eq_some h hfailed).1 hget).2.2] at ht
      exact .inr (hfor ht)

/-- **The next store can be written and read again.** -/
theorem readable_next (h : renewal.analysis.Coherent) (hprevious : previous.Readable)
    (hids : renewal.analysis.ReadsBack renewal.granularity)
    (htests : ∀ t ∈ renewal.tests, IsListed t)
    (hwildcard : ∀ t ∈ (previous.next renewal).wildcard, IsTestName t)
    (hrefreshed : ∀ t ∈ renewal.refreshed, t ∈ renewal.tests) :
    (previous.next renewal).Readable where
  wildcard := hwildcard
  listed t ht := by
    rcases mem_nameList.1 ht with ht | ht
    · exact htests t ht
    obtain ⟨id, record, hget, ht⟩ := mem_recordTests.1 ht
    -- only the records of units that cannot be read come from the previous store
    by_cases hfailed : id.owner ∈ renewal.analysis.failed
    · obtain ⟨kept, hkept, -, hrecord⟩ := get?_records_next_of_failed h hfailed hget
      rw [hrecord, SortedSet.mem_union] at ht
      rcases ht with ht | ht
      · exact hprevious.listed t (mem_nameList_of_record hkept ht)
      · exact htests t (mem_tests_of_mem_testsFor hrefreshed ht)
    · rw [((get?_records_next_eq_some h hfailed).1 hget).2.2] at ht
      exact htests t (mem_tests_of_mem_testsFor hrefreshed ht)
  readsBack := (readsBack_next_iff h hprevious.readsBack).2 hids
  isHex := isHex_next h hprevious.isHex

end Store

end Retest

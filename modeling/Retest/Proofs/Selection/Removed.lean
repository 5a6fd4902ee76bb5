import Retest.Proofs.Selection.LostRecords

/-!
# Tests that are removed

A test that is no longer there is to be forgotten with the next update, so that it is
new should it come back. Test names get into the next store in four ways: as the list of
the tests there are, by the footprints of the tests that were run again, by what is carried
over from the previous store, and with the records of units that cannot be read, which
are kept as they are. The first three ways are open to tests that are there only. The last
one is not: a kept record names the tests it named before
(`Retest.Store.mem_tests_next_iff`).

So a removed test is forgotten unless a kept record names it. Once forgotten it stays so
over all later updates without it (`Retest.Store.not_mem_tests_foldl_next`), and it is
selected when it comes back (`Retest.Store.mem_affected_of_forgotten`). Otherwise it is still
known, and may be passed over although it has changed in the meantime
(`Retest.Store.not_mem_affected_sampleReturn`).
-/

namespace Retest

@[simp] theorem Build.locate_ofMap (files : SortedMap UnitName (List UInt8)) (unit : UnitName) :
    (ofMap files).locate unit = files.get? unit := rfl

/-- The records for a unit have no tests. -/
theorem Snapshot.tests_of_mem_records {s : Snapshot} {granularity : Granularity} {unit : UnitName}
    {id : Dependency} {record : StoreRecord} (h : (id, record) ∈ s.records granularity unit) :
    record.tests = ∅ := by
  rcases List.mem_cons.1 h with h | h
  · cases h
    rfl
  · cases granularity with
    | unit => cases h
    | member =>
      rcases List.mem_append.1 h with h | h
      · obtain ⟨signature, -, h⟩ := List.mem_filterMap.1 h
        obtain ⟨f, -, h⟩ := Option.map_eq_some_iff.1 h
        cases h
        rfl
      · obtain ⟨⟨slot, f⟩, -, h⟩ := List.mem_filterMap.1 h
        obtain ⟨key, -, h⟩ := Option.map_eq_some_iff.1 h
        cases h
        rfl

namespace Store

open Selection (testsOf diff)

namespace Renewal

variable {renewal : Renewal} {previous : Store} {id : Dependency} {record : StoreRecord}
  {t : UnitName}

/-- The tests that kept records name, those of units that cannot be read. -/
def keptTests (renewal : Renewal) (previous : Store) : SortedSet UnitName :=
  .unions ((previous.records.filter fun id _ =>
    renewal.analysis.failed.contains id.owner).values.map StoreRecord.tests)

theorem mem_keptTests : t ∈ renewal.keptTests previous ↔
    ∃ id : Dependency, id.owner ∈ renewal.analysis.failed ∧ t ∈ testsOf previous id := by
  simp only [keptTests, mem_unions_tests, SortedMap.get?_filter_eq_some, mem_testsOf,
    SortedSet.contains_eq_true]
  constructor
  · rintro ⟨id, record, ⟨hget, hfailed⟩, ht⟩
    exact ⟨id, hfailed, record, hget, ht⟩
  · rintro ⟨id, hfailed, record, hget, ht⟩
    exact ⟨id, record, ⟨hget, hfailed⟩, ht⟩

example : keptTests
    ⟨(Build.ofMap (.ofList [("shop.Cart", [0xca, 0xfe])])).analyze {} [], .unit, ∅, ∅⟩
    Selection.sampleCartStore = .ofList ["shop.CartTest"] := by
  decide +kernel

/-- They were known. -/
theorem mem_tests_of_mem_keptTests (h : t ∈ renewal.keptTests previous) : t ∈ previous.tests := by
  obtain ⟨id, -, ht⟩ := mem_keptTests.1 h
  exact mem_tests_of_mem_testsOf ht

/-- The records of units that cannot be read are kept as they are. -/
theorem get?_base_of_kept (hfailed : id.owner ∈ renewal.analysis.failed)
    (hget : previous.records.get? id = some record) :
    (renewal.base previous).get? id = some record := by
  rw [base_eq, SortedMap.get?_insertMany, SortedMap.lastValue?_entries, SortedMap.get?_filter, hget,
    Option.filter_some, SortedSet.contains_eq_true.2 hfailed]
  rfl

/-- All other records start without tests. -/
theorem eq_empty_or_kept_of_get?_base (h : (renewal.base previous).get? id = some record) :
    record.tests = ∅ ∨
      id.owner ∈ renewal.analysis.failed ∧ previous.records.get? id = some record := by
  rw [base_eq, SortedMap.get?_insertMany, SortedMap.lastValue?_entries, Option.or_eq_some_iff] at h
  rcases h with h | ⟨-, h⟩
  · obtain ⟨hget, hfailed⟩ := SortedMap.get?_filter_eq_some.1 h
    exact .inr ⟨SortedSet.contains_eq_true.1 hfailed, hget⟩
  · obtain ⟨⟨unit, s⟩, -, hrecord⟩ := List.mem_flatMap.1 (SortedMap.mem_of_get?_ofList h)
    exact .inl (Snapshot.tests_of_mem_records hrecord)

end Renewal

variable {renewal : Renewal} {previous store : Store} {t : UnitName}

/-- A kept record keeps its tests, and gets those of the update. -/
theorem get?_records_next_of_kept {id : Dependency} {kept : StoreRecord}
    (hfailed : id.owner ∈ renewal.analysis.failed)
    (hkept : previous.records.get? id = some kept) : (previous.next renewal).records.get? id =
      some { kept with tests := kept.tests ∪ renewal.testsFor previous id } := by
  rw [get?_records_next, Renewal.get?_base_of_kept hfailed hkept]
  rfl

/-! ### The tests that the next store names -/

/-- **The tests that the next store names** are those there are, and those that a kept record
names. -/
theorem mem_tests_next_iff (hrefreshed : ∀ t ∈ renewal.refreshed, t ∈ renewal.tests) :
    t ∈ (previous.next renewal).tests ↔ t ∈ renewal.tests ∨ t ∈ renewal.keptTests previous := by
  rw [tests, SortedSet.mem_union, SortedSet.mem_union]
  constructor
  · rintro ((ht | ht) | ht)
    · exact .inl (mem_tests_of_mem_wildcard_next hrefreshed ht)
    · exact .inl ht
    · obtain ⟨id, record, hget, ht⟩ := mem_recordTests.1 ht
      rw [get?_records_next, Option.map_eq_some_iff] at hget
      obtain ⟨base, hbase, rfl⟩ := hget
      rcases SortedSet.mem_union.1 ht with ht | ht
      · rcases Renewal.eq_empty_or_kept_of_get?_base hbase with hempty | ⟨hfailed, hkept⟩
        · rw [hempty] at ht
          exact absurd ht (SortedSet.not_mem_empty t)
        · exact .inr (Renewal.mem_keptTests.2 ⟨id, hfailed, mem_testsOf.2 ⟨base, hkept, ht⟩⟩)
      · exact .inl (mem_tests_of_mem_testsFor hrefreshed ht)
  · rintro (ht | ht)
    · exact .inl (.inr ht)
    · obtain ⟨id, hfailed, ht⟩ := Renewal.mem_keptTests.1 ht
      obtain ⟨record, hget, ht⟩ := mem_testsOf.1 ht
      exact .inr (mem_recordTests.2 ⟨id, _, get?_records_next_of_kept hfailed hget,
        SortedSet.mem_union.2 (.inl ht)⟩)

/-- A test that is not known and not there is not known after an update. -/
theorem not_mem_tests_next (hrefreshed : ∀ t ∈ renewal.refreshed, t ∈ renewal.tests)
    (hunknown : t ∉ previous.tests) (hgone : t ∉ renewal.tests) :
    t ∉ (previous.next renewal).tests := by
  rw [mem_tests_next_iff hrefreshed]
  rintro (h | h)
  · exact hgone h
  · exact hunknown (Renewal.mem_tests_of_mem_keptTests h)

/-- **What is forgotten stays forgotten**, over all updates without the test. -/
theorem not_mem_tests_foldl_next {later : List Renewal}
    (hlater : ∀ r ∈ later, (∀ t ∈ r.refreshed, t ∈ r.tests) ∧ t ∉ r.tests)
    (hunknown : t ∉ store.tests) : t ∉ (later.foldl next store).tests := by
  induction later generalizing store with
  | nil => exact hunknown
  | cons r later ih =>
    obtain ⟨hrefreshed, hgone⟩ := hlater r List.mem_cons_self
    exact ih (fun q hq => hlater q (List.mem_cons_of_mem _ hq))
      (not_mem_tests_next hrefreshed hunknown hgone)

/-- **A removed test is forgotten, unless a kept record names it.** The next store names the tests
there are, and those that a kept record names. A removed test that is not among them is selected
when it comes back, however many updates there were without it. -/
theorem mem_affected_of_forgotten (hrefreshed : ∀ t ∈ renewal.refreshed, t ∈ renewal.tests) :
    (previous.next renewal).tests = renewal.tests ∪ renewal.keptTests previous ∧
      ∀ (t : UnitName) (later : List Renewal),
        t ∉ renewal.tests → t ∉ renewal.keptTests previous →
        (∀ r ∈ later, (∀ t ∈ r.refreshed, t ∈ r.tests) ∧ t ∉ r.tests) →
        ∀ (context : Selection.Context) (build : Build), t ∈ context.tests →
          t ∈ (diff context (later.foldl next (previous.next renewal)) build).affected := by
  constructor
  · refine SortedSet.ext_mem fun t => ?_
    rw [mem_tests_next_iff hrefreshed, SortedSet.mem_union]
  · intro t later hgone hkept hlater context build ht
    have hforgotten : t ∉ (previous.next renewal).tests := fun hmem =>
      ((mem_tests_next_iff hrefreshed).1 hmem).elim hgone hkept
    have hunknown := not_mem_tests_foldl_next hlater hforgotten
    exact Selection.mem_affected_diff.2 ⟨ht, .inr (.inr (.inr hunknown))⟩

/-- Kept records fit a build as they did before. -/
theorem stale_of_stale_next (h : renewal.analysis.Coherent) {build : Build} {unit : UnitName}
    (hfailed : unit ∈ renewal.analysis.failed) (hstale : (previous.next renewal).Stale build unit) :
    previous.Stale build unit := by
  obtain ⟨id, rfl, record, hget, hmisfit⟩ := hstale
  obtain ⟨kept, hkept, hfingerprint, -⟩ := get?_records_next_of_failed h hfailed hget
  exact ⟨id, rfl, kept, hkept, hfingerprint ▸ hmisfit⟩

/-! ### A test that comes back -/

/-- The test is removed, and the class cannot be read. -/
def sampleRemoval : Renewal :=
  ⟨(Build.ofMap (.ofList [("shop.Cart", [0xca, 0xfe])])).analyze {} [], .member, ∅, ∅⟩

/-- The class is back as it was, and the test with a new method. -/
def sampleReturn : Build :=
  .ofMap (.ofList [("shop.Cart", sampleUnit.assemble),
    ("shop.CartTest", (sampleTest.addMethod
      { access := 0x0001, name := "testLeft", descriptor := "()V"
        code := some [.ret] }).assemble)])

/-- What is compared with when the test has come back. -/
def contextAfterRemoval : Selection.Context :=
  ⟨{}, .member, sampleRemoval.analysis.snapshots, .ofList ["shop.CartTest"]⟩

theorem failed_sampleRemoval : sampleRemoval.analysis.snapshots.isEmpty = true ∧
    sampleRemoval.analysis.failed = .ofList ["shop.Cart"] := by
  decide +kernel

/-- The test stands in a record of its own only. -/
def sampleLoneStore : Store where
  records := .ofList [(.unit "shop.CartTest", ⟨⟨"0a"⟩, .ofList ["shop.CartTest"]⟩)]

/-- No kept record names the test. It is forgotten, and selected when it comes back after two
updates. -/
theorem mem_affected_sampleLoneStore : "shop.CartTest" ∈ sampleLoneStore.tests ∧
    (sampleLoneStore.next sampleRemoval).tests = ∅ ∧
    ∀ (context : Selection.Context) (build : Build), "shop.CartTest" ∈ context.tests →
      "shop.CartTest" ∈ (diff context ((sampleLoneStore.next sampleRemoval).next sampleRemoval)
        build).affected := by
  have hkept : sampleRemoval.keptTests sampleLoneStore = ∅ := by decide +kernel
  have hrefreshed : ∀ t ∈ sampleRemoval.refreshed, t ∈ sampleRemoval.tests := fun _ ht => ht
  have hgone : "shop.CartTest" ∉ sampleRemoval.tests := SortedSet.not_mem_empty _
  obtain ⟨htests, hreturn⟩ : (sampleLoneStore.next sampleRemoval).tests = _ ∧ _ :=
    mem_affected_of_forgotten hrefreshed
  refine ⟨by decide, by rw [htests, hkept]; rfl, ?_⟩
  refine hreturn "shop.CartTest" [sampleRemoval] hgone ?_ fun r hr => ?_
  · rw [hkept]
    exact SortedSet.not_mem_empty _
  · rw [List.mem_singleton.1 hr]
    exact ⟨hrefreshed, hgone⟩

theorem locate_sampleReturn :
    sampleReturn.locate "shop.Cart" = sampleBuild.locate "shop.Cart" := by
  have hlocate : sampleReturn.locate "shop.Cart" = some sampleUnit.assemble := by
    rw [sampleReturn, Build.locate_ofMap, SortedMap.get?_ofList]
    simp [SortedMap.lastValue?]
  exact hlocate.trans (Selection.locate_buildWith sampleUnit).symm

/-- The record of the class is kept, and with it the test. When it comes back it is passed over,
although it has changed. -/
theorem not_mem_affected_sampleReturn : ∃ d store,
    FirstUpdate {} .member sampleBuild ["shop.CartTest"] d store ∧
      "shop.CartTest" ∉ sampleRemoval.tests ∧
      "shop.CartTest" ∈ (store.next sampleRemoval).tests ∧
      "shop.CartTest" ∈ contextAfterRemoval.tests ∧
      "shop.CartTest" ∉
        (diff contextAfterRemoval (store.next sampleRemoval) sampleReturn).affected := by
  obtain ⟨d, store, h⟩ := exists_firstUpdate_sampleBuild
  have hcoherent : sampleRemoval.analysis.Coherent := Build.coherent_analyze _ _ _
  have hnone : "shop.CartTest" ∉ sampleRemoval.tests := SortedSet.not_mem_empty _
  have hrefreshed : ∀ t ∈ sampleRemoval.refreshed, t ∈ sampleRemoval.tests := fun _ ht => ht
  have hcart : "shop.Cart" ∈ sampleRemoval.analysis.failed := by
    rw [failed_sampleRemoval.2]
    exact SortedSet.mem_ofList.2 (List.mem_singleton_self _)
  have hknown : "shop.CartTest" ∈ (store.next sampleRemoval).tests :=
    (mem_tests_next_iff hrefreshed).2 (.inr (Renewal.mem_keptTests.2
      ⟨sampleMethodId, hcart, mem_testsOf_sampleMethodId h⟩))
  refine ⟨d, store, h, hnone, hknown, by decide, fun hmem => ?_⟩
  have hquiet : ∀ unit ∈ (store.next sampleRemoval).owners, Selection.outcomeOf contextAfterRemoval
      (store.next sampleRemoval) sampleReturn unit = {} := by
    intro unit hunit
    refine Selection.outcomeOf_of_calm hunit fun hmoved => ?_
    obtain ⟨id, record, hget, rfl⟩ := mem_owners.1 hunit
    by_cases hfailed : id.owner ∈ sampleRemoval.analysis.failed
    · have howner : id.owner = "shop.Cart" := by
        rw [failed_sampleRemoval.2, SortedSet.mem_ofList] at hfailed
        exact List.mem_singleton.1 hfailed
      refine h.not_stale ?_ (stale_of_stale_next hcoherent hfailed hmoved.2)
      rw [howner, locate_sampleReturn]
    · -- there is no snapshot that a new record could come from
      obtain ⟨-, hf, -⟩ := (get?_records_next_eq_some hcoherent hfailed).1 hget
      obtain ⟨s, hs, -⟩ := Analysis.fingerprint?_eq_some.1 hf
      cases (SortedMap.isEmpty_eq_true_iff.1 failed_sampleRemoval.1 id.owner).symm.trans hs
  rcases Selection.of_mem_affected_of_quiet hquiet hmem with ⟨-, hwildcard⟩ | hunknown
  · exact hnone (mem_tests_of_mem_wildcard_next hrefreshed hwildcard)
  · exact hunknown hknown

end Store

end Retest

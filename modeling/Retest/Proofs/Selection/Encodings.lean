import Retest.Proofs.Selection.LostRecords

/-!
# Selections from the two encodings of a store

The two texts of a store do not say the same. Both hold the tests that may depend on
anything and the records with their tests. The one with indices also lists the tests
there are, the one with names does not. So a test that only the list knows
(`Retest.Store.listedOnly`) is new to a selection from the text with names, and it is
selected.

This is all the difference there is. `Retest.Selection.diff_parse?_render` says that what
has changed and which units are gone is found from both texts alike, and so are all
other tests. A test that only the list knows is selected from the text with indices
only if it has itself changed.
-/

namespace Retest

namespace Store

/-- **The tests that only the list knows**: they are in no record, and not among those that may
depend on anything. -/
def listedOnly (store : Store) : SortedSet UnitName :=
  store.knownTests \ (store.wildcard ∪ store.recordTests)

theorem mem_listedOnly {store : Store} {t : UnitName} : t ∈ store.listedOnly ↔
    t ∈ store.knownTests ∧ t ∉ store.wildcard ∧ t ∉ store.recordTests := by
  simp [listedOnly]

example : sampleStore.listedOnly = .ofList ["shop.IdleTest"] := by decide +kernel

theorem mem_recordTests_iff_testsOf {store : Store} {t : UnitName} :
    t ∈ store.recordTests ↔ ∃ id, t ∈ Selection.testsOf store id := by
  simp only [mem_recordTests, mem_testsOf]

end Store

namespace Selection

variable {context : Context} {store : Store} {build : Build} {t : UnitName}

/-- The selection, with some tests moved to those that are selected. -/
def adding (selection : Selection) (tests : SortedSet UnitName) : Selection :=
  { selection with
    affected := selection.affected ∪ tests
    unaffected := selection.unaffected \ tests }

/-- To add tests changes nothing if they are selected already. -/
theorem adding_eq_self_iff {selection : Selection} {tests : SortedSet UnitName}
    (h : ∀ t ∈ selection.unaffected, t ∉ selection.affected) :
    selection.adding tests = selection ↔ ∀ t ∈ tests, t ∈ selection.affected := by
  constructor
  · intro heq t ht
    rw [← heq]
    exact SortedSet.mem_union.2 (.inr ht)
  · intro hall
    have haffected : selection.affected ∪ tests = selection.affected :=
      SortedSet.ext_mem fun t => by
        rw [SortedSet.mem_union]
        exact or_iff_left_of_imp (hall t)
    have hunaffected : selection.unaffected \ tests = selection.unaffected :=
      SortedSet.ext_mem fun t => by
        rw [SortedSet.mem_diff]
        exact and_iff_left_of_imp fun ht hmem => h t ht (hall t hmem)
    rw [adding, haffected, hunaffected]

/-- The tests that are not selected. -/
theorem mem_unaffected_diff : t ∈ (diff context store build).unaffected ↔
    t ∈ context.tests ∧ t ∉ (diff context store build).affected :=
  SortedSet.mem_diff

/-- The list of tests matters only as a part of all tests that the store knows. -/
theorem diff_relist {known : SortedSet UnitName}
    (h : { store with knownTests := known }.tests = store.tests) :
    diff context { store with knownTests := known } build = diff context store build := by
  simp only [diff, combine, h]
  rfl

/-- A test is selected without the list if it was selected, or if only the list knows it. -/
theorem mem_affected_unlist : t ∈ (diff context { store with knownTests := ∅ } build).affected ↔
    t ∈ (diff context store build).affected ∨ t ∈ context.tests ∩ store.listedOnly := by
  have hunknown : t ∉ { store with knownTests := ∅ }.tests ↔
      t ∉ store.tests ∨ t ∈ store.listedOnly := by
    simp only [Store.tests, Store.mem_listedOnly, SortedSet.mem_union, SortedSet.not_mem_empty]
    tauto
  rw [SortedSet.mem_inter, mem_affected_diff, mem_affected_diff, hunknown]
  constructor
  · rintro ⟨ht, h | h | h | h | h⟩
    · exact .inl ⟨ht, .inl h⟩
    · exact .inl ⟨ht, .inr (.inl h)⟩
    · exact .inl ⟨ht, .inr (.inr (.inl h))⟩
    · exact .inl ⟨ht, .inr (.inr (.inr h))⟩
    · exact .inr ⟨ht, h⟩
  · rintro (⟨ht, h | h | h | h⟩ | ⟨ht, h⟩)
    · exact ⟨ht, .inl h⟩
    · exact ⟨ht, .inr (.inl h)⟩
    · exact ⟨ht, .inr (.inr (.inl h))⟩
    · exact ⟨ht, .inr (.inr (.inr (.inl h)))⟩
    · exact ⟨ht, .inr (.inr (.inr (.inr h)))⟩

/-- **Without the list, the tests that only it knows are selected too.** -/
theorem diff_unlist : diff context { store with knownTests := ∅ } build =
    (diff context store build).adding (context.tests ∩ store.listedOnly) := by
  have haffected : (diff context { store with knownTests := ∅ } build).affected =
      (diff context store build).affected ∪ context.tests ∩ store.listedOnly :=
    SortedSet.ext_mem fun t => by rw [SortedSet.mem_union, mem_affected_unlist]
  have hunaffected : (diff context { store with knownTests := ∅ } build).unaffected =
      (diff context store build).unaffected \ (context.tests ∩ store.listedOnly) := by
    refine SortedSet.ext_mem fun t => ?_
    rw [mem_unaffected_diff, haffected, SortedSet.mem_diff, mem_unaffected_diff,
      SortedSet.mem_union, not_or, and_assoc]
  -- the rest does not look at the list
  have hparts : diff context { store with knownTests := ∅ } build =
      { diff context store build with
        affected := (diff context { store with knownTests := ∅ } build).affected
        unaffected := (diff context { store with knownTests := ∅ } build).unaffected } := rfl
  rw [hparts, haffected, hunaffected]
  rfl

/-- A test that only the list knows is selected if it has itself changed. -/
theorem mem_affected_of_listedOnly (ht : t ∈ context.tests) (hlisted : t ∈ store.listedOnly) :
    t ∈ (diff context store build).affected ↔ Reason.itself.Holds context store build t := by
  obtain ⟨hknown, hwildcard, hrecords⟩ := Store.mem_listedOnly.1 hlisted
  have htests : ∀ id, t ∉ testsOf store id :=
    fun id hid => hrecords (Store.mem_recordTests_iff_testsOf.2 ⟨id, hid⟩)
  rw [mem_affected_iff_reason, and_iff_right ht]
  refine ⟨?_, fun h => ⟨_, h⟩⟩
  rintro ⟨reason, hnoted, hraised⟩
  cases reason with
  | itself => exact ⟨hnoted, hraised⟩
  | unknown =>
    exact absurd (SortedSet.mem_union.2 (.inl (SortedSet.mem_union.2 (.inr hknown)))) hnoted
  | record id => exact absurd hnoted.1 (htests id)
  | bystander unit => exact absurd hnoted.1 (htests _)
  | hidden unit id => exact absurd hnoted.1 (htests id)
  | anything unit => exact absurd hnoted.1 hwildcard
  | news unit => exact absurd hnoted.1 hwildcard

/-- **The two texts of a store select the same**, but for the tests that only the list of tests
knows: these are selected from the text with names, and from the text with indices only if they
have themselves changed. For every store that an update leads to, with dependencies and tests that
can be read again. -/
theorem diff_parse?_render {previous : Store} {renewal : Store.Renewal}
    (hstore : store = previous.next renewal)
    (hids : ∀ {id record}, store.records.get? id = some record → id.ReadsBack)
    (hhex : ∀ {id record}, store.records.get? id = some record → record.fingerprint.IsHex)
    (htests : ∀ t ∈ store.tests, Store.IsTestName t) :
    ∃ named indexed, Store.parse? (store.render .names) = some named ∧
      Store.parse? (store.render .indexed) = some indexed ∧
      ∀ (context : Context) (build : Build),
        diff context indexed build = diff context store build ∧
        diff context named build =
          (diff context indexed build).adding (context.tests ∩ store.listedOnly) ∧
        (diff context named build = diff context indexed build ↔
          ∀ t ∈ context.tests, t ∈ renewal.tests → t ∈ store.wildcard ∨ t ∈ store.recordTests ∨
            Reason.itself.Holds context store build t) := by
  refine ⟨_, _, Store.parse?_render_of_isTestName hids hhex htests .names,
    Store.parse?_render_of_isTestName hids hhex htests .indexed, fun context build => ?_⟩
  have hindexed : diff context { store with knownTests := store.listedIn .indexed } build =
      diff context store build := by
    refine diff_relist (SortedSet.ext_mem fun t => ?_)
    simp only [Store.tests, Store.listedIn, SortedSet.mem_union]
    tauto
  have hnamed : diff context { store with knownTests := store.listedIn .names } build =
      (diff context store build).adding (context.tests ∩ store.listedOnly) := diff_unlist
  rw [hindexed, hnamed, adding_eq_self_iff fun t ht => (mem_unaffected_diff.1 ht).2]
  refine ⟨rfl, rfl, forall_congr' fun t => ?_⟩
  have hknown : store.knownTests = renewal.tests := by
    rw [hstore]
    rfl
  constructor
  · intro h ht hmem
    by_cases hwildcard : t ∈ store.wildcard
    · exact .inl hwildcard
    by_cases hrecords : t ∈ store.recordTests
    · exact .inr (.inl hrecords)
    have hlisted : t ∈ store.listedOnly :=
      Store.mem_listedOnly.2 ⟨hknown ▸ hmem, hwildcard, hrecords⟩
    exact .inr (.inr ((mem_affected_of_listedOnly ht hlisted).1
      (h (SortedSet.mem_inter.2 ⟨ht, hlisted⟩))))
  · intro h hmem
    obtain ⟨ht, hlisted⟩ := SortedSet.mem_inter.1 hmem
    obtain ⟨hlist, hwildcard, hrecords⟩ := Store.mem_listedOnly.1 hlisted
    have hitself := ((h ht (hknown ▸ hlist)).resolve_left hwildcard).resolve_left hrecords
    exact (mem_affected_of_listedOnly ht hlisted).2 hitself

/-! ### A test without a class file -/

/-- The store of a build without classes, where a test is listed all the same. -/
def sampleStrayStore : Store :=
  firstStore {} .member (.ofMap ∅) ["shop.StrayTest"]

/-- What is compared with the store when the build is still without classes. -/
def sampleStrayContext : Context :=
  ⟨{}, .member, ∅, .ofList ["shop.StrayTest"]⟩

/-- The test is selected from one text of the store, and not from the other. -/
theorem diff_ne_sampleStrayStore : ∃ named indexed,
    Store.parse? (sampleStrayStore.render .names) = some named ∧
      Store.parse? (sampleStrayStore.render .indexed) = some indexed ∧
      "shop.StrayTest" ∈ (diff sampleStrayContext named (.ofMap ∅)).affected ∧
      diff sampleStrayContext indexed (.ofMap ∅) =
        { unaffected := .ofList ["shop.StrayTest"] } := by
  refine ⟨{}, { knownTests := .ofList ["shop.StrayTest"] }, ?_, ?_, ?_, ?_⟩ <;> decide +kernel

/-- The store of the sample build, with that test on the list. -/
def sampleListStore : Store :=
  firstStore {} .member sampleBuild ["shop.CartTest", "shop.StrayTest"]

theorem footprint_sampleStrayTest :
    ((sampleBuild.analyze {} []).graph.footprint "shop.StrayTest").reflective = false ∧
      ∀ unit ∈ ((sampleBuild.analyze {} []).graph.footprint "shop.StrayTest").units
        (sampleBuild.analyze {} []).graph,
          (sampleBuild.analyze {} []).snapshots.get? unit = none := by
  decide +kernel

section

variable {d : StoreDirectory}
  (h : FirstUpdate {} .member sampleBuild ["shop.CartTest", "shop.StrayTest"] d store)

include h

theorem mem_recordTests_sampleListStore : t ∈ sampleListStore.recordTests ↔
    ∃ id, t ∈ testsOf store id := by
  rw [Store.mem_recordTests_iff_testsOf]
  simp only [testsOf, h.records]
  rfl

/-- Only the list knows the test without a class file. -/
theorem mem_listedOnly_sampleListStore : "shop.StrayTest" ∈ sampleListStore.listedOnly := by
  have hlist : "shop.StrayTest" ∈ sampleListStore.knownTests := SortedSet.mem_ofList.2 (by decide)
  refine Store.mem_listedOnly.2 ⟨hlist, fun hwildcard => ?_, fun hrecords => ?_⟩
  · have hstore : "shop.StrayTest" ∈ store.wildcard := by
      rw [h.wildcard]
      exact hwildcard
    cases footprint_sampleStrayTest.1.symm.trans (h.reflective_of_mem_wildcard hstore)
  · obtain ⟨id, ht⟩ := (mem_recordTests_sampleListStore h).1 hrecords
    obtain ⟨f, hf⟩ := (h.mem_testsOf.1 ht).2.2.2
    rw [Analysis.fingerprint?, footprint_sampleStrayTest.2 _ (h.owner_mem_units ht)] at hf
    cases hf

end

/-- The test with a class file is selected from both texts alike, whatever happens, and the other
one is selected from the text with names. -/
theorem diff_eq_sampleListStore : ∃ named indexed,
    Store.parse? (sampleListStore.render .names) = some named ∧
      Store.parse? (sampleListStore.render .indexed) = some indexed ∧
      ∀ (context : Context) (build : Build),
        (context.tests = .ofList ["shop.CartTest"] →
          diff context named build = diff context indexed build) ∧
        ("shop.StrayTest" ∈ context.tests →
          "shop.StrayTest" ∈ (diff context named build).affected) := by
  obtain ⟨d, store, h⟩ : ∃ d store,
      FirstUpdate {} .member sampleBuild ["shop.CartTest", "shop.StrayTest"] d store :=
    exists_firstUpdate reads_sampleBuild.allRead reads_sampleBuild.readsBack (by decide)
  have hreadable : sampleListStore.Readable := h.readable
  have htests : sampleListStore.tests = .ofList ["shop.CartTest", "shop.StrayTest"] :=
    Store.tests_next (sampleBuild.coherent_analyze {} [])
      reads_sampleBuild.allRead.failed_eq_empty fun _ ht => ht
  obtain ⟨named, indexed, hnamed, hindexed, hdiff⟩ :=
    diff_parse?_render (show sampleListStore = Store.next {} _ from rfl) hreadable.readsBack
      hreadable.isHex fun t ht => h.named t (SortedSet.mem_ofList.1 (htests ▸ ht))
  refine ⟨named, indexed, hnamed, hindexed, fun context build => ?_⟩
  obtain ⟨-, hadding, hsame⟩ := hdiff context build
  refine ⟨fun hone => hsame.2 fun t ht _ => .inr (.inl ?_), fun ht => ?_⟩
  · rw [hone, SortedSet.mem_ofList, List.mem_singleton] at ht
    rw [ht, mem_recordTests_sampleListStore h]
    exact ⟨sampleMethodId, h.mem_testsOf.2 ⟨List.mem_cons_self, reaches_sampleBuild.1, rfl,
      Option.isSome_iff_exists.1 fingerprints_sampleBuild.1⟩⟩
  · rw [hadding]
    exact SortedSet.mem_union.2 (.inr (SortedSet.mem_inter.2
      ⟨ht, mem_listedOnly_sampleListStore h⟩))

end Selection

end Retest

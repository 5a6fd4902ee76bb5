import Retest.Proofs.Selection.Diff
import Retest.Proofs.Selection.Run

/-!
# An unchanged build selects nothing

If every unit of a build can be read, then after a run on it a second run on the
same build selects no test, finds nothing changed, and writes what is there
already (`Retest.runSelection_unchanged`).

The second run reads the snapshots that the first one took, so every class file
has the checksum of its snapshot and no unit has an outcome. No unit is new, since
all have snapshots. The next store is made from the same analysis with no test
run again, and so every test stands where it stood. What remains is that each test
has to be known to the store that is read: the indexed encoding lists all tests,
while the encoding by names shows only those that stand in some record.
-/

namespace Retest

/-! ### The next store, made again -/

namespace Store

variable {renewal : Renewal} {previous : Store}

/-- The same renewal with no test run again. -/
def Renewal.idle (renewal : Renewal) : Renewal := { renewal with refreshed := ∅ }

/-- If no test was run again, every test that is there stands where it stood. -/
theorem Renewal.carried_idle {set : SortedSet UnitName} (h : ∀ t ∈ set, t ∈ renewal.tests) :
    renewal.idle.carried set = set :=
  SortedSet.ext_mem fun t => by
    rw [mem_carried]
    exact ⟨fun ht => ht.1, fun ht => ⟨ht, h t ht, SortedSet.not_mem_empty t⟩⟩

theorem Renewal.testsFor_idle {id : Dependency}
    (h : ∀ t ∈ Selection.testsOf previous id, t ∈ renewal.tests) :
    renewal.idle.testsFor previous id = Selection.testsOf previous id := by
  rw [testsFor, carried_idle h]
  exact SortedSet.union_empty _

/-- **A store that is made again with no test run again is the same store.** -/
theorem next_idle (h : renewal.analysis.Coherent) (hread : renewal.analysis.failed = ∅)
    (hrefreshed : ∀ t ∈ renewal.refreshed, t ∈ renewal.tests) {loaded : Store}
    (hwildcard : loaded.wildcard = (previous.next renewal).wildcard)
    (hrecords : loaded.records = (previous.next renewal).records) :
    loaded.next renewal.idle = previous.next renewal := by
  have hnot : ∀ unit, unit ∉ renewal.analysis.failed := fun unit => by
    rw [hread]
    exact SortedSet.not_mem_empty unit
  have hidle : renewal.idle.analysis.Coherent := h
  have hw : (loaded.next renewal.idle).wildcard = (previous.next renewal).wildcard := by
    have hsub : ∀ t ∈ loaded.wildcard, t ∈ renewal.tests := fun t ht =>
      mem_tests_of_mem_wildcard_next hrefreshed (hwildcard ▸ ht)
    apply SortedSet.ext_mem
    intro t
    have hnone : t ∉ renewal.idle.refreshed := SortedSet.not_mem_empty t
    rw [mem_wildcard_next, ← hwildcard]
    constructor
    · rintro (⟨ht, -⟩ | ⟨ht, -⟩)
      · exact ht
      · exact absurd ht hnone
    · exact fun ht => .inl ⟨ht, hsub t ht, hnone⟩
  have hr : (loaded.next renewal.idle).records = (previous.next renewal).records := by
    refine SortedMap.ext_get? fun id => ?_
    cases hget : (previous.next renewal).records.get? id with
    | none =>
      -- the renewals agree about which dependencies get a record
      rw [get?_records_next, Renewal.get?_base_of_not_failed h (hnot _),
        Option.map_eq_none_iff] at hget
      have hfresh : renewal.idle.fresh? id = none := hget
      rw [get?_records_next, Renewal.get?_base_of_not_failed hidle (hnot _), hfresh]
      rfl
    | some record =>
      obtain ⟨htracked, hf, htests⟩ := (get?_records_next_eq_some h (hnot _)).1 hget
      have hold : Selection.testsOf loaded id = record.tests := by
        rw [Selection.testsOf, hrecords, hget]
        rfl
      have hsub : ∀ t ∈ Selection.testsOf loaded id, t ∈ renewal.tests := fun t ht => by
        rw [hold, htests] at ht
        exact mem_tests_of_mem_testsFor hrefreshed ht
      refine (get?_records_next_eq_some hidle (hnot _)).2 ⟨htracked, hf, ?_⟩
      rw [Renewal.testsFor_idle hsub, hold]
  have hparts : ∀ store : Store, store = ⟨store.wildcard, store.records, store.knownTests⟩ :=
    fun _ => rfl
  rw [hparts (loaded.next _), hw, hr]
  rfl

end Store

/-! ### The same build, selected from again -/

variable {settings : Settings} {granularity : Granularity} {build : Build}
  {external : List (UnitName × UnitName)} {tests : List UnitName} {selection : Selection}
  {d : StoreDirectory} {previous : Store}

namespace Build

/-- No unit is new to the snapshots of the same build. -/
theorem AllRead.newUnits_eq_nil (h : build.AllRead settings) (granularity : Granularity)
    (current : SortedSet UnitName) (store : Store) :
    Selection.newUnits ⟨settings, granularity, (build.analyze settings external).snapshots, current⟩
      store build = [] := by
  rw [Selection.newUnits, List.filter_eq_nil_iff]
  intro unit hunit hnew
  simp only [Bool.and_eq_true, Bool.not_eq_true'] at hnew
  have hrelevant : unit ∈ build.relevant settings := List.mem_filter.2 ⟨hunit, by simp [hnew.1.1]⟩
  obtain ⟨p, hp⟩ := h unit hrelevant
  have hs : (build.analyze settings external).snapshots.get? unit = some p.snapshot :=
    get?_snapshots_analyze.2 ⟨p, mem_parsed.2 ⟨hrelevant, hp⟩, rfl⟩
  have hcontains := SortedMap.contains_eq_true.2 (SortedMap.mem_keys_of_get? hs)
  rw [hcontains] at hnew
  cases hnew.1.2

end Build

/-- **Nothing is selected from the build that was analysed**, if the store knows every test. -/
theorem Build.AllRead.diff_eq (h : build.AllRead settings) {store : Store}
    (hrecords : ∀ id record, store.records.get? id = some record →
      ∃ f, (build.analyze settings external).fingerprint? id = some f)
    (hknown : ∀ t ∈ tests, t ∈ store.tests) :
    Selection.diff ⟨settings, granularity, (build.analyze settings external).snapshots,
      .ofList tests⟩
      store build = { unaffected := .ofList tests } := by
  refine Selection.diff_of_quiet (fun unit hunit => ?_) (h.newUnits_eq_nil _ _ _) fun t ht =>
    hknown t (SortedSet.mem_ofList.1 ht)
  obtain ⟨id, record, hget, rfl⟩ := Store.mem_owners.1 hunit
  obtain ⟨f, hf⟩ := hrecords id record hget
  obtain ⟨s, hs, -⟩ := Analysis.fingerprint?_eq_some.1 hf
  obtain ⟨-, bytes, hlocate, hcrc⟩ := Build.exists_locate_of_snapshot hs
  exact Selection.Context.outcome_of_snapshot hlocate hs hcrc _

/-- Writing a second time what was written changes nothing. -/
theorem StoreDirectory.written_written (d : StoreDirectory) (settings : Settings) (store : Store)
    (snapshots : List Snapshot) :
    (d.written settings store snapshots).written settings store snapshots =
      d.written settings store snapshots := by
  rw [written, put_eq_self (entry?_storeFile_written d settings store snapshots),
    put_eq_self (entry?_snapshotFile_written d settings store snapshots)]

/-! ### After an update -/

section Update

variable (hbuild : build.AllRead settings)
  (hids : (build.analyze settings external).ReadsBack granularity)
  (htests : ∀ t ∈ tests, Store.IsTestName t) (hprevious : d.previous? selection = some previous)
  {next : Store} (hnext : next =
    previous.next (selection.renewal (build.analyze settings external) granularity tests))

include hbuild hids htests hprevious hnext

/-- **The same build selects nothing after an update**, if the store that is read shows every test.
-/
theorem select_after_update
    (hknown : settings.encodingFor (SortedSet.ofList tests).size = .indexed ∨
      ∀ t ∈ tests, t ∈ next.wildcard ∨ t ∈ next.recordTests) :
    (d.written settings next (build.analyze settings external).snapshots.values).select settings
      granularity build tests = { unaffected := .ofList tests } := by
  have hcoherent := build.coherent_analyze settings external
  rw [StoreDirectory.select, loadStore_after_update hbuild hids htests hprevious hnext,
    StoreDirectory.loadSnapshots_written, StoreDirectory.indexSnapshots_values hcoherent.named]
  refine hbuild.diff_eq (fun id record hget => ?_) fun t ht => ?_
  · rw [hnext] at hget
    exact ⟨_,
      ((Selection.get?_records_next_eq_some hcoherent (hbuild.not_mem_failed _)).1 hget).2.1⟩
  · rw [Store.tests, SortedSet.mem_union, SortedSet.mem_union]
    rcases hknown with hindexed | hknown
    · -- the indexed encoding lists all tests there are
      have hlisted : t ∈ next.knownTests := by
        rw [hnext]
        exact SortedSet.mem_ofList.2 ht
      rw [hindexed]
      exact .inl (.inr (SortedSet.mem_union.2 (.inl hlisted)))
    · exact (hknown t ht).imp_left .inl

/-- **An update with no test run again writes what is there.** -/
theorem updateStore_after_update :
    ∃ summary, (updateStore settings granularity (build.analyze settings external) tests
      { unaffected := .ofList tests }).run.run
        (d.written settings next (build.analyze settings external).snapshots.values) =
      (.ok summary,
        d.written settings next (build.analyze settings external).snapshots.values) := by
  have hcoherent := build.coherent_analyze settings external
  have hload := loadStore_after_update hbuild hids htests hprevious hnext
  refine ⟨_, (updateStore_eq_ok hcoherent).2 ⟨?_, ?_, _, hload, rfl, ?_⟩⟩
  · rw [StoreDirectory.entry?_storeFile_written]
    simp
  · rw [StoreDirectory.entry?_snapshotFile_written]
    simp
  · have hidle : Selection.renewal { unaffected := .ofList tests } (build.analyze settings external)
        granularity tests =
          (selection.renewal (build.analyze settings external) granularity tests).idle := rfl
    -- where no test is run again, the next store is the one that was read
    have hagain : Store.next { next with
        knownTests := next.listedIn (settings.encodingFor (SortedSet.ofList tests).size) }
          (selection.renewal (build.analyze settings external) granularity tests).idle = next := by
      rw [hnext]
      exact Store.next_idle hcoherent hbuild.failed_eq_empty
        (fun _ ht => Selection.mem_of_mem_refreshed ht) rfl rfl
    rw [hidle, hagain, StoreDirectory.written_written]

end Update

variable {tests? : Option (List UnitName)}

/-- **An unchanged build selects nothing.** After a run, a second run on the same build with the
same settings and tests selects no test and finds nothing changed, and the directory stays as it
is. -/
theorem runSelection_unchanged {first : Selection} {d₁ : StoreDirectory}
    (hbuild : build.AllRead settings)
    (hids : (build.analyze settings external).ReadsBack settings.granularity)
    (htests : ∀ t ∈ testsOfRun settings build tests? external, Store.IsTestName t)
    (hrun : (runSelection settings build tests? external).run.run d = (.ok first, d₁))
    (hknown : settings.encodingFor
        (SortedSet.ofList (testsOfRun settings build tests? external)).size = .indexed ∨
      ∀ store, d₁.loadStore = some store → ∀ t ∈ testsOfRun settings build tests? external,
        t ∈ store.wildcard ∨ t ∈ store.recordTests) :
    (runSelection settings build tests? external).run.run d₁ =
      (.ok { firstRun := false, affected := ∅, changed := ∅, deleted := ∅
             unaffected := .ofList (testsOfRun settings build tests? external) }, d₁) := by
  have hcoherent := build.coherent_analyze settings external
  obtain ⟨-, summary, hupdate⟩ := runSelection_eq_ok.1 hrun
  obtain ⟨-, -, previous, hprevious, -, rfl⟩ := (updateStore_eq_ok hcoherent).1 hupdate
  have hload := loadStore_after_update hbuild hids htests hprevious rfl
  have hshown := hknown.imp_right fun hall => hall _ hload
  have hselect := select_after_update hbuild hids htests hprevious rfl hshown
  obtain ⟨summary₂, hupdate₂⟩ := updateStore_after_update hbuild hids htests hprevious rfl
  exact runSelection_eq_ok.2 ⟨hselect.symm, summary₂, hupdate₂⟩

/-- Two runs on a build of two units, in the indexed encoding: the second selects nothing. -/
theorem runSelection_sampleBuild_unchanged :
    ∃ d₁,
      (runSelection { encoding := some .indexed } sampleBuild (some ["shop.CartTest"]) []).run.run
        ⟨"store", none⟩ = (.ok (.first (.ofList ["shop.CartTest"])), d₁) ∧
      (runSelection { encoding := some .indexed } sampleBuild (some ["shop.CartTest"]) []).run.run
          d₁ =
        (.ok { unaffected := .ofList ["shop.CartTest"] }, d₁) :=
  ⟨_, runSelection_first rfl rfl _ _ _ _,
    runSelection_unchanged (by decide +kernel) (by decide +kernel) (by decide)
      (runSelection_first rfl rfl _ _ _ _) (.inl rfl)⟩

end Retest

import Retest.Assembly.Basic
import Retest.Proofs.Selection.Next
import Retest.Proofs.Snapshot.File
import Retest.Selection.Run

/-!
# What an update leaves behind

An update writes the next store and the snapshots of its analysis, and nothing
else (`Retest.updateStore_eq_ok`). It never fails for the sake of a record, since
each record of the next store belongs to a unit of the analysis
(`Retest.Store.validate_next`); it can only fail to find the previous store, or
to write a file.

What it wrote is what the next selection reads: the snapshots of the analysis
(`Retest.StoreDirectory.loadSnapshots_written`), and the next store with its tests
listed or not, as the encoding has it (`Retest.StoreDirectory.loadStore_written`).
-/

namespace Retest

namespace StoreDirectory

/-! ### What was written -/

/-- The directory after an update. -/
def written (d : StoreDirectory) (settings : Settings) (store : Store) (snapshots : List Snapshot) :
    StoreDirectory :=
  (d.put storeFile
    (.file (Text.Utf8.encode (store.render (settings.encodingFor store.tests.size))))).put
    snapshotFile (.file (Text.Utf8.encode (renderSnapshots snapshots)))

variable (d : StoreDirectory) (settings : Settings) (store : Store) (snapshots : List Snapshot)

theorem entry?_storeFile_written : StoreDirectory.entry?
    (d.written settings store snapshots) storeFile =
    some (.file (Text.Utf8.encode (store.render (settings.encodingFor store.tests.size)))) := by
  rw [written, entry?_put, if_neg (by decide), entry?_put, if_pos rfl]

theorem entry?_snapshotFile_written : StoreDirectory.entry?
    (d.written settings store snapshots) snapshotFile =
    some (.file (Text.Utf8.encode (renderSnapshots snapshots))) := by
  rw [written, entry?_put, if_pos rfl]

/-- An update leaves no folder where there was none. -/
theorem entry?_written_ne_folder {file : String} (h : d.entry? file ≠ some .folder) :
    StoreDirectory.entry? (d.written settings store snapshots) file ≠ some .folder := by
  rw [written, entry?_put, entry?_put]
  split
  · simp
  · split
    · simp
    · exact h

/-- The store that is loaded after an update is read from the text of the one that was written. -/
theorem loadStore_written : (d.written settings store snapshots).loadStore =
    Store.parse? (store.render (settings.encodingFor store.tests.size)) := by
  rw [written, loadStore_put, loadStore_put_encode]

/-- The snapshots that are loaded after an update are those that were written. -/
theorem loadSnapshots_written :
    (d.written settings store snapshots).loadSnapshots = indexSnapshots snapshots := by
  rw [written, loadSnapshots_put_encode, parseSnapshots_textLines]

/-- Snapshots that stand under their own names are found there again. -/
theorem indexSnapshots_values {snapshots : SortedMap UnitName Snapshot}
    (h : ∀ {unit s}, snapshots.get? unit = some s → s.name = unit) :
    indexSnapshots snapshots.values = snapshots := by
  have hentries : snapshots.values.map (fun s => (s.name, s)) = snapshots.entries := by
    rw [SortedMap.values, List.map_map]
    refine (List.map_congr_left fun e he => ?_).trans (List.map_id _)
    have := h (SortedMap.get?_eq_some_iff.2 he)
    exact Prod.ext this rfl
  rw [indexSnapshots, hentries, SortedMap.ofList_entries]

/-- The store that a selection was made against, if it is there. -/
def previous? (d : StoreDirectory) (selection : Selection) : Option Store :=
  if selection.firstRun then some {} else d.loadStore

end StoreDirectory

/-! ### Updates -/

/-- **Every record of the next store belongs to a unit of the analysis.** -/
theorem Store.validate_next {renewal : Store.Renewal} (h : renewal.analysis.Coherent)
    (previous : Store) : (previous.next renewal).validate renewal.analysis.knows = .ok () := by
  have hknown : ∀ id ∈ (previous.next renewal).records.keys,
      renewal.analysis.knows id.owner = true := by
    intro id hid
    obtain ⟨record, hget⟩ := SortedMap.mem_keys.1 hid
    rw [Analysis.knows, Bool.or_eq_true]
    by_cases hfailed : id.owner ∈ renewal.analysis.failed
    · exact .inr (SortedSet.contains_eq_true.2 hfailed)
    · obtain ⟨-, hf, -⟩ := (Store.get?_records_next_eq_some h hfailed).1 hget
      obtain ⟨s, hs, -⟩ := Analysis.fingerprint?_eq_some.1 hf
      exact .inl (SortedMap.contains_eq_true.2 (SortedMap.mem_keys_of_get? hs))
  have horphans : (previous.next renewal).orphans renewal.analysis.knows = ∅ := by
    refine SortedSet.eq_empty_of_forall fun id hid => ?_
    obtain ⟨hid, hnot⟩ := SortedSet.mem_filter.1 hid
    rw [hknown id hid] at hnot
    cases hnot
  rw [Store.validate, horphans]
  rfl

/-- What the next store is made from after a selection. -/
def Selection.renewal (selection : Selection) (analysis : Analysis) (granularity : Granularity)
    (tests : List UnitName) : Store.Renewal :=
  ⟨analysis, granularity, .ofList tests, selection.refreshed (.ofList tests)⟩

theorem Selection.mem_of_mem_refreshed {selection : Selection} {tests : SortedSet UnitName}
    {t : UnitName} (h : t ∈ selection.refreshed tests) : t ∈ tests := by
  rw [Selection.refreshed] at h
  split at h
  · exact h
  · exact (SortedSet.mem_inter.1 h).2

theorem previousStore_eq_ok {selection : Selection} {d d' : StoreDirectory} {previous : Store} :
    (previousStore selection).run.run d = (.ok previous, d') ↔
      d.previous? selection = some previous ∧ d' = d := by
  rw [previousStore, StoreDirectory.previous?]
  split
  · constructor
    · intro h
      cases h
      exact ⟨rfl, rfl⟩
    · rintro ⟨h, rfl⟩
      cases h
      rfl
  · rw [Storing.run_get_bind]
    cases d.loadStore with
    | none =>
      constructor
      · intro h
        cases h
      · rintro ⟨h, -⟩
        cases h
    | some store =>
      constructor
      · intro h
        cases h
        exact ⟨rfl, rfl⟩
      · rintro ⟨h, rfl⟩
        cases h
        rfl

variable {settings : Settings} {granularity : Granularity} {analysis : Analysis}
  {tests : List UnitName} {selection : Selection} {d d' : StoreDirectory}

/-- A store that is valid is written, and the snapshots after it. -/
theorem persist_of_valid {store : Store} (hvalid : store.validate analysis.knows = .ok ()) :
    persist store analysis settings = (do
      StoreDirectory.saveStore store settings
      StoreDirectory.saveSnapshots analysis.snapshots.values) := by
  rw [persist, hvalid]
  rfl

/-- Both are written unless a folder is in the way. -/
theorem persist_eq_ok {store : Store} (hvalid : store.validate analysis.knows = .ok ()) :
    (persist store analysis settings).run.run d = (.ok (), d') ↔
      d.entry? StoreDirectory.storeFile ≠ some .folder ∧
        d.entry? StoreDirectory.snapshotFile ≠ some .folder ∧
        d' = d.written settings store analysis.snapshots.values := by
  have hother : ∀ entry, StoreDirectory.entry? (d.put StoreDirectory.storeFile entry)
      StoreDirectory.snapshotFile = d.entry? StoreDirectory.snapshotFile := fun entry => by
    rw [StoreDirectory.entry?_put, if_neg (by decide)]
  rw [persist_of_valid hvalid]
  constructor
  · intro h
    obtain ⟨_, d₁, hstore, hsnapshots⟩ := Storing.of_run_bind_eq_ok h
    obtain ⟨hfile, rfl⟩ := StoreDirectory.write_eq_ok.1 hstore
    obtain ⟨hfile', rfl⟩ := StoreDirectory.write_eq_ok.1 hsnapshots
    rw [hother] at hfile'
    exact ⟨hfile, hfile', rfl⟩
  · rintro ⟨hfile, hfile', rfl⟩
    refine (Storing.run_bind_of_ok (StoreDirectory.write_eq_ok.2 ⟨hfile, rfl⟩)).trans ?_
    exact StoreDirectory.write_eq_ok.2 ⟨by rwa [hother], rfl⟩

/-- What an update has to write is valid. -/
theorem Selection.validate_next (h : analysis.Coherent) (selection : Selection)
    (granularity : Granularity) (tests : List UnitName) (previous : Store) :
    (previous.next (selection.renewal analysis granularity tests)).validate analysis.knows =
      .ok () :=
  Store.validate_next (show (selection.renewal analysis granularity tests).analysis.Coherent
    from h) previous

/-- What an update amounts to, from the previous store. -/
def Store.Renewal.summary (renewal : Store.Renewal) (previous : Store) : UpdateSummary :=
  let next := previous.next renewal
  { records := next.records.size
    refreshed := renewal.refreshed.size
    pruned := (previous.records.filter fun id _ => !next.records.contains id).size
    wildcard := next.wildcard.size }

theorem updateStore_eq (settings : Settings) (granularity : Granularity) (analysis : Analysis)
    (tests : List UnitName) (selection : Selection) :
    updateStore settings granularity analysis tests selection =
      previousStore selection >>= fun previous =>
        persist (previous.next (selection.renewal analysis granularity tests)) analysis settings >>=
          fun _ => pure ((selection.renewal analysis granularity tests).summary previous) := rfl

/-- **An update writes the next store and the snapshots**, if the previous store is there and no
folder is in the way. -/
theorem updateStore_eq_ok (h : analysis.Coherent) {summary : UpdateSummary} :
    (updateStore settings granularity analysis tests selection).run.run d = (.ok summary, d') ↔
      d.entry? StoreDirectory.storeFile ≠ some .folder ∧
        d.entry? StoreDirectory.snapshotFile ≠ some .folder ∧
        ∃ previous, d.previous? selection = some previous ∧
          summary = (selection.renewal analysis granularity tests).summary previous ∧
          d' = d.written settings (previous.next (selection.renewal analysis granularity tests))
            analysis.snapshots.values := by
  have hvalid := selection.validate_next h granularity tests
  rw [updateStore_eq]
  constructor
  · intro hrun
    obtain ⟨previous, d₁, hfirst, hrest⟩ := Storing.of_run_bind_eq_ok hrun
    obtain ⟨hprevious, rfl⟩ := previousStore_eq_ok.1 hfirst
    obtain ⟨_, d₂, hpersist, hlast⟩ := Storing.of_run_bind_eq_ok hrest
    obtain ⟨hstore, hsnapshots, rfl⟩ := (persist_eq_ok (hvalid previous)).1 hpersist
    cases hlast
    exact ⟨hstore, hsnapshots, previous, hprevious, rfl, rfl⟩
  · rintro ⟨hstore, hsnapshots, previous, hprevious, rfl, rfl⟩
    refine (Storing.run_bind_of_ok (previousStore_eq_ok.2 ⟨hprevious, rfl⟩)).trans ?_
    refine (Storing.run_bind_of_ok ((persist_eq_ok (hvalid previous)).2
      ⟨hstore, hsnapshots, rfl⟩)).trans ?_
    rfl

/-! ### What is read after an update -/

/-- A store that is loaded can be written and read again. -/
theorem StoreDirectory.readable_of_loadStore {store : Store} (h : d.loadStore = some store) :
    store.Readable := by
  obtain ⟨bytes, -, h⟩ := Option.bind_eq_some_iff.1 h
  obtain ⟨text, -, h⟩ := Option.bind_eq_some_iff.1 h
  exact Store.readable_of_parse? h

theorem StoreDirectory.readable_of_previous? {previous : Store}
    (h : d.previous? selection = some previous) : previous.Readable := by
  rw [StoreDirectory.previous?] at h
  split at h
  · cases h
    have hnone : ∀ id : Dependency, (∅ : SortedMap Dependency StoreRecord).get? id = none :=
      SortedMap.get?_empty
    refine ⟨fun t ht => absurd ht (SortedSet.not_mem_empty t), fun t ht => ?_, fun h => ?_,
      fun h => ?_⟩
    · cases ht
    · cases (hnone _).symm.trans h
    · cases (hnone _).symm.trans h
  · exact readable_of_loadStore h

/-- A record of the next store after a selection, for a unit that can be read. -/
theorem Selection.get?_records_next_eq_some (h : analysis.Coherent) {previous : Store}
    {id : Dependency} (hread : id.owner ∉ analysis.failed) {record : StoreRecord} :
    (previous.next (selection.renewal analysis granularity tests)).records.get? id = some record ↔
      id.IsTracked granularity ∧ analysis.fingerprint? id = some record.fingerprint ∧
        record.tests = (selection.renewal analysis granularity tests).testsFor previous id :=
  Store.get?_records_next_eq_some
    (show (selection.renewal analysis granularity tests).analysis.Coherent from h) hread

/-- The next store after a selection can be written and read again. -/
theorem Selection.readable_next (h : analysis.Coherent) (hids : analysis.ReadsBack granularity)
    (htests : ∀ t ∈ tests, Store.IsTestName t) {previous : Store}
    (hprevious : d.previous? selection = some previous) :
    (previous.next (selection.renewal analysis granularity tests)).Readable := by
  have hnames : ∀ t ∈ (selection.renewal analysis granularity tests).tests, Store.IsTestName t :=
    fun t ht => htests t (SortedSet.mem_ofList.1 ht)
  have hrefreshed : ∀ t ∈ (selection.renewal analysis granularity tests).refreshed,
      t ∈ (selection.renewal analysis granularity tests).tests :=
    fun _ ht => Selection.mem_of_mem_refreshed ht
  exact Store.readable_next h (StoreDirectory.readable_of_previous? hprevious) hids
    (fun t ht => (hnames t ht).isListed)
    (fun t ht => hnames t (Store.mem_tests_of_mem_wildcard_next hrefreshed ht)) hrefreshed

/-- The records of units that can be read name only tests that are there. -/
theorem Selection.named_next (h : analysis.Coherent) (htests : ∀ t ∈ tests, Store.IsTestName t)
    {previous : Store} {id : Dependency} (hread : id.owner ∉ analysis.failed) {record : StoreRecord}
    (hget : (previous.next (selection.renewal analysis granularity tests)).records.get? id =
      some record) (encoding : StoreEncoding) : Store.Named encoding record := by
  intro _ t ht
  obtain ⟨-, -, hrecord⟩ := (Selection.get?_records_next_eq_some h hread).1 hget
  rw [hrecord] at ht
  have := Store.mem_tests_of_mem_testsFor (fun _ ht => Selection.mem_of_mem_refreshed ht) ht
  exact htests t (SortedSet.mem_ofList.1 this)

/-- **The next selection reads what an update wrote**: the snapshots of the analysis, and of the
next store all but the records of units that could not be read. -/
theorem StoreDirectory.loadStore_of_update (h : analysis.Coherent)
    (hids : analysis.ReadsBack granularity) (htests : ∀ t ∈ tests, Store.IsTestName t)
    {summary : UpdateSummary}
    (hrun : (updateStore settings granularity analysis tests selection).run.run d =
      (.ok summary, d')) :
    d'.loadSnapshots = analysis.snapshots ∧
      ∃ previous loaded, d.previous? selection = some previous ∧ d'.loadStore = some loaded ∧
        loaded.wildcard =
          (previous.next (selection.renewal analysis granularity tests)).wildcard ∧
        ∀ id : Dependency, id.owner ∉ analysis.failed → loaded.records.get? id =
          (previous.next (selection.renewal analysis granularity tests)).records.get? id := by
  obtain ⟨-, -, previous, hprevious, -, rfl⟩ := (updateStore_eq_ok h).1 hrun
  refine ⟨?_, previous, ?_⟩
  · rw [StoreDirectory.loadSnapshots_written, StoreDirectory.indexSnapshots_values h.named]
  · have hreadable := Selection.readable_next h hids htests hprevious
    obtain ⟨loaded, hloaded, hwildcard, -, hrecords⟩ := Store.parse?_render hreadable _
    refine ⟨loaded, hprevious, ?_, hwildcard, fun id hread =>
      Store.get?_eq_of_named hreadable (hrecords id) fun record hget => ?_⟩
    · rw [StoreDirectory.loadStore_written]
      exact hloaded
    · exact Selection.named_next h htests hread hget _

section AllRead

variable {build : Build} {external : List (UnitName × UnitName)} {previous next : Store}

/-- Where every unit can be read, the next store names just the tests there are. -/
theorem Store.tests_next {renewal : Store.Renewal} (h : renewal.analysis.Coherent)
    (hread : renewal.analysis.failed = ∅)
    (hrefreshed : ∀ t ∈ renewal.refreshed, t ∈ renewal.tests) :
    (previous.next renewal).tests = renewal.tests := by
  refine SortedSet.ext_mem fun t => ⟨fun ht => ?_, fun ht => ?_⟩
  · rw [Store.tests, SortedSet.mem_union, SortedSet.mem_union] at ht
    rcases ht with (ht | ht) | ht
    · exact Store.mem_tests_of_mem_wildcard_next hrefreshed ht
    · exact ht
    · obtain ⟨id, record, hget, ht⟩ := Store.mem_recordTests.1 ht
      obtain ⟨-, -, hrecord⟩ := (Store.get?_records_next_eq_some h (by
        rw [hread]
        exact SortedSet.not_mem_empty _)).1 hget
      rw [hrecord] at ht
      exact Store.mem_tests_of_mem_testsFor hrefreshed ht
  · rw [Store.tests, SortedSet.mem_union, SortedSet.mem_union]
    exact .inl (.inr ht)

/-- The next store is read as a whole where every unit can be read. -/
theorem loadStore_after_update (hbuild : build.AllRead settings)
    (hids : (build.analyze settings external).ReadsBack granularity)
    (htests : ∀ t ∈ tests, Store.IsTestName t) (hprevious : d.previous? selection = some previous)
    (hnext : next =
      previous.next (selection.renewal (build.analyze settings external) granularity tests)) :
    (d.written settings next (build.analyze settings external).snapshots.values).loadStore =
      some { next with
        knownTests := next.listedIn (settings.encodingFor (SortedSet.ofList tests).size) } := by
  have hcoherent := build.coherent_analyze settings external
  have hall : next.tests = .ofList tests := by
    rw [hnext]
    exact Store.tests_next hcoherent hbuild.failed_eq_empty fun _ ht =>
      Selection.mem_of_mem_refreshed ht
  rw [StoreDirectory.loadStore_written, hall, hnext]
  exact Store.parse?_render_eq (Selection.readable_next hcoherent hids htests hprevious) _
    fun hget => Selection.named_next hcoherent htests (hbuild.not_mem_failed _) hget _

end AllRead

/-! ### Runs -/

variable {build : Build} {tests? : Option (List UnitName)} {external : List (UnitName × UnitName)}

/-- The tests that a run is about: those given, or those found in the build. -/
def testsOfRun (settings : Settings) (build : Build) (tests? : Option (List UnitName))
    (external : List (UnitName × UnitName)) : List UnitName :=
  tests?.getD ((build.analyze settings external).tests settings)

theorem runSelection_eq (settings : Settings) (build : Build) (tests? : Option (List UnitName))
    (external : List (UnitName × UnitName)) :
    runSelection settings build tests? external = (get : Storing StoreDirectory) >>= fun d =>
      let selection := d.select settings settings.granularity build
        (testsOfRun settings build tests? external)
      updateStore settings settings.granularity (build.analyze settings external)
        (testsOfRun settings build tests? external) selection >>= fun _ => pure selection := rfl

/-- **A run selects, then updates.** -/
theorem runSelection_eq_ok {result : Selection} :
    (runSelection settings build tests? external).run.run d = (.ok result, d') ↔
      result = d.select settings settings.granularity build
          (testsOfRun settings build tests? external) ∧
        ∃ summary, (updateStore settings settings.granularity (build.analyze settings external)
          (testsOfRun settings build tests? external) result).run.run d = (.ok summary, d') := by
  rw [runSelection_eq, Storing.run_get_bind]
  constructor
  · intro h
    obtain ⟨summary, d₁, hupdate, h⟩ := Storing.of_run_bind_eq_ok h
    cases h
    exact ⟨rfl, summary, hupdate⟩
  · rintro ⟨rfl, summary, hupdate⟩
    exact Storing.run_bind_of_ok hupdate

/-- **A run without a store selects all tests**, and its update succeeds. -/
theorem runSelection_first (hstore : d.entry? StoreDirectory.storeFile = none)
    (hsnapshots : d.entry? StoreDirectory.snapshotFile = none) (settings : Settings) (build : Build)
    (tests? : Option (List UnitName)) (external : List (UnitName × UnitName)) :
    let all := Selection.first (.ofList (testsOfRun settings build tests? external))
    (runSelection settings build tests? external).run.run d =
      (.ok all, d.written settings (Store.next {} (all.renewal (build.analyze settings external)
        settings.granularity (testsOfRun settings build tests? external)))
        (build.analyze settings external).snapshots.values) := by
  have hload : d.loadStore = none := by
    simp [StoreDirectory.loadStore, StoreDirectory.read?, hstore]
  refine runSelection_eq_ok.2 ⟨?_, _,
    (updateStore_eq_ok (build.coherent_analyze settings external)).2
    ⟨?_, ?_, {}, rfl, rfl, rfl⟩⟩
  · rw [StoreDirectory.select, hload]
  · simp [hstore]
  · simp [hsnapshots]

/-! ### A small build -/

/-- A class with a field and a method that reads it. -/
def sampleUnit : ClassSpec :=
  (ClassSpec.addField { name := "shop.Cart" }
    { access := 0x0008, name := "count", descriptor := "I" }).addMethod
    { access := 0x0001, name := "total", descriptor := "()I"
      code := some [.member 0xb2 "shop.Cart" "count" "I", .ireturn] }

/-- A test that calls the method. -/
def sampleTest : ClassSpec :=
  ClassSpec.addMethod { name := "shop.CartTest" }
    { access := 0x0001, name := "testTotal", descriptor := "()V"
      code := some [.aload 1, .member 0xb6 "shop.Cart" "total" "()I", .pop, .ret] }

/-- The test beside some version of the class. -/
def buildWith (unit : ClassSpec) : Build :=
  .ofMap (.ofList [("shop.Cart", unit.assemble), ("shop.CartTest", sampleTest.assemble)])

/-- A build of both. -/
def sampleBuild : Build := buildWith sampleUnit

end Retest

import Retest.Proofs.Selection.Soundness

/-!
# Histories of runs

A history is a number of runs with the same settings, each on a build of its own,
that start from an empty directory. Every request of a run is fulfilled
(`Retest.History.exists_of_requests`), and what the last store says of a test goes
back to the run in which the test was last run again: the test stands in a record
exactly if its footprint reached the dependency then, and the dependency has had a
record ever since (`Retest.History.mem_testsOf_iff`).
-/

namespace Retest

/-! ### Runs and histories -/

/-- What a run is asked to do. -/
structure Request where
  build : Build
  tests? : Option (List UnitName)
  external : List (UnitName × UnitName)

namespace Request

variable (settings : Settings) (q : Request)

/-- The analysis that a run makes of its build. -/
def analysis : Analysis := q.build.analyze settings q.external

/-- The tests that a run is about. -/
def tests : List UnitName := testsOfRun settings q.build q.tests? q.external

/-- **A request whose results can be written and read again.** -/
structure Admissible : Prop where
  allRead : q.build.AllRead settings
  readsBack : (q.analysis settings).ReadsBack settings.granularity
  testNames : ∀ t ∈ q.tests settings, Store.IsTestName t

instance : Decidable (q.Admissible settings) :=
  decidable_of_iff (q.build.AllRead settings ∧
    (q.build.analyze settings q.external).ReadsBack settings.granularity ∧
    ∀ t ∈ q.tests settings, Store.IsTestName t)
    ⟨fun h => ⟨h.1, h.2.1, h.2.2⟩, fun h => ⟨h.1, h.2, h.3⟩⟩

end Request

/-- A run that was completed: its selection, and the directory that it left behind. -/
structure Completed extends Request where
  selection : Selection
  directory : StoreDirectory

namespace Completed

variable (settings : Settings) (r : Completed)

/-- The tests that were run again. -/
def refreshed : SortedSet UnitName := r.selection.refreshed (.ofList (r.tests settings))

/-- What the next store was made from. -/
def renewal : Store.Renewal :=
  r.selection.renewal (r.analysis settings) settings.granularity (r.tests settings)

/-- The footprint of a test at the time of the run reaches a dependency. -/
def Reaches (t : UnitName) (id : Dependency) : Prop :=
  (r.renewal settings).reaches ((r.analysis settings).graph.footprint t) id = true

/-- The store that was left behind has a record for a dependency. -/
def Records (id : Dependency) : Prop :=
  ∃ store record, r.directory.loadStore = some store ∧ store.records.get? id = some record

end Completed

/-- The directory after some runs, the latest of which stands first. -/
def StoreDirectory.after (start : StoreDirectory) : List Completed → StoreDirectory
  | [] => start
  | r :: _ => r.directory

/-- **A history of runs**, the latest first. -/
inductive History (settings : Settings) (start : StoreDirectory) : List Completed → Prop
  | nil : History settings start []
  | cons {r : Completed} {past : List Completed} (hpast : History settings start past)
      (hrun : (runSelection settings r.build r.tests? r.external).run.run (start.after past) =
        (.ok r.selection, r.directory)) : History settings start (r :: past)

variable {settings : Settings} {start d : StoreDirectory} {r : Completed} {t : UnitName}
  {id : Dependency}

/-! ### One run -/

/-- **A run is completed** unless a folder is in the way. -/
theorem exists_runSelection_eq_ok (hstore : d.entry? StoreDirectory.storeFile ≠ some .folder)
    (hsnapshots : d.entry? StoreDirectory.snapshotFile ≠ some .folder) (q : Request) :
    ∃ selection store snapshots,
      (runSelection settings q.build q.tests? q.external).run.run d =
        (.ok selection, d.written settings store snapshots) := by
  have hprevious : ∃ previous, d.previous? (d.select settings settings.granularity q.build
      (testsOfRun settings q.build q.tests? q.external)) = some previous := by
    rw [StoreDirectory.previous?, StoreDirectory.select]
    cases hload : d.loadStore with
    | none => exact ⟨{}, rfl⟩
    | some store => exact ⟨store, rfl⟩
  obtain ⟨previous, hprevious⟩ := hprevious
  refine ⟨_, _, _, runSelection_eq_ok.2 ⟨rfl, _, (updateStore_eq_ok
    (q.build.coherent_analyze settings q.external)).2
      ⟨hstore, hsnapshots, previous, hprevious, rfl, rfl⟩⟩⟩

/-- A store that is loaded shows no test that the one written does not name. -/
theorem Store.mem_tests_of_listedIn {store : Store} {encoding : StoreEncoding}
    (ht : t ∈ ({ store with knownTests := store.listedIn encoding } : Store).tests) :
    t ∈ store.tests := by
  rw [Store.tests, SortedSet.mem_union, SortedSet.mem_union] at ht ⊢
  rcases ht with (ht | ht) | ht
  · exact .inl (.inl ht)
  · cases encoding with
    | names => exact absurd ht (SortedSet.not_mem_empty t)
    | indexed => exact (SortedSet.mem_union.1 ht).imp_left .inr
  · exact .inr ht

/-- **What a run leaves behind** is the next store, as far as the encoding shows it. -/
theorem Completed.loadStore_eq (hok : r.Admissible settings)
    (hrun : (runSelection settings r.build r.tests? r.external).run.run d =
      (.ok r.selection, r.directory)) :
    ∃ previous store, d.previous? r.selection = some previous ∧ r.directory.loadStore = some store ∧
      r.directory.loadSnapshots = (r.analysis settings).snapshots ∧
      (∀ t ∈ store.tests, t ∈ r.tests settings) ∧
      store.wildcard = (previous.next (r.renewal settings)).wildcard ∧
      store.records = (previous.next (r.renewal settings)).records := by
  have hcoherent := r.build.coherent_analyze settings r.external
  obtain ⟨-, summary, hupdate⟩ := runSelection_eq_ok.1 hrun
  obtain ⟨-, -, previous, hprevious, -, hdirectory⟩ := (updateStore_eq_ok hcoherent).1 hupdate
  have hload : r.directory.loadStore = some { previous.next (r.renewal settings) with
      knownTests := (previous.next (r.renewal settings)).listedIn
        (settings.encodingFor (SortedSet.ofList (r.tests settings)).size) } := by
    rw [hdirectory]
    exact loadStore_after_update hok.allRead hok.readsBack hok.testNames hprevious rfl
  have hsnapshots : r.directory.loadSnapshots = (r.analysis settings).snapshots := by
    rw [hdirectory, StoreDirectory.loadSnapshots_written]
    exact StoreDirectory.indexSnapshots_values hcoherent.named
  refine ⟨previous, _, hprevious, hload, hsnapshots, fun t ht => ?_, rfl, rfl⟩
  -- as all units can be read, no record keeps tests that are not there any more
  have hall : (previous.next (r.renewal settings)).tests = .ofList (r.tests settings) :=
    Store.tests_next hcoherent hok.allRead.failed_eq_empty fun _ ht =>
      Selection.mem_of_mem_refreshed ht
  have hmem := Store.mem_tests_of_listedIn ht
  rw [hall] at hmem
  exact SortedSet.mem_ofList.1 hmem

/-- A record of the store that a run leaves behind. -/
theorem Completed.get?_records_next_eq_some (hok : r.Admissible settings) {previous : Store}
    {record : StoreRecord} :
    (previous.next (r.renewal settings)).records.get? id = some record ↔
      id.IsTracked settings.granularity ∧
        (r.analysis settings).fingerprint? id = some record.fingerprint ∧
        record.tests = (r.renewal settings).testsFor previous id :=
  Selection.get?_records_next_eq_some (r.build.coherent_analyze settings r.external)
    (hok.allRead.not_mem_failed _)

/-- The records are those of the dependencies that are tracked and have a fingerprint. -/
theorem Completed.records_iff (hok : r.Admissible settings)
    (hrun : (runSelection settings r.build r.tests? r.external).run.run d =
      (.ok r.selection, r.directory)) :
    r.Records id ↔ id.IsTracked settings.granularity ∧
      ∃ f, (r.analysis settings).fingerprint? id = some f := by
  obtain ⟨previous, store, -, hload, -, -, -, hrecords⟩ := Completed.loadStore_eq hok hrun
  constructor
  · rintro ⟨store', record, hload', hget⟩
    obtain rfl := Option.some.inj (hload.symm.trans hload')
    rw [hrecords] at hget
    obtain ⟨htracked, hf, -⟩ := (Completed.get?_records_next_eq_some hok).1 hget
    exact ⟨htracked, _, hf⟩
  · rintro ⟨htracked, f, hf⟩
    refine ⟨store, ⟨f, (r.renewal settings).testsFor previous id⟩, hload, ?_⟩
    rw [hrecords]
    exact (Completed.get?_records_next_eq_some hok).2 ⟨htracked, hf, rfl⟩

/-- In the records stand the tests of the renewal. -/
theorem Completed.mem_testsOf_iff (hok : r.Admissible settings) {previous store : Store}
    (hload : r.directory.loadStore = some store)
    (hrecords : store.records = (previous.next (r.renewal settings)).records) :
    t ∈ Selection.testsOf store id ↔
      r.Records id ∧ t ∈ (r.renewal settings).testsFor previous id := by
  rw [Store.mem_testsOf, hrecords]
  constructor
  · rintro ⟨record, hget, ht⟩
    refine ⟨⟨store, record, hload, hrecords ▸ hget⟩, ?_⟩
    rwa [← ((Completed.get?_records_next_eq_some hok).1 hget).2.2]
  · rintro ⟨⟨store', record, hload', hget⟩, ht⟩
    obtain rfl := Option.some.inj (hload.symm.trans hload')
    rw [hrecords] at hget
    refine ⟨record, hget, ?_⟩
    rwa [((Completed.get?_records_next_eq_some hok).1 hget).2.2]

/-- **A test that a run does not run again is one of the store before.** -/
theorem Completed.mem_tests_of_not_refreshed
    (hrun : (runSelection settings r.build r.tests? r.external).run.run d =
      (.ok r.selection, r.directory))
    (ht : t ∈ r.tests settings) (hnot : t ∉ r.refreshed settings) :
    ∃ previous, d.loadStore = some previous ∧ d.previous? r.selection = some previous ∧
      t ∈ previous.tests := by
  obtain ⟨hselection, -⟩ := runSelection_eq_ok.1 hrun
  have hmem : t ∈ SortedSet.ofList (r.tests settings) := SortedSet.mem_ofList.2 ht
  rw [StoreDirectory.select] at hselection
  cases hload : d.loadStore with
  | none =>
    rw [hload] at hselection
    -- without a store all tests are run again
    rw [Completed.refreshed, hselection] at hnot
    exact absurd hmem hnot
  | some previous =>
    rw [hload] at hselection
    have hfirst : r.selection.firstRun = false := by rw [hselection]; rfl
    refine ⟨previous, rfl, ?_, ?_⟩
    · rw [StoreDirectory.previous?, hfirst, hload]
      rfl
    · by_contra hunknown
      refine hnot ?_
      rw [Completed.refreshed, Selection.refreshed, hfirst]
      refine SortedSet.mem_inter.2 ⟨?_, hmem⟩
      rw [hselection]
      exact Selection.mem_affected_diff.2 ⟨hmem, .inr (.inr (.inr hunknown))⟩

/-- **A unit that is new concerns only tests that may depend on anything.** If all units of a run
have the same class files in the next one, no other test of its store is run again. -/
theorem Completed.of_mem_refreshed_of_kept {q : Completed} {store : Store}
    (hq : q.Admissible settings)
    (hrunq : (runSelection settings q.build q.tests? q.external).run.run d =
      (.ok q.selection, q.directory))
    (hrun : (runSelection settings r.build r.tests? r.external).run.run q.directory =
      (.ok r.selection, r.directory))
    (hkept : ∀ unit ∈ q.build.relevant settings, r.build.locate unit = q.build.locate unit)
    (hload : q.directory.loadStore = some store) (ht : t ∈ r.refreshed settings) :
    t ∈ store.wildcard ∨ t ∉ store.tests := by
  obtain ⟨previous, store', -, hload', hsnapshots, -, -, hrecords⟩ :=
    Completed.loadStore_eq hq hrunq
  obtain rfl := Option.some.inj (hload.symm.trans hload')
  obtain ⟨hselection, -⟩ := runSelection_eq_ok.1 hrun
  rw [StoreDirectory.select, hload, hsnapshots] at hselection
  have hmem : t ∈ r.selection.affected := by
    have hfirst : r.selection.firstRun = false := by rw [hselection]; rfl
    rw [Completed.refreshed, Selection.refreshed, hfirst] at ht
    exact (SortedSet.mem_inter.1 ht).1
  rw [hselection] at hmem
  -- a unit with the checksum of its snapshot is not looked into
  refine (Selection.of_mem_affected_of_quiet (fun unit hunit => ?_) hmem).imp_left And.right
  obtain ⟨id, record, hget, rfl⟩ := Store.mem_owners.1 hunit
  rw [hrecords] at hget
  obtain ⟨-, hf, -⟩ := (Completed.get?_records_next_eq_some hq).1 hget
  obtain ⟨s, hs, -⟩ := Analysis.fingerprint?_eq_some.1 hf
  obtain ⟨hrelevant, bytes, hlocate, hcrc⟩ := Build.exists_locate_of_snapshot hs
  exact Selection.Context.outcome_of_snapshot ((hkept _ hrelevant).trans hlocate) hs hcrc _

/-! ### All runs -/

/-- The run in which a test was last run again, and the later ones, in which it was there and was
not run again. -/
structure LastRefresh (settings : Settings) (t : UnitName) (runs later : List Completed)
    (r : Completed) : Prop where
  runs_eq : ∃ before, runs = later ++ r :: before
  refreshed : t ∈ r.refreshed settings
  later : ∀ q ∈ later, t ∈ q.tests settings ∧ t ∉ q.refreshed settings

namespace History

variable {runs later past : List Completed} {latest : Completed}

/-- The runs up to some time make up a history. -/
theorem of_append (h : History settings start (later ++ past)) : History settings start past := by
  induction later with
  | nil => exact h
  | cons q later ih =>
    cases h with
    | cons hpast => exact ih hpast

/-- **Every request is fulfilled**, from a directory with nothing in it. -/
theorem exists_of_requests (hstart : ∀ file, start.entry? file = none) (requests : List Request) :
    ∃ runs, History settings start runs ∧ runs.map Completed.toRequest = requests := by
  -- after the first run there are files where the next one writes
  have key : ∃ runs, History settings start runs ∧ runs.map Completed.toRequest = requests ∧
      ∀ file, StoreDirectory.entry? (start.after runs) file ≠ some .folder := by
    induction requests with
    | nil => exact ⟨[], .nil, rfl, fun file => by simp [StoreDirectory.after, hstart file]⟩
    | cons q requests ih =>
      obtain ⟨runs, h, hmap, hfolder⟩ := ih
      have hrun : ∃ selection store snapshots,
          (runSelection settings q.build q.tests? q.external).run.run (start.after runs) =
            (.ok selection, (start.after runs).written settings store snapshots) :=
        exists_runSelection_eq_ok (hfolder _) (hfolder _) q
      obtain ⟨selection, store, snapshots, hrun⟩ := hrun
      exact ⟨⟨q, selection, _⟩ :: runs, .cons h hrun, by rw [List.map_cons, hmap],
        fun file => StoreDirectory.entry?_written_ne_folder _ _ _ _ (hfolder file)⟩
  obtain ⟨runs, h, hmap, -⟩ := key
  exact ⟨runs, h, hmap⟩

/-- **A test stands in a record exactly if it was reached when the test was last run again, and the
record was there ever since.** -/
theorem mem_testsOf_iff (h : History settings start runs) (hstart : start.loadStore = none)
    (hok : ∀ q ∈ runs, q.Admissible settings) (hruns : runs = latest :: past)
    (ht : t ∈ latest.tests settings) :
    ∃ store later r, latest.directory.loadStore = some store ∧ LastRefresh settings t runs later r ∧
      ∀ id, t ∈ Selection.testsOf store id ↔
        r.Reaches settings t id ∧ ∀ q ∈ later ++ [r], q.Records id := by
  induction h generalizing latest past with
  | nil => cases hruns
  | @cons r runs hpast hrun ih =>
    obtain ⟨rfl, rfl⟩ := List.cons.inj hruns
    have hcompleted := hok r List.mem_cons_self
    obtain ⟨previous, store, hprevious, hload, -, -, -, hrecords⟩ :=
      Completed.loadStore_eq hcompleted hrun
    have htests : ∀ t id, t ∈ Selection.testsOf store id ↔
        r.Records id ∧ t ∈ (r.renewal settings).testsFor previous id := fun t id =>
      Completed.mem_testsOf_iff hcompleted hload hrecords
    by_cases hrefreshed : t ∈ r.refreshed settings
    · -- the test was run again just now
      refine ⟨store, [], r, hload, ⟨⟨runs, rfl⟩, hrefreshed, by simp⟩, fun id => ?_⟩
      rw [htests, Store.Renewal.mem_testsFor]
      constructor
      · rintro ⟨hrecords, ⟨-, -, hnot⟩ | ⟨-, hreaches⟩⟩
        · exact absurd hrefreshed hnot
        · exact ⟨hreaches, by simpa using hrecords⟩
      · rintro ⟨hreaches, hrecords⟩
        exact ⟨hrecords r (by simp), .inr ⟨hrefreshed, hreaches⟩⟩
    · -- it was carried over from the store before, and so was there in the run before
      obtain ⟨loaded, hloaded, hprevious', hknown⟩ :=
        Completed.mem_tests_of_not_refreshed hrun ht hrefreshed
      obtain rfl := Option.some.inj (hprevious.symm.trans hprevious')
      cases runs with
      | nil =>
        rw [StoreDirectory.after, hstart] at hloaded
        cases hloaded
      | cons q before =>
        have hthere : t ∈ q.tests settings := by
          cases hpast with
          | cons _ hrunq =>
            obtain ⟨-, store', -, hload', -, hsub, -⟩ :=
              Completed.loadStore_eq (hok q (List.mem_cons_of_mem _ List.mem_cons_self)) hrunq
            obtain rfl := Option.some.inj (hload'.symm.trans hloaded)
            exact hsub t hknown
        obtain ⟨store', later, r', hload', hlast, hiff⟩ :=
          ih (fun p hp => hok p (List.mem_cons_of_mem _ hp)) rfl hthere
        obtain rfl := Option.some.inj (hload'.symm.trans hloaded)
        refine ⟨store, r :: later, r', hload, ⟨?_, hlast.refreshed, ?_⟩, fun id => ?_⟩
        · obtain ⟨before', hbefore⟩ := hlast.runs_eq
          exact ⟨before', by rw [hbefore, List.cons_append]⟩
        · intro p hp
          rcases List.mem_cons.1 hp with rfl | hp
          · exact ⟨ht, hrefreshed⟩
          · exact hlast.later p hp
        · rw [htests, Store.Renewal.mem_testsFor, hiff, List.cons_append, List.forall_mem_cons]
          constructor
          · rintro ⟨hrecords, ⟨⟨hreaches, hall⟩, -⟩ | ⟨hagain, -⟩⟩
            · exact ⟨hreaches, hrecords, hall⟩
            · exact absurd hagain hrefreshed
          · rintro ⟨hreaches, hrecords, hall⟩
            exact ⟨hrecords, .inl ⟨⟨hreaches, hall⟩, SortedSet.mem_ofList.2 ht, hrefreshed⟩⟩

end History

end Retest

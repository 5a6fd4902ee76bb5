import Retest.Proofs.Selection.History
import Retest.Proofs.Selection.Versions

/-!
# Changes that are overlooked

The store says of a test what was true when the test was last run again. Meanwhile the builds go on
changing, and it is the graph of the latest build that the next selection should go by. So whenever
a run passes over a test, either the test has to touch no more than it did, or something is missing
in the records from then on.

Suppose that the test was recorded wherever its footprint reached
(`Retest.Completed.UpToDate`), and that the next run passes over it (`Retest.PassesOver`). Then no
record of the test was out of date: the units that it touched are still there, name the parents they
named, and have the members the test touched with the fingerprints of then. From this the two
builds agree in what the test touches now (`Retest.PassesOver.agrees`), unless there is a change of
a kind that the selection does not look for. These are listed in `Retest.Overlooked`:

* a unit that the test names, or one above it, is new or gone or has other parents, and the test
  was not recorded for it, since a call leads to all methods below a unit and a lookup goes all the
  way up;
* a unit has a new member that no method of the test was found to be hidden by, such as a field, a
  static method or a static initializer;
* an initializer that the test did not touch has come to write a field that it did;
* a pair of units was added to those known to depend on one another;
* the two versions of a unit cannot be told apart, by their checksums or by the fingerprints of
  their members (`Retest.ParsedUnit.Veils`).

Without such a change the test is recorded again wherever its footprint reaches
(`Retest.PassesOver.upToDate`), and by induction over the runs the same holds ever since the test
was last run again (`Retest.History.upToDate_or_overlooked`). An edit of bodies is never overlooked
(`Retest.not_overlooked_of_sameOutline`).
-/

namespace Retest

open Selection (testsOf)

namespace Completed

/-! ### What a run leaves of a test -/

/-- The store that was left behind records a test for a dependency. -/
def Recorded (r : Completed) (t : UnitName) (id : Dependency) : Prop :=
  ∃ store, r.directory.loadStore = some store ∧ t ∈ testsOf store id

/-- The test touches a node in the call graph of the run. -/
def Touches (settings : Settings) (r : Completed) (t : UnitName) (n : Dependency) : Prop :=
  CallGraph.Touches settings (r.build.files settings) r.external t n

/-- The test names a unit in the call graph of the run. -/
def Names (settings : Settings) (r : Completed) (t unit : UnitName) : Prop :=
  CallGraph.Names settings (r.build.files settings) r.external t unit

variable {settings : Settings} {q r : Completed} {t unit : UnitName} {id n : Dependency}
  {store : Store} {d : StoreDirectory}

theorem touches_iff : r.Touches settings t n ↔
    ((r.analysis settings).graph.footprint t).contains (r.analysis settings).graph n = true :=
  CallGraph.contains_footprint_iff.symm

/-- A footprint reaches the records of the nodes touched and of their units. -/
theorem reaches_iff (hgranularity : settings.granularity = .member) :
    r.Reaches settings t id ↔
      ∃ n, r.Touches settings t n ∧ (id = .unit n.owner ∨ id = n) := by
  rw [Reaches, Store.Renewal.reaches_iff]
  refine exists_congr fun n => and_congr ?_ ?_
  · rw [touches_iff]
    exact (Footprint.contains_iff_mem_dependencies
      (CallGraph.nodup_nodes_ofClasses _ _ _)).symm
  · rw [Store.Renewal.mem_recordIds]
    exact or_congr_right (and_iff_right hgranularity)

/-- **The store is up to date for a test**: it is recorded wherever its footprint reaches. -/
def UpToDate (settings : Settings) (r : Completed) (t : UnitName) : Prop :=
  ∀ id, r.Reaches settings t id → r.Records id → r.Recorded t id

/-- A record of the store has the fingerprint of its time. -/
theorem exists_record (hok : q.Admissible settings)
    (hrun : (runSelection settings q.build q.tests? q.external).run.run d =
      (.ok q.selection, q.directory)) (hload : q.directory.loadStore = some store)
    {f : Fingerprint} (htracked : id.IsTracked settings.granularity)
    (hf : (q.analysis settings).fingerprint? id = some f) :
    ∃ record, store.records.get? id = some record ∧ record.fingerprint = f := by
  obtain ⟨previous, store', -, hload', -, -, -, hrecords⟩ := loadStore_eq hok hrun
  obtain rfl := Option.some.inj (hload.symm.trans hload')
  rw [hrecords]
  exact ⟨⟨f, _⟩, (get?_records_next_eq_some hok).2 ⟨htracked, hf, rfl⟩, rfl⟩

/-- What a test is recorded for was tracked, and had a fingerprint. -/
theorem Recorded.records (h : q.Recorded t id) : q.Records id := by
  obtain ⟨store, hload, ht⟩ := h
  obtain ⟨record, hget, -⟩ := Store.mem_testsOf.1 ht
  exact ⟨store, record, hload, hget⟩

end Completed

/-! ### A run that passes over a test -/

/-- What a run compares its build with. -/
def Completed.context (settings : Settings) (q r : Completed) : Selection.Context :=
  ⟨settings, settings.granularity, (q.analysis settings).snapshots, .ofList (r.tests settings)⟩

/-- **A run follows another and passes over a test**, which is there and is not run again. -/
structure PassesOver (settings : Settings) (t : UnitName) (q r : Completed) : Prop where
  granularity : settings.granularity = .member
  earlier : q.Admissible settings
  later : r.Admissible settings
  ran : ∃ d, (runSelection settings q.build q.tests? q.external).run.run d =
    (.ok q.selection, q.directory)
  follows : (runSelection settings r.build r.tests? r.external).run.run q.directory =
    (.ok r.selection, r.directory)
  there : t ∈ r.tests settings
  passed : t ∉ r.refreshed settings

/-- **What became of a unit is not seen** by a run: its class file can be found, but the unit is not
listed; or the two versions differ in a way that is not seen. -/
inductive Veiled (settings : Settings) (q r : Completed) (unit : UnitName) : Prop where
  | unlisted {old : ParsedUnit} (hold : (unit, old) ∈ q.build.parsed settings)
      (hlocate : r.build.locate unit ≠ none) (hunlisted : unit ∉ r.build.relevant settings)
  | versions {old new : ParsedUnit} (hold : (unit, old) ∈ q.build.parsed settings)
      (hnew : (unit, new) ∈ r.build.parsed settings) (hveils : old.Veils new)

namespace PassesOver

variable {settings : Settings} {q r : Completed} {t unit : UnitName} {id : Dependency}
  {store : Store} {old new : ParsedUnit}

/-- There was no reason to run the test again. -/
theorem calm (h : PassesOver settings t q r) (hload : q.directory.loadStore = some store)
    (reason : Selection.Reason) : ¬reason.Holds (q.context settings r) store r.build t := by
  intro hreason
  obtain ⟨d, hrun⟩ := h.ran
  obtain ⟨-, store', -, hload', hsnapshots, -⟩ := Completed.loadStore_eq h.earlier hrun
  obtain ⟨hselection, -⟩ := runSelection_eq_ok.1 h.follows
  rw [StoreDirectory.select, hload, hsnapshots] at hselection
  have hmem : t ∈ SortedSet.ofList (r.tests settings) := SortedSet.mem_ofList.2 h.there
  refine h.passed ?_
  rw [Completed.refreshed, Selection.refreshed, hselection]
  refine SortedSet.mem_inter.2 ⟨?_, hmem⟩
  exact Selection.mem_affected_iff_reason.2 ⟨hmem, reason, hreason⟩

/-- The store before is there. -/
theorem exists_store (h : PassesOver settings t q r) :
    ∃ store, q.directory.loadStore = some store := by
  obtain ⟨d, hrun⟩ := h.ran
  obtain ⟨-, store, -, hload, -⟩ := Completed.loadStore_eq h.earlier hrun
  exact ⟨store, hload⟩

/-- The earlier run has records for what is tracked and had a fingerprint. -/
theorem records_iff (h : PassesOver settings t q r) :
    q.Records id ↔ id.IsTracked .member ∧ ∃ f, (q.analysis settings).fingerprint? id = some f := by
  obtain ⟨d, hrun⟩ := h.ran
  rw [Completed.records_iff h.earlier hrun, h.granularity]

/-- What the test was recorded for, it is recorded for still, if there is a record. -/
theorem recorded (h : PassesOver settings t q r) (hrecorded : q.Recorded t id)
    (hrecords : r.Records id) : r.Recorded t id := by
  obtain ⟨previous, hload, ht⟩ := hrecorded
  obtain ⟨loaded, hloaded, hprevious, -⟩ :=
    Completed.mem_tests_of_not_refreshed h.follows h.there h.passed
  obtain ⟨previous', store, hprevious', hstore, -, -, -, hnext⟩ :=
    Completed.loadStore_eq h.later h.follows
  obtain rfl := Option.some.inj (hload.symm.trans hloaded)
  obtain rfl := Option.some.inj (hprevious.symm.trans hprevious')
  refine ⟨store, hstore, (Completed.mem_testsOf_iff h.later hstore hnext).2 ⟨hrecords, ?_⟩⟩
  exact Store.Renewal.mem_testsFor.2 (.inl ⟨ht, SortedSet.mem_ofList.2 h.there, h.passed⟩)

/-- **A unit that the test is recorded for has a version then and now.** -/
theorem exists_versions (h : PassesOver settings t q r) (hrecorded : q.Recorded t id)
    (hseen : ¬Veiled settings q r id.owner) :
    ∃ old new, (id.owner, old) ∈ q.build.parsed settings ∧
      (id.owner, new) ∈ r.build.parsed settings ∧ ¬old.Veils new := by
  obtain ⟨-, hf⟩ := h.records_iff.1 hrecorded.records
  obtain ⟨old, hold, -⟩ := Build.exists_fingerprint?_iff.1 hf
  obtain ⟨store, hload, ht⟩ := hrecorded
  cases hlocate : r.build.locate id.owner with
  | none =>
    exact absurd ⟨Selection.Reason.noted_of_gone ht hlocate,
      Selection.Reason.raised_of_gone hlocate⟩ (h.calm hload (.record id))
  | some bytes =>
    have hrelevant : id.owner ∈ r.build.relevant settings := by
      by_contra hunlisted
      exact hseen (.unlisted hold (by simp [hlocate]) hunlisted)
    obtain ⟨new, hnew⟩ := h.later.allRead id.owner hrelevant
    have hnew := Build.mem_parsed.2 ⟨hrelevant, hnew⟩
    exact ⟨old, new, hold, hnew, fun hveils => hseen (.versions hold hnew hveils)⟩

/-- **Two versions say the same, or the difference is noticed.** -/
theorem alike_or_noticed (h : PassesOver settings t q r)
    (hload : q.directory.loadStore = some store) (hold : (unit, old) ∈ q.build.parsed settings)
    (hnew : (unit, new) ∈ r.build.parsed settings) (hseen : ¬old.Veils new) :
    old.file.Alike new.file ∨
      Selection.Noticed (q.context settings r) store r.build unit old new := by
  obtain ⟨d, hrun⟩ := h.ran
  rw [or_iff_not_imp_left]
  intro hunlike
  have hsnapshot : (q.analysis settings).snapshots.get? unit = some old.snapshot :=
    Build.get?_snapshots_analyze.2 ⟨old, hold, rfl⟩
  refine Selection.noticed_of_not_alike h.granularity hold hnew hsnapshot
    (fun id f htracked hf => ?_) hunlike hseen
  have hfound : (q.analysis settings).fingerprint? id = some f := by
    obtain ⟨bytes, -, -, hname, hold₀⟩ := Build.snapshot_of_mem_parsed hold
    have howner : id.owner = unit := by
      rw [hold₀] at hf
      exact (Snapshot.owner_of_fingerprint? hf).trans hname
    exact Analysis.fingerprint?_eq_some.2 ⟨old.snapshot, howner ▸ hsnapshot, hf⟩
  exact Completed.exists_record h.earlier hrun hload (h.granularity ▸ htracked) hfound

/-- **A unit that the test is recorded for names the parents it named.** -/
theorem parents?_eq (h : PassesOver settings t q r) (hrecorded : q.Recorded t (.unit unit))
    (hseen : ¬Veiled settings q r unit) :
    (q.analysis settings).parents? unit = (r.analysis settings).parents? unit := by
  obtain ⟨old, new, hold, hnew, hveils⟩ := h.exists_versions hrecorded hseen
  obtain ⟨store, hload, ht⟩ := hrecorded
  have hparents : (old.snapshot.superName, old.snapshot.interfaces) =
      (new.snapshot.superName, new.snapshot.interfaces) := by
    rcases h.alike_or_noticed hload hold hnew hveils with halike | hnoticed
    · obtain ⟨bytes, -, -, -, hold₀⟩ := Build.snapshot_of_mem_parsed hold
      obtain ⟨bytes', -, -, -, hnew₀⟩ := Build.snapshot_of_mem_parsed hnew
      rw [hold₀, hnew₀]
      exact halike.parents_eq
    · by_contra hne
      exact h.calm hload _ (hnoticed.holds_of_parents ht hne)
  have hbefore : (q.analysis settings).snapshots.get? unit = some old.snapshot :=
    Build.get?_snapshots_analyze.2 ⟨old, hold, rfl⟩
  have hafter : (r.analysis settings).snapshots.get? unit = some new.snapshot :=
    Build.get?_snapshots_analyze.2 ⟨new, hnew, rfl⟩
  rw [Analysis.parents?, Analysis.parents?, hbefore, hafter, Option.map_some, Option.map_some,
    hparents]

/-- **A member that the test is recorded for is still there**, and a method uses what it used. -/
theorem exists_versions_of_member (h : PassesOver settings t q r) (hrecorded : q.Recorded t id)
    (hmember : id.isUnit = false) (hseen : ¬Veiled settings q r id.owner) :
    ∃ old new, (id.owner, old) ∈ q.build.parsed settings ∧
      (id.owner, new) ∈ r.build.parsed settings ∧ (∃ f, new.snapshot.fingerprint? id = some f) ∧
      ∀ {fact : Fact} {caller}, fact.caller? = some caller → id = .method caller →
        (fact ∈ old.file.facts ↔ fact ∈ new.file.facts) := by
  obtain ⟨old, new, hold, hnew, hveils⟩ := h.exists_versions hrecorded hseen
  refine ⟨old, new, hold, hnew, ?_⟩
  obtain ⟨htracked, hf⟩ := h.records_iff.1 hrecorded.records
  obtain ⟨old', hold', f, hf⟩ := Build.exists_fingerprint?_iff.1 hf
  obtain rfl := Build.eq_of_mem_parsed hold hold'
  obtain ⟨store, hload, ht⟩ := hrecorded
  obtain ⟨bytes, -, -, hname, hold₀⟩ := Build.snapshot_of_mem_parsed hold
  obtain ⟨bytes', -, -, hname', hnew₀⟩ := Build.snapshot_of_mem_parsed hnew
  rcases h.alike_or_noticed hload hold hnew hveils with halike | hnoticed
  · have hiff := Selection.exists_fingerprint?_iff_of_sameOutline hold hnew halike.toSameOutline id
    exact ⟨hiff.1 ⟨f, hf⟩, fun hcaller _ => halike.uses hcaller⟩
  · -- the test would have been selected for a member that has changed
    have hsame : new.snapshot.fingerprint? id = some f := by
      have hchanged : id ∉ Selection.Context.changedIn id.owner old'.snapshot new.snapshot :=
        fun hchanged => h.calm hload _ (hnoticed.holds_of_changed rfl hmember ht hchanged)
      rw [hold₀] at hf hchanged
      rw [hnew₀] at hchanged ⊢
      exact Selection.fingerprint?_eq_of_not_changed hnoticed.plain.1 hnoticed.plain.2 hname hname'
        htracked hmember hf hchanged
    refine ⟨⟨f, hsame⟩, fun hcaller hid => ?_⟩
    subst hid
    by_contra huses
    exact hveils (.body hcaller hf hsame huses)

/-- **The class file of the test itself says what it said.** -/
theorem alike_itself (h : PassesOver settings t q r) (hold : (t, old) ∈ q.build.parsed settings)
    (hnew : (t, new) ∈ r.build.parsed settings) (hseen : ¬old.Veils new) :
    old.file.Alike new.file := by
  obtain ⟨store, hload⟩ := h.exists_store
  refine (h.alike_or_noticed hload hold hnew hseen).resolve_right fun hnoticed => ?_
  exact h.calm hload _ hnoticed.holds_itself

/-- **A unit whose new methods hide one of the test says what it said.** -/
theorem alike_of_hidden (h : PassesOver settings t q r)
    (hold : (unit, old) ∈ q.build.parsed settings)
    (hnew : (unit, new) ∈ r.build.parsed settings) (hseen : ¬old.Veils new)
    (hid : id ∈ (q.context settings r).hiddenBy old.snapshot new.snapshot)
    (hrecorded : q.Recorded t id) : old.file.Alike new.file := by
  obtain ⟨store, hload, ht⟩ := hrecorded
  refine (h.alike_or_noticed hload hold hnew hseen).resolve_right fun hnoticed => ?_
  exact h.calm hload _ (hnoticed.holds_of_hidden ht hid)

end PassesOver

/-! ### Changes that are overlooked -/

/-- **A change between two runs that may be overlooked** though a test comes to touch more by it. -/
inductive Overlooked (settings : Settings) (t : UnitName) (q r : Completed) : Prop where
  /-- A unit that the test names, or an ancestor of one, is new or gone or names other parents, and
  the test was not recorded for it. -/
  | parents {unit ancestor : UnitName} (hunit : r.Names settings t unit)
      (hancestor : ancestor ∈ unit ::
        (r.analysis settings).inventory.hierarchy.ancestors unit)
      (hparents : (q.analysis settings).parents? ancestor ≠ (r.analysis settings).parents? ancestor)
      (hrecorded : ¬q.Recorded t (.unit ancestor))
  /-- Another unit has a new member, and the new methods of that unit hide none that the test was
  recorded for. -/
  | member {id : Dependency} {old new : ParsedUnit} {f : Fingerprint}
      (htouches : r.Touches settings t id) (howner : id.owner ≠ t)
      (hold : (id.owner, old) ∈ q.build.parsed settings)
      (hnew : (id.owner, new) ∈ r.build.parsed settings)
      (hmissing : old.snapshot.fingerprint? id = none)
      (hthere : new.snapshot.fingerprint? id = some f)
      (hhidden : ∀ hidden ∈ (q.context settings r).hiddenBy old.snapshot new.snapshot,
        ¬q.Recorded t hidden)
  /-- A field that the test touched is written by an initializer that it did not touch. -/
  | initializer {field : FieldKey} {caller : MethodKey}
      (hfield : q.Touches settings t (.field field))
      (hwrites : (CallGraph.Context.ofClasses settings (r.build.files settings)).Joins
        (CallGraph.kept settings (r.build.files settings)) (CallGraph.proper r.external)
        (.field field) (.method caller))
      (htouches : r.Touches settings t (.method caller))
      (hbefore : ¬q.Touches settings t (.method caller))
  /-- A unit of which the test touches a method is newly known to depend on another. -/
  | pair {e : UnitName × UnitName} {signature : Signature}
      (hpair : e ∈ CallGraph.proper r.external) (hbefore : e ∉ q.external)
      (htouches : r.Touches settings t (.method ⟨e.1, signature⟩))
  /-- What became of a unit that the test was recorded for, or that it names, is not seen. -/
  | veiled {unit : UnitName} (hunit : q.Recorded t (.unit unit) ∨ r.Names settings t unit)
      (hveiled : Veiled settings q r unit)

namespace PassesOver

variable {settings : Settings} {q r : Completed} {t unit : UnitName} {id n : Dependency}
  {old new : ParsedUnit}

/-- **A test that touches a member with a fingerprint is recorded for it**, and for its unit. -/
theorem recorded_of_touches (h : PassesOver settings t q r) (hq : q.UpToDate settings t)
    (htouches : q.Touches settings t n) (hid : id = .unit n.owner ∨ id = n)
    (htracked : id.IsTracked .member)
    (hf : ∃ f, (q.analysis settings).fingerprint? id = some f) : q.Recorded t id :=
  hq id ((Completed.reaches_iff h.granularity).2 ⟨n, htouches, hid⟩)
    (h.records_iff.2 ⟨htracked, hf⟩)

/-- A test that touches something of a unit is recorded for the unit. -/
theorem recorded_owner (h : PassesOver settings t q r) (hq : q.UpToDate settings t)
    (htouches : q.Touches settings t n)
    (hf : ∃ f, (q.analysis settings).fingerprint? n = some f) : q.Recorded t (.unit n.owner) := by
  obtain ⟨p, hp, -⟩ := Build.exists_fingerprint?_iff.1 hf
  exact h.recorded_of_touches hq htouches (.inl rfl) trivial
    (Build.exists_fingerprint?_unit_iff.2 ⟨p, hp⟩)

/-- A unit that has a class file now had one, if the test names it. -/
theorem exists_parsed_before (h : PassesOver settings t q r) (hseen : ¬Overlooked settings t q r)
    (hunit : r.Names settings t unit) (hnew : (unit, new) ∈ r.build.parsed settings) :
    ∃ old, (unit, old) ∈ q.build.parsed settings := by
  by_contra hmissing
  have hbefore : (q.analysis settings).parents? unit = none := by
    rw [Option.eq_none_iff_forall_ne_some]
    intro names hnames
    obtain ⟨p, hp, -⟩ := Build.parents?_analyze_eq_some.1 hnames
    exact hmissing ⟨p, hp⟩
  have hafter : (r.analysis settings).parents? unit ≠ none := by
    rw [Option.ne_none_iff_exists']
    exact ⟨_, Build.parents?_analyze_eq_some.2 ⟨new, hnew, rfl⟩⟩
  refine hseen (.parents hunit List.mem_cons_self (hbefore ▸ hafter.symm) fun hrecorded => ?_)
  exact hmissing (Build.exists_fingerprint?_unit_iff.1 (h.records_iff.1 hrecorded.records).2)

/-- **What a test touches was there.** -/
theorem exists_fingerprint?_before (h : PassesOver settings t q r)
    (hseen : ¬Overlooked settings t q r) (htouches : r.Touches settings t n)
    (hf : ∃ f, (r.analysis settings).fingerprint? n = some f) :
    ∃ f, (q.analysis settings).fingerprint? n = some f := by
  obtain ⟨new, hnew, f, hf⟩ := Build.exists_fingerprint?_iff.1 hf
  obtain ⟨old, hold⟩ := h.exists_parsed_before hseen (.owner htouches) hnew
  have hveils : ¬old.Veils new := fun hveils =>
    hseen (.veiled (.inr (.owner htouches)) (.versions hold hnew hveils))
  refine Build.exists_fingerprint?_iff.2 ⟨old, hold, ?_⟩
  by_contra hmissing
  have hunlike : ¬old.file.Alike new.file := by
    intro halike
    have hiff := Selection.exists_fingerprint?_iff_of_sameOutline hold hnew halike.toSameOutline n
    exact hmissing (hiff.2 ⟨f, hf⟩)
  refine hseen (.member htouches ?_ hold hnew ?_ hf ?_)
  · intro howner
    rw [howner] at hold hnew
    exact hunlike (h.alike_itself hold hnew hveils)
  · rwa [Option.eq_none_iff_forall_ne_some, ← not_exists]
  · exact fun hidden hmem hrecorded =>
      hunlike (h.alike_of_hidden hold hnew hveils hmem hrecorded)

/-- **What a test touched is still there.** -/
theorem exists_fingerprint?_after (h : PassesOver settings t q r) (hq : q.UpToDate settings t)
    (hseen : ¬Overlooked settings t q r) (hmember : n.isUnit = false)
    (htouches : q.Touches settings t n)
    (hf : ∃ f, (q.analysis settings).fingerprint? n = some f) :
    ∃ f, (r.analysis settings).fingerprint? n = some f := by
  have hrecorded := h.recorded_owner hq htouches hf
  have hveiled : ¬Veiled settings q r n.owner := fun hveiled =>
    hseen (.veiled (.inl hrecorded) hveiled)
  by_cases htracked : n.IsTracked .member
  · obtain ⟨old, new, -, hnew, hthere, -⟩ := h.exists_versions_of_member
      (h.recorded_of_touches hq htouches (.inr rfl) htracked hf) hmember hveiled
    exact Build.exists_fingerprint?_iff.2 ⟨new, hnew, hthere⟩
  · -- a field whose name holds a colon has no record, and its unit says what it said
    obtain ⟨old', hold', hf⟩ := Build.exists_fingerprint?_iff.1 hf
    obtain ⟨old, new, hold, hnew, hveils⟩ := h.exists_versions hrecorded hveiled
    obtain rfl := Build.eq_of_mem_parsed hold hold'
    obtain ⟨store, hload, -⟩ := hrecorded
    rcases h.alike_or_noticed hload hold hnew hveils with halike | hnoticed
    · have hiff := Selection.exists_fingerprint?_iff_of_sameOutline hold hnew halike.toSameOutline n
      exact Build.exists_fingerprint?_iff.2 ⟨new, hnew, hiff.1 hf⟩
    · obtain ⟨f, hf⟩ := hf
      obtain ⟨bytes, -, -, -, hold₀⟩ := Build.snapshot_of_mem_parsed hold
      rw [hold₀] at hf
      exact absurd (hnoticed.plain.1.isTracked hf) htracked

/-- **The two builds agree in what the test touches** in the later one. -/
theorem agrees (h : PassesOver settings t q r) (hq : q.UpToDate settings t)
    (hseen : ¬Overlooked settings t q r) :
    CallGraph.Agrees settings (q.build.files settings) (r.build.files settings) q.external
      r.external t where
  ancestors unit hunit := by
    have hparents : ∀ u ∈ unit :: (r.analysis settings).inventory.hierarchy.ancestors unit,
        (q.analysis settings).parents? u = (r.analysis settings).parents? u := by
      intro u hu
      by_contra hne
      refine hseen (.parents hunit hu hne fun hrecorded => hne ?_)
      exact h.parents?_eq hrecorded fun hveiled => hseen (.veiled (.inl hrecorded) hveiled)
    exact Build.ancestors_files_congr hparents
  methods key htouches hdeclares := Build.declaresMethod_files_iff.2
    (h.exists_fingerprint?_before hseen htouches (Build.declaresMethod_files_iff.1 hdeclares))
  fields key htouches hdeclares := Build.declaresField_files_iff.2
    (h.exists_fingerprint?_before hseen htouches (Build.declaresField_files_iff.1 hdeclares))
  keptMethods key htouches hdeclares := Build.declaresMethod_files_iff.2
    (h.exists_fingerprint?_after hq hseen rfl htouches (Build.declaresMethod_files_iff.1 hdeclares))
  keptFields key htouches hdeclares := Build.declaresField_files_iff.2
    (h.exists_fingerprint?_after hq hseen rfl htouches (Build.declaresField_files_iff.1 hdeclares))
  uses file hfile fact hfact caller hcaller hbefore hafter := by
    have hthere := h.exists_fingerprint?_before hseen hafter
      (Build.exists_fingerprint?_of_mem_facts hfile hfact hcaller)
    have howner := h.recorded_owner hq hbefore hthere
    obtain ⟨old, new, hold, hnew, -, huses⟩ := h.exists_versions_of_member
      (h.recorded_of_touches hq hbefore (.inr rfl) rfl hthere) rfl
      fun hveiled => hseen (.veiled (.inl howner) hveiled)
    obtain ⟨p, hp, hfact⟩ := (Build.exists_mem_facts_iff hcaller).1 ⟨file, hfile, hfact⟩
    obtain rfl := Build.eq_of_mem_parsed hnew hp
    exact (Build.exists_mem_facts_iff hcaller).2 ⟨old, hold, (huses hcaller rfl).2 hfact⟩
  writes field caller hfield htouches hjoins := by
    by_contra hbefore
    exact hseen (.initializer hfield hjoins htouches hbefore)
  pairs e hpair signature htouches := by
    by_contra hbefore
    exact hseen (.pair hpair hbefore htouches)

/-- **A run that overlooks nothing leaves a test up to date that was**, and the test touches no more
than it did. -/
theorem upToDate (h : PassesOver settings t q r) (hq : q.UpToDate settings t)
    (hseen : ¬Overlooked settings t q r) :
    r.UpToDate settings t ∧ ∀ n, r.Touches settings t n → q.Touches settings t n := by
  have hgrows : ∀ n, r.Touches settings t n → q.Touches settings t n := fun n hn =>
    CallGraph.Touches.of_agrees (h.agrees hq hseen) hn
  refine ⟨fun id hreaches hrecords => h.recorded ?_ hrecords, hgrows⟩
  obtain ⟨n, hn, hid⟩ := (Completed.reaches_iff h.granularity).1 hreaches
  obtain ⟨htracked, hf⟩ := (Completed.records_iff h.later h.follows).1 hrecords
  refine h.recorded_of_touches hq (hgrows n hn) hid (h.granularity ▸ htracked) ?_
  rcases hid with rfl | rfl
  · obtain ⟨new, hnew⟩ := Build.exists_fingerprint?_unit_iff.1 hf
    exact Build.exists_fingerprint?_unit_iff.2 (h.exists_parsed_before hseen (.owner hn) hnew)
  · exact h.exists_fingerprint?_before hseen hn hf

end PassesOver

/-- **Only a change in the outline of a build is overlooked**, or one that is not seen. Where the
builds have the same units with the same outlines, no initializer writes a field that it did not
write, and no pair is new, all that happened is that bodies of methods were edited. -/
theorem not_overlooked_of_sameOutline {settings : Settings} {q r : Completed} {t : UnitName}
    (hkept : ∀ unit old, (unit, old) ∈ q.build.parsed settings →
      ∃ new, (unit, new) ∈ r.build.parsed settings ∧ old.file.SameOutline new.file ∧ ¬old.Veils new)
    (hadded : ∀ unit new, (unit, new) ∈ r.build.parsed settings →
      ∃ old, (unit, old) ∈ q.build.parsed settings)
    (hwrites : ∀ field caller, (CallGraph.Context.ofClasses settings (r.build.files settings)).Joins
        (CallGraph.kept settings (r.build.files settings)) (CallGraph.proper r.external)
        (.field field) (.method caller) →
      (CallGraph.Context.ofClasses settings (q.build.files settings)).Joins
        (CallGraph.kept settings (q.build.files settings)) (CallGraph.proper q.external)
        (.field field) (.method caller))
    (hpairs : ∀ e ∈ CallGraph.proper r.external, e ∈ q.external) : ¬Overlooked settings t q r := by
  -- two versions of a unit are those of the hypothesis
  have hversions : ∀ {unit old new}, (unit, old) ∈ q.build.parsed settings →
      (unit, new) ∈ r.build.parsed settings → old.file.SameOutline new.file ∧ ¬old.Veils new := by
    intro unit old new hold hnew
    obtain ⟨new', hnew', houtline, hveils⟩ := hkept unit old hold
    obtain rfl := Build.eq_of_mem_parsed hnew hnew'
    exact ⟨houtline, hveils⟩
  intro hoverlooked
  cases hoverlooked with
  | @parents unit ancestor hunit hancestor hparents hrecorded =>
    refine hparents (Option.ext fun names => ?_)
    constructor <;> intro hnames
    · obtain ⟨old, hold, rfl⟩ := Build.parents?_analyze_eq_some.1 hnames
      obtain ⟨new, hnew, houtline, -⟩ := hkept ancestor old hold
      exact Build.parents?_analyze_eq_some.2 ⟨new, hnew, houtline.parents_eq.symm⟩
    · obtain ⟨new, hnew, rfl⟩ := Build.parents?_analyze_eq_some.1 hnames
      obtain ⟨old, hold⟩ := hadded ancestor new hnew
      exact Build.parents?_analyze_eq_some.2 ⟨old, hold, (hversions hold hnew).1.parents_eq⟩
  | member htouches howner hold hnew hmissing hthere hhidden =>
    obtain ⟨f, hf⟩ := (Selection.exists_fingerprint?_iff_of_sameOutline hold hnew
      (hversions hold hnew).1 _).2 ⟨_, hthere⟩
    cases hmissing.symm.trans hf
  | initializer hfield hwritten htouches hbefore =>
    exact hbefore (.joined hfield (hwrites _ _ hwritten))
  | pair hpair hbefore htouches => exact hbefore (hpairs _ hpair)
  | veiled hunit hveiled =>
    cases hveiled with
    | unlisted hold hlocate hunlisted =>
      obtain ⟨new, hnew, -⟩ := hkept _ _ hold
      exact hunlisted (Build.mem_parsed.1 hnew).1
    | versions hold hnew hveils => exact (hversions hold hnew).2 hveils

/-! ### All runs -/

/-- **A test that is run again is up to date.** -/
theorem Completed.upToDate_of_refreshed {settings : Settings} {d : StoreDirectory} {r : Completed}
    {t : UnitName} (hok : r.Admissible settings)
    (hrun : (runSelection settings r.build r.tests? r.external).run.run d =
      (.ok r.selection, r.directory)) (ht : t ∈ r.refreshed settings) :
    r.UpToDate settings t := by
  intro id hreaches hrecords
  obtain ⟨previous, store, -, hload, -, -, -, hnext⟩ := Completed.loadStore_eq hok hrun
  exact ⟨store, hload, (Completed.mem_testsOf_iff hok hload hnext).2
    ⟨hrecords, Store.Renewal.mem_testsFor.2 (.inr ⟨ht, hreaches⟩)⟩⟩

/-- The latest run of a history passes over a test that it does not run again. -/
theorem History.passesOver {settings : Settings} {start : StoreDirectory} {past : List Completed}
    {q r : Completed} {t : UnitName} (hgranularity : settings.granularity = .member)
    (h : History settings start (r :: q :: past))
    (hok : ∀ p ∈ r :: q :: past, p.Admissible settings) (hthere : t ∈ r.tests settings)
    (hpassed : t ∉ r.refreshed settings) : PassesOver settings t q r := by
  cases h with
  | cons hpast hrun =>
    cases hpast with
    | cons _ hran =>
      exact {
        granularity := hgranularity
        earlier := hok q (List.mem_cons_of_mem _ List.mem_cons_self)
        later := hok r List.mem_cons_self
        ran := ⟨_, hran⟩
        follows := hrun
        there := hthere
        passed := hpassed }

/-- Among some runs, the latest first, one follows another. -/
def Follows (runs : List Completed) (q r : Completed) : Prop :=
  ∃ newer older, runs = newer ++ r :: q :: older

/-- **Since it was last run again, a test has stayed up to date, or a change was overlooked.** -/
theorem History.upToDate_or_overlooked {settings : Settings} {start : StoreDirectory}
    {later before : List Completed} {latest r : Completed} {t : UnitName}
    (hgranularity : settings.granularity = .member)
    (h : History settings start (later ++ r :: before))
    (hok : ∀ q ∈ later ++ r :: before, q.Admissible settings) (hr : t ∈ r.refreshed settings)
    (hlater : ∀ q ∈ later, t ∈ q.tests settings ∧ t ∉ q.refreshed settings)
    (hlatest : (later ++ r :: before).head? = some latest) :
    latest.UpToDate settings t ∨
      ∃ q q', Follows (later ++ [r]) q q' ∧ Overlooked settings t q q' := by
  -- the induction is on the runs since, of which each passes over the test
  induction later generalizing latest with
  | nil =>
    obtain rfl : r = latest := Option.some.inj hlatest
    cases h with
    | cons _ hrun => exact .inl (Completed.upToDate_of_refreshed (hok _ List.mem_cons_self) hrun hr)
  | cons newest later ih =>
    obtain rfl : newest = latest := Option.some.inj hlatest
    obtain ⟨q, older, hq⟩ := List.exists_cons_of_ne_nil (List.append_ne_nil_of_right_ne_nil later
      (List.cons_ne_nil r []))
    have hruns : later ++ r :: before = q :: (older ++ before) := by
      rw [← List.singleton_append, ← List.append_assoc, hq, List.cons_append]
    rw [List.cons_append, hruns] at h hok
    rw [hruns] at ih
    have hpast : History settings start (q :: (older ++ before)) := by
      cases h with
      | cons hpast => exact hpast
    rcases ih hpast (fun p hp => hok p (List.mem_cons_of_mem _ hp))
      (fun p hp => hlater p (List.mem_cons_of_mem _ hp)) rfl with
      hupToDate | ⟨p, p', ⟨newer, older', hsplit⟩, hoverlooked⟩
    · by_cases hoverlooked : Overlooked settings t q newest
      · exact .inr ⟨q, newest, ⟨[], older, by rw [List.cons_append, hq]; rfl⟩, hoverlooked⟩
      · obtain ⟨hthere, hpassed⟩ := hlater newest List.mem_cons_self
        have hpasses := h.passesOver hgranularity hok hthere hpassed
        exact .inl (hpasses.upToDate hupToDate hoverlooked).1
    · exact .inr ⟨p, p', ⟨newest :: newer, older', by rw [List.cons_append, hsplit]; rfl⟩,
        hoverlooked⟩

end Retest

import Retest.Proofs.Selection.Reasons

/-!
# Updates that are interrupted

An update writes two files, first the store and then the snapshots. If it stops
between the two, the directory holds the new store beside the old snapshots. What is
selected from it has to be noted by the one and raised by the other
(`Retest.StoreDirectory.mem_affected_of_mixed`).

So a test is still selected if it would have been selected before the update and
after it *for the same reason* (`Retest.mem_affected_of_interrupted`). For two
different reasons it may be missed: the old snapshots do not show that a class file
has gone back to what it was, and the new store does not show what else has changed
in between.
-/

namespace Retest

open Selection (Reason)

/-- What a selection is asked for. -/
structure Inquiry where
  settings : Settings
  granularity : Granularity
  build : Build
  tests : List UnitName

namespace StoreDirectory

variable {d d₁ d₂ : StoreDirectory} {q : Inquiry} {t : UnitName}

/-- The answer from a directory. -/
def answer (d : StoreDirectory) (q : Inquiry) : Selection :=
  d.select q.settings q.granularity q.build q.tests

/-- **The store of a directory notes a reason** to select a test. If there is no store, then no
reason is needed. -/
def Notes (d : StoreDirectory) (q : Inquiry) (t : UnitName) : Option Reason → Prop
  | none => d.loadStore = none
  | some reason =>
    ∃ store, d.loadStore = some store ∧ reason.Noted q.granularity store q.build t

/-- **The snapshots of a directory raise a reason** to select a test. -/
def Raises (d : StoreDirectory) (q : Inquiry) (t : UnitName) : Option Reason → Prop
  | none => True
  | some reason =>
    reason.Raised ⟨q.settings, q.granularity, d.loadSnapshots, .ofList q.tests⟩ q.build t

/-- **A reason to select a test**, noted by the store of one directory and raised by the snapshots
of another. -/
structure Justify (noting raising : StoreDirectory) (q : Inquiry) (t : UnitName)
    (reason : Option Reason) : Prop where
  listed : t ∈ q.tests
  noted : noting.Notes q t reason
  raised : raising.Raises q t reason

/-- A test is selected from a directory exactly if it has a reason there. -/
theorem mem_affected_answer :
    t ∈ (d.answer q).affected ↔ ∃ reason, Justify d d q t reason := by
  rw [answer, select]
  cases hload : d.loadStore with
  | none =>
    refine SortedSet.mem_ofList.trans ⟨fun ht => ⟨none, ht, hload, trivial⟩, ?_⟩
    rintro ⟨_, ht, -, -⟩
    exact ht
  | some store =>
    refine Selection.mem_affected_iff_reason.trans ⟨?_, ?_⟩
    · rintro ⟨ht, reason, hnoted, hraised⟩
      exact ⟨some reason, SortedSet.mem_ofList.1 ht, ⟨store, hload, hnoted⟩, hraised⟩
    · rintro ⟨_ | reason, ht, hnoted, hraised⟩
      · cases hload.symm.trans hnoted
      · obtain ⟨store', hload', hnoted⟩ := hnoted
        cases hload.symm.trans hload'
        exact ⟨SortedSet.mem_ofList.2 ht, reason, hnoted, hraised⟩

-- where there is no store, no reason is needed
example : (answer ⟨"store", none⟩ ⟨{}, .member, .ofMap ∅, ["shop.CartTest"]⟩).affected =
    .ofList ["shop.CartTest"] := by
  decide +kernel

/-- **The store of one directory beside the snapshots of another**: what is selected is noted by the
first and raised by the second. -/
theorem mem_affected_of_mixed (hstore : d.loadStore = d₂.loadStore)
    (hsnapshots : d.loadSnapshots = d₁.loadSnapshots) :
    t ∈ (d.answer q).affected ↔ ∃ reason, Justify d₂ d₁ q t reason := by
  rw [mem_affected_answer]
  refine exists_congr fun reason => ?_
  have hnotes : d.Notes q t reason ↔ d₂.Notes q t reason := by
    cases reason <;> simp only [Notes, hstore]
  have hraises : d.Raises q t reason ↔ d₁.Raises q t reason := by
    cases reason <;> simp only [Raises, hsnapshots]
  exact ⟨fun h => ⟨h.listed, hnotes.1 h.noted, hraises.1 h.raised⟩,
    fun h => ⟨h.listed, hnotes.2 h.noted, hraises.2 h.raised⟩⟩

end StoreDirectory

/-! ### The state between the two writes -/

/-- **An update that stops after its first write.** -/
def updateHalf (settings : Settings) (granularity : Granularity) (analysis : Analysis)
    (tests : List UnitName) (selection : Selection) : Storing Unit := do
  let previous ← previousStore selection
  let next := previous.next (selection.renewal analysis granularity tests)
  next.validate analysis.knows
  StoreDirectory.saveStore next settings

variable {settings : Settings} {granularity : Granularity} {analysis : Analysis}
  {tests : List UnitName} {selection : Selection} {d₁ d₂ : StoreDirectory} {summary : UpdateSummary}

/-- Every update goes through such a state: its store is the new one, its snapshots are the old. -/
theorem exists_updateHalf (h : analysis.Coherent)
    (hrun : (updateStore settings granularity analysis tests selection).run.run d₁ =
      (.ok summary, d₂)) :
    ∃ d, (updateHalf settings granularity analysis tests selection).run.run d₁ = (.ok (), d) ∧
      (StoreDirectory.saveSnapshots analysis.snapshots.values).run.run d = (.ok (), d₂) ∧
      d.loadStore = d₂.loadStore ∧ d.loadSnapshots = d₁.loadSnapshots := by
  obtain ⟨hstore, hsnapshots, previous, hprevious, -, rfl⟩ := (updateStore_eq_ok h).1 hrun
  have hvalid : (previous.next (selection.renewal analysis granularity tests)).validate
      analysis.knows = .ok () :=
    @Store.validate_next (selection.renewal analysis granularity tests) h previous
  refine ⟨d₁.put StoreDirectory.storeFile (.file (Text.Utf8.encode (Store.render _ _))),
    (Storing.run_bind_of_ok (previousStore_eq_ok.2 ⟨hprevious, rfl⟩)).trans ?_, ?_,
    StoreDirectory.loadStore_put.symm, StoreDirectory.loadSnapshots_put⟩
  · have hhalf : (do
        let next := previous.next (selection.renewal analysis granularity tests)
        next.validate analysis.knows
        StoreDirectory.saveStore next settings : Storing Unit) =
          StoreDirectory.saveStore (previous.next (selection.renewal analysis granularity tests))
            settings := by
      dsimp only
      rw [hvalid]
      rfl
    rw [hhalf]
    exact StoreDirectory.write_eq_ok.2 ⟨hstore, rfl⟩
  · refine StoreDirectory.write_eq_ok.2 ⟨?_, rfl⟩
    rwa [StoreDirectory.entry?_put, if_neg (by decide)]

/-- **A test with the same reason before and after an update is selected between its two
writes.** -/
theorem mem_affected_of_interrupted {build : Build} {external : List (UnitName × UnitName)}
    (hrun : (updateStore settings granularity (build.analyze settings external) tests
      selection).run.run d₁ = (.ok summary, d₂)) :
    ∃ d, (updateHalf settings granularity (build.analyze settings external) tests
        selection).run.run d₁ = (.ok (), d) ∧
      (StoreDirectory.saveSnapshots (build.analyze settings external).snapshots.values).run.run d =
        (.ok (), d₂) ∧
      ∀ (q : Inquiry) (t : UnitName),
        (t ∈ (d₁.answer q).affected ↔ ∃ reason, StoreDirectory.Justify d₁ d₁ q t reason) ∧
        (t ∈ (d₂.answer q).affected ↔ ∃ reason, StoreDirectory.Justify d₂ d₂ q t reason) ∧
        (t ∈ (d.answer q).affected ↔ ∃ reason, StoreDirectory.Justify d₂ d₁ q t reason) ∧
        ∀ reason, StoreDirectory.Justify d₁ d₁ q t reason →
          StoreDirectory.Justify d₂ d₂ q t reason → t ∈ (d.answer q).affected := by
  obtain ⟨d, hhalf, hrest, hstore, hsnapshots⟩ :=
    exists_updateHalf (build.coherent_analyze settings external) hrun
  refine ⟨d, hhalf, hrest, fun q t => ?_⟩
  have hmixed := @StoreDirectory.mem_affected_of_mixed d d₁ d₂ q t hstore hsnapshots
  exact ⟨StoreDirectory.mem_affected_answer, StoreDirectory.mem_affected_answer, hmixed,
    fun reason h₁ h₂ => hmixed.2 ⟨reason, h₁.listed, h₂.noted, h₁.raised⟩⟩

/-! ### A test that goes back -/

/-- The test of the sample build when it did nothing. -/
def sampleIdleTest : ClassSpec :=
  ClassSpec.addMethod { name := "shop.CartTest" }
    { access := 0x0001, name := "testIdle", descriptor := "()V", code := some [.ret] }

/-- Some version of the test, without the class. -/
def buildOfTest (test : ClassSpec) : Build := .ofMap (.ofList [("shop.CartTest", test.assemble)])

/-- A selection for the one test. -/
def sampleInquiry (build : Build) : Inquiry := ⟨{}, .member, build, ["shop.CartTest"]⟩

/-- A build whose units can all be read, and whose names read back. Some of its units are reached by
the test. -/
structure SampleReads (build : Build) (reached : List UnitName) : Prop where
  readsBack : (build.analyze {} []).ReadsBack .member
  allRead : build.AllRead {}
  relevant : ∀ unit ∈ reached, unit ∈ build.relevant {}
  units : ∀ unit ∈ reached, (((build.analyze {} []).graph.footprint "shop.CartTest").units
    (build.analyze {} []).graph).contains unit = true

instance (build : Build) (reached : List UnitName) : Decidable (SampleReads build reached) :=
  decidable_of_iff ((build.analyze {} []).ReadsBack .member ∧ build.AllRead {} ∧
    (∀ unit ∈ reached, unit ∈ build.relevant {}) ∧
    ∀ unit ∈ reached, (((build.analyze {} []).graph.footprint "shop.CartTest").units
      (build.analyze {} []).graph).contains unit = true)
    ⟨fun h => ⟨h.1, h.2.1, h.2.2.1, h.2.2.2⟩, fun h => ⟨h.1, h.2, h.3, h.4⟩⟩

/-- A test that was run again is recorded for each unit that it reaches. -/
theorem SampleReads.exists_loadStore {build : Build} {reached : List UnitName}
    (h : SampleReads build reached) {selection : Selection} {d d' : StoreDirectory}
    {summary : UpdateSummary}
    (hrun : (updateStore {} .member (build.analyze {} []) ["shop.CartTest"] selection).run.run d =
      (.ok summary, d'))
    (ht : "shop.CartTest" ∈ selection.refreshed (.ofList ["shop.CartTest"])) :
    ∃ store, d'.loadStore = some store ∧
      ∀ unit ∈ reached, "shop.CartTest" ∈ Selection.testsOf store (.unit unit) := by
  obtain ⟨-, -, store, -, hload, -⟩ := StoreDirectory.loadStore_of_update
    (build.coherent_analyze {} []) h.readsBack (by decide) hrun
  refine ⟨store, hload, fun unit hunit => ?_⟩
  obtain ⟨p, hp⟩ := h.allRead unit (h.relevant unit hunit)
  obtain ⟨bytes, -, -, hname, hsnapshot⟩ := Build.of_parse hp
  obtain ⟨store', hload', hrecords⟩ := StoreDirectory.exists_record_of_update h.readsBack
    (by decide) hrun ht (Build.mem_parsed.2 ⟨h.relevant unit hunit, hp⟩)
  cases hload.symm.trans hload'
  have hwhole : p.snapshot.fingerprint? (.unit unit) = some p.snapshot.whole :=
    Snapshot.fingerprint?_unit (by rw [hsnapshot, Snapshot.name_ofClass, hname])
  obtain ⟨tests, hget, ht⟩ := hrecords (.unit unit) _ trivial hwhole (h.units unit hunit)
  exact Store.mem_testsOf.2 ⟨_, (Store.get?_recordsOf_eq_some.1 hget).1, ht⟩

theorem reads_sampleBuild : SampleReads sampleBuild ["shop.Cart", "shop.CartTest"] := by
  decide +kernel

theorem reads_sampleIdleTest : SampleReads (buildOfTest sampleIdleTest) ["shop.CartTest"] := by
  decide +kernel

/-- A first run on the sample build. -/
def SampleFirst (d₁ : StoreDirectory) : Prop :=
  ∃ summary, (updateStore {} .member (sampleBuild.analyze {} []) ["shop.CartTest"]
    (.first (.ofList ["shop.CartTest"]))).run.run ⟨"store", none⟩ = (.ok summary, d₁)

/-- A second run, when the class is gone and the test does nothing. -/
def SampleSecond (d₁ d₂ : StoreDirectory) : Prop :=
  ∃ summary, (updateStore {} .member ((buildOfTest sampleIdleTest).analyze {} []) ["shop.CartTest"]
    (d₁.answer (sampleInquiry (buildOfTest sampleIdleTest)))).run.run d₁ = (.ok summary, d₂)

theorem SampleFirst.exists_loadStore {d₁ : StoreDirectory} (h : SampleFirst d₁) :
    ∃ store, d₁.loadStore = some store ∧ ∀ unit ∈ ["shop.Cart", "shop.CartTest"],
      "shop.CartTest" ∈ Selection.testsOf store (.unit unit) := by
  obtain ⟨summary, hrun⟩ := h
  exact reads_sampleBuild.exists_loadStore hrun (by decide)

/-- After the first run the test is selected wherever the class is gone. -/
theorem SampleFirst.mem_affected {d₁ : StoreDirectory} (h : SampleFirst d₁) {build : Build}
    (hgone : build.locate "shop.Cart" = none) :
    "shop.CartTest" ∈ (d₁.answer (sampleInquiry build)).affected := by
  obtain ⟨store, hload, ht⟩ := h.exists_loadStore
  refine StoreDirectory.mem_affected_answer.2
    ⟨some (.record (.unit "shop.Cart")), List.mem_singleton_self _, ?_, ?_⟩
  · exact ⟨store, hload, Reason.noted_of_gone (ht _ (by simp)) hgone⟩
  · exact Reason.raised_of_gone hgone

theorem SampleFirst.mem_refreshed {d₁ : StoreDirectory} (h : SampleFirst d₁) :
    "shop.CartTest" ∈ (d₁.answer (sampleInquiry (buildOfTest sampleIdleTest))).refreshed
      (.ofList ["shop.CartTest"]) := by
  rw [Selection.refreshed]
  split
  · decide
  · exact SortedSet.mem_inter.2 ⟨h.mem_affected rfl, by decide⟩

/-- Both runs take place. -/
theorem exists_sampleUpdates : ∃ d₁ d₂, SampleFirst d₁ ∧ SampleSecond d₁ d₂ := by
  have hfirst : ∃ d₁, SampleFirst d₁ := ⟨_, _,
    (updateStore_eq_ok (sampleBuild.coherent_analyze {} [])).2
      ⟨by decide, by decide, {}, rfl, rfl, rfl⟩⟩
  obtain ⟨d₁, hfirst⟩ := hfirst
  obtain ⟨store, hload, -⟩ := hfirst.exists_loadStore
  have hfolder : ∀ file, d₁.entry? file ≠ some .folder := by
    obtain ⟨summary, hrun⟩ := hfirst
    obtain ⟨-, -, previous, -, -, rfl⟩ :=
      (updateStore_eq_ok (sampleBuild.coherent_analyze {} [])).1 hrun
    exact fun file => StoreDirectory.entry?_written_ne_folder _ _ _ _ nofun
  have hprevious : d₁.previous? (d₁.answer (sampleInquiry (buildOfTest sampleIdleTest))) =
      some store := by
    rw [StoreDirectory.previous?, StoreDirectory.answer, StoreDirectory.select, hload]
    rfl
  exact ⟨d₁, _, hfirst, _, (updateStore_eq_ok (Build.coherent_analyze _ {} [])).2
    ⟨hfolder _, hfolder _, store, hprevious, rfl, rfl⟩⟩

/-- What is read after the second run: the snapshots of its build, and records of the test alone. -/
theorem SampleSecond.exists_loadStore {d₁ d₂ : StoreDirectory} (hfirst : SampleFirst d₁)
    (h : SampleSecond d₁ d₂) :
    d₂.loadSnapshots = ((buildOfTest sampleIdleTest).analyze {} []).snapshots ∧
      ∃ store, d₂.loadStore = some store ∧ (∀ unit ∈ store.owners, unit = "shop.CartTest") ∧
        "shop.CartTest" ∈ Selection.testsOf store (.unit "shop.CartTest") ∧
        ∃ record, store.records.get? (.method ⟨"shop.CartTest", "testIdle()V"⟩) = some record := by
  obtain ⟨summary, hrun⟩ := h
  have hcoherent := (buildOfTest sampleIdleTest).coherent_analyze {} []
  have hread := reads_sampleIdleTest.allRead
  obtain ⟨hsnapshots, previous, store, -, hload, -, hrecords⟩ :=
    StoreDirectory.loadStore_of_update hcoherent reads_sampleIdleTest.readsBack (by decide) hrun
  obtain ⟨store', hload', htest⟩ := reads_sampleIdleTest.exists_loadStore hrun hfirst.mem_refreshed
  cases hload.symm.trans hload'
  refine ⟨hsnapshots, store, hload, fun unit hunit => ?_, htest _ (by simp), ?_⟩
  · obtain ⟨id, record, hget, rfl⟩ := Store.mem_owners.1 hunit
    rw [hrecords id (hread.not_mem_failed _)] at hget
    obtain ⟨-, hf, -⟩ := (Selection.get?_records_next_eq_some hcoherent
      (hread.not_mem_failed _)).1 hget
    obtain ⟨s, hs, -⟩ := Analysis.fingerprint?_eq_some.1 hf
    have hrelevant : ∀ unit ∈ (buildOfTest sampleIdleTest).relevant {}, unit = "shop.CartTest" := by
      decide +kernel
    exact hrelevant _ (Build.exists_locate_of_snapshot hs).1
  · obtain ⟨f, hf⟩ : ∃ f, ((buildOfTest sampleIdleTest).analyze {} []).fingerprint?
        (.method ⟨"shop.CartTest", "testIdle()V"⟩) = some f :=
      Option.isSome_iff_exists.1 (by decide +kernel)
    rw [hrecords _ (hread.not_mem_failed _)]
    exact ⟨⟨f, _⟩, (Selection.get?_records_next_eq_some hcoherent (hread.not_mem_failed _)).2
      ⟨rfl, hf, rfl⟩⟩

set_option maxRecDepth 4000 in
/-- The test of the second run, and that of the first as it comes back. -/
theorem versions_sampleTest : ∀ before ∈ ((buildOfTest sampleIdleTest).analyze {}
    []).snapshots.get? "shop.CartTest", ∀ bytes ∈ (buildOfTest sampleTest).locate "shop.CartTest",
      before.crc ≠ Digest.Crc32.check bytes ∧
      ∀ file ∈ (ClassFile.decode bytes).toOption, "testTotal()V" ∈
        addedInstanceMethods before (Snapshot.ofClass file (Digest.Crc32.check bytes)) := by
  decide +kernel

/-- After the second run the test is selected if it goes back: it has changed itself. -/
theorem SampleSecond.mem_affected {d₁ d₂ : StoreDirectory} (hfirst : SampleFirst d₁)
    (h : SampleSecond d₁ d₂) :
    "shop.CartTest" ∈ (d₂.answer (sampleInquiry (buildOfTest sampleTest))).affected := by
  obtain ⟨hsnapshots, store, hload, -, -, record, hget⟩ := h.exists_loadStore hfirst
  obtain ⟨before, hbefore⟩ : ∃ before, ((buildOfTest sampleIdleTest).analyze {} []).snapshots.get?
      "shop.CartTest" = some before := Option.isSome_iff_exists.1 (by decide +kernel)
  obtain ⟨file, hfile⟩ : ∃ file, (buildOfTest sampleTest).version? "shop.CartTest" = some file :=
    Option.isSome_iff_exists.1 (by decide +kernel)
  obtain ⟨bytes, hlocate, hdecode⟩ := Build.version?_eq_some.1 hfile
  obtain ⟨hcrc, hversions⟩ := versions_sampleTest before hbefore bytes hlocate
  have hadded := hversions file (by rw [hdecode]; rfl)
  refine StoreDirectory.mem_affected_answer.2 ⟨some .itself, List.mem_singleton_self _, ?_, ?_⟩
  · have hmisfit : (buildOfTest sampleTest).fingerprint?
        (.method ⟨"shop.CartTest", "testIdle()V"⟩) = none := by decide +kernel
    refine ⟨store, hload, .method ⟨"shop.CartTest", "testIdle()V"⟩, rfl, record, hget, ?_⟩
    rw [show (sampleInquiry (buildOfTest sampleTest)).build = buildOfTest sampleTest from rfl,
      hmisfit]
    nofun
  · refine ⟨before, _, rfl, ?_, classify_ne_nil_of_added hadded⟩
    rw [← hsnapshots] at hbefore
    exact Selection.Context.sight_eq_known hlocate hbefore hcrc hdecode rfl

/-- The store of the second run beside the snapshots of the first: nothing is seen of the test that
goes back. -/
theorem SampleSecond.not_mem_affected {d₁ d₂ d : StoreDirectory} (hfirst : SampleFirst d₁)
    (h : SampleSecond d₁ d₂) (hstore : d.loadStore = d₂.loadStore)
    (hsnapshots : d.loadSnapshots = d₁.loadSnapshots) :
    "shop.CartTest" ∉ (d.answer (sampleInquiry (buildOfTest sampleTest))).affected := by
  obtain ⟨-, store, hload, howners, ht, -⟩ := h.exists_loadStore hfirst
  obtain ⟨summary, hrun⟩ := hfirst
  have hfirst : d.loadSnapshots = (sampleBuild.analyze {} []).snapshots := by
    rw [hsnapshots]
    exact (StoreDirectory.loadStore_of_update (sampleBuild.coherent_analyze {} [])
      reads_sampleBuild.readsBack (by decide) hrun).1
  obtain ⟨s, hs⟩ : ∃ s, (sampleBuild.analyze {} []).snapshots.get? "shop.CartTest" = some s :=
    Option.isSome_iff_exists.1 (by decide +kernel)
  obtain ⟨-, bytes, hlocate, hcrc⟩ := Build.exists_locate_of_snapshot hs
  have hback : (buildOfTest sampleTest).locate "shop.CartTest" = some bytes := by
    rw [← hlocate]
    decide +kernel
  rw [← hfirst] at hs
  rw [StoreDirectory.answer, StoreDirectory.select, hstore, hload]
  intro hmem
  have hquiet : ∀ unit ∈ store.owners, Selection.outcomeOf ⟨{}, .member, d.loadSnapshots,
      .ofList ["shop.CartTest"]⟩ store (buildOfTest sampleTest) unit = {} := by
    -- the one unit with records looks the same
    intro unit hunit
    refine Selection.outcomeOf_of_calm hunit fun hmoved => ?_
    have hsame := hmoved.1
    rw [howners unit hunit, Selection.Context.Alarmed,
      Selection.Context.sight_eq_same hback hs hcrc] at hsame
    exact hsame
  obtain ⟨hnew, -⟩ | hunknown := Selection.of_mem_affected_of_quiet hquiet hmem
  · obtain ⟨unit, hunit, -, hnone, -⟩ := Selection.newUnits_ne_nil_iff.1 hnew
    have hunits : ∀ unit ∈ (buildOfTest sampleTest).units, unit = "shop.CartTest" := by
      decide +kernel
    rw [hunits unit hunit] at hnone
    cases hnone.symm.trans hs
  · obtain ⟨record, hget, ht⟩ := Store.mem_testsOf.1 ht
    exact hunknown (SortedSet.mem_union.2 (.inr (Store.mem_recordTests.2 ⟨_, record, hget, ht⟩)))

/-- The test is selected where it is gone itself, before the second run, after it, and between its
two writes. -/
theorem mem_affected_sampleUpdates : ∃ d₁ d₂ d, SampleFirst d₁ ∧ SampleSecond d₁ d₂ ∧
    (updateHalf {} .member ((buildOfTest sampleIdleTest).analyze {} []) ["shop.CartTest"]
      (d₁.answer (sampleInquiry (buildOfTest sampleIdleTest)))).run.run d₁ = (.ok (), d) ∧
    "shop.CartTest" ∈ (d₁.answer (sampleInquiry (.ofMap ∅))).affected ∧
    "shop.CartTest" ∈ (d₂.answer (sampleInquiry (.ofMap ∅))).affected ∧
    "shop.CartTest" ∈ (d.answer (sampleInquiry (.ofMap ∅))).affected := by
  obtain ⟨d₁, d₂, hfirst, hsecond⟩ := exists_sampleUpdates
  obtain ⟨store₁, hload₁, ht₁⟩ := hfirst.exists_loadStore
  obtain ⟨-, store₂, hload₂, -, ht₂, -⟩ := hsecond.exists_loadStore hfirst
  have hsecond' := hsecond
  obtain ⟨summary, hrun⟩ := hsecond'
  obtain ⟨d, hhalf, -, h⟩ := mem_affected_of_interrupted hrun
  obtain ⟨hiff₁, hiff₂, -, hcommon⟩ := h (sampleInquiry (.ofMap ∅)) "shop.CartTest"
  have hgone : (Build.ofMap ∅).locate "shop.CartTest" = none := rfl
  have hreason : ∀ {d' store}, d'.loadStore = some store →
      "shop.CartTest" ∈ Selection.testsOf store (.unit "shop.CartTest") →
      StoreDirectory.Justify d' d' (sampleInquiry (.ofMap ∅)) "shop.CartTest"
        (some (.record (.unit "shop.CartTest"))) := fun hload ht =>
    ⟨List.mem_singleton_self _, ⟨_, hload, Reason.noted_of_gone ht hgone⟩,
      Reason.raised_of_gone hgone⟩
  have hreason₁ := hreason hload₁ (ht₁ _ (by simp))
  have hreason₂ := hreason hload₂ ht₂
  exact ⟨d₁, d₂, d, hfirst, hsecond, hhalf, hiff₁.2 ⟨_, hreason₁⟩, hiff₂.2 ⟨_, hreason₂⟩,
    hcommon _ hreason₁ hreason₂⟩

/-- It is missed where it goes back and the class stays gone: before the second run it is selected
since the class is gone, and after it since it has changed itself. -/
theorem not_mem_affected_sampleUpdates : ∃ d₁ d₂ d, SampleFirst d₁ ∧ SampleSecond d₁ d₂ ∧
    (updateHalf {} .member ((buildOfTest sampleIdleTest).analyze {} []) ["shop.CartTest"]
      (d₁.answer (sampleInquiry (buildOfTest sampleIdleTest)))).run.run d₁ = (.ok (), d) ∧
    "shop.CartTest" ∈ (d₁.answer (sampleInquiry (buildOfTest sampleTest))).affected ∧
    "shop.CartTest" ∈ (d₂.answer (sampleInquiry (buildOfTest sampleTest))).affected ∧
    "shop.CartTest" ∉ (d.answer (sampleInquiry (buildOfTest sampleTest))).affected := by
  obtain ⟨d₁, d₂, hfirst, hsecond⟩ := exists_sampleUpdates
  have hsecond' := hsecond
  obtain ⟨summary, hrun⟩ := hsecond'
  obtain ⟨d, hhalf, -, hstore, hsnapshots⟩ :=
    exists_updateHalf (Build.coherent_analyze _ {} []) hrun
  exact ⟨d₁, d₂, d, hfirst, hsecond, hhalf, hfirst.mem_affected (by decide +kernel),
    hsecond.mem_affected hfirst, hsecond.not_mem_affected hfirst hstore hsnapshots⟩

end Retest

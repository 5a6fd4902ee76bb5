import Retest.Proofs.Selection.LostRecords

/-!
# The shortcut by checksums

A class file with the checksum of its snapshot is not looked at. A selection that
reads every class file and compares it (`Retest.Selection.fullDiff`) takes longer,
and comes to the same: `Retest.Selection.diff_eq_fullDiff_of_update` says so for
what an update leaves behind, as far as class files with the same checksum are the
same.

The reason is in the snapshots, not in the store. An update writes the snapshots
of the class files that it has read, so a class file that is still the same has
its snapshot, and a snapshot shows no difference to itself
(`Retest.Selection.Context.compareWith_self`), whatever a record says. Nor do the
records say anything else: those that can be read again have the fingerprints of
the snapshots (`Retest.StoreDirectory.agrees_of_update`).
-/

namespace Retest

/-- **Checksums tell the class files of two builds apart**: a unit that has the same checksum in
both has the same class file. -/
def Build.ChecksumsTell (earlier later : Build) : Prop :=
  ∀ unit old new, earlier.locate unit = some old → later.locate unit = some new →
    Digest.Crc32.check old = Digest.Crc32.check new → old = new

/-- **A store agrees with snapshots**: a record of a unit with a snapshot has the fingerprint that
the snapshot says. -/
def Store.Agrees (store : Store) (snapshots : SortedMap UnitName Snapshot) : Prop :=
  ∀ id record s, store.records.get? id = some record → snapshots.get? id.owner = some s →
    s.fingerprint? id = some record.fingerprint

namespace Selection

namespace Context

/-- What became of a unit, found out by comparison: a class file is looked at whatever its
checksum. -/
def fullOutcome (context : Context) (build : Build) (unit : UnitName)
    (records : SortedMap Dependency StoreRecord) : Outcome :=
  match build.locate unit with
  | none => { Outcome.everything records with deleted := true }
  | some bytes => context.inspect unit records bytes

/-- **Checksums can be trusted**: a class file with the checksum of its snapshot has that
snapshot. -/
def TrustsChecksums (context : Context) (build : Build) : Prop :=
  ∀ unit bytes s, build.locate unit = some bytes → context.snapshots.get? unit = some s →
    s.crc = Digest.Crc32.check bytes → ∃ file, Snapshot.decode bytes = .ok (file, s)

variable {context : Context} {build : Build} {unit : UnitName}

/-- **A unit that has its snapshot has not changed**, whatever its records say. -/
theorem compareWith_self {s : Snapshot} (hs : context.snapshots.get? unit = some s)
    (records : SortedMap Dependency StoreRecord) : context.compareWith unit records s = {} := by
  rw [compareWith]
  split
  · rfl
  · rw [hs]
    cases context.granularity with
    | unit => exact if_pos (Snapshot.equivalent_self s _ _)
    | member => exact if_pos (by rw [Snapshot.classify_self, List.isEmpty_nil])

/-- Where checksums can be trusted, comparing comes to the same as the shortcut. -/
theorem TrustsChecksums.outcome_eq (h : context.TrustsChecksums build) (unit : UnitName)
    (records : SortedMap Dependency StoreRecord) :
    context.outcome build unit records = context.fullOutcome build unit records := by
  rw [outcome, fullOutcome]
  cases hlocate : build.locate unit with
  | none => rfl
  | some bytes =>
    dsimp only
    split
    · next hsame =>
      obtain ⟨s, hs, hcrc⟩ := (Option.any_eq_true _ _).1 hsame
      obtain ⟨file, hdecode⟩ := h unit bytes s hlocate hs (beq_iff_eq.1 hcrc)
      rw [inspect, hdecode]
      exact (compareWith_self hs records).symm
    · rfl

end Context

/-- **Compare a store with a build, class file by class file**, without a look at checksums. -/
def fullDiff (context : Context) (store : Store) (build : Build) : Selection :=
  combine context store build (store.owners.toList.map fun unit =>
    (unit, context.fullOutcome build unit (store.recordsOf unit)))

theorem diff_eq_fullDiff {context : Context} {build : Build} (h : context.TrustsChecksums build)
    (store : Store) : diff context store build = fullDiff context store build := by
  refine congrArg (combine context store build) (List.map_congr_left fun unit _ => ?_)
  rw [h.outcome_eq]

end Selection

/-! ### After an update -/

variable {settings analysisSettings : Settings} {granularity : Granularity} {earlier build : Build}
  {external : List (UnitName × UnitName)} {tests : List UnitName} {selection : Selection}
  {d d' : StoreDirectory} {summary : UpdateSummary}

/-- A snapshot of an analysis is that of the class file it was taken from. -/
theorem Build.exists_decode_of_snapshot {unit : UnitName} {s : Snapshot}
    (hs : (earlier.analyze settings external).snapshots.get? unit = some s) :
    ∃ bytes file, earlier.locate unit = some bytes ∧ Snapshot.decode bytes = .ok (file, s) ∧
      s.crc = Digest.Crc32.check bytes := by
  obtain ⟨-, bytes, file, hlocate, hdecode, -, rfl⟩ := exists_ofClass_of_snapshot hs
  refine ⟨bytes, file, hlocate, ?_, Snapshot.crc_ofClass file _⟩
  rw [Snapshot.decode, hdecode]
  rfl

/-- **The snapshots that an update leaves behind are those of its analysis**, whatever their
names. -/
theorem StoreDirectory.loadSnapshots_of_update (hrun : (updateStore settings granularity
      (earlier.analyze analysisSettings external) tests selection).run.run d = (.ok summary, d')) :
    d'.loadSnapshots = (earlier.analyze analysisSettings external).snapshots := by
  have hcoherent := earlier.coherent_analyze analysisSettings external
  obtain ⟨-, -, previous, -, -, rfl⟩ := (updateStore_eq_ok hcoherent).1 hrun
  rw [loadSnapshots_written, indexSnapshots_values hcoherent.named]

/-- After an update checksums can be trusted, as far as they tell class files apart. -/
theorem Selection.Context.trustsChecksums_of_update (hrun : (updateStore settings granularity
      (earlier.analyze analysisSettings external) tests selection).run.run d = (.ok summary, d'))
    (htell : earlier.ChecksumsTell build) {context : Context}
    (hsnapshots : context.snapshots = d'.loadSnapshots) : context.TrustsChecksums build := by
  intro unit bytes s hlocate hs hcrc
  rw [hsnapshots, StoreDirectory.loadSnapshots_of_update hrun] at hs
  obtain ⟨old, file, hold, hdecode, hcheck⟩ := Build.exists_decode_of_snapshot hs
  obtain rfl := htell unit old bytes hold hlocate (hcheck.symm.trans hcrc)
  exact ⟨file, hdecode⟩

/-- **The store that an update leaves behind agrees with the snapshots**, if the names read
back. -/
theorem StoreDirectory.agrees_of_update (hrun : (updateStore settings granularity
      (earlier.analyze analysisSettings external) tests selection).run.run d = (.ok summary, d'))
    (hids : (earlier.analyze analysisSettings external).ReadsBack granularity)
    (htests : ∀ t ∈ tests, Store.IsTestName t) :
    ∃ loaded, d'.loadStore = some loaded ∧ loaded.Agrees d'.loadSnapshots := by
  have hcoherent := earlier.coherent_analyze analysisSettings external
  obtain ⟨hsnapshots, previous, loaded, -, hloaded, -, hrecords⟩ :=
    loadStore_of_update hcoherent hids htests hrun
  refine ⟨loaded, hloaded, fun id record s hget hs => ?_⟩
  rw [hsnapshots] at hs
  have hread := hcoherent.apart hs
  rw [hrecords id hread] at hget
  -- a record of a unit that was read has the fingerprint of the analysis
  obtain ⟨-, hf, -⟩ := (Selection.get?_records_next_eq_some hcoherent hread).1 hget
  obtain ⟨s', hs', hf⟩ := Analysis.fingerprint?_eq_some.1 hf
  cases hs.symm.trans hs'
  exact hf

/-- **The shortcut by checksums agrees with the full comparison.** After an update was completed,
comparing any store with any build comes to the same selection whether or not class files with
the checksum of their snapshots are passed over, if checksums tell the class files of the two builds
apart. The store that the update has left behind is there if the names read back, and then its
records say what the snapshots say. -/
theorem Selection.diff_eq_fullDiff_of_update (hrun : (updateStore settings granularity
      (earlier.analyze analysisSettings external) tests selection).run.run d = (.ok summary, d'))
    (htell : earlier.ChecksumsTell build) :
    (∀ (store : Store) (settings : Settings) (granularity : Granularity)
        (tests : SortedSet UnitName),
      diff ⟨settings, granularity, d'.loadSnapshots, tests⟩ store build =
        fullDiff ⟨settings, granularity, d'.loadSnapshots, tests⟩ store build) ∧
      ((earlier.analyze analysisSettings external).ReadsBack granularity →
        (∀ t ∈ tests, Store.IsTestName t) →
        ∃ loaded, d'.loadStore = some loaded ∧ loaded.Agrees d'.loadSnapshots) := by
  refine ⟨fun store _ _ _ => diff_eq_fullDiff ?_ store, StoreDirectory.agrees_of_update hrun⟩
  exact Context.trustsChecksums_of_update hrun htell rfl

/-! ### A class without its field -/

/-- One class file of the sample is another now, with another checksum. -/
theorem checksumsTell_sampleWithoutField :
    sampleBuild.ChecksumsTell (buildWith sampleWithoutField) := by
  intro unit old new hold hnew hcheck
  by_cases hunit : unit = "shop.Cart"
  · subst hunit
    rw [sampleBuild, Selection.locate_buildWith, Option.some.injEq] at hold
    rw [Selection.locate_buildWith, Option.some.injEq] at hnew
    subst hold hnew
    exact absurd hcheck check_sampleUnit_ne
  · rw [Selection.locate_buildWith_of_ne hunit _ sampleUnit] at hnew
    exact Option.some.inj (hold.symm.trans hnew)

/-- The test class has its checksum still, and passing it over does no harm. -/
theorem Selection.diff_eq_fullDiff_sampleWithoutField : ∃ summary d loaded,
    (updateStore {} .member (sampleBuild.analyze {} []) ["shop.CartTest"]
        (.first (.ofList ["shop.CartTest"]))).run.run ⟨"store", none⟩ = (.ok summary, d) ∧
      sampleBuild.ChecksumsTell (buildWith sampleWithoutField) ∧
      d.loadStore = some loaded ∧ loaded.Agrees d.loadSnapshots ∧
      diff ⟨{}, .member, d.loadSnapshots, .ofList ["shop.CartTest"]⟩ loaded
          (buildWith sampleWithoutField) =
        fullDiff ⟨{}, .member, d.loadSnapshots, .ofList ["shop.CartTest"]⟩ loaded
          (buildWith sampleWithoutField) := by
  obtain ⟨d, store, hfirst⟩ := exists_firstUpdate_sampleBuild
  obtain ⟨summary, hrun⟩ := hfirst.run
  obtain ⟨hsame, hloaded⟩ := diff_eq_fullDiff_of_update hrun checksumsTell_sampleWithoutField
  obtain ⟨loaded, hload, hagrees⟩ := hloaded hfirst.readsBack hfirst.named
  exact ⟨summary, d, loaded, hrun, checksumsTell_sampleWithoutField, hload, hagrees,
    hsame loaded {} .member _⟩

end Retest

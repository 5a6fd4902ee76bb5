import Retest.Proofs.Selection.Reasons

/-!
# What a first update leaves behind

A first update writes its records from one analysis and nothing else. So it is known
what the next selection finds (`Retest.FirstUpdate`): there is a record for each
dependency that is tracked, with its fingerprint and the tests whose footprints reach
it, and the snapshots are those of the analysis. Such an update takes place wherever
every unit can be read and the names read back (`Retest.exists_firstUpdate`).

A record holds what the class file said. So a unit whose class file is still the same
is not stale (`Retest.FirstUpdate.not_stale`).
-/

namespace Retest

/-- The store that a first update writes. -/
def firstStore (settings : Settings) (granularity : Granularity) (build : Build)
    (tests : List UnitName) : Store :=
  Store.next {} ((Selection.first (.ofList tests)).renewal (build.analyze settings []) granularity
    tests)

/-- **A first update was completed**, and this is the store that the next selection finds. -/
structure FirstUpdate (settings : Settings) (granularity : Granularity) (build : Build)
    (tests : List UnitName) (d : StoreDirectory) (store : Store) : Prop where
  allRead : build.AllRead settings
  readsBack : (build.analyze settings []).ReadsBack granularity
  named : ∀ t ∈ tests, Store.IsTestName t
  run : ∃ summary, (updateStore settings granularity (build.analyze settings []) tests
    (.first (.ofList tests))).run.run ⟨"store", none⟩ = (.ok summary, d)
  load : d.loadStore = some store
  snapshots : d.loadSnapshots = (build.analyze settings []).snapshots
  records : store.records = (firstStore settings granularity build tests).records
  wildcard : store.wildcard = (firstStore settings granularity build tests).wildcard

variable {settings : Settings} {granularity : Granularity} {build later : Build}
  {tests : List UnitName} {d : StoreDirectory} {store : Store} {id : Dependency} {t unit : UnitName}

/-- The footprint of a test reaches a dependency. -/
def Build.Reaches (build : Build) (settings : Settings) (granularity : Granularity) (t : UnitName)
    (id : Dependency) : Prop :=
  Store.Renewal.reaches ⟨build.analyze settings [], granularity, ∅, ∅⟩
    ((build.analyze settings []).graph.footprint t) id = true

instance : Decidable (build.Reaches settings granularity t id) :=
  inferInstanceAs (Decidable (_ = true))

example : ¬(Build.ofMap ∅).Reaches {} .member "shop.CartTest" (.unit "shop.Cart") := by
  decide +kernel

/-- A test of any record is known. -/
theorem Store.mem_tests_of_mem_testsOf (ht : t ∈ Selection.testsOf store id) :
    t ∈ store.tests := by
  obtain ⟨record, hget, ht⟩ := Store.mem_testsOf.1 ht
  exact SortedSet.mem_union.2 (.inr (Store.mem_recordTests.2 ⟨id, record, hget, ht⟩))

/-- A unit that can be read and has another checksum than its snapshot is compared. -/
theorem Selection.Context.sight_eq_known_of_crc {context : Context} {before after : Snapshot}
    (hbefore : context.snapshots.get? unit = some before)
    (hafter : build.snapshot? unit = some after) (hcrc : before.crc ≠ after.crc) :
    context.sight build unit = .known before after := by
  obtain ⟨bytes, hlocate, hdecode⟩ := Option.bind_eq_some_iff.1 hafter
  rw [Snapshot.decode] at hdecode
  cases hfile : ClassFile.decode bytes with
  | error fault =>
    rw [hfile] at hdecode
    cases hdecode
  | ok file =>
    rw [hfile] at hdecode
    cases hdecode
    exact sight_eq_known hlocate hbefore hcrc hfile rfl

/-- **A first update is completed** if every unit can be read and the names read back. -/
theorem exists_firstUpdate (hread : build.AllRead settings)
    (hids : (build.analyze settings []).ReadsBack granularity)
    (htests : ∀ t ∈ tests, Store.IsTestName t) :
    ∃ d store, FirstUpdate settings granularity build tests d store := by
  have hcoherent := build.coherent_analyze settings []
  have hprevious : (⟨"store", none⟩ : StoreDirectory).previous? (.first (.ofList tests)) =
      some {} := rfl
  refine ⟨_, _, hread, hids, htests,
    ⟨_, (updateStore_eq_ok hcoherent).2 ⟨by decide, by decide, {}, hprevious, rfl, rfl⟩⟩,
    loadStore_after_update hread hids htests hprevious rfl, ?_, rfl, rfl⟩
  rw [StoreDirectory.loadSnapshots_written, StoreDirectory.indexSnapshots_values hcoherent.named]

namespace FirstUpdate

/-- The records are those of the dependencies that are tracked and have a fingerprint. -/
theorem get?_records (h : FirstUpdate settings granularity build tests d store)
    {record : StoreRecord} : store.records.get? id = some record ↔ id.IsTracked granularity ∧
      (build.analyze settings []).fingerprint? id = some record.fingerprint ∧
      record.tests = ((Selection.first (.ofList tests)).renewal (build.analyze settings [])
        granularity tests).testsFor {} id := by
  rw [h.records]
  exact Selection.get?_records_next_eq_some (build.coherent_analyze settings [])
    (h.allRead.not_mem_failed _)

/-- **A test stands in the records that its footprint reaches.** -/
theorem mem_testsOf (h : FirstUpdate settings granularity build tests d store) :
    t ∈ Selection.testsOf store id ↔ t ∈ tests ∧ build.Reaches settings granularity t id ∧
      id.IsTracked granularity ∧ ∃ f, (build.analyze settings []).fingerprint? id = some f := by
  have hfor : t ∈ ((Selection.first (.ofList tests)).renewal (build.analyze settings [])
      granularity tests).testsFor {} id ↔
        t ∈ tests ∧ build.Reaches settings granularity t id := by
    have hnone : t ∉ Selection.testsOf {} id := SortedSet.not_mem_empty t
    rw [Store.Renewal.mem_testsFor, or_iff_right fun hold => hnone hold.1]
    refine and_congr SortedSet.mem_ofList ?_
    cases id <;> rfl
  rw [Store.mem_testsOf]
  constructor
  · rintro ⟨record, hget, ht⟩
    obtain ⟨htracked, hf, hrecord⟩ := h.get?_records.1 hget
    rw [hrecord, hfor] at ht
    exact ⟨ht.1, ht.2, htracked, _, hf⟩
  · rintro ⟨ht, hreaches, htracked, f, hf⟩
    exact ⟨⟨f, _⟩, h.get?_records.2 ⟨htracked, hf, rfl⟩, hfor.2 ⟨ht, hreaches⟩⟩

/-- So it stands in records of units that its footprint reaches. -/
theorem owner_mem_units (h : FirstUpdate settings granularity build tests d store)
    (ht : t ∈ Selection.testsOf store id) :
    id.owner ∈ ((build.analyze settings []).graph.footprint t).units
      (build.analyze settings []).graph := by
  have hreaches := (h.mem_testsOf.1 ht).2.1
  cases id with
  | unit unit => exact SortedSet.contains_eq_true.1 hreaches
  | method key =>
    exact Footprint.owner_mem_units (by simpa using (Bool.and_eq_true_iff.1 hreaches).2)
  | field key =>
    exact Footprint.owner_mem_units (by simpa using (Bool.and_eq_true_iff.1 hreaches).2)

/-- A test may depend on anything only if its footprint says so. -/
theorem reflective_of_mem_wildcard (h : FirstUpdate settings granularity build tests d store)
    (ht : t ∈ store.wildcard) :
    ((build.analyze settings []).graph.footprint t).reflective = true := by
  rw [h.wildcard] at ht
  rcases Store.mem_wildcard_next.1 ht with ht | ht
  · exact absurd ht.1 (SortedSet.not_mem_empty t)
  · exact ht.2

/-- **A unit whose class file is the same is not stale.** -/
theorem not_stale (h : FirstUpdate settings granularity build tests d store)
    (hsame : later.locate unit = build.locate unit) : ¬store.Stale later unit := by
  rintro ⟨id, rfl, record, hget, hmisfit⟩
  obtain ⟨-, hf, -⟩ := h.get?_records.1 hget
  obtain ⟨s, hs, hf⟩ := Analysis.fingerprint?_eq_some.1 hf
  obtain ⟨-, bytes, file, hlocate, hdecode, -, rfl⟩ := Build.exists_ofClass_of_snapshot hs
  have hlater : later.snapshot? id.owner = some (.ofClass file (Digest.Crc32.check bytes)) :=
    Build.snapshot?_of_decode (hsame.trans hlocate) hdecode
  rw [Build.fingerprint?, hlater] at hmisfit
  exact hmisfit hf

end FirstUpdate

end Retest

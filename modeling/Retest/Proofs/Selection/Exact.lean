import Retest.Proofs.Selection.Run

/-!
# The next store, record by record

The next store is put together in several passes over one map: records without tests for
what can be read, previous records for what cannot, tests that are carried over, and tests
that were run again. `Retest.Store.Exact` says what has to come out of it, of one record and
one test at a time, and `Retest.Store.exact_next` that it does: no pass loses or makes up
anything of another.

So every record of the next store belongs to a unit that takes part in the analysis. An
update makes sure of that before it writes, and never has to give up for this reason: it
fails only if the previous store is gone, or if a folder is in the way of a file
(`Retest.of_updateStore_eq_error`).
-/

namespace Retest

/-! ### Slots of a snapshot -/

/-- A slot with a colon is the slot of a field. -/
theorem FieldKey.exists_ofSlot? (unit : UnitName) {slot : String} (h : ':' ∈ slot.toList) :
    ∃ key, ofSlot? unit slot = some key := by
  obtain ⟨name, descriptor, hslot, hcolon⟩ := List.eq_append_cons_of_mem h
  rw [ofSlot?, hslot, Text.splitFirst?_append hcolon]
  exact ⟨_, rfl⟩

namespace Snapshot

/-- A method has a fingerprint exactly if its slot is one of the three kinds. -/
theorem mem_signatures {s : Snapshot} {signature : Signature} :
    signature ∈ s.signatures ↔ ∃ f, s.method? signature = some f := by
  refine ⟨fun h => ?_, fun ⟨_, h⟩ => mem_signatures_of_method? h⟩
  simp only [signatures, List.mem_append, SortedSet.mem_toList, SortedMap.mem_keys] at h
  rw [← Option.isSome_iff_exists, method?]
  obtain (⟨f, hf⟩ | ⟨f, hf⟩) | ⟨f, hf⟩ := h <;> simp [hf]

/-- Every slot of a field in a snapshot that was taken of a class file has a colon. -/
theorem colon_mem_of_mem_fields {file : ClassFile} {crc : UInt32} {slot : String}
    (h : slot ∈ (ofClass file crc).fields.keys) : ':' ∈ slot.toList := by
  obtain ⟨f, hf⟩ := SortedMap.mem_keys.1 h
  obtain ⟨field, -, -, rfl, -⟩ := exists_of_get?_slots hf
  simp [FieldDecl.slot]

end Snapshot

namespace Store

open Selection (testsOf)

/-! ### The contract -/

/-- **What the next store has to be**: which records there are, and for each record its fingerprint
and its tests. -/
structure Exact (renewal : Renewal) (previous next : Store) : Prop where
  /-- A unit that can be read has a record. -/
  unit : ∀ {unit s}, renewal.analysis.snapshots.get? unit = some s →
    .unit unit ∈ next.records.keys
  /-- Its methods have records where members are tracked, one for each slot. -/
  method : ∀ {unit s signature}, renewal.analysis.snapshots.get? unit = some s →
    (.method ⟨unit, signature⟩ ∈ next.records.keys ↔
      renewal.granularity = .member ∧ signature ∈ s.signatures)
  /-- Its fields have records only where members are tracked, and only those with a slot. -/
  field : ∀ {unit s} {key : FieldKey}, renewal.analysis.snapshots.get? unit = some s →
    key.owner = unit → .field key ∈ next.records.keys →
      renewal.granularity = .member ∧ key.slot ∈ s.fields.keys
  /-- Where members are tracked, each slot of a field has one record: that of the slot cut at its
  first colon. -/
  slot : ∀ {unit s slot}, renewal.analysis.snapshots.get? unit = some s →
    renewal.granularity = .member → slot ∈ s.fields.keys →
      ∃ key, FieldKey.ofSlot? unit slot = some key ∧ ∀ other : FieldKey,
        other.owner = unit ∧ other.slot = slot ∧ .field other ∈ next.records.keys ↔ other = key
  /-- All other records are the previous ones of units that cannot be read. -/
  kept : ∀ {id : Dependency}, renewal.analysis.snapshots.get? id.owner = none →
    (id ∈ next.records.keys ↔ id.owner ∈ renewal.analysis.failed ∧ id ∈ previous.records.keys)
  /-- Such a record keeps its fingerprint and its tests, whether they are there or not, and gets the
  tests that were run again and reach it. -/
  keptRecord : ∀ {id : Dependency} {record}, renewal.analysis.snapshots.get? id.owner = none →
    next.records.get? id = some record → ∃ old, previous.records.get? id = some old ∧
      record.fingerprint = old.fingerprint ∧ ∀ t, t ∈ record.tests ↔ t ∈ old.tests ∨
        t ∈ renewal.refreshed ∧ ∃ node ∈ (renewal.analysis.graph.footprint t).dependencies
          renewal.analysis.graph, id = .unit node.owner ∨ renewal.granularity = .member ∧ id = node
  /-- A record of a unit that can be read has the fingerprint of the analysis. -/
  fingerprint : ∀ {id : Dependency} {s record},
    renewal.analysis.snapshots.get? id.owner = some s → next.records.get? id = some record →
      renewal.analysis.fingerprint? id = some record.fingerprint
  /-- A test that was not run again is named where it was named. -/
  carried : ∀ {id : Dependency} {s record t},
    renewal.analysis.snapshots.get? id.owner = some s → next.records.get? id = some record →
      t ∈ renewal.tests → t ∉ renewal.refreshed →
        (t ∈ record.tests ↔ t ∈ testsOf previous id)
  /-- A test that was run again is named for the units that own something in its footprint. -/
  reachedUnit : ∀ {unit s record t}, renewal.analysis.snapshots.get? unit = some s →
    next.records.get? (.unit unit) = some record → t ∈ renewal.refreshed →
      (t ∈ record.tests ↔ ∃ node ∈ (renewal.analysis.graph.footprint t).dependencies
        renewal.analysis.graph, node.owner = unit)
  /-- It is named for the members that are in its footprint. -/
  reachedMember : ∀ {id : Dependency} {s record t},
    renewal.analysis.snapshots.get? id.owner = some s → id.isUnit = false →
      next.records.get? id = some record → t ∈ renewal.refreshed →
        (t ∈ record.tests ↔
          id ∈ (renewal.analysis.graph.footprint t).dependencies renewal.analysis.graph)
  /-- No other test is named. -/
  current : ∀ {id : Dependency} {s record t},
    renewal.analysis.snapshots.get? id.owner = some s → next.records.get? id = some record →
      t ∈ record.tests → t ∈ renewal.tests ∨ t ∈ renewal.refreshed

/-! ### Records of the next store -/

section

variable {renewal : Renewal} {previous : Store} {id : Dependency}

/-- A dependency of a unit that can be read has a record if it is tracked and has a fingerprint. -/
theorem mem_keys_next (h : renewal.analysis.Coherent) {s : Snapshot}
    (hs : renewal.analysis.snapshots.get? id.owner = some s) :
    id ∈ (previous.next renewal).records.keys ↔
      id.IsTracked renewal.granularity ∧ ∃ f, s.fingerprint? id = some f := by
  have hfingerprint : renewal.analysis.fingerprint? id = s.fingerprint? id := by
    rw [Analysis.fingerprint?, hs, Option.bind_some]
  rw [SortedMap.mem_keys]
  constructor
  · rintro ⟨record, hget⟩
    obtain ⟨htracked, hf, -⟩ := (get?_records_next_eq_some h (h.apart hs)).1 hget
    exact ⟨htracked, record.fingerprint, hfingerprint ▸ hf⟩
  · rintro ⟨htracked, f, hf⟩
    exact ⟨⟨f, renewal.testsFor previous id⟩, (get?_records_next_eq_some h (h.apart hs)).2
      ⟨htracked, hfingerprint.trans hf, rfl⟩⟩

/-- Every other record is a previous one of a unit that cannot be read. -/
theorem mem_keys_next_of_none (h : renewal.analysis.Coherent)
    (hnone : renewal.analysis.snapshots.get? id.owner = none) :
    id ∈ (previous.next renewal).records.keys ↔
      id.owner ∈ renewal.analysis.failed ∧ id ∈ previous.records.keys := by
  by_cases hfailed : id.owner ∈ renewal.analysis.failed
  · rw [SortedMap.mem_keys, SortedMap.mem_keys, get?_records_next,
      Renewal.get?_base_of_failed h hfailed]
    simp [hfailed]
  · have hfingerprint : renewal.analysis.fingerprint? id = none := by
      rw [Analysis.fingerprint?, hnone, Option.bind_none]
    refine iff_of_false (fun hid => ?_) fun hid => hfailed hid.1
    obtain ⟨record, hget⟩ := SortedMap.mem_keys.1 hid
    obtain ⟨-, hf, -⟩ := (get?_records_next_eq_some h hfailed).1 hget
    cases hfingerprint.symm.trans hf

/-- A record of a field is that of its slot. -/
theorem field_mem_keys_next (h : renewal.analysis.Coherent) {unit : UnitName} {s : Snapshot}
    (hs : renewal.analysis.snapshots.get? unit = some s) {key : FieldKey}
    (howner : key.owner = unit) :
    .field key ∈ (previous.next renewal).records.keys ↔
      renewal.granularity = .member ∧ key.slot ∈ s.fields.keys ∧
        FieldKey.ofSlot? unit key.slot = some key := by
  subst howner
  have hkeys : .field key ∈ (previous.next renewal).records.keys ↔ _ := mem_keys_next h hs
  rw [hkeys, Snapshot.fingerprint?_field (h.named hs).symm, FieldKey.ofSlot?_eq_some_iff,
    SortedMap.mem_keys]
  constructor
  · rintro ⟨⟨hmember, hcolon⟩, f, hf⟩
    exact ⟨hmember, ⟨f, hf⟩, rfl, rfl, hcolon⟩
  · rintro ⟨hmember, ⟨f, hf⟩, -, -, hcolon⟩
    exact ⟨⟨hmember, hcolon⟩, f, hf⟩

/-- The tests in a record of a unit that can be read. -/
theorem tests_of_get?_next (h : renewal.analysis.Coherent) {s : Snapshot}
    (hs : renewal.analysis.snapshots.get? id.owner = some s) {record : StoreRecord}
    (hget : (previous.next renewal).records.get? id = some record) :
    record.tests = renewal.testsFor previous id :=
  ((get?_records_next_eq_some h (h.apart hs)).1 hget).2.2

/-- A record of a member of a unit that can be read is there only if members are tracked. -/
theorem granularity_of_get?_next (h : renewal.analysis.Coherent) {s : Snapshot}
    (hs : renewal.analysis.snapshots.get? id.owner = some s) (hmember : id.isUnit = false)
    {record : StoreRecord} (hget : (previous.next renewal).records.get? id = some record) :
    renewal.granularity = .member := by
  obtain ⟨htracked, -, -⟩ := (get?_records_next_eq_some h (h.apart hs)).1 hget
  cases id with
  | unit unit => cases hmember
  | method key => exact htracked
  | field key => exact htracked.1

namespace Renewal

theorem mem_testsFor_of_refreshed {t : UnitName} (ht : t ∈ renewal.refreshed) :
    t ∈ renewal.testsFor previous id ↔
      renewal.reaches (renewal.analysis.graph.footprint t) id = true := by
  rw [mem_testsFor]
  simp [ht]

end Renewal

/-- **The next store is as it has to be**, from an analysis whose parts fit together. -/
theorem exact_next_of_coherent (h : renewal.analysis.Coherent)
    (hcolon : ∀ {unit s}, renewal.analysis.snapshots.get? unit = some s →
      ∀ slot ∈ s.fields.keys, ':' ∈ slot.toList) (previous : Store) :
    Exact renewal previous (previous.next renewal) where
  unit {unit s} hs := by
    have hkeys : .unit unit ∈ (previous.next renewal).records.keys ↔ _ := mem_keys_next h hs
    exact hkeys.2 ⟨trivial, s.whole, Snapshot.fingerprint?_unit (h.named hs).symm⟩
  method {unit s signature} hs := by
    have hkeys : .method ⟨unit, signature⟩ ∈ (previous.next renewal).records.keys ↔ _ :=
      mem_keys_next h hs
    rw [hkeys, Snapshot.fingerprint?_method (h.named hs).symm, Snapshot.mem_signatures]
    rfl
  field {unit s key} hs howner hkey := by
    obtain ⟨hmember, hslot, -⟩ := (field_mem_keys_next h hs howner).1 hkey
    exact ⟨hmember, hslot⟩
  slot {unit s slot} hs hmember hslot := by
    obtain ⟨key, hkey⟩ := FieldKey.exists_ofSlot? unit (hcolon hs slot hslot)
    refine ⟨key, hkey, fun other => ⟨?_, ?_⟩⟩
    · rintro ⟨howner, rfl, hother⟩
      obtain ⟨-, -, hother⟩ := (field_mem_keys_next h hs howner).1 hother
      exact Option.some.inj (hother.symm.trans hkey)
    · rintro rfl
      obtain ⟨howner, rfl, -⟩ := FieldKey.ofSlot?_eq_some_iff.1 hkey
      exact ⟨howner, rfl, (field_mem_keys_next h hs howner).2 ⟨hmember, hslot, hkey⟩⟩
  kept hnone := mem_keys_next_of_none h hnone
  keptRecord {id record} hnone hget := by
    obtain ⟨hfailed, -⟩ := (mem_keys_next_of_none h hnone).1 (SortedMap.mem_keys_of_get? hget)
    obtain ⟨old, hold, hfingerprint, htests⟩ := get?_records_next_of_failed h hfailed hget
    refine ⟨old, hold, hfingerprint, fun t => ?_⟩
    have htestsOf : t ∈ testsOf previous id ↔ t ∈ old.tests := by
      simp [testsOf, hold]
    rw [htests, SortedSet.mem_union, Renewal.mem_testsFor, htestsOf, ← or_assoc]
    refine or_congr (or_iff_left_of_imp fun hcarried => hcarried.1) (and_congr_right fun _ => ?_)
    rw [Renewal.reaches_iff]
    simp only [Renewal.mem_recordIds]
  fingerprint hs hget := ((get?_records_next_eq_some h (h.apart hs)).1 hget).2.1
  carried hs hget hcurrent hnot := by
    rw [tests_of_get?_next h hs hget, Renewal.mem_testsFor]
    simp [hcurrent, hnot]
  reachedUnit {unit s _ _} hs hget ht := by
    have howner : renewal.analysis.snapshots.get? (Dependency.unit unit).owner = some s := hs
    rw [tests_of_get?_next h howner hget, Renewal.mem_testsFor_of_refreshed ht,
      Renewal.reaches_unit_iff]
  reachedMember hs hmember hget ht := by
    have hgranularity := granularity_of_get?_next h hs hmember hget
    rw [tests_of_get?_next h hs hget, Renewal.mem_testsFor_of_refreshed ht,
      Renewal.reaches_of_not_isUnit hgranularity hmember]
  current hs hget ht := by
    rw [tests_of_get?_next h hs hget] at ht
    obtain ⟨-, hcurrent, -⟩ | ⟨hrefreshed, -⟩ := Renewal.mem_testsFor.1 ht
    · exact .inl hcurrent
    · exact .inr hrefreshed

end

end Store

/-! ### Updates that fail -/

theorem Storing.of_run_bind_eq_error {α β : Type} {x : Storing α} {f : α → Storing β}
    {d d' : StoreDirectory} {e : Error} (h : (x >>= f).run.run d = (.error e, d')) :
    x.run.run d = (.error e, d') ∨
      ∃ a d₁, x.run.run d = (.ok a, d₁) ∧ (f a).run.run d₁ = (.error e, d') := by
  rw [run_bind] at h
  cases hx : x.run.run d with
  | mk result d₁ =>
    rw [hx] at h
    cases result with
    | error _ =>
      cases h
      exact .inl rfl
    | ok a => exact .inr ⟨a, d₁, rfl, h⟩

theorem StoreDirectory.of_write_eq_error {file : String} {bytes : List UInt8}
    {d d' : StoreDirectory} {e : Error} (h : (write file bytes).run.run d = (.error e, d')) :
    e = .unwritable file := by
  rw [write, Storing.run_get_bind] at h
  split at h
  · cases h
    rfl
  · cases h

theorem of_previousStore_eq_error {selection : Selection} {d d' : StoreDirectory} {e : Error}
    (h : (previousStore selection).run.run d = (.error e, d')) : e = .vanished d.name := by
  rw [previousStore] at h
  split at h
  · cases h
  · rw [Storing.run_get_bind] at h
    split at h
    · cases h
    · cases h
      rfl

/-- **Why an update can fail**: the previous store is gone, or a file cannot be written. -/
theorem of_updateStore_eq_error {settings : Settings} {granularity : Granularity}
    {analysis : Analysis} (hcoherent : analysis.Coherent) {tests : List UnitName}
    {selection : Selection} {d d' : StoreDirectory} {e : Error}
    (h : (updateStore settings granularity analysis tests selection).run.run d = (.error e, d')) :
    e = .vanished d.name ∨ e = .unwritable StoreDirectory.storeFile ∨
      e = .unwritable StoreDirectory.snapshotFile := by
  have hvalid := selection.validate_next hcoherent granularity tests
  rw [updateStore_eq] at h
  obtain h | ⟨previous, d₁, -, h⟩ := Storing.of_run_bind_eq_error h
  · exact .inl (of_previousStore_eq_error h)
  obtain h | ⟨_, d₂, -, h⟩ := Storing.of_run_bind_eq_error h
  · rw [persist_of_valid (hvalid previous)] at h
    obtain h | ⟨_, d₃, -, h⟩ := Storing.of_run_bind_eq_error h
    · exact .inr (.inl (StoreDirectory.of_write_eq_error h))
    · exact .inr (.inr (StoreDirectory.of_write_eq_error h))
  · cases h

/-- **The next store of a build is as it has to be**, whatever the previous one and the tests run
again; and an update never gives up for the sake of a record. -/
theorem Store.exact_next (previous : Store) (build : Build) (settings : Settings)
    (external : List (UnitName × UnitName)) (granularity : Granularity)
    (tests refreshed : SortedSet UnitName) :
    let analysis := build.analyze settings external
    let renewal : Renewal := ⟨analysis, granularity, tests, refreshed⟩
    Exact renewal previous (previous.next renewal) ∧
      (previous.next renewal).validate analysis.knows = .ok () ∧
      ∀ (storeSettings : Settings) (given : List UnitName) (selection : Selection)
        (d d' : StoreDirectory) (count : Nat) (first : Dependency),
        (updateStore storeSettings granularity analysis given selection).run.run d ≠
          (.error (.orphaned count first), d') := by
  intro analysis renewal
  have hcoherent : analysis.Coherent := build.coherent_analyze settings external
  refine ⟨exact_next_of_coherent hcoherent ?_ previous, validate_next hcoherent previous, ?_⟩
  · intro unit s hs slot hslot
    obtain ⟨-, bytes, file, -, -, -, rfl⟩ := Build.exists_ofClass_of_snapshot hs
    exact Snapshot.colon_mem_of_mem_fields hslot
  · intro storeSettings given selection d d' count first hrun
    obtain he | he | he := of_updateStore_eq_error hcoherent hrun <;> cases he

end Retest

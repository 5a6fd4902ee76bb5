import Retest.Proofs.Selection.First
import Retest.Proofs.Selection.Interruption
import Retest.Proofs.Selection.Overriding
import Retest.Proofs.Selection.Unusable
import Retest.Proofs.Store.Damage

/-!
# Records that are lost

Lines of a store that cannot be read are passed over, so a selection may find only a
part of the records that were written. What is lost with a record is the dependency of
its tests, and perhaps the only sign that its unit has changed: a unit without a record
that no longer fits falls silent (`Retest.Store.Silences`).

A reason to select a test goes unheeded (`Retest.Selection.Reason.Unheeded`) if the
record that it rests on is lost, or the unit has fallen silent. If all reasons do, the
test is missed, with two exceptions. A test of a lost record of a member is selected
where the record of the unit still names it and none of another member does, since it
then counts as a test of the unit alone. And a test that no line names any more is not
known, and so it is selected. `Retest.mem_affected_of_damaged` says this of every update
and every damage to the record lines that it wrote.
-/

namespace Retest

/-! ### A part of a store -/

namespace Store

variable {store : Store} {id : Dependency}

/-- **A unit falls silent** if every record of it that no longer fits is lost. -/
def Silences (store left : Store) (build : Build) (unit : UnitName) : Prop :=
  ∀ id : Dependency, id.owner = unit → store.Misfits build id → left.records.get? id = none

namespace Keeps

variable {left : Store} {build : Build} {t unit : UnitName}

theorem mem_testsOf (h : store.Keeps left) (ht : t ∈ Selection.testsOf left id) :
    t ∈ Selection.testsOf store id := by
  obtain ⟨record, hget, ht⟩ := Store.mem_testsOf.1 ht
  exact Store.mem_testsOf.2 ⟨record, h.records hget, ht⟩

/-- A record that is left names the same tests. -/
theorem testsOf_eq (h : store.Keeps left) (hid : left.records.get? id ≠ none) :
    Selection.testsOf left id = Selection.testsOf store id := by
  obtain ⟨record, hget⟩ := Option.ne_none_iff_exists'.1 hid
  rw [Selection.testsOf, Selection.testsOf, hget, h.records hget]

theorem mem_tests (h : store.Keeps left) (ht : t ∈ left.tests) : t ∈ store.tests := by
  rw [tests, SortedSet.mem_union, h.wildcard, h.knownTests, mem_recordTests] at ht
  rw [tests, SortedSet.mem_union, mem_recordTests]
  refine ht.imp_right ?_
  rintro ⟨id, record, hget, ht⟩
  exact ⟨id, record, h.records hget, ht⟩

theorem mem_owners (h : store.Keeps left) (hunit : unit ∈ left.owners) : unit ∈ store.owners := by
  obtain ⟨id, record, hget, howner⟩ := Store.mem_owners.1 hunit
  exact Store.mem_owners.2 ⟨id, record, h.records hget, howner⟩

/-- A record that is left and does not fit did not fit before. -/
theorem misfits_iff (h : store.Keeps left) :
    left.Misfits build id ↔ left.records.get? id ≠ none ∧ store.Misfits build id := by
  constructor
  · rintro ⟨record, hget, hmisfit⟩
    exact ⟨by rw [hget]; nofun, record, h.records hget, hmisfit⟩
  · rintro ⟨hid, record, hget, hmisfit⟩
    obtain ⟨record', hget'⟩ := Option.ne_none_iff_exists'.1 hid
    cases hget.symm.trans (h.records hget')
    exact ⟨record, hget', hmisfit⟩

/-- **A unit is stale still**, unless it has fallen silent. -/
theorem stale_iff (h : store.Keeps left) :
    left.Stale build unit ↔ ¬store.Silences left build unit := by
  constructor
  · rintro ⟨id, howner, hmisfits⟩ hsilent
    obtain ⟨hid, hmisfits⟩ := h.misfits_iff.1 hmisfits
    exact hid (hsilent id howner hmisfits)
  · intro hloud
    simp only [Silences, not_forall] at hloud
    obtain ⟨id, howner, hmisfits, hid⟩ := hloud
    exact ⟨id, howner, h.misfits_iff.2 ⟨hid, hmisfits⟩⟩

end Keeps

end Store

/-! ### Reasons that go unheeded -/

namespace Selection

variable {context : Context} {store left : Store} {build : Build} {t : UnitName} {reason : Reason}

/-- **A reason goes unheeded** when only a part of the store is left. -/
def Reason.Unheeded (context : Context) (store left : Store) (build : Build) (t : UnitName) :
    Reason → Prop
  | unknown | news _ => False
  | record id => store.Silences left build id.owner ∨ left.records.get? id = none ∧
      ¬(bystander id.owner).Holds context left build t
  | bystander unit => store.Silences left build unit ∨ left.records.get? (.unit unit) = none
  | itself => store.Silences left build t
  | hidden unit id => store.Silences left build unit ∨ left.records.get? id = none
  | anything unit => store.Silences left build unit

/-- **A reason that does not go unheeded leaves a reason.** -/
theorem Reason.Holds.exists_of_keeps (hkeeps : store.Keeps left)
    (h : reason.Holds context store build t)
    (hheeded : ¬reason.Unheeded context store left build t) :
    ∃ reason' : Reason, reason'.Holds context left build t := by
  obtain ⟨hnoted, hraised⟩ := h
  cases reason with
  | unknown => exact ⟨.unknown, fun ht => hnoted (hkeeps.mem_tests ht), trivial⟩
  | record id =>
    rw [Unheeded, not_or, ← hkeeps.stale_iff] at hheeded
    by_cases hid : left.records.get? id = none
    · -- the test depends on the unit and on none of the members that are left
      exact ⟨.bystander id.owner, by_contra fun hnone => hheeded.2 ⟨hid, hnone⟩⟩
    · refine ⟨.record id, ⟨?_, hheeded.1, fun hunit => ?_⟩, hraised⟩
      · rw [hkeeps.testsOf_eq hid]
        exact hnoted.1
      · exact hkeeps.misfits_iff.2 ⟨hid, hnoted.2.2 hunit⟩
  | bystander unit =>
    rw [Unheeded, not_or, ← hkeeps.stale_iff] at hheeded
    refine ⟨.bystander unit, ⟨?_, hheeded.1, fun id howner hmember ht => ?_⟩, hraised⟩
    · rw [hkeeps.testsOf_eq hheeded.2]
      exact hnoted.1
    · exact hnoted.2.2 id howner hmember (hkeeps.mem_testsOf ht)
  | itself => exact ⟨.itself, hkeeps.stale_iff.2 hheeded, hraised⟩
  | hidden unit id =>
    rw [Unheeded, not_or, ← hkeeps.stale_iff] at hheeded
    refine ⟨.hidden unit id, ⟨?_, hheeded.1⟩, hraised⟩
    rw [hkeeps.testsOf_eq hheeded.2]
    exact hnoted.1
  | anything unit =>
    exact ⟨.anything unit, ⟨hkeeps.wildcard ▸ hnoted.1, hkeeps.stale_iff.2 hheeded⟩, hraised⟩
  | news unit =>
    refine ⟨.news unit, ⟨hkeeps.wildcard ▸ hnoted.1, fun hunit => ?_⟩, hraised⟩
    exact hnoted.2 (hkeeps.mem_owners hunit)

/-- A reason that goes unheeded does not hold any more. -/
theorem Reason.Unheeded.not_holds (hkeeps : store.Keeps left)
    (h : reason.Unheeded context store left build t) : ¬reason.Holds context left build t := by
  have hlost : ∀ {id : Dependency}, left.records.get? id = none → t ∉ testsOf left id := by
    intro id hid ht
    obtain ⟨record, hget, -⟩ := Store.mem_testsOf.1 ht
    cases hid.symm.trans hget
  rintro ⟨hnoted, -⟩
  cases reason with
  | unknown | news unit => exact h
  | record id =>
    rcases h with hsilent | ⟨hid, -⟩
    · exact hkeeps.stale_iff.1 hnoted.2.1 hsilent
    · exact hlost hid hnoted.1
  | bystander unit =>
    rcases h with hsilent | hid
    · exact hkeeps.stale_iff.1 hnoted.2.1 hsilent
    · exact hlost hid hnoted.1
  | itself => exact hkeeps.stale_iff.1 hnoted h
  | hidden unit id =>
    rcases h with hsilent | hid
    · exact hkeeps.stale_iff.1 hnoted.2 hsilent
    · exact hlost hid hnoted.1
  | anything unit => exact hkeeps.stale_iff.1 hnoted.2 h

/-- **A test that was selected is selected from what is left of the store**, unless the test is
known and all its reasons go unheeded. -/
theorem mem_affected_of_keeps (hkeeps : store.Keeps left)
    (ht : t ∈ (diff context store build).affected) :
    t ∈ (diff context left build).affected ∨ t ∈ left.tests ∧
      ∀ reason : Reason, reason.Holds context store build t →
        reason.Unheeded context store left build t := by
  obtain ⟨hlisted, -⟩ := mem_affected_iff_reason.1 ht
  by_cases hknown : t ∈ left.tests
  · by_cases hall : ∀ reason : Reason, reason.Holds context store build t →
        reason.Unheeded context store left build t
    · exact .inr ⟨hknown, hall⟩
    · simp only [not_forall] at hall
      obtain ⟨reason, hholds, hheeded⟩ := hall
      exact .inl (mem_affected_iff_reason.2 ⟨hlisted, hholds.exists_of_keeps hkeeps hheeded⟩)
  · exact .inl (mem_affected_iff_reason.2 ⟨hlisted, .unknown, hknown, trivial⟩)

end Selection

/-! ### A directory with a damaged store -/

open Selection (Reason)

/-- What a selection compares with, for given snapshots. -/
def Inquiry.context (q : Inquiry) (snapshots : SortedMap UnitName Snapshot) : Selection.Context :=
  ⟨q.settings, q.granularity, snapshots, .ofList q.tests⟩

namespace StoreDirectory

variable {d : StoreDirectory} {store : Store}

/-- The directory when other lines stand after the head of the store. -/
def damage (d : StoreDirectory) (store : Store) (encoding : StoreEncoding) (body : List String) :
    StoreDirectory :=
  d.put storeFile
    (.file (Text.Utf8.encode (Store.closeLines (store.headLines encoding ++ body))))

theorem loadStore_damage (d : StoreDirectory) (store : Store) (encoding : StoreEncoding)
    (body : List String) : (d.damage store encoding body).loadStore =
      Store.parse? (Store.closeLines (store.headLines encoding ++ body)) := by
  simp [damage, loadStore, read?, entry?_put]

example : (damage ⟨"store", none⟩ Store.sampleStore .names []).loadStore =
    some { wildcard := .ofList ["shop.ReflectTest"] } := by
  decide +kernel

theorem loadSnapshots_damage (d : StoreDirectory) (store : Store) (encoding : StoreEncoding)
    (body : List String) : (d.damage store encoding body).loadSnapshots = d.loadSnapshots :=
  loadSnapshots_put

theorem answer_eq_diff (h : d.loadStore = some store) (q : Inquiry) :
    d.answer q = Selection.diff (q.context d.loadSnapshots) store q.build := by
  rw [answer, select, h]
  rfl

end StoreDirectory

variable {settings : Settings} {granularity : Granularity} {analysis : Analysis}
  {tests : List UnitName} {selection : Selection} {d d₁ : StoreDirectory} {summary : UpdateSummary}
  {previous next : Store} {encoding : StoreEncoding} {body : List String}

/-- **A test that is selected from a store is selected from a damaged one**, unless it is known
there and all its reasons go unheeded. For every update that wrote the store, and whatever remains
of its record lines: the records that are left are those whose lines remain. -/
theorem mem_affected_of_damaged (h : analysis.Coherent) (hids : analysis.ReadsBack granularity)
    (htests : ∀ t ∈ tests, Store.IsTestName t)
    (hrun : (updateStore settings granularity analysis tests selection).run.run d =
      (.ok summary, d₁))
    (hprevious : d.previous? selection = some previous)
    (hnext : next = previous.next (selection.renewal analysis granularity tests))
    (hencoding : encoding = settings.encodingFor next.tests.size)
    (hbody : Store.Remains (next.namesIn encoding) (next.recordLines (next.namesIn encoding))
      body) :
    d₁.damage next encoding (next.recordLines (next.namesIn encoding)) = d₁ ∧
      ∃ loaded left, d₁.loadStore = some loaded ∧
        (d₁.damage next encoding body).loadStore = some left ∧ loaded.Keeps left ∧
        (∀ id record, next.records.get? id = some record → left.records.get? id =
          if next.lineFor encoding id record ∈ body then loaded.records.get? id else none) ∧
        ∀ (q : Inquiry) (t : UnitName),
          (t ∈ (d₁.answer q).affected → t ∈ ((d₁.damage next encoding body).answer q).affected ∨
            t ∈ left.tests ∧ ∀ reason : Reason,
              reason.Holds (q.context d₁.loadSnapshots) loaded q.build t →
              reason.Unheeded (q.context d₁.loadSnapshots) loaded left q.build t) ∧
          ∀ reason : Reason, reason.Unheeded (q.context d₁.loadSnapshots) loaded left q.build t →
            ¬reason.Holds (q.context d₁.loadSnapshots) left q.build t := by
  subst hnext hencoding
  obtain ⟨-, -, previous', hprevious', -, rfl⟩ := (updateStore_eq_ok h).1 hrun
  cases hprevious.symm.trans hprevious'
  have hreadable := Selection.readable_next h hids htests hprevious
  obtain ⟨loaded, left, hloaded, hleft, hkeeps, hrecords⟩ := Store.exists_left hreadable hbody
  rw [← StoreDirectory.loadStore_written d settings _ analysis.snapshots.values] at hloaded
  rw [← StoreDirectory.loadStore_damage (d.written settings _ analysis.snapshots.values)] at hleft
  refine ⟨?_, loaded, left, hloaded, hleft, hkeeps, hrecords, fun q t => ⟨fun ht => ?_,
    fun reason hunheeded => hunheeded.not_holds hkeeps⟩⟩
  · refine StoreDirectory.put_eq_self ?_
    rw [StoreDirectory.entry?_storeFile_written, Store.render, Store.lines_eq_headLines_append]
  · rw [StoreDirectory.answer_eq_diff hleft, StoreDirectory.loadSnapshots_damage]
    rw [StoreDirectory.answer_eq_diff hloaded] at ht
    exact Selection.mem_affected_of_keeps hkeeps ht

/-! ### A method whose record is lost -/

theorem previous?_first (tests : SortedSet UnitName) :
    (⟨"store", none⟩ : StoreDirectory).previous? (.first tests) = some {} :=
  rfl

theorem FirstUpdate.readable {build : Build} {store : Store}
    (h : FirstUpdate settings granularity build tests d store) :
    (firstStore settings granularity build tests).Readable :=
  Selection.readable_next (build.coherent_analyze settings []) h.readsBack h.named
    (previous?_first _)

/-- What is read after a first update, if one line is cut off. -/
theorem FirstUpdate.exists_left {build : Build} {store : Store}
    (h : FirstUpdate settings granularity build tests d store) (cut : Dependency)
    (hnext : next = firstStore settings granularity build tests)
    (hencoding : encoding = settings.encodingFor next.tests.size) :
    ∃ left, (d.damage next encoding (next.cutLines encoding cut)).loadStore = some left ∧
      store.Keeps left ∧
      ∀ id, left.records.get? id = if id = cut then none else store.records.get? id := by
  obtain ⟨summary, hrun⟩ := h.run
  obtain ⟨-, -, previous, hprevious, -, hd⟩ :=
    (updateStore_eq_ok (build.coherent_analyze settings [])).1 hrun
  obtain rfl : ({} : Store) = previous :=
    Option.some.inj ((previous?_first _).symm.trans hprevious)
  have hreadable : next.Readable := hnext ▸ h.readable
  obtain ⟨loaded, left, hloaded, hleft, hkeeps, hrecords⟩ :=
    Store.exists_left hreadable (Store.remains_cutLines hreadable encoding cut)
  have hstore : d.loadStore = some loaded := by
    rw [hd, StoreDirectory.loadStore_written, ← hloaded, hencoding, hnext]
    rfl
  obtain rfl : store = loaded := Option.some.inj (h.load.symm.trans hstore)
  refine ⟨left, by rw [StoreDirectory.loadStore_damage, hleft], hkeeps, fun id => ?_⟩
  cases hget : next.records.get? id with
  | some record =>
    rw [hrecords id record hget]
    simp only [Store.lineFor_mem_cutLines hreadable hget, ne_eq, ite_not]
  | none =>
    have hnone : store.records.get? id = none := by rw [h.records, ← hnext, hget]
    have hnone' : left.records.get? id = none := by
      by_contra hne
      obtain ⟨record, hrecord⟩ := Option.ne_none_iff_exists'.1 hne
      cases hnone.symm.trans (hkeeps.records hrecord)
    rw [hnone, hnone', ite_self]

/-- The class without its method. -/
def sampleWithoutMethod : ClassSpec :=
  ClassSpec.addField { name := "shop.Cart" }
    { access := 0x0008, name := "count", descriptor := "I" }

/-- The method. -/
def sampleMethodId : Dependency := .method ⟨"shop.Cart", "total()I"⟩

/-- The field that it reads. -/
def sampleFieldId : Dependency := .field ⟨"shop.Cart", "count", "I"⟩

/-- The store of the sample build. -/
def sampleFirstStore : Store := firstStore {} .member sampleBuild ["shop.CartTest"]

theorem exists_firstUpdate_sampleBuild :
    ∃ d store, FirstUpdate {} .member sampleBuild ["shop.CartTest"] d store :=
  exists_firstUpdate reads_sampleBuild.allRead reads_sampleBuild.readsBack (by decide)

theorem encodingFor_sampleFirstStore :
    StoreEncoding.names = Settings.encodingFor {} sampleFirstStore.tests.size := by
  have htests : sampleFirstStore.tests = .ofList ["shop.CartTest"] :=
    Store.tests_next (sampleBuild.coherent_analyze {} [])
      reads_sampleBuild.allRead.failed_eq_empty fun _ ht => ht
  rw [htests]
  decide

/-- The test reaches the method and the field. -/
theorem reaches_sampleBuild :
    sampleBuild.Reaches {} .member "shop.CartTest" sampleMethodId ∧
      sampleBuild.Reaches {} .member "shop.CartTest" sampleFieldId ∧
      ((sampleBuild.analyze {} []).graph.footprint "shop.CartTest").reflective = false := by
  decide +kernel

theorem fingerprints_sampleBuild :
    ((sampleBuild.analyze {} []).fingerprint? sampleMethodId).isSome = true ∧
      ((sampleBuild.analyze {} []).fingerprint? sampleFieldId).isSome = true ∧
      (buildWith sampleWithoutMethod).fingerprint? sampleMethodId = none := by
  decide +kernel

set_option maxRecDepth 4000 in
theorem decode_sampleWithoutMethod : (ClassFile.decode sampleWithoutMethod.assemble).toOption =
    (ClassFile.decode sampleUnit.assemble).toOption.map
      fun file => { file with methods := [] } := by
  decide +kernel

set_option maxRecDepth 4000 in
theorem changes_sampleWithoutMethod :
    ∀ before ∈ (sampleBuild.analyze {} []).snapshots.get? "shop.Cart",
      ∀ after ∈ (buildWith sampleWithoutMethod).snapshot? "shop.Cart", before.crc ≠ after.crc ∧
        changedMethods before after = .ofList [sampleMethodId] ∧
        ChangeKind.instanceMethodRemoved.occurs before after = true := by
  decide +kernel

/-- A class that loses its methods is as it was in all else. -/
theorem Snapshot.ofClass_without_methods (file : ClassFile) (crc crc' : UInt32) :
    let before := ofClass file crc
    let after := ofClass { file with methods := [] } crc'
    before.superName = after.superName ∧ before.interfaces = after.interfaces ∧
      before.header = after.header ∧ before.fields = after.fields ∧
      addedInstanceMethods before after = ∅ :=
  ⟨rfl, rfl, rfl, rfl, rfl⟩

/-- The class before and after: the method is gone, and all else is as it was. -/
theorem exists_versions_sampleWithoutMethod : ∃ before after,
    (sampleBuild.analyze {} []).snapshots.get? "shop.Cart" = some before ∧
      (buildWith sampleWithoutMethod).snapshot? "shop.Cart" = some after ∧
      before.superName = after.superName ∧ before.interfaces = after.interfaces ∧
      before.header = after.header ∧ before.fields = after.fields ∧
      addedInstanceMethods before after = ∅ := by
  obtain ⟨file, hdecode, hbefore⟩ := Selection.exists_decode_sampleUnit .member
  rw [Selection.snapshots_contextAfterSample] at hbefore
  have hdecode' : ClassFile.decode sampleWithoutMethod.assemble =
      .ok { file with methods := [] } :=
    ClassFile.decode_eq_ok (by rw [decode_sampleWithoutMethod, hdecode]; rfl)
  exact ⟨_, _, hbefore, Build.snapshot?_of_decode (Selection.locate_buildWith _) hdecode',
    Snapshot.ofClass_without_methods file _ _⟩

/-- A change that leaves the parents and the header alone is not one of the whole unit. -/
theorem Selection.Context.escalates_eq_false {context : Context} {unit : UnitName}
    {before after : Snapshot} (hfixture : context.settings.isFixture unit = false)
    (hsuper : before.superName = after.superName)
    (hinterfaces : before.interfaces = after.interfaces) (hheader : before.header = after.header) :
    context.escalates unit (classify before after) = false := by
  rw [escalates, hfixture, Bool.false_and, Bool.or_false, List.any_eq_false]
  intro kind hkind
  have hoccurs := (List.mem_filter.1 hkind).2
  cases kind <;> simp_all [ChangeKind.isConservative, ChangeKind.occurs]

section

variable {store : Store} (h : FirstUpdate {} .member sampleBuild ["shop.CartTest"] d store)

include h

theorem mem_testsOf_sampleMethodId : "shop.CartTest" ∈ Selection.testsOf store sampleMethodId :=
  h.mem_testsOf.2 ⟨List.mem_singleton_self _, reaches_sampleBuild.1, rfl,
    Option.isSome_iff_exists.1 fingerprints_sampleBuild.1⟩

theorem mem_testsOf_sampleFieldId : "shop.CartTest" ∈ Selection.testsOf store sampleFieldId :=
  h.mem_testsOf.2 ⟨List.mem_singleton_self _, reaches_sampleBuild.2.1, by decide,
    Option.isSome_iff_exists.1 fingerprints_sampleBuild.2.1⟩

/-- The record of the method no longer fits. -/
theorem misfits_sampleMethodId : store.Misfits (buildWith sampleWithoutMethod) sampleMethodId := by
  obtain ⟨record, hget, -⟩ := Store.mem_testsOf.1 (mem_testsOf_sampleMethodId h)
  refine ⟨record, hget, ?_⟩
  rw [fingerprints_sampleBuild.2.2]
  nofun

/-- The class is compared: the method has changed, and nothing else. -/
theorem exists_compared_sampleWithoutMethod : ∃ before after,
    ((sampleInquiry (buildWith sampleWithoutMethod)).context d.loadSnapshots).Compared
        (buildWith sampleWithoutMethod) "shop.Cart" before after ∧
      (∀ id, id ∈ Selection.Context.changedIn "shop.Cart" before after ↔
        id = .unit "shop.Cart" ∨ id = sampleMethodId) ∧
      ((sampleInquiry (buildWith sampleWithoutMethod)).context d.loadSnapshots).escalates
        "shop.Cart" (classify before after) = false ∧
      addedInstanceMethods before after = ∅ := by
  obtain ⟨before, after, hbefore, hafter, hsuper, hinterfaces, hheader, hfields, hadded⟩ :=
    exists_versions_sampleWithoutMethod
  obtain ⟨hcrc, hmethods, hremoved⟩ := changes_sampleWithoutMethod before hbefore after hafter
  rw [← h.snapshots] at hbefore
  refine ⟨before, after, ⟨rfl, Selection.Context.sight_eq_known_of_crc hbefore hafter hcrc,
    classify_ne_nil _ hremoved⟩, fun id => ?_, ?_, hadded⟩
  · have hnone : id ∉ changedFields before after := by
      simp [changedFields, hfields]
    rw [Selection.Context.mem_changedIn, hmethods, SortedSet.mem_ofList, List.mem_singleton,
      or_iff_left hnone]
  · have hfixture : Settings.isFixture {} "shop.Cart" = false := by decide +kernel
    exact Selection.Context.escalates_eq_false hfixture hsuper hinterfaces hheader

/-- The test depends on the method. -/
theorem holds_sampleMethodId : (Reason.record sampleMethodId).Holds
    ((sampleInquiry (buildWith sampleWithoutMethod)).context d.loadSnapshots) store
    (buildWith sampleWithoutMethod) "shop.CartTest" := by
  obtain ⟨before, after, hcompared, hchanged, -, -⟩ := exists_compared_sampleWithoutMethod h
  refine ⟨⟨mem_testsOf_sampleMethodId h, ⟨_, rfl, misfits_sampleMethodId h⟩, fun _ =>
    misfits_sampleMethodId h⟩, hcompared.alarmed, fun before' after' hcompared' => ?_⟩
  obtain ⟨rfl, rfl⟩ := hcompared.unique hcompared'
  exact (hchanged sampleMethodId).2 (.inr rfl)

/-- From the store as it was written, the test is selected. -/
theorem mem_affected_sampleWithoutMethod :
    "shop.CartTest" ∈ (d.answer (sampleInquiry (buildWith sampleWithoutMethod))).affected := by
  rw [StoreDirectory.answer_eq_diff h.load]
  exact Selection.mem_affected_iff_reason.2
    ⟨SortedSet.mem_ofList.2 (List.mem_singleton_self _), _, holds_sampleMethodId h⟩

/-- From what is left without the record of the method, there is no reason to select it. -/
theorem not_holds_sampleMethodId {left : Store} (hkeeps : store.Keeps left)
    (hleft : ∀ id, left.records.get? id =
      if id = sampleMethodId then none else store.records.get? id) (reason : Reason) :
    ¬reason.Holds ((sampleInquiry (buildWith sampleWithoutMethod)).context d.loadSnapshots) left
      (buildWith sampleWithoutMethod) "shop.CartTest" := by
  obtain ⟨before, after, hcompared, hchanged, hcalm, hadded⟩ :=
    exists_compared_sampleWithoutMethod h
  have hmethod : "shop.CartTest" ∉ Selection.testsOf left sampleMethodId := by
    rw [Selection.testsOf, hleft, if_pos rfl]
    exact SortedSet.not_mem_empty _
  have hfield : "shop.CartTest" ∈ Selection.testsOf left sampleFieldId := by
    rw [Selection.testsOf, hleft, if_neg (by decide)]
    exact mem_testsOf_sampleFieldId h
  have hwildcard : "shop.CartTest" ∉ left.wildcard := fun hw => by
    rw [hkeeps.wildcard] at hw
    cases reaches_sampleBuild.2.2.symm.trans (h.reflective_of_mem_wildcard hw)
  -- the other units have not changed
  have hstale : ∀ {unit}, left.Stale (buildWith sampleWithoutMethod) unit → unit = "shop.Cart" := by
    intro unit hstale
    by_contra hne
    obtain ⟨id, howner, hmisfits⟩ := hstale
    exact h.not_stale (Selection.locate_buildWith_of_ne hne _ sampleUnit)
      ⟨id, howner, (hkeeps.misfits_iff.1 hmisfits).2⟩
  rintro ⟨hnoted, hraised⟩
  cases reason with
  | unknown => exact hnoted (Store.mem_tests_of_mem_testsOf hfield)
  | record id =>
    obtain ⟨ht, hid, -⟩ := hnoted
    have howner := hstale hid
    have hraised := hraised.2 before after (howner ▸ hcompared)
    rw [howner] at hraised
    split at hraised
    · rcases hraised with hescalates | ⟨hadds, -⟩
      · cases hcalm.symm.trans hescalates
      · exact hadds hadded
    · next hmember =>
      rcases (hchanged id).1 hraised with rfl | rfl
      · exact hmember rfl
      · exact hmethod ht
  | bystander unit =>
    have hunit := hstale hnoted.2.1
    exact hnoted.2.2 sampleFieldId hunit.symm rfl hfield
  | itself =>
    have hunit := hstale hnoted
    exact absurd hunit (by decide)
  | hidden unit id =>
    obtain ⟨before', after', hcompared', hid⟩ := hraised
    rw [hstale hnoted.2] at hcompared'
    obtain ⟨rfl, rfl⟩ := hcompared.unique hcompared'
    obtain ⟨signature, hsignature, -⟩ := Selection.Context.mem_hiddenBy.1 hid
    rw [hadded] at hsignature
    exact SortedSet.not_mem_empty _ hsignature
  | anything unit => exact hwildcard hnoted.1
  | news unit => exact hwildcard hnoted.1

end

/-- If the line of the field is cut off, the test is selected for its method. -/
theorem mem_affected_sampleFieldCut : ∃ d store,
    FirstUpdate {} .member sampleBuild ["shop.CartTest"] d store ∧
      "shop.CartTest" ∈ (d.answer (sampleInquiry (buildWith sampleWithoutMethod))).affected ∧
      "shop.CartTest" ∈ ((d.damage sampleFirstStore .names
        (sampleFirstStore.cutLines .names sampleFieldId)).answer
          (sampleInquiry (buildWith sampleWithoutMethod))).affected := by
  obtain ⟨d, store, h⟩ := exists_firstUpdate_sampleBuild
  obtain ⟨summary, hrun⟩ := h.run
  have hreadable : sampleFirstStore.Readable := h.readable
  obtain ⟨-, loaded, left, hloaded, -, hkeeps, hleft, hanswer⟩ :=
    mem_affected_of_damaged (sampleBuild.coherent_analyze {} []) h.readsBack h.named hrun
      (previous?_first _) (show sampleFirstStore = _ from rfl) encodingFor_sampleFirstStore
      (Store.remains_cutLines hreadable .names sampleFieldId)
  obtain rfl : store = loaded := Option.some.inj (h.load.symm.trans hloaded)
  have hselected := mem_affected_sampleWithoutMethod h
  refine ⟨d, store, h, hselected, ((hanswer _ _).1 hselected).resolve_right ?_⟩
  rintro ⟨-, hall⟩
  -- the record of the method is left, so it is heeded
  obtain ⟨record, hget, hmisfits⟩ := misfits_sampleMethodId h
  have hwritten : sampleFirstStore.records.get? sampleMethodId = some record := by
    rw [← hget, h.records]
    rfl
  have hline : sampleFirstStore.lineFor .names sampleMethodId record ∈
      sampleFirstStore.cutLines .names sampleFieldId :=
    (Store.lineFor_mem_cutLines hreadable hwritten).2 (by decide)
  have hkept : left.records.get? sampleMethodId = some record := by
    rw [hleft _ _ hwritten, if_pos hline, hget]
  rcases hall _ (holds_sampleMethodId h) with hsilent | hlost
  · cases hkept.symm.trans (hsilent _ rfl ⟨record, hget, hmisfits⟩)
  · cases hkept.symm.trans hlost.1

/-- If the line of the method is cut off, the test is missed. -/
theorem not_mem_affected_sampleMethodCut : ∃ d store,
    FirstUpdate {} .member sampleBuild ["shop.CartTest"] d store ∧
      "shop.CartTest" ∈ (d.answer (sampleInquiry (buildWith sampleWithoutMethod))).affected ∧
      "shop.CartTest" ∉ ((d.damage sampleFirstStore .names
        (sampleFirstStore.cutLines .names sampleMethodId)).answer
          (sampleInquiry (buildWith sampleWithoutMethod))).affected := by
  obtain ⟨d, store, h⟩ := exists_firstUpdate_sampleBuild
  obtain ⟨left, hload, hkeeps, hleft⟩ := h.exists_left sampleMethodId
    (show sampleFirstStore = _ from rfl) encodingFor_sampleFirstStore
  refine ⟨d, store, h, mem_affected_sampleWithoutMethod h, fun hmem => ?_⟩
  rw [StoreDirectory.answer_eq_diff hload, StoreDirectory.loadSnapshots_damage] at hmem
  obtain ⟨-, reason, hholds⟩ := Selection.mem_affected_iff_reason.1 hmem
  exact not_holds_sampleMethodId h hkeeps hleft reason hholds

end Retest

import Retest.Proofs.CallGraph.Footprint
import Retest.Proofs.Selection.Diff
import Retest.Proofs.Selection.Run
import Retest.Proofs.Snapshot.Change

/-!
# No test of a changed member is missed

A test that was run again when the store was written, and whose footprint reached
a member, is selected by the next selection if the member has changed since
(`Retest.mem_affected_of_alters`). The member may be gone or have another
fingerprint, or the class file of its unit may be gone or no longer readable.

The footprint is recorded twice: in the record of the member, and in that of its
unit. If the class file is gone or cannot be read, all records of the unit count
as changed, and that of the unit is enough. If it can be read, the record of the
member has to be there and the change has to be noticed; this is where a colon in
the name of a field does harm.
-/

namespace Retest

/-! ### Outcomes that concern a test -/

namespace Selection

theorem Outcome.mem_affected_everything {records : SortedMap Dependency StoreRecord}
    {id : Dependency} {record : StoreRecord} {t : UnitName} (hget : records.get? id = some record)
    (ht : t ∈ record.tests) : t ∈ (Outcome.everything records).affected := by
  refine SortedSet.mem_unions.2 ⟨record.tests, List.mem_map_of_mem ?_, ht⟩
  exact List.mem_map_of_mem (SortedMap.get?_eq_some_iff.1 hget)

namespace Context

variable {context : Context} {build : Build} {unit t : UnitName} {id : Dependency}
  {records : SortedMap Dependency StoreRecord} {record : StoreRecord} {before : Snapshot}

/-- A test of a record of a unit that is gone. -/
theorem mem_affected_of_gone (hget : records.get? id = some record) (ht : t ∈ record.tests)
    (hlocate : build.locate unit = none) : t ∈ (context.outcome build unit records).affected := by
  rw [outcome, hlocate]
  exact Outcome.mem_affected_everything hget ht

/-- A class file with another checksum is looked at. -/
theorem outcome_of_crc {bytes : List UInt8} (hlocate : build.locate unit = some bytes)
    (hbefore : context.snapshots.get? unit = some before)
    (hcrc : before.crc ≠ Digest.Crc32.check bytes) :
    context.outcome build unit records = context.inspect unit records bytes := by
  have hother : context.sameChecksum unit bytes = false := by
    rw [sameChecksum, hbefore]
    simpa using hcrc
  rw [outcome, hlocate]
  simp [hother]

/-- A test of a record of a unit that can no longer be read. -/
theorem mem_affected_of_unreadable (hget : records.get? id = some record) (ht : t ∈ record.tests)
    {bytes : List UInt8} {fault : Fault} (hdecode : ClassFile.decode bytes = .error fault) :
    t ∈ (context.inspect unit records bytes).affected := by
  rw [inspect, Snapshot.decode, hdecode]
  exact Outcome.mem_affected_everything hget ht

theorem mem_changedIn {after : Snapshot} : id ∈ changedIn unit before after ↔
    id = .unit unit ∨ id ∈ changedMethods before after ∨ id ∈ changedFields before after := by
  rw [changedIn, SortedSet.mem_union, SortedSet.mem_union, SortedSet.mem_ofList, List.mem_singleton,
    or_assoc]

/-- A test of a member that has changed. -/
theorem mem_affectedBy (hget : records.get? id = some record) (ht : t ∈ record.tests)
    (hmember : id.isUnit = false) {after : Snapshot} (hchanged : id ∈ changedIn unit before after) :
    t ∈ context.affectedBy unit records before after := by
  have hrecord : ((records.filter fun id _ => !id.isUnit).filter fun id _ =>
      (changedIn unit before after).contains id).get? id = some record := by
    rw [SortedMap.get?_filter_eq_some, SortedMap.get?_filter_eq_some]
    exact ⟨⟨hget, by rw [hmember]; rfl⟩, SortedSet.contains_eq_true.2 hchanged⟩
  refine SortedSet.mem_union.2 (.inl (SortedSet.mem_union.2 (.inl ?_)))
  refine SortedSet.mem_unions.2 ⟨record.tests, List.mem_map_of_mem ?_, ht⟩
  exact List.mem_map_of_mem (SortedMap.get?_eq_some_iff.1 hrecord)

/-- A test of a member with another fingerprint than its record has. -/
theorem mem_affected_of_changed (hgranularity : context.granularity = .member)
    (hbefore : context.snapshots.get? unit = some before) (hget : records.get? id = some record)
    (ht : t ∈ record.tests) (hmember : id.isUnit = false) {bytes : List UInt8} {file : ClassFile}
    (hdecode : ClassFile.decode bytes = .ok file) {after : Snapshot}
    (hafter : after = Snapshot.ofClass file (Digest.Crc32.check bytes))
    (hmismatch : after.fingerprint? id ≠ some record.fingerprint)
    (hkinds : classify before after ≠ []) (hchanged : id ∈ changedIn unit before after) :
    t ∈ (context.inspect unit records bytes).affected := by
  have hinspect : context.inspect unit records bytes = context.compareWith unit records after := by
    rw [inspect, Snapshot.decode, hdecode, hafter]
    rfl
  have hmismatched : (records.filter fun id r =>
      after.fingerprint? id != some r.fingerprint).isEmpty = false := by
    rw [← Bool.not_eq_true, SortedMap.isEmpty_eq_true_iff]
    intro hnone
    have hmem : (records.filter fun id r =>
        after.fingerprint? id != some r.fingerprint).get? id = some record :=
      SortedMap.get?_filter_eq_some.2 ⟨hget, bne_iff_ne.2 hmismatch⟩
    cases (hnone id).symm.trans hmem
  have hnoticed : (classify before after).isEmpty = false := by
    rwa [← Bool.not_eq_true, List.isEmpty_iff]
  have houtcome : context.compareWith unit records after =
      { affected := context.affectedBy unit records before after
        changed := changedIn unit before after
        hidden := context.hiddenBy before after } := by
    simp only [compareWith, hmismatched, hgranularity, hbefore, memberOutcome, hnoticed,
      Bool.false_eq_true, if_false]
  rw [hinspect, houtcome]
  exact mem_affectedBy hget ht hmember hchanged

end Context

end Selection

/-! ### Builds in which a member has changed -/

/-- **A member of a unit has changed** since a snapshot: the class file of the unit is gone, or it
has another checksum and cannot be read, or is read without the member or with another
fingerprint. -/
inductive Build.Alters (build : Build) (unit : UnitName) (before : Snapshot) (m : Dependency) : Prop
  | gone (hlocate : build.locate unit = none)
  | unreadable {bytes : List UInt8} {fault : Fault} (hlocate : build.locate unit = some bytes)
      (hcrc : before.crc ≠ Digest.Crc32.check bytes)
      (hdecode : ClassFile.decode bytes = .error fault)
  | changed {bytes : List UInt8} {file : ClassFile} (hlocate : build.locate unit = some bytes)
      (hcrc : before.crc ≠ Digest.Crc32.check bytes) (hdecode : ClassFile.decode bytes = .ok file)
      (hname : file.name = unit)
      (hchanged : (Snapshot.ofClass file (Digest.Crc32.check bytes)).fingerprint? m ≠
        before.fingerprint? m)

/-- The class file of a unit, if it is there and can be read. -/
def Build.version? (build : Build) (unit : UnitName) : Option ClassFile :=
  (build.locate unit).bind fun bytes => (ClassFile.decode bytes).toOption

/-- A member that can be made out is tracked. -/
theorem ClassFile.Legible.isTracked {old new : ClassFile} {m : Dependency} (h : Legible old new m)
    (hmember : m.isUnit = false) : m.IsTracked .member := by
  cases m with
  | unit name => cases hmember
  | method key => rfl
  | field key => exact ⟨rfl, h.1⟩

theorem Build.version?_eq_some {build : Build} {unit : UnitName} {file : ClassFile} :
    build.version? unit = some file ↔
      ∃ bytes, build.locate unit = some bytes ∧ ClassFile.decode bytes = .ok file := by
  rw [version?, Option.bind_eq_some_iff]
  refine exists_congr fun bytes => and_congr_right fun _ => ?_
  cases ClassFile.decode bytes <;> simp [Except.toOption]

variable {settings : Settings} {external : List (UnitName × UnitName)} {build later : Build}
  {tests testsLater : List UnitName} {selection : Selection} {d d₁ : StoreDirectory}
  {summary : UpdateSummary} {t unit : UnitName} {p : ParsedUnit} {m : Dependency}

/-- **A test that was run again is recorded where its footprint reaches.** -/
theorem StoreDirectory.exists_record_of_update
    (hids : (build.analyze settings external).ReadsBack .member)
    (htests : ∀ t ∈ tests, Store.IsTestName t)
    (hrun : (updateStore settings .member (build.analyze settings external) tests
      selection).run.run d = (.ok summary, d₁))
    (ht : t ∈ selection.refreshed (.ofList tests)) (hp : (unit, p) ∈ build.parsed settings) :
    ∃ loaded, d₁.loadStore = some loaded ∧ ∀ (id : Dependency) f, id.IsTracked .member →
      p.snapshot.fingerprint? id = some f →
      (selection.renewal (build.analyze settings external) .member tests).reaches
        ((build.analyze settings external).graph.footprint t) id = true →
      ∃ tests, (loaded.recordsOf unit).get? id = some ⟨f, tests⟩ ∧ t ∈ tests := by
  have hcoherent := build.coherent_analyze settings external
  obtain ⟨-, previous, loaded, -, hloaded, -, hrecords⟩ :=
    StoreDirectory.loadStore_of_update hcoherent hids htests hrun
  refine ⟨loaded, hloaded, fun id f htracked hf hreach => ?_⟩
  have hs : (build.analyze settings external).snapshots.get? unit = some p.snapshot :=
    Build.get?_snapshots_analyze.2 ⟨p, hp, rfl⟩
  have howner : id.owner = unit := (Snapshot.owner_of_fingerprint? hf).trans (hcoherent.named hs)
  -- the unit was read, so its records are those of the new analysis
  have hread : id.owner ∉ (build.analyze settings external).failed := howner ▸ hcoherent.apart hs
  have hfingerprint : (build.analyze settings external).fingerprint? id = some f :=
    Analysis.fingerprint?_eq_some.2 ⟨p.snapshot, by rwa [howner], hf⟩
  refine ⟨(selection.renewal (build.analyze settings external) .member tests).testsFor previous id,
    Store.get?_recordsOf_eq_some.2 ⟨?_, howner⟩, Store.Renewal.mem_testsFor.2 (.inr ⟨ht, hreach⟩)⟩
  rw [hrecords id hread]
  exact (Selection.get?_records_next_eq_some hcoherent hread).2 ⟨htracked, hfingerprint, rfl⟩

/-- **No test of a changed member is missed.** -/
theorem mem_affected_of_alters
    (hids : (build.analyze settings external).ReadsBack .member)
    (htests : ∀ t ∈ tests, Store.IsTestName t)
    (hrun : (updateStore settings .member (build.analyze settings external) tests
      selection).run.run d = (.ok summary, d₁))
    (ht : t ∈ selection.refreshed (.ofList tests)) (htlater : t ∈ testsLater)
    (hp : (unit, p) ∈ build.parsed settings) (hm : m ∈ p.file.members)
    (hreach : ((build.analyze settings external).graph.footprint t).contains
      (build.analyze settings external).graph m = true)
    (hold : p.file.WellDeclared)
    (hnew : ∀ file ∈ later.version? unit, file.WellDeclared ∧ p.file.Legible file m)
    (halters : later.Alters unit p.snapshot m) :
    t ∈ (d₁.select settings .member later testsLater).affected := by
  obtain ⟨bytes₀, -, -, hname, hsnapshot⟩ := Build.of_parse (Build.mem_parsed.1 hp).2
  have hunit : p.snapshot.name = unit := by rw [hsnapshot, Snapshot.name_ofClass, hname]
  have howner : m.owner = unit := (ClassFile.owner_of_mem_members hm).trans hname
  have hbefore : d₁.loadSnapshots.get? unit = some p.snapshot := by
    rw [(StoreDirectory.loadStore_of_update (build.coherent_analyze settings external) hids htests
      hrun).1]
    exact Build.get?_snapshots_analyze.2 ⟨p, hp, rfl⟩
  obtain ⟨loaded, hloaded, hrecords⟩ :=
    StoreDirectory.exists_record_of_update hids htests hrun ht hp
  -- the record of the unit, which is enough unless its class file can be read
  obtain ⟨unitTests, hunitRecord, hunitTests⟩ := hrecords (.unit unit) p.snapshot.whole trivial
    (Snapshot.fingerprint?_unit hunit.symm)
    (SortedSet.contains_eq_true.2
      (howner ▸ Footprint.owner_mem_units (Footprint.mem_dependencies_of_contains hreach)))
  rw [StoreDirectory.select, hloaded]
  refine Selection.mem_affected_diff.2 ⟨SortedSet.mem_ofList.2 htlater, .inl ⟨unit, ?_, ?_⟩⟩
  · obtain ⟨hget, -⟩ := Store.get?_recordsOf_eq_some.1 hunitRecord
    exact Store.mem_owners.2 ⟨_, _, hget, rfl⟩
  rw [Selection.outcomeOf]
  cases halters with
  | gone hlocate => exact Selection.Context.mem_affected_of_gone hunitRecord hunitTests hlocate
  | unreadable hlocate hcrc hdecode =>
    rw [Selection.Context.outcome_of_crc hlocate hbefore hcrc]
    exact Selection.Context.mem_affected_of_unreadable hunitRecord hunitTests hdecode
  | @changed bytes file hlocate hcrc hdecode hfile hchanged =>
    obtain ⟨hdeclared, hlegible⟩ := hnew file (Build.version?_eq_some.2 ⟨bytes, hlocate, hdecode⟩)
    rw [hsnapshot] at hchanged
    obtain ⟨hkinds, hmem⟩ := ClassFile.mem_changed _ _ hold hdeclared (hfile.trans hname.symm) hm
      hlegible hchanged
    have hmember := ClassFile.isUnit_of_mem_members hm
    obtain ⟨f, hf⟩ := ClassFile.exists_fingerprint? (Digest.Crc32.check bytes₀) hm
    obtain ⟨memberTests, hrecord, hmemberTests⟩ := hrecords m f (hlegible.isTracked hmember)
      (hsnapshot ▸ hf) ((Store.Renewal.reaches_of_not_isUnit rfl hmember).2
        (Footprint.mem_dependencies_of_contains hreach))
    rw [Selection.Context.outcome_of_crc hlocate hbefore hcrc]
    refine Selection.Context.mem_affected_of_changed rfl hbefore hrecord hmemberTests hmember
      hdecode
      rfl (hf ▸ hchanged) (hsnapshot ▸ hkinds) ?_
    rw [Selection.Context.mem_changedIn, hsnapshot]
    exact .inr hmem

/-- The field of the class is gone, and its method returns a number. -/
def sampleWithoutField : ClassSpec :=
  ClassSpec.addMethod { name := "shop.Cart" }
    { access := 0x0001, name := "total", descriptor := "()I", code := some [.iconst 3, .ireturn] }

set_option maxRecDepth 4000 in
theorem check_sampleUnit_ne : Digest.Crc32.check sampleUnit.assemble ≠
    Digest.Crc32.check sampleWithoutField.assemble := by decide +kernel

/-- After a first run, a field that the test reads through a method disappears: the test is
selected. -/
theorem mem_affected_sampleWithoutField : ∃ summary d₁,
    (updateStore {} .member (sampleBuild.analyze {} []) ["shop.CartTest"]
      (.first (.ofList ["shop.CartTest"]))).run.run ⟨"store", none⟩ = (.ok summary, d₁) ∧
    "shop.CartTest" ∈
      (d₁.select {} .member (buildWith sampleWithoutField) ["shop.CartTest"]).affected := by
  have hrun : ∃ summary d₁, (updateStore {} .member (sampleBuild.analyze {} []) ["shop.CartTest"]
      (.first (.ofList ["shop.CartTest"]))).run.run ⟨"store", none⟩ = (.ok summary, d₁) :=
    ⟨_, _, (updateStore_eq_ok (sampleBuild.coherent_analyze {} [])).2
      ⟨by decide, by decide, {}, rfl, rfl, rfl⟩⟩
  obtain ⟨summary, d₁, hrun⟩ := hrun
  refine ⟨summary, d₁, hrun, ?_⟩
  obtain ⟨p, hp⟩ : ∃ p, sampleBuild.parse "shop.Cart" = .ok p := by
    have hall : sampleBuild.AllRead {} := by decide +kernel
    exact hall _ (by decide +kernel)
  obtain ⟨bytes, hlocate, hdecode, hname, hsnapshot⟩ := Build.of_parse hp
  obtain ⟨later, hlater⟩ :
      ∃ later, (buildWith sampleWithoutField).version? "shop.Cart" = some later :=
    Option.isSome_iff_exists.1 (by decide +kernel)
  obtain ⟨bytes', hlocate', hdecode'⟩ := Build.version?_eq_some.1 hlater
  -- the two versions of the class
  have hold : ∀ file ∈ sampleBuild.version? "shop.Cart",
      file.WellDeclared ∧ .field ⟨"shop.Cart", "count", "I"⟩ ∈ file.members := by decide +kernel
  have hnew : ∀ file ∈ (buildWith sampleWithoutField).version? "shop.Cart",
      file.WellDeclared ∧ file.name = "shop.Cart" ∧ file.fields = [] := by decide +kernel
  obtain ⟨hdeclared, hm⟩ := hold p.file (Build.version?_eq_some.2 ⟨bytes, hlocate, hdecode⟩)
  obtain ⟨hdeclared', hname', hfields⟩ := hnew later hlater
  refine mem_affected_of_alters (by decide +kernel) (by decide) hrun (by decide) (by decide)
    (Build.mem_parsed.2 ⟨by decide +kernel, hp⟩) hm (by decide +kernel) hdeclared ?_ ?_
  · intro file hfile
    obtain rfl : later = file := Option.some.inj (hlater.symm.trans hfile)
    refine ⟨hdeclared', by decide, ?_⟩
    simp [hfields]
  · refine .changed hlocate' ?_ hdecode' hname' ?_
    · rw [hsnapshot, Snapshot.crc_ofClass]
      cases hlocate
      cases hlocate'
      exact check_sampleUnit_ne
    · obtain ⟨f, hf⟩ := ClassFile.exists_fingerprint? (Digest.Crc32.check bytes) hm
      rw [hsnapshot, hf, Snapshot.fingerprint?_field hname'.symm]
      intro h
      obtain ⟨field, hfield, -⟩ := Snapshot.exists_of_get?_slots h
      rw [hfields] at hfield
      cases hfield

end Retest

import Retest.Proofs.Selection.Reasons

/-!
# Units that cannot be used

The class file of a unit can fail in three ways: it is not there, it cannot be
read, or it declares another unit (`Retest.Build.unusable_iff`). An analysis leaves
such a unit out. A selection is to take all tests that have a record of it, since
none of its records fits any more (`Retest.Store.misfits_of_unusable`).

It does so wherever there is nothing to compare: if the class file is not there or
cannot be read, or if there is no snapshot. A class file that declares another unit
is still compared with the snapshot, and the comparison does not look at names
(`Retest.Snapshot.Renames.classify_eq_nil`). `Retest.Selection.mem_affected_of_unusable`
says which tests are taken then: those for which the difference is noticed
(`Retest.Selection.Context.Notices`).
-/

namespace Retest

theorem ClassFile.decode_eq_ok {bytes : List UInt8} {file : ClassFile}
    (h : (decode bytes).toOption = some file) : decode bytes = .ok file := by
  cases hdecode : decode bytes with
  | error fault => rw [hdecode] at h; cases h
  | ok file' => rw [hdecode] at h; cases h; rfl

namespace Build

variable {build : Build} {unit : UnitName} {id : Dependency}

/-- **A unit is unusable** if no class file can be read that declares it. -/
def Unusable (build : Build) (unit : UnitName) : Prop := ∀ p, build.parse unit ≠ .ok p

instance : Decidable (build.Unusable unit) :=
  match h : build.parse unit with
  | .ok p => isFalse fun hunusable => hunusable p h
  | .error _ => isTrue fun p hp => by cases h.symm.trans hp

/-- **The three ways in which a unit is unusable.** -/
theorem unusable_iff : build.Unusable unit ↔ build.locate unit = none ∨
    ∃ bytes, build.locate unit = some bytes ∧
      ((∃ fault, ClassFile.decode bytes = .error fault) ∨
        ∃ file, ClassFile.decode bytes = .ok file ∧ file.name ≠ unit) := by
  rw [Unusable, parse]
  cases build.locate unit with
  | none => simp
  | some bytes =>
    simp only [parseBytes, Snapshot.decode, Option.some.injEq, reduceCtorEq, false_or,
      exists_eq_left']
    cases ClassFile.decode bytes with
    | error fault => simp [bind, Except.bind]
    | ok file =>
      by_cases hname : file.name = unit <;> simp [bind, Except.bind, pure, Except.pure, hname]

example : (Build.ofMap (.ofList [("shop.Cart", [0xca, 0xfe])])).Unusable "shop.Cart" := by
  decide +kernel

/-- The class file of an unusable unit, if it can be read, declares another one. -/
theorem Unusable.name_ne (h : build.Unusable unit) {after : Snapshot}
    (hafter : build.snapshot? unit = some after) : after.name ≠ unit := by
  obtain ⟨bytes, hlocate, hdecode⟩ := Option.bind_eq_some_iff.1 hafter
  rw [Snapshot.decode] at hdecode
  rcases unusable_iff.1 h with hnone | ⟨bytes', hlocate', ⟨fault, hfault⟩ | ⟨file, hfile, hname⟩⟩
  · cases hnone.symm.trans hlocate
  · cases hlocate'.symm.trans hlocate
    rw [hfault] at hdecode
    cases hdecode
  · cases hlocate'.symm.trans hlocate
    rw [hfile] at hdecode
    cases hdecode
    rwa [Snapshot.name_ofClass]

/-- Its dependencies have no fingerprints. -/
theorem Unusable.fingerprint?_eq_none (h : build.Unusable id.owner) :
    build.fingerprint? id = none := by
  rw [fingerprint?, Option.bind_eq_none_iff]
  intro after hafter
  exact if_pos (h.name_ne hafter).symm

end Build

/-- **No record of an unusable unit fits.** -/
theorem Store.misfits_of_unusable {store : Store} {build : Build} {id : Dependency}
    {record : StoreRecord} (hget : store.records.get? id = some record)
    (h : build.Unusable id.owner) : store.Misfits build id := by
  refine ⟨record, hget, ?_⟩
  rw [h.fingerprint?_eq_none]
  nofun

/-! ### What a comparison does not look at -/

theorem MethodDiff.between_self (m : SortedMap Signature Fingerprint) : between m m = {} := by
  have hnone : leftOver m m = [] := by
    refine List.filter_eq_nil_iff.2 fun e he => ?_
    simp [SortedMap.get?_eq_some_iff.2 he]
  rw [between, hnone]
  rfl

namespace Snapshot

variable {before after : Snapshot}

theorem extraDeclarations_self (s : Snapshot) : s.extraDeclarations s = ∅ :=
  SortedSet.eq_empty_of_forall fun _ hd => (SortedSet.mem_diff.1 hd).2 (SortedSet.mem_diff.1 hd).1

/-- **A snapshot shows no change against itself.** -/
theorem classify_self (s : Snapshot) : classify s s = [] := by
  have hfields : s.retagsField s = false := by
    refine List.any_eq_false.2 fun e he => ?_
    simp [SortedMap.get?_eq_some_iff.2 he]
  have hheaders {α : Type} [BEq α] [LawfulBEq α] (part : MethodHeader → α) :
      s.changesHeader part s = false := by
    refine List.any_eq_false.2 fun e he => ?_
    simp [SortedMap.get?_eq_some_iff.2 he]
  refine List.filter_eq_nil_iff.2 fun kind _ => ?_
  cases kind <;>
    simp [ChangeKind.occurs, ChangeKind.occurs.instanceDiff, ChangeKind.occurs.staticDiff,
      extraDeclarations_self, MethodDiff.between_self, hfields, hheaders]

theorem equivalent_self (s : Snapshot) (isFixture inHierarchy : Bool) :
    equivalent s s isFixture inHierarchy = true := by
  simp [equivalent, MethodDiff.between_self, MethodDiff.isEmpty, extraDeclarations_self]

/-- **Two snapshots differ in the name of the unit only**, and in the checksum and the fingerprint
of the whole, which go with it. -/
def Renames (before after : Snapshot) : Prop :=
  after = { before with name := after.name, crc := after.crc, whole := after.whole }

/-- **No change is seen where only the name differs.** -/
theorem Renames.classify_eq_nil (h : before.Renames after) : classify before after = [] := by
  rw [Renames] at h
  have hoccurs : ChangeKind.occurs before after = ChangeKind.occurs before before := by
    funext kind
    rw [h]
    cases kind <;> rfl
  rw [classify, hoccurs]
  exact classify_self before

theorem Renames.equivalent_eq_true (h : before.Renames after) (isFixture inHierarchy : Bool) :
    equivalent before after isFixture inHierarchy = true := by
  rw [Renames] at h
  rw [h]
  exact equivalent_self before isFixture inHierarchy

/-- A class file that declares another unit, and is the same else, has such a snapshot. -/
theorem renames_ofClass (file : ClassFile) (name : UnitName) (crc crc' : UInt32) :
    (ofClass file crc).Renames (ofClass { file with name } crc') := rfl

end Snapshot

namespace Selection

/-- **The difference of a unit to its snapshot is noticed** for a test: with records for whole
units, if the two are not equivalent; with records for members, if there is a change that concerns
the test. -/
def Context.Notices (context : Context) (store : Store) (unit t : UnitName)
    (before after : Snapshot) : Prop :=
  match context.granularity with
  | .unit =>
    equivalent before after (context.settings.isFixture unit) (context.inHierarchy after) = false
  | .member => classify before after ≠ [] ∧
      t ∈ context.affectedBy unit (store.recordsOf unit) before after

section

variable {context : Context} {build : Build} {store : Store} {t : UnitName} {id : Dependency}
  {before after : Snapshot}

/-- A store notes all its records of an unusable unit. -/
theorem Reason.noted_of_unusable (granularity : Granularity) (ht : t ∈ testsOf store id)
    (h : build.Unusable id.owner) : (Reason.record id).Noted granularity store build t := by
  obtain ⟨record, hget, -⟩ := Store.mem_testsOf.1 ht
  have hmisfits := Store.misfits_of_unusable hget h
  exact ⟨ht, ⟨id, rfl, hmisfits⟩, fun _ => hmisfits⟩

/-- A class file with another checksum than its snapshot does not look the same. -/
theorem Context.sight_ne_same {unit : UnitName}
    (h : ∀ bytes ∈ build.locate unit, ∀ s ∈ context.snapshots.get? unit,
      s.crc ≠ Digest.Crc32.check bytes) : context.sight build unit ≠ .same := by
  rw [sight]
  cases hlocate : build.locate unit with
  | none => simp
  | some bytes =>
    have hother : context.sameChecksum unit bytes = false := by
      rw [sameChecksum, Option.any_eq_false]
      intro s hs
      simpa using h bytes hlocate s hs
    dsimp only
    rw [if_neg (by simp [hother])]
    cases Snapshot.decode bytes <;> cases context.snapshots.get? unit <;> simp

/-- Where there is nothing to compare, all tests of an unusable unit are concerned. -/
theorem mem_affected_of_not_known (ht : t ∈ context.tests) (hrecord : t ∈ testsOf store id)
    (hunusable : build.Unusable id.owner) (hsame : context.sight build id.owner ≠ .same)
    (hknown : ∀ before after, context.sight build id.owner ≠ .known before after) :
    t ∈ (diff context store build).affected := by
  refine mem_affected_iff_reason.2 ⟨ht, .record id,
    Reason.noted_of_unusable _ hrecord hunusable, ?_,
    fun before after hcompared => absurd hcompared.sight (hknown before after)⟩
  rw [Context.Alarmed]
  cases hsight : context.sight build id.owner with
  | same => exact absurd hsight hsame
  | known before after => exact absurd hsight (hknown before after)
  | gone | unreadable | strange after => trivial

/-- Where there is something to compare, those for which the difference is noticed. -/
theorem mem_affected_outcomeOf_iff_notices (ht : t ∈ context.tests) (hrecord : t ∈ testsOf store id)
    (hunusable : build.Unusable id.owner)
    (hknown : context.sight build id.owner = .known before after) :
    t ∈ (outcomeOf context store build id.owner).affected ↔
      context.Notices store id.owner t before after := by
  have hnoted := Reason.noted_of_unusable context.granularity hrecord hunusable
  have hunit := hnoted.2.1.mem_owners
  have hcalm (hquiet : ¬context.Alarmed build id.owner) :
      t ∉ (outcomeOf context store build id.owner).affected := by
    rw [outcomeOf_of_calm hunit fun h => hquiet h.1]
    exact SortedSet.not_mem_empty t
  cases hgranularity : context.granularity with
  | unit =>
    have halarmed : context.Alarmed build id.owner ↔
        context.Notices store id.owner t before after := by
      rw [Context.Alarmed, Context.Notices, hknown, hgranularity]
    rw [← halarmed]
    refine ⟨not_imp_not.1 hcalm, fun h => (mem_affected_outcomeOf hunit ht).2 (.inl ⟨id, rfl,
      hnoted, h, fun _ _ hcompared => ?_⟩)⟩
    cases hgranularity.symm.trans hcompared.granularity
  | member =>
    have halarmed : context.Alarmed build id.owner ↔ classify before after ≠ [] := by
      rw [Context.Alarmed, hknown, hgranularity]
    rw [Context.Notices, hgranularity]
    by_cases hkinds : classify before after = []
    · exact iff_of_false (hcalm (halarmed.not.2 (not_not.2 hkinds))) fun h => h.1 hkinds
    · rw [outcomeOf_of_compared ⟨hgranularity, hknown, hkinds⟩ hnoted.2.1]
      exact (and_iff_right hkinds).symm

/-- **A class file under another name goes unnoticed**, if it is the same else. -/
theorem outcomeOf_of_renames {unit : UnitName} (hunit : unit ∈ store.owners)
    (hknown : context.sight build unit = .known before after) (hrenames : before.Renames after) :
    outcomeOf context store build unit = {} := by
  refine outcomeOf_of_calm hunit fun h => ?_
  have halarmed := h.1
  rw [Context.Alarmed, hknown] at halarmed
  dsimp only at halarmed
  cases hgranularity : context.granularity with
  | unit =>
    rw [hgranularity] at halarmed
    cases (hrenames.equivalent_eq_true _ _).symm.trans halarmed
  | member =>
    rw [hgranularity] at halarmed
    exact halarmed hrenames.classify_eq_nil

/-- **The tests of an unusable unit are selected, unless it is compared and no difference is
noticed.** If its class file is not there or cannot be read, or if there is no snapshot, all of them
are selected. Else the class file declares another unit, and the outcome concerns a test exactly if
the difference to the snapshot is noticed for it. -/
theorem mem_affected_of_unusable (ht : t ∈ context.tests) (hrecord : t ∈ testsOf store id)
    (hunusable : build.Unusable id.owner)
    (hother : ∀ bytes ∈ build.locate id.owner, ∀ s ∈ context.snapshots.get? id.owner,
      s.crc ≠ Digest.Crc32.check bytes) :
    (build.snapshot? id.owner = none ∨ context.snapshots.get? id.owner = none →
        t ∈ (diff context store build).affected) ∧
      ∀ before after, context.snapshots.get? id.owner = some before →
        build.snapshot? id.owner = some after →
        after.name ≠ id.owner ∧
          (t ∈ (outcomeOf context store build id.owner).affected ↔
            context.Notices store id.owner t before after) ∧
          (context.Notices store id.owner t before after →
            t ∈ (diff context store build).affected) := by
  have hof := context.of_sight build id.owner
  have hsame := Context.sight_ne_same hother
  constructor
  · intro hnone
    refine mem_affected_of_not_known ht hrecord hunusable hsame fun before after hknown => ?_
    rw [hknown] at hof
    rcases hnone with h | h
    · cases h.symm.trans hof.1
    · cases h.symm.trans hof.2
  · intro before after hbefore hafter
    have hknown : context.sight build id.owner = .known before after := by
      cases hsight : context.sight build id.owner with
      | same => exact absurd hsight hsame
      | gone | unreadable =>
        rw [hsight] at hof
        cases hof.symm.trans hafter
      | strange after' =>
        rw [hsight] at hof
        cases hof.2.symm.trans hbefore
      | known before' after' =>
        rw [hsight] at hof
        cases hof.1.symm.trans hafter
        cases hof.2.symm.trans hbefore
        rfl
    have hiff := mem_affected_outcomeOf_iff_notices ht hrecord hunusable hknown
    have hunit : id.owner ∈ store.owners :=
      (Reason.noted_of_unusable context.granularity hrecord hunusable).2.1.mem_owners
    exact ⟨hunusable.name_ne hafter, hiff, fun h =>
      mem_affected_diff.2 ⟨ht, .inl ⟨id.owner, hunit, hiff.2 h⟩⟩⟩

end

/-! ### A class file under another name -/

/-- What is known after a selection of the sample build. -/
def contextAfterSample (granularity : Granularity) : Context :=
  ⟨{}, granularity, (sampleBuild.analyze {} []).snapshots, .ofList ["shop.CartTest"]⟩

theorem snapshots_contextAfterSample (granularity : Granularity) :
    (contextAfterSample granularity).snapshots = (sampleBuild.analyze {} []).snapshots := by
  rw [contextAfterSample]

/-- The test depends on the class. -/
def sampleCartStore : Store where
  records := .ofList [(.unit "shop.Cart", ⟨⟨"0a"⟩, .ofList ["shop.CartTest"]⟩)]

/-- The class under another name. -/
def sampleBasket : ClassSpec := { sampleUnit with name := "shop.Basket" }

/-- The class under another name, and with another method. -/
def sampleOtherBasket : ClassSpec :=
  sampleBasket.addMethod
    { access := 0x0001, name := "left", descriptor := "()I", code := some [.iconst 3, .ireturn] }

theorem locate_buildWith (spec : ClassSpec) :
    (buildWith spec).locate "shop.Cart" = some spec.assemble := by
  refine (SortedMap.get?_ofList _ _).trans ?_
  simp [SortedMap.lastValue?]

theorem locate_buildWith_of_ne {unit : UnitName} (h : unit ≠ "shop.Cart") (spec other : ClassSpec) :
    (buildWith spec).locate unit = (buildWith other).locate unit := by
  refine (SortedMap.get?_ofList _ _).trans (.trans ?_ (SortedMap.get?_ofList _ _).symm)
  simp [SortedMap.lastValue?, List.find?_cons, h]

theorem eq_unit_of_get?_sampleCartStore {id : Dependency} {record : StoreRecord}
    (h : sampleCartStore.records.get? id = some record) : id = .unit "shop.Cart" := by
  have hmem := SortedMap.mem_of_get?_ofList h
  cases List.mem_singleton.1 hmem
  rfl

theorem exists_decode_sampleUnit (granularity : Granularity) :
    ∃ file, ClassFile.decode sampleUnit.assemble = .ok file ∧
      (contextAfterSample granularity).snapshots.get? "shop.Cart" =
        some (.ofClass file (Digest.Crc32.check sampleUnit.assemble)) := by
  have hall : sampleBuild.AllRead {} := by decide +kernel
  obtain ⟨p, hp⟩ := hall "shop.Cart" (by decide +kernel)
  obtain ⟨bytes, hlocate, hdecode, -, hsnapshot⟩ := Build.of_parse hp
  obtain rfl : sampleUnit.assemble = bytes :=
    Option.some.inj ((locate_buildWith sampleUnit).symm.trans hlocate)
  refine ⟨p.file, hdecode, ?_⟩
  rw [snapshots_contextAfterSample, ← hsnapshot]
  exact Build.get?_snapshots_analyze.2 ⟨p, Build.mem_parsed.2 ⟨by decide +kernel, hp⟩, rfl⟩

set_option maxRecDepth 4000 in
theorem decode_sampleBasket : (ClassFile.decode sampleBasket.assemble).toOption =
    (ClassFile.decode sampleUnit.assemble).toOption.map
      fun file => { file with name := "shop.Basket" } := by
  decide +kernel

set_option maxRecDepth 4000 in
theorem check_sampleBasket :
    Digest.Crc32.check sampleUnit.assemble ≠ Digest.Crc32.check sampleBasket.assemble ∧
      Digest.Crc32.check sampleUnit.assemble ≠ Digest.Crc32.check sampleOtherBasket.assemble := by
  decide +kernel

theorem unusable_sampleBasket : (buildWith sampleBasket).Unusable "shop.Cart" ∧
    (buildWith sampleOtherBasket).Unusable "shop.Cart" := by
  decide +kernel

/-- The checksum of a class file is not that of its snapshot. -/
theorem crc_ne_check_sample {spec : ClassSpec} {granularity : Granularity}
    (h : Digest.Crc32.check sampleUnit.assemble ≠ Digest.Crc32.check spec.assemble) :
    ∀ bytes ∈ (buildWith spec).locate "shop.Cart",
      ∀ s ∈ (contextAfterSample granularity).snapshots.get? "shop.Cart",
        s.crc ≠ Digest.Crc32.check bytes := by
  obtain ⟨file, -, hbefore⟩ := exists_decode_sampleUnit granularity
  intro bytes hbytes s hs
  rw [← Option.some.inj ((locate_buildWith spec).symm.trans hbytes),
    ← Option.some.inj (hbefore.symm.trans hs)]
  exact h

/-- With a new method, the class is noticed under its other name. -/
theorem mem_affected_sampleOtherBasket : (buildWith sampleOtherBasket).Unusable "shop.Cart" ∧
    "shop.CartTest" ∈ (diff (contextAfterSample .member) sampleCartStore
      (buildWith sampleOtherBasket)).affected := by
  obtain ⟨file, -, hbefore⟩ := exists_decode_sampleUnit .member
  obtain ⟨after, hafter⟩ : ∃ after,
      (buildWith sampleOtherBasket).snapshot? "shop.Cart" = some after :=
    Option.isSome_iff_exists.1 (by decide +kernel)
  have ht : "shop.CartTest" ∈ (contextAfterSample .member).tests := by decide
  have hrecord : "shop.CartTest" ∈ testsOf sampleCartStore (.unit "shop.Cart") := by decide
  obtain ⟨-, hknown⟩ := mem_affected_of_unusable ht hrecord unusable_sampleBasket.2
    (crc_ne_check_sample check_sampleBasket.2)
  have hadded : ∀ before ∈ (contextAfterSample .member).snapshots.get? "shop.Cart",
      ∀ after ∈ (buildWith sampleOtherBasket).snapshot? "shop.Cart",
        "left()I" ∈ addedInstanceMethods before after := by
    decide +kernel
  refine ⟨unusable_sampleBasket.2, (hknown _ after hbefore hafter).2.2 ⟨?_, ?_⟩⟩
  · exact classify_ne_nil_of_added (hadded _ hbefore after hafter)
  · -- the test has no record of a member
    refine Context.mem_affectedBy_iff.2 (.inr (.inl ⟨hrecord, fun id _ hmember hid => ?_⟩))
    obtain ⟨record, hget, -⟩ := Store.mem_testsOf.1 hid
    rw [eq_unit_of_get?_sampleCartStore hget] at hmember
    cases hmember

/-- The class under another name goes unnoticed, with records for whole units and with records for
members. -/
theorem not_mem_affected_sampleBasket : (buildWith sampleBasket).Unusable "shop.Cart" ∧
    "shop.CartTest" ∈ testsOf sampleCartStore (.unit "shop.Cart") ∧
    ∀ granularity, "shop.CartTest" ∈ (contextAfterSample granularity).tests ∧
      (∀ bytes ∈ (buildWith sampleBasket).locate "shop.Cart",
        ∀ s ∈ (contextAfterSample granularity).snapshots.get? "shop.Cart",
          s.crc ≠ Digest.Crc32.check bytes) ∧
      "shop.CartTest" ∉ (diff (contextAfterSample granularity) sampleCartStore
        (buildWith sampleBasket)).affected := by
  refine ⟨unusable_sampleBasket.1, by decide, fun granularity =>
    ⟨SortedSet.mem_ofList.2 (by decide), crc_ne_check_sample check_sampleBasket.1, fun hmem => ?_⟩⟩
  obtain ⟨file, hdecode, hbefore⟩ := exists_decode_sampleUnit granularity
  have hdecode' : ClassFile.decode sampleBasket.assemble =
      .ok { file with name := "shop.Basket" } :=
    ClassFile.decode_eq_ok (by rw [decode_sampleBasket, hdecode]; rfl)
  have hquiet : ∀ unit ∈ sampleCartStore.owners, outcomeOf (contextAfterSample granularity)
      sampleCartStore (buildWith sampleBasket) unit = {} := by
    intro unit hunit
    obtain ⟨id, record, hget, rfl⟩ := Store.mem_owners.1 hunit
    rw [eq_unit_of_get?_sampleCartStore hget] at hunit ⊢
    exact outcomeOf_of_renames hunit (Context.sight_eq_known (locate_buildWith _) hbefore
      check_sampleBasket.1 hdecode' rfl) (Snapshot.renames_ofClass file _ _ _)
  rcases of_mem_affected_of_quiet hquiet hmem with ⟨-, hwildcard⟩ | hunknown
  · exact absurd hwildcard (by decide)
  · exact hunknown (by decide)

end Selection

end Retest

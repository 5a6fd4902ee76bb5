import Retest.Proofs.Selection.Fixpoint
import Retest.Proofs.Selection.LostRecords

/-!
# Tests that may depend on anything

A test that uses reflection may depend on anything, so it is selected as soon as anything
has changed. What counts as a change is narrower than what moves the fingerprint of a
record: a class file that can be read and has a snapshot is compared with it, and where the
comparison tolerates the difference (`Retest.Selection.Context.Tolerates`) nothing has
changed for anyone. With records for whole units this is so for fields that are added or
removed and for many new methods, with records for members where no kind of change is seen.

`Retest.Selection.mem_affected_iff_of_wildcard` says that this is the only exception: such a
test is selected exactly if a record has moved and the difference of its unit is not
tolerated, or if a unit is new. `Retest.Selection.passesOver_sampleFieldless` shows the
exception at both granularities.
-/

namespace Retest

namespace Selection

variable {context : Context} {store : Store} {build : Build} {unit t : UnitName} {id : Dependency}

/-! ### Records that have moved -/

namespace Context

/-- **The record of a dependency has moved**: the class file of its unit is not there, or it has not
the checksum of a snapshot, and cannot be read or gives no such fingerprint. -/
def Moved (context : Context) (build : Build) (id : Dependency) (fingerprint : Fingerprint) :
    Prop :=
  build.locate id.owner = none ∨ ∃ bytes, build.locate id.owner = some bytes ∧
    (∀ s ∈ context.snapshots.get? id.owner, s.crc ≠ Digest.Crc32.check bytes) ∧
    ((∃ fault, ClassFile.decode bytes = .error fault) ∨ ∃ file, ClassFile.decode bytes = .ok file ∧
      (Snapshot.ofClass file (Digest.Crc32.check bytes)).fingerprint? id ≠ some fingerprint)

/-- **The difference of a unit to its snapshot is tolerated**: with records for whole units, if the
two are equivalent; with records for members, if no kind of change is seen. -/
def Tolerates (context : Context) (build : Build) (unit : UnitName) : Prop :=
  ∃ before after, context.snapshots.get? unit = some before ∧ build.snapshot? unit = some after ∧
    match context.granularity with
    | .unit =>
      equivalent before after (context.settings.isFixture unit) (context.inHierarchy after) = true
    | .member => classify before after = []

theorem sight_eq_same_iff : context.sight build unit = .same ↔
    ∃ bytes ∈ build.locate unit, ∃ s ∈ context.snapshots.get? unit,
      s.crc = Digest.Crc32.check bytes := by
  constructor
  · intro hsame
    by_contra hother
    refine sight_ne_same (fun bytes hbytes s hs hcrc => hother ?_) hsame
    exact ⟨bytes, hbytes, s, hs, hcrc⟩
  · rintro ⟨bytes, hbytes, s, hs, hcrc⟩
    exact sight_eq_same hbytes hs hcrc

/-- A record has moved if its unit does not look the same and its fingerprint is another. -/
theorem moved_iff {fingerprint : Fingerprint} : context.Moved build id fingerprint ↔
    context.sight build id.owner ≠ .same ∧ build.fingerprint? id ≠ some fingerprint := by
  rw [Ne, sight_eq_same_iff, Build.fingerprint?, Build.snapshot?, Moved]
  cases build.locate id.owner with
  | none => simp
  | some bytes =>
    simp only [reduceCtorEq, false_or, Option.some.injEq, exists_eq_left', Option.mem_some_iff,
      Option.bind_some, Snapshot.decode, not_exists, not_and, ne_eq]
    refine and_congr_right fun _ => ?_
    cases ClassFile.decode bytes with
    | error fault => simp [bind, Except.bind, Except.toOption]
    | ok file => simp [bind, Except.bind, Except.toOption, pure, Except.pure]

/-- Where there is a snapshot, the comparison with it decides. -/
theorem tolerates_iff {before after : Snapshot}
    (hsight : context.sight build unit = .known before after) : context.Tolerates build unit ↔
      match context.granularity with
      | .unit =>
        equivalent before after (context.settings.isFixture unit) (context.inHierarchy after) = true
      | .member => classify before after = [] := by
  have hof := context.of_sight build unit
  rw [hsight] at hof
  simp [Tolerates, hof]

/-- A unit is alarming if it does not look the same and the difference is not tolerated. -/
theorem alarmed_iff : context.Alarmed build unit ↔
    context.sight build unit ≠ .same ∧ ¬context.Tolerates build unit := by
  have hof := context.of_sight build unit
  rw [Alarmed, Tolerates]
  cases hsight : context.sight build unit with
  | same => simp
  | gone | unreadable =>
    rw [hsight] at hof
    simp [hof]
  | strange after =>
    rw [hsight] at hof
    simp [hof.2]
  | known before after =>
    rw [hsight] at hof
    cases context.granularity <;> simp [hof]

theorem Compared.not_tolerates {before after : Snapshot}
    (h : context.Compared build unit before after) :
    context.sight build unit ≠ .same ∧ ¬context.Tolerates build unit :=
  alarmed_iff.1 h.alarmed

end Context

/-! ### When something has changed -/

/-- **A dependency has changed** if its record has moved and the difference is not tolerated. -/
theorem changedIds_ne_empty_iff_moved : changedIds context store build ≠ ∅ ↔
    ∃ id record, store.records.get? id = some record ∧
      context.Moved build id record.fingerprint ∧ ¬context.Tolerates build id.owner := by
  rw [changedIds_ne_empty_iff]
  constructor
  · rintro ⟨unit, halarmed, id, rfl, record, hget, hmisfit⟩
    obtain ⟨hother, hheeded⟩ := Context.alarmed_iff.1 halarmed
    exact ⟨id, record, hget, Context.moved_iff.2 ⟨hother, hmisfit⟩, hheeded⟩
  · rintro ⟨id, record, hget, hmoved, hheeded⟩
    obtain ⟨hother, hmisfit⟩ := Context.moved_iff.1 hmoved
    exact ⟨id.owner, Context.alarmed_iff.2 ⟨hother, hheeded⟩, id, rfl, record, hget, hmisfit⟩

/-- A reason for a test that is known is a change. -/
theorem Reason.Holds.stirred {reason : Reason} (h : reason.Holds context store build t)
    (hknown : t ∈ store.tests) : Stirred context store build := by
  obtain ⟨hnoted, hraised⟩ := h
  have hchanged {unit : UnitName} (halarmed : context.Alarmed build unit)
      (hstale : store.Stale build unit) : Stirred context store build :=
    .inl (changedIds_ne_empty_iff.2 ⟨unit, halarmed, hstale⟩)
  cases reason with
  | unknown => exact absurd hknown hnoted
  | record id => exact hchanged hraised.1 hnoted.2.1
  | bystander unit =>
    obtain ⟨before, after, hcompared⟩ := hraised
    exact hchanged hcompared.alarmed hnoted.2.1
  | itself =>
    obtain ⟨before, after, hcompared⟩ := hraised
    exact hchanged hcompared.alarmed hnoted
  | hidden unit id =>
    obtain ⟨before, after, hcompared, -⟩ := hraised
    exact hchanged hcompared.alarmed hnoted.2
  | anything unit => exact hchanged hraised hnoted.2
  | news unit =>
    obtain ⟨hunit, hexcluded, hnone⟩ := hraised
    exact .inr (newUnits_ne_nil_iff.2 ⟨unit, hunit, hexcluded, hnone, hnoted.2⟩)

theorem mem_tests_of_mem_wildcard (h : t ∈ store.wildcard) : t ∈ store.tests :=
  SortedSet.mem_union.2 (.inl (SortedSet.mem_union.2 (.inl h)))

/-- **A test that may depend on anything is selected if something has changed.** -/
theorem mem_affected_iff_stirred (hwildcard : t ∈ store.wildcard) (ht : t ∈ context.tests) :
    t ∈ (diff context store build).affected ↔ Stirred context store build := by
  constructor
  · intro hmem
    obtain ⟨-, reason, hreason⟩ := mem_affected_iff_reason.1 hmem
    exact hreason.stirred (mem_tests_of_mem_wildcard hwildcard)
  · intro hstirred
    exact mem_affected_diff.2 ⟨ht, .inr (.inr (.inl ⟨hstirred, hwildcard⟩))⟩

-- a new unit is enough
example : "shop.CartTest" ∈ (diff ⟨{}, .unit, ∅, .ofList ["shop.CartTest"]⟩
    { wildcard := .ofList ["shop.CartTest"] } (.ofMap (.ofList [("shop.Cart", [])]))).affected := by
  decide +kernel

/-- **If the differences of all units with records are tolerated and none is new**, a test that may
depend on anything is passed over. -/
theorem not_mem_affected_of_tolerates (hwildcard : t ∈ store.wildcard) (ht : t ∈ context.tests)
    (htolerates : ∀ unit ∈ store.owners, context.Tolerates build unit)
    (hnew : newUnits context store build = []) : t ∉ (diff context store build).affected := by
  rw [mem_affected_iff_stirred hwildcard ht]
  rintro (hchanged | hunits)
  · obtain ⟨id, record, hget, -, hheeded⟩ := changedIds_ne_empty_iff_moved.1 hchanged
    exact hheeded (htolerates id.owner (Store.mem_owners.2 ⟨id, record, hget, rfl⟩))
  · exact hunits hnew

/-- **Tests that may depend on anything are selected if a record has moved**, unless the difference
is tolerated. All of them are, with records for whole units and with records for members, and
nothing but such a record or a new unit selects one. -/
theorem mem_affected_iff_of_wildcard (hwildcard : t ∈ store.wildcard) (ht : t ∈ context.tests) :
    t ∈ (diff context store build).affected ↔
      (∃ id record, store.records.get? id = some record ∧
        context.Moved build id record.fingerprint ∧ ¬context.Tolerates build id.owner) ∨
      ∃ unit ∈ build.units, context.settings.isExcluded unit = false ∧
        context.snapshots.get? unit = none ∧ unit ∉ store.owners := by
  rw [mem_affected_iff_stirred hwildcard ht, Stirred, changedIds_ne_empty_iff_moved,
    newUnits_ne_nil_iff]

/-! ### A test that uses reflection -/

/-- The test may depend on anything, and there is one record of the class. -/
def sampleWildcardStore (id : Dependency) : Store where
  wildcard := .ofList ["shop.CartTest"]
  records := .ofList [(id, ⟨⟨"0a"⟩, ∅⟩)]

theorem get?_sampleWildcardStore (id : Dependency) :
    (sampleWildcardStore id).records.get? id = some ⟨⟨"0a"⟩, ∅⟩ := by
  refine (SortedMap.get?_ofList _ _).trans ?_
  simp [SortedMap.lastValue?]

theorem mem_wildcard_sampleWildcardStore (id : Dependency) :
    "shop.CartTest" ∈ (sampleWildcardStore id).wildcard :=
  SortedSet.mem_ofList.2 (List.mem_singleton_self _)

theorem mem_tests_contextAfterSample (granularity : Granularity) :
    "shop.CartTest" ∈ (contextAfterSample granularity).tests :=
  SortedSet.mem_ofList.2 (List.mem_singleton_self _)

/-- The class is compared with its snapshot, and a method has been removed. -/
theorem exists_compared_contextAfterSample : ∃ before after,
    (contextAfterSample .member).Compared (buildWith sampleWithoutMethod) "shop.Cart"
      before after := by
  obtain ⟨before, after, hbefore, hafter, -⟩ := exists_versions_sampleWithoutMethod
  obtain ⟨hcrc, -, hremoved⟩ := changes_sampleWithoutMethod before hbefore after hafter
  rw [← snapshots_contextAfterSample .member] at hbefore
  exact ⟨before, after, rfl, Context.sight_eq_known_of_crc hbefore hafter hcrc,
    classify_ne_nil _ hremoved⟩

/-- The method disappears, which is not tolerated. -/
theorem mem_affected_sampleWildcardStore :
    "shop.CartTest" ∉ testsOf (sampleWildcardStore sampleMethodId) sampleMethodId ∧
      "shop.CartTest" ∈ (diff (contextAfterSample .member) (sampleWildcardStore sampleMethodId)
        (buildWith sampleWithoutMethod)).affected := by
  obtain ⟨before, after, hcompared⟩ := exists_compared_contextAfterSample
  obtain ⟨hother, hheeded⟩ := hcompared.not_tolerates
  have hmoved : (contextAfterSample .member).Moved (buildWith sampleWithoutMethod) sampleMethodId
      ⟨"0a"⟩ := by
    refine Context.moved_iff.2 ⟨hother, ?_⟩
    rw [fingerprints_sampleBuild.2.2]
    nofun
  refine ⟨by decide, (mem_affected_iff_of_wildcard (mem_wildcard_sampleWildcardStore _)
    (mem_tests_contextAfterSample _)).2 (.inl ?_)⟩
  exact ⟨sampleMethodId, _, get?_sampleWildcardStore _, hmoved, hheeded⟩

/-- A class that loses its fields is equivalent to what it was. -/
theorem equivalent_without_fields (file : ClassFile) (crc crc' : UInt32)
    (isFixture inHierarchy : Bool) :
    equivalent (.ofClass file crc) (.ofClass { file with fields := [] } crc') isFixture
      inHierarchy = true := by
  have hnone : (Snapshot.ofClass { file with fields := [] } crc').extraDeclarations
      (.ofClass file crc) = ∅ :=
    SortedSet.eq_empty_of_forall fun d hd => SortedSet.not_mem_empty d (SortedSet.mem_diff.1 hd).1
  have hself := Snapshot.equivalent_self (.ofClass file crc) isFixture inHierarchy
  simp only [equivalent, Bool.and_eq_true] at hself ⊢
  exact ⟨⟨⟨hself.1.1.1, by simp [hnone]⟩, hself.1.2⟩, hself.2⟩

/-- The class without its field, which the method reads still. -/
def sampleFieldless : ClassSpec := { sampleUnit with fields := [] }

/-- The class compiled again, with the name of its source. -/
def sampleSourced : ClassSpec := { sampleUnit with sourceFile := some "Cart.java" }

set_option maxRecDepth 4000 in
theorem decode_sampleFieldless : (ClassFile.decode sampleFieldless.assemble).toOption =
    (ClassFile.decode sampleUnit.assemble).toOption.map fun file => { file with fields := [] } := by
  decide +kernel

set_option maxRecDepth 4000 in
theorem decode_sampleSourced : (ClassFile.decode sampleSourced.assemble).toOption =
    (ClassFile.decode sampleUnit.assemble).toOption.map fun file => file := by
  decide +kernel

set_option maxRecDepth 4000 in
theorem check_sampleSourced :
    Digest.Crc32.check sampleUnit.assemble ≠ Digest.Crc32.check sampleFieldless.assemble ∧
      Digest.Crc32.check sampleUnit.assemble ≠ Digest.Crc32.check sampleSourced.assemble := by
  decide +kernel

theorem fingerprints_sampleSourced :
    (buildWith sampleFieldless).fingerprint? sampleFieldId = none ∧
      (buildWith sampleSourced).fingerprint? (.method ⟨"shop.Cart", "left()I"⟩) = none := by
  decide +kernel

/-- There are no other units than before. -/
theorem newUnits_buildWith (spec : ClassSpec) (granularity : Granularity) (store : Store) :
    newUnits (contextAfterSample granularity) store (buildWith spec) = [] := by
  have hnone : newUnits (contextAfterSample granularity) store sampleBuild = [] := by
    rw [contextAfterSample]
    exact Build.AllRead.newUnits_eq_nil reads_sampleBuild.allRead granularity _ store
  by_contra hnew
  obtain ⟨unit, hunit, h⟩ := newUnits_ne_nil_iff.1 hnew
  refine newUnits_ne_nil_iff.2 ⟨unit, ?_, h⟩ hnone
  have hkey := SortedSet.mem_toList.1 (List.mem_of_mem_filter hunit)
  obtain ⟨bytes, hget⟩ := SortedMap.mem_keys.1 hkey
  have hmem := SortedMap.mem_of_get?_ofList hget
  simp only [List.mem_cons, Prod.mk.injEq, List.not_mem_nil, or_false] at hmem
  rcases hmem with ⟨rfl, -⟩ | ⟨rfl, -⟩
  · decide +kernel
  · decide +kernel

theorem eq_owner_of_mem_sampleWildcardStore (h : unit ∈ (sampleWildcardStore id).owners) :
    unit = id.owner := by
  obtain ⟨id', record, hget, rfl⟩ := Store.mem_owners.1 h
  cases List.mem_singleton.1 (SortedMap.mem_of_get?_ofList hget)
  rfl

/-- How the class looks in another version, of which its class file is known. -/
theorem exists_sight_contextAfterSample {spec : ClassSpec} {change : ClassFile → ClassFile}
    (hdecode : (ClassFile.decode spec.assemble).toOption =
      (ClassFile.decode sampleUnit.assemble).toOption.map change)
    (hcheck : Digest.Crc32.check sampleUnit.assemble ≠ Digest.Crc32.check spec.assemble)
    (granularity : Granularity) :
    ∃ file, (contextAfterSample granularity).sight (buildWith spec) "shop.Cart" =
      .known (.ofClass file (Digest.Crc32.check sampleUnit.assemble))
        (.ofClass (change file) (Digest.Crc32.check spec.assemble)) := by
  obtain ⟨file, hfile, hbefore⟩ := exists_decode_sampleUnit granularity
  have hchanged : ClassFile.decode spec.assemble = .ok (change file) :=
    ClassFile.decode_eq_ok (by rw [hdecode, hfile]; rfl)
  exact ⟨file, Context.sight_eq_known (locate_buildWith spec) hbefore hcheck hchanged rfl⟩

/-- **A test is passed over although a record has moved**, and although it is one that may depend on
anything. -/
def PassesOver (context : Context) (store : Store) (build : Build) (t : UnitName) : Prop :=
  t ∈ store.wildcard ∧ t ∈ context.tests ∧
    (∃ id record, store.records.get? id = some record ∧
      context.Moved build id record.fingerprint) ∧
    t ∉ (diff context store build).affected

/-- This is so for a record that has no fingerprint any more, if the difference is tolerated. -/
theorem passesOver_sampleWildcardStore {spec : ClassSpec} {granularity : Granularity}
    {before after : Snapshot} (howner : id.owner = "shop.Cart")
    (hsight : (contextAfterSample granularity).sight (buildWith spec) "shop.Cart" =
      .known before after)
    (htolerates : (contextAfterSample granularity).Tolerates (buildWith spec) "shop.Cart")
    (hnone : (buildWith spec).fingerprint? id = none) :
    PassesOver (contextAfterSample granularity) (sampleWildcardStore id) (buildWith spec)
      "shop.CartTest" := by
  have hwildcard := mem_wildcard_sampleWildcardStore id
  have ht := mem_tests_contextAfterSample granularity
  refine ⟨hwildcard, ht, ⟨id, _, get?_sampleWildcardStore id, Context.moved_iff.2 ⟨?_, ?_⟩⟩,
    not_mem_affected_of_tolerates hwildcard ht ?_ (newUnits_buildWith spec granularity _)⟩
  · rw [howner, hsight]
    nofun
  · rw [hnone]
    nofun
  · intro unit hunit
    rw [eq_owner_of_mem_sampleWildcardStore hunit, howner]
    exact htolerates

/-- With records for whole units, the field of a record disappears and the test is passed over. With
records for members, there is a record of a method that the class has not, and the test is passed
over when the class is compiled again. -/
theorem passesOver_sampleFieldless :
    PassesOver (contextAfterSample .unit) (sampleWildcardStore sampleFieldId)
        (buildWith sampleFieldless) "shop.CartTest" ∧
      PassesOver (contextAfterSample .member)
        (sampleWildcardStore (.method ⟨"shop.Cart", "left()I"⟩)) (buildWith sampleSourced)
        "shop.CartTest" := by
  constructor
  · obtain ⟨file, hsight⟩ := exists_sight_contextAfterSample decode_sampleFieldless
      check_sampleSourced.1 .unit
    refine passesOver_sampleWildcardStore rfl hsight ((Context.tolerates_iff hsight).2 ?_)
      fingerprints_sampleSourced.1
    exact equivalent_without_fields file _ _ _ _
  · obtain ⟨file, hsight⟩ := exists_sight_contextAfterSample decode_sampleSourced
      check_sampleSourced.2 .member
    refine passesOver_sampleWildcardStore rfl hsight ((Context.tolerates_iff hsight).2 ?_)
      fingerprints_sampleSourced.2
    exact (Snapshot.renames_ofClass file file.name _ _).classify_eq_nil

end Selection

end Retest

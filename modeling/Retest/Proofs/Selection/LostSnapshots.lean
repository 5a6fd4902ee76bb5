import Retest.Proofs.Selection.First
import Retest.Proofs.Selection.Overriding

/-!
# Snapshots that are lost

Snapshots that cannot be read are left out, so a selection may find only some of
those that were written (`Retest.Selection.Context.Keeps`). A unit without a snapshot
is alarming whatever it looks like (`Retest.Selection.Context.alarmed_of_none`), so
most of what was selected is selected all the same. But a snapshot also tells who is
a parent of whom, and that is lost with it.

A test is missed only if every reason to select it is overlooked
(`Retest.Selection.mem_affected_of_lost`), and a reason is overlooked in these cases
only:

| reason | what is lost |
|---|---|
| `record`, `anything` | a child of the unit, with records for whole units and new methods |
| `record` of a unit | what tells that the test inherits from the unit |
| `itself` | the snapshot of the test, and no record of its own names it |
| `hidden` | what tells that the unit overrides a method |

The last case is one of a completed update, with all snapshots lost
(`Retest.Selection.not_mem_affected_sampleHeirBuild`).
-/

namespace Retest

namespace Selection

namespace Context

variable {context : Context} {kept : SortedMap UnitName Snapshot} {build : Build}
  {unit t : UnitName} {before after : Snapshot}

/-! ### A unit without a snapshot -/

/-- A unit without a snapshot is not compared, and does not look the same. -/
theorem sight_of_none (build : Build) (h : context.snapshots.get? unit = none) :
    context.sight build unit ≠ .same ∧
      ∀ before after, context.sight build unit ≠ .known before after := by
  rw [sight]
  cases build.locate unit with
  | none => simp
  | some bytes =>
    dsimp only
    rw [sameChecksum, h, if_neg (by simp)]
    cases Snapshot.decode bytes <;> simp

/-- **A unit without a snapshot is alarming.** -/
theorem alarmed_of_none (h : context.snapshots.get? unit = none) : context.Alarmed build unit := by
  obtain ⟨hsame, hknown⟩ := sight_of_none build h
  rw [Alarmed]
  cases hsight : context.sight build unit with
  | same => exact hsame hsight
  | known before after => exact absurd hsight (hknown before after)
  | gone | unreadable | strange after => trivial

theorem not_compared_of_none (h : context.snapshots.get? unit = none) :
    ¬context.Compared build unit before after :=
  fun hcompared => (sight_of_none build h).2 before after hcompared.sight

/-! ### Some of the snapshots -/

/-- **Some of the snapshots are kept**, as they were. -/
def Keeps (context : Context) (kept : SortedMap UnitName Snapshot) : Prop :=
  ∀ unit s, kept.get? unit = some s → context.snapshots.get? unit = some s

/-- What is compared with when only some of the snapshots are there. -/
def keeping (context : Context) (kept : SortedMap UnitName Snapshot) : Context :=
  { context with snapshots := kept }

@[simp] theorem settings_keeping : (context.keeping kept).settings = context.settings := rfl

@[simp] theorem granularity_keeping :
    (context.keeping kept).granularity = context.granularity := rfl

@[simp] theorem escalates_keeping {kinds : List ChangeKind} :
    (context.keeping kept).escalates unit kinds = context.escalates unit kinds := rfl

@[simp] theorem snapshots_keeping : (context.keeping kept).snapshots = kept := rfl

theorem Keeps.get?_eq (h : context.Keeps kept) (hne : kept.get? unit ≠ none) :
    kept.get? unit = context.snapshots.get? unit := by
  obtain ⟨s, hs⟩ := Option.ne_none_iff_exists'.1 hne
  rw [hs, h unit s hs]

/-- A unit whose snapshot is kept looks as before. -/
theorem Keeps.sight_eq (h : context.Keeps kept) (hne : kept.get? unit ≠ none) :
    (context.keeping kept).sight build unit = context.sight build unit := by
  rw [sight, sight]
  simp only [sameChecksum, snapshots_keeping, h.get?_eq hne]
  rfl

/-- Its members are compared if they were. -/
theorem Keeps.compared_iff (h : context.Keeps kept) (hne : kept.get? unit ≠ none) :
    (context.keeping kept).Compared build unit before after ↔
      context.Compared build unit before after := by
  constructor
  · rintro ⟨hgranularity, hsight, hkinds⟩
    exact ⟨hgranularity, (h.sight_eq hne).symm.trans hsight, hkinds⟩
  · rintro ⟨hgranularity, hsight, hkinds⟩
    exact ⟨hgranularity, (h.sight_eq hne).trans hsight, hkinds⟩

/-- **A unit has lost a child**, and is not alarming without it. -/
structure LosesChild (context : Context) (kept : SortedMap UnitName Snapshot) (build : Build)
    (unit : UnitName) : Prop where
  granularity : context.granularity = .unit
  quiet : ¬(context.keeping kept).Alarmed build unit
  child : ∃ after child s, build.snapshot? unit = some after ∧
    context.snapshots.get? child = some s ∧ kept.get? child = none ∧ after.name ∈ s.parents

theorem Keeps.inHierarchy (h : context.Keeps kept)
    (hin : (context.keeping kept).inHierarchy after = true) : context.inHierarchy after = true := by
  rw [Context.inHierarchy, Bool.or_eq_true] at hin ⊢
  refine hin.imp id fun hchild => ?_
  obtain ⟨s, hs, hparent⟩ := List.any_eq_true.1 hchild
  obtain ⟨child, hchild⟩ := SortedMap.mem_values.1 hs
  exact List.any_eq_true.2 ⟨s, SortedMap.mem_values.2 ⟨child, h child s hchild⟩, hparent⟩

/-- If a unit no longer is in a hierarchy, then it has lost a child. -/
theorem Keeps.exists_child (h : context.Keeps kept)
    (hne : context.inHierarchy after ≠ (context.keeping kept).inHierarchy after) :
    ∃ child s, context.snapshots.get? child = some s ∧ kept.get? child = none ∧
      after.name ∈ s.parents := by
  have hout : (context.keeping kept).inHierarchy after = false := by
    by_contra hin
    rw [Bool.not_eq_false] at hin
    exact hne ((h.inHierarchy hin).trans hin.symm)
  have hin : context.inHierarchy after = true := by
    rwa [hout, Ne, Bool.not_eq_false] at hne
  rw [Context.inHierarchy, Bool.or_eq_false_iff] at hout
  rw [Context.inHierarchy, Bool.or_eq_true] at hin
  obtain ⟨s, hs, hparent⟩ := List.any_eq_true.1 (hin.resolve_left (by simpa using hout.1))
  obtain ⟨child, hchild⟩ := SortedMap.mem_values.1 hs
  refine ⟨child, s, hchild, ?_, by simpa using hparent⟩
  by_contra hlost
  rw [← h.get?_eq hlost] at hchild
  exact List.any_eq_false.1 hout.2 s (SortedMap.mem_values.2 ⟨child, hchild⟩) hparent

/-- **What was alarming is alarming still**, unless it has lost a child. -/
theorem Keeps.alarmed (h : context.Keeps kept) (halarmed : context.Alarmed build unit) :
    (context.keeping kept).Alarmed build unit ∨ context.LosesChild kept build unit := by
  by_cases hne : kept.get? unit = none
  · exact .inl (alarmed_of_none hne)
  by_cases hquiet : (context.keeping kept).Alarmed build unit
  · exact .inl hquiet
  have hof := context.of_sight build unit
  have hquiet' := hquiet
  rw [Alarmed, h.sight_eq hne] at hquiet'
  rw [Alarmed] at halarmed
  cases hsight : context.sight build unit with
  | same =>
    rw [hsight] at halarmed
    exact halarmed.elim
  | gone | unreadable | strange after =>
    rw [hsight] at hquiet'
    exact absurd trivial hquiet'
  | known before after =>
    rw [hsight] at hquiet' halarmed hof
    dsimp only [granularity_keeping, settings_keeping] at hquiet' halarmed
    cases hgranularity : context.granularity with
    | member =>
      rw [hgranularity] at hquiet' halarmed
      exact absurd halarmed hquiet'
    | unit =>
      rw [hgranularity] at hquiet' halarmed
      rw [Bool.not_eq_false] at hquiet'
      -- the two are equivalent outside of a hierarchy only
      have hne : context.inHierarchy after ≠ (context.keeping kept).inHierarchy after := by
        intro heq
        rw [heq] at halarmed
        cases halarmed.symm.trans hquiet'
      obtain ⟨child, s, hchild⟩ := h.exists_child hne
      exact .inr ⟨hgranularity, hquiet, after, child, s, hof.1, hchild⟩

/-- **A test has lost an ancestor** or itself: it no longer inherits from a unit with new
methods. -/
structure LosesHeir (context : Context) (kept : SortedMap UnitName Snapshot) (build : Build)
    (unit t : UnitName) (before after : Snapshot) : Prop where
  compared : (context.keeping kept).Compared build unit before after
  calm : context.escalates unit (classify before after) = false
  heir : context.inheritsFrom t unit = true
  lost : (context.keeping kept).inheritsFrom t unit = false

end Context

/-! ### Reasons that are overlooked -/

namespace Reason

/-- **A reason is overlooked** when only some of the snapshots are there. -/
def Overlooked (context : Context) (kept : SortedMap UnitName Snapshot) (store : Store)
    (build : Build) (t : UnitName) : Reason → Prop
  | unknown | bystander _ | news _ => False
  | record id => context.LosesChild kept build id.owner ∨
      id.isUnit = true ∧ ∃ before after, context.LosesHeir kept build id.owner t before after
  | itself => kept.get? t = none ∧ ∀ id : Dependency, id.owner = t → t ∉ testsOf store id
  | hidden unit id => ∀ before after, (context.keeping kept).Compared build unit before after →
      id ∉ (context.keeping kept).hiddenBy before after
  | anything unit => context.LosesChild kept build unit

variable {context : Context} {kept : SortedMap UnitName Snapshot} {store : Store} {build : Build}
  {t : UnitName} {id : Dependency} {reason : Reason}

/-- A record of a unit that has lost its snapshot counts as changed. -/
theorem holds_record_of_lost (hlost : kept.get? id.owner = none) (ht : t ∈ testsOf store id)
    (hstale : store.Stale build id.owner)
    (hmisfits : context.granularity = .unit → store.Misfits build id) :
    (record id).Holds (context.keeping kept) store build t :=
  ⟨⟨ht, hstale, hmisfits⟩, Context.alarmed_of_none hlost,
    fun _ _ hcompared => absurd hcompared (Context.not_compared_of_none hlost)⟩

/-- **A record that counted as changed does so still**, unless this is overlooked. -/
theorem Holds.record_keeping (hkept : context.Keeps kept)
    (h : (record id).Holds context store build t)
    (hseen : ¬(record id).Overlooked context kept store build t) :
    (record id).Holds (context.keeping kept) store build t := by
  obtain ⟨hnoted, halarmed, hraised⟩ := h
  rw [Overlooked, not_or] at hseen
  by_cases hlost : kept.get? id.owner = none
  · exact holds_record_of_lost hlost hnoted.1 hnoted.2.1 hnoted.2.2
  refine ⟨hnoted, (hkept.alarmed halarmed).resolve_right hseen.1, fun before after hcompared => ?_⟩
  have hraised := hraised before after ((hkept.compared_iff hlost).1 hcompared)
  split at hraised
  · next hunit =>
    rw [if_pos hunit]
    by_contra hnone
    rw [not_or, Bool.not_eq_true] at hnone
    have hheir := hraised.resolve_left (by simpa using hnone.1)
    refine hseen.2 ⟨hunit, before, after, hcompared, hnone.1, hheir.2, ?_⟩
    rw [← Bool.not_eq_true]
    exact fun h => hnone.2 ⟨hheir.1, h⟩
  · next hmember => rwa [if_neg hmember]

/-- **A reason that is not overlooked leaves a reason.** -/
theorem Holds.exists_keeping (hkept : context.Keeps kept) (h : reason.Holds context store build t)
    (hseen : ¬reason.Overlooked context kept store build t) :
    ∃ reason' : Reason, reason'.Holds (context.keeping kept) store build t := by
  cases reason with
  | unknown => exact ⟨unknown, h.1, trivial⟩
  | record id => exact ⟨record id, h.record_keeping hkept hseen⟩
  | bystander unit =>
    obtain ⟨hnoted, before, after, hcompared⟩ := h
    by_cases hlost : kept.get? unit = none
    · -- the record of the unit counts as changed
      refine ⟨record (.unit unit), holds_record_of_lost hlost hnoted.1 hnoted.2.1 fun hunit => ?_⟩
      cases hcompared.granularity.symm.trans hunit
    · exact ⟨bystander unit, hnoted, before, after, (hkept.compared_iff hlost).2 hcompared⟩
  | itself =>
    obtain ⟨hnoted, before, after, hcompared⟩ := h
    by_cases hlost : kept.get? t = none
    · obtain ⟨id, rfl, ht⟩ : ∃ id : Dependency, id.owner = t ∧ t ∈ testsOf store id := by
        by_contra hnone
        exact hseen ⟨hlost, fun id howner ht => hnone ⟨id, howner, ht⟩⟩
      refine ⟨record id, holds_record_of_lost hlost ht hnoted fun hunit => ?_⟩
      cases hcompared.granularity.symm.trans hunit
    · exact ⟨itself, hnoted, before, after, (hkept.compared_iff hlost).2 hcompared⟩
  | hidden unit id =>
    simp only [Overlooked, not_forall, not_not] at hseen
    obtain ⟨before, after, hcompared, hhidden⟩ := hseen
    exact ⟨hidden unit id, h.1, before, after, hcompared, hhidden⟩
  | anything unit => exact ⟨anything unit, h.1, (hkept.alarmed h.2).resolve_right hseen⟩
  | news unit =>
    obtain ⟨hunit, hexcluded, hnone⟩ := h.2
    refine ⟨news unit, h.1, hunit, hexcluded, ?_⟩
    by_contra hlost
    exact hlost ((hkept.get?_eq hlost).trans hnone)

/-- A reason that is overlooked does not hold any more. -/
theorem Overlooked.not_holds (h : reason.Overlooked context kept store build t) :
    ¬reason.Holds (context.keeping kept) store build t := by
  rintro ⟨-, hraised⟩
  cases reason with
  | unknown | bystander unit | news unit => exact h
  | record id =>
    rcases h with hchild | ⟨hunit, before, after, hheir⟩
    · exact hchild.quiet hraised.1
    · have hraised := hraised.2 before after hheir.compared
      rw [if_pos hunit] at hraised
      rcases hraised with hescalates | ⟨-, hinherits⟩
      · cases hheir.calm.symm.trans hescalates
      · cases hheir.lost.symm.trans hinherits
  | itself =>
    obtain ⟨before, after, hcompared⟩ := hraised
    exact Context.not_compared_of_none h.1 hcompared
  | hidden unit id =>
    obtain ⟨before, after, hcompared, hhidden⟩ := hraised
    exact h before after hcompared hhidden
  | anything unit => exact h.quiet hraised

end Reason

/-- **A test that was selected is selected when snapshots are lost, unless all its reasons are
overlooked.** And such reasons do not hold without the snapshots. -/
theorem mem_affected_of_lost {context : Context} {kept : SortedMap UnitName Snapshot}
    {store : Store} {build : Build} {t : UnitName} (hkept : context.Keeps kept)
    (ht : t ∈ (diff context store build).affected) :
    (t ∈ (diff (context.keeping kept) store build).affected ∨
        ∀ reason : Reason, reason.Holds context store build t →
          reason.Overlooked context kept store build t) ∧
      ∀ reason : Reason, reason.Overlooked context kept store build t →
        ¬reason.Holds (context.keeping kept) store build t := by
  refine ⟨?_, fun reason h => h.not_holds⟩
  by_cases hall : ∀ reason : Reason, reason.Holds context store build t →
      reason.Overlooked context kept store build t
  · exact .inr hall
  · simp only [not_forall] at hall
    obtain ⟨reason, hholds, hseen⟩ := hall
    exact .inl (mem_affected_iff_reason.2 ⟨(mem_affected_iff_reason.1 ht).1,
      hholds.exists_keeping hkept hseen⟩)

-- no snapshot is left, and all records of a unit that does not fit them count
example : (diff (.keeping ⟨{}, .member, ∅, .ofList ["shop.BoxTest", "shop.CartTest"]⟩ ∅)
    { records := .ofList [(.unit "shop.Cart", ⟨⟨"0a"⟩, .ofList ["shop.BoxTest"]⟩),
        (.method ⟨"shop.Cart", "total()I"⟩, ⟨⟨"1b"⟩, .ofList ["shop.CartTest"]⟩)] }
    (.ofMap (.ofList [("shop.Cart", [0xca, 0xfe])]))).affected =
      .ofList ["shop.BoxTest", "shop.CartTest"] := by
  decide +kernel

/-! ### A job that overrides what it inherited -/

/-- A test calls `run` of a class. -/
def sampleBaseTest : ClassSpec :=
  ClassSpec.addMethod { name := "shop.BaseTest" }
    { access := 0x0001, name := "testRun", descriptor := "()V"
      code := some [.aload 1, .member 0xb6 "shop.Base" "run" "()V", .ret] }

/-- A job inherits `run` from the class. -/
def sampleHeir : ClassSpec := { name := "shop.Job", superName := some "shop.Base" }

/-- Some version of the job beside the class and the test. -/
def buildWithHeir (job : ClassSpec) : Build :=
  .ofMap (.ofList [("shop.Base", (ClassSpec.addMethod { name := "shop.Base" } sampleRun).assemble),
    ("shop.BaseTest", sampleBaseTest.assemble), ("shop.Job", job.assemble)])

/-- The job has a field. -/
def sampleHeirBuild : Build :=
  buildWithHeir (sampleHeir.addField { access := 0x0001, name := "done", descriptor := "Z" })

/-- The job has a method of its own instead. -/
def sampleOverrideBuild : Build := buildWithHeir (sampleHeir.addMethod sampleRun)

/-- What is compared with after a selection of the first build. -/
def sampleHeirContext (snapshots : SortedMap UnitName Snapshot) : Context :=
  ⟨{}, .member, snapshots, .ofList ["shop.BaseTest"]⟩

theorem locate_sampleOverrideBuild {unit : UnitName} (h : unit ≠ "shop.Job") :
    sampleOverrideBuild.locate unit = sampleHeirBuild.locate unit := by
  refine (SortedMap.get?_ofList _ _).trans (.trans ?_ (SortedMap.get?_ofList _ _).symm)
  simp [SortedMap.lastValue?, h]

/-- The first build can be read. -/
theorem reads_sampleHeirBuild : sampleHeirBuild.AllRead {} ∧
    (sampleHeirBuild.analyze {} []).ReadsBack .member := by
  decide +kernel

theorem exists_firstUpdate_sampleHeirBuild :
    ∃ d store, FirstUpdate {} .member sampleHeirBuild ["shop.BaseTest"] d store :=
  exists_firstUpdate reads_sampleHeirBuild.1 reads_sampleHeirBuild.2 (by decide)

/-- The test reaches the method of the class, and nothing of the job. -/
theorem reaches_sampleHeirBuild :
    sampleHeirBuild.Reaches {} .member "shop.BaseTest" (.method ⟨"shop.Base", "run()V"⟩) ∧
      (((sampleHeirBuild.analyze {} []).graph.footprint "shop.BaseTest").units
        (sampleHeirBuild.analyze {} []).graph).contains "shop.Job" = false ∧
      ((sampleHeirBuild.analyze {} []).graph.footprint "shop.BaseTest").reflective = false := by
  decide +kernel

/-- The field of the job is gone. -/
theorem fingerprints_sampleHeirBuild :
    ((sampleHeirBuild.analyze {} []).fingerprint? (.method ⟨"shop.Base", "run()V"⟩)).isSome = true ∧
      ((sampleHeirBuild.analyze {} []).fingerprint?
        (.field ⟨"shop.Job", "done", "Z"⟩)).isSome = true ∧
      sampleOverrideBuild.fingerprint? (.field ⟨"shop.Job", "done", "Z"⟩) = none := by
  decide +kernel

set_option maxRecDepth 4000 in
theorem hidden_sampleOverrideBuild :
    ∀ before ∈ (sampleHeirBuild.analyze {} []).snapshots.get? "shop.Job",
      ∀ after ∈ sampleOverrideBuild.snapshot? "shop.Job", before.crc ≠ after.crc ∧
        "run()V" ∈ addedInstanceMethods before after ∧
        .method ⟨"shop.Base", "run()V"⟩ ∈
          (sampleHeirContext (sampleHeirBuild.analyze {} []).snapshots).hiddenBy before after := by
  decide +kernel

theorem mem_testsOf_sampleHeirBuild {d : StoreDirectory} {store : Store}
    (h : FirstUpdate {} .member sampleHeirBuild ["shop.BaseTest"] d store) :
    "shop.BaseTest" ∈ testsOf store (.method ⟨"shop.Base", "run()V"⟩) :=
  h.mem_testsOf.2 ⟨List.mem_singleton_self _, reaches_sampleHeirBuild.1, rfl,
    Option.isSome_iff_exists.1 fingerprints_sampleHeirBuild.1⟩

/-- Where the class is gone, the test is selected without any snapshots. -/
theorem mem_affected_sampleHeirBuild : ∃ d store,
    FirstUpdate {} .member sampleHeirBuild ["shop.BaseTest"] d store ∧
      "shop.BaseTest" ∈ (diff (sampleHeirContext d.loadSnapshots) store (.ofMap ∅)).affected ∧
      "shop.BaseTest" ∈ (diff (sampleHeirContext ∅) store (.ofMap ∅)).affected := by
  obtain ⟨d, store, h⟩ := exists_firstUpdate_sampleHeirBuild
  have hgone : (Build.ofMap ∅).locate "shop.Base" = none := rfl
  have hholds : (Reason.record (.method ⟨"shop.Base", "run()V"⟩)).Holds
      (sampleHeirContext d.loadSnapshots) store (.ofMap ∅) "shop.BaseTest" :=
    ⟨Reason.noted_of_gone (mem_testsOf_sampleHeirBuild h) hgone, Reason.raised_of_gone hgone⟩
  have hmem := mem_affected_iff_reason.2 ⟨SortedSet.mem_ofList.2 (List.mem_singleton_self _), _,
    hholds⟩
  have hkept : (sampleHeirContext d.loadSnapshots).Keeps ∅ := nofun
  refine ⟨d, store, h, hmem, (mem_affected_of_lost hkept hmem).1.resolve_right fun hall => ?_⟩
  rcases hall _ hholds with hchild | ⟨hunit, -⟩
  · cases hchild.granularity
  · cases hunit

/-- Where the job overrides the method, the test is missed if all snapshots are lost. -/
theorem not_mem_affected_sampleHeirBuild : ∃ d store,
    FirstUpdate {} .member sampleHeirBuild ["shop.BaseTest"] d store ∧
      "shop.BaseTest" ∈
        (diff (sampleHeirContext d.loadSnapshots) store sampleOverrideBuild).affected ∧
      "shop.BaseTest" ∉ (diff (sampleHeirContext ∅) store sampleOverrideBuild).affected := by
  obtain ⟨d, store, h⟩ := exists_firstUpdate_sampleHeirBuild
  have hrecorded := mem_testsOf_sampleHeirBuild h
  refine ⟨d, store, h, ?_, ?_⟩
  · obtain ⟨before, hbefore⟩ : ∃ before,
        (sampleHeirBuild.analyze {} []).snapshots.get? "shop.Job" = some before := by
      obtain ⟨f, hf⟩ := Option.isSome_iff_exists.1 fingerprints_sampleHeirBuild.2.1
      obtain ⟨before, hbefore, -⟩ := Analysis.fingerprint?_eq_some.1 hf
      exact ⟨before, hbefore⟩
    obtain ⟨after, hafter⟩ : ∃ after, sampleOverrideBuild.snapshot? "shop.Job" = some after :=
      Option.isSome_iff_exists.1 (by decide +kernel)
    obtain ⟨hcrc, hadded, hhidden⟩ := hidden_sampleOverrideBuild before hbefore after hafter
    rw [← h.snapshots] at hbefore hhidden
    have hcompared : (sampleHeirContext d.loadSnapshots).Compared sampleOverrideBuild "shop.Job"
        before after :=
      ⟨rfl, Context.sight_eq_known_of_crc hbefore hafter hcrc, classify_ne_nil_of_added hadded⟩
    -- the record of the field no longer fits
    have hstale : store.Stale sampleOverrideBuild "shop.Job" := by
      obtain ⟨f, hf⟩ := Option.isSome_iff_exists.1 fingerprints_sampleHeirBuild.2.1
      refine ⟨.field ⟨"shop.Job", "done", "Z"⟩, rfl, ⟨f, _⟩,
        h.get?_records.2 ⟨by decide, hf, rfl⟩, ?_⟩
      rw [fingerprints_sampleHeirBuild.2.2]
      nofun
    exact mem_affected_iff_reason.2 ⟨SortedSet.mem_ofList.2 (List.mem_singleton_self _),
      .hidden "shop.Job" _, ⟨hrecorded, hstale⟩, before, after, hcompared, hhidden⟩
  · intro hmem
    obtain ⟨-, reason, hnoted, hraised⟩ := mem_affected_iff_reason.1 hmem
    have hwildcard : "shop.BaseTest" ∉ store.wildcard := fun hw => by
      cases reaches_sampleHeirBuild.2.2.symm.trans (h.reflective_of_mem_wildcard hw)
    have hnone : ∀ {unit before after},
        ¬(sampleHeirContext ∅).Compared sampleOverrideBuild unit before after := fun {unit} _ _ =>
      Context.not_compared_of_none (SortedMap.get?_empty unit)
    cases reason with
    | unknown => exact hnoted (Store.mem_tests_of_mem_testsOf hrecorded)
    | record id =>
      refine h.not_stale (locate_sampleOverrideBuild fun howner => ?_) hnoted.2.1
      have hunits := h.owner_mem_units hnoted.1
      rw [howner] at hunits
      exact SortedSet.contains_eq_false.1 reaches_sampleHeirBuild.2.1 hunits
    | bystander unit =>
      obtain ⟨_, _, hcompared⟩ := hraised
      exact hnone hcompared
    | itself =>
      obtain ⟨_, _, hcompared⟩ := hraised
      exact hnone hcompared
    | hidden unit id =>
      obtain ⟨_, _, hcompared, -⟩ := hraised
      exact hnone hcompared
    | anything unit => exact hwildcard hnoted.1
    | news unit => exact hwildcard hnoted.1

end Selection

end Retest

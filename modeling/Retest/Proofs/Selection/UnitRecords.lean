import Retest.Proofs.Selection.Removed

/-!
# Records of units cover those of members

Where a change cannot be pinned to members, all tests of the record of the unit are
selected. This is enough only if that record names every test that any record of a member
names. It does so in every store that was made by updates
(`Retest.Store.covering_of_reached`), whatever was updated in between: units may become
unreadable and readable again, members may come and go, and members may be tracked at one
time and not at another.

An update keeps the records of unreadable units and makes those of all others anew, in both
cases the record of a unit together with those of its members. The tests that it adds to a
record of a member it adds to that of the unit as well, since a footprint that reaches a
member reaches its unit (`Retest.Store.Renewal.reaches_unit`).
-/

namespace Retest.Store

open Selection (testsOf diff)

/-- **The records of units cover those of their members**: with a record of a member there is one
of its unit, and it names all tests that the other does. -/
def Covering (store : Store) : Prop :=
  ∀ id record, store.records.get? id = some record → ∃ whole,
    store.records.get? (.unit id.owner) = some whole ∧ ∀ t ∈ record.tests, t ∈ whole.tests

/-- **A store made by updates**: each from the analysis of some build, with any granularity and
any tests, of which any were run again. -/
inductive Reached : Store → Prop
  | empty : Reached {}
  | next {previous : Store} (h : Reached previous) (build : Build) (settings : Settings)
      (external : List (UnitName × UnitName)) (granularity : Granularity)
      (tests refreshed : SortedSet UnitName) :
      Reached (previous.next ⟨build.analyze settings external, granularity, tests, refreshed⟩)

namespace Renewal

variable {renewal : Renewal} {previous : Store} {id : Dependency} {t : UnitName}

/-- A footprint that reaches a member reaches its unit. -/
theorem reaches_unit {footprint : Footprint} (h : renewal.reaches footprint id = true) :
    renewal.reaches footprint (.unit id.owner) = true := by
  cases id with
  | unit unit => exact h
  | method key =>
    exact SortedSet.contains_eq_true.2
      (Footprint.owner_mem_units (by simpa using (Bool.and_eq_true_iff.1 h).2))
  | field key =>
    exact SortedSet.contains_eq_true.2
      (Footprint.owner_mem_units (by simpa using (Bool.and_eq_true_iff.1 h).2))

/-- What an update adds to the record of a member it adds to that of the unit. -/
theorem mem_testsFor_unit
    (hprevious : ∀ t ∈ testsOf previous id, t ∈ testsOf previous (.unit id.owner))
    (ht : t ∈ renewal.testsFor previous id) : t ∈ renewal.testsFor previous (.unit id.owner) := by
  rcases mem_testsFor.1 ht with ⟨hold, hcarried⟩ | ⟨hrefreshed, hreaches⟩
  · exact mem_testsFor.2 (.inl ⟨hprevious t hold, hcarried⟩)
  · exact mem_testsFor.2 (.inr ⟨hrefreshed, reaches_unit hreaches⟩)

end Renewal

variable {renewal : Renewal} {previous store : Store} {id : Dependency} {t : UnitName}

theorem Covering.mem_testsOf (h : store.Covering) (ht : t ∈ testsOf store id) :
    t ∈ testsOf store (.unit id.owner) := by
  obtain ⟨record, hget, ht⟩ := Store.mem_testsOf.1 ht
  obtain ⟨whole, hwhole, hcovers⟩ := h id record hget
  exact Store.mem_testsOf.2 ⟨whole, hwhole, hcovers t ht⟩

theorem covering_empty : Covering {} := fun id record hget => by
  cases (SortedMap.get?_empty id).symm.trans hget

/-- **An update keeps units covering their members.** -/
theorem Covering.next (h : previous.Covering) (hcoherent : renewal.analysis.Coherent) :
    (previous.next renewal).Covering := by
  intro id record hget
  have hadded : ∀ t ∈ renewal.testsFor previous id,
      t ∈ renewal.testsFor previous (.unit id.owner) := fun t =>
    Renewal.mem_testsFor_unit fun t ht => h.mem_testsOf ht
  by_cases hfailed : id.owner ∈ renewal.analysis.failed
  · -- the record of the unit is kept beside that of the member
    obtain ⟨kept, hkept, -, hrecord⟩ := get?_records_next_of_failed hcoherent hfailed hget
    obtain ⟨whole, hwhole, hcovers⟩ := h id kept hkept
    have hunit : (Dependency.unit id.owner).owner ∈ renewal.analysis.failed := hfailed
    refine ⟨_, get?_records_next_of_kept hunit hwhole, fun t ht => SortedSet.mem_union.2 ?_⟩
    rw [hrecord, SortedSet.mem_union] at ht
    exact ht.imp (hcovers t) (hadded t)
  · -- both are made anew from one snapshot
    obtain ⟨-, hf, hrecord⟩ := (get?_records_next_eq_some hcoherent hfailed).1 hget
    obtain ⟨s, hs, -⟩ := Analysis.fingerprint?_eq_some.1 hf
    have hwhole : renewal.analysis.fingerprint? (.unit id.owner) = some s.whole :=
      Analysis.fingerprint?_eq_some.2 ⟨s, hs, Snapshot.fingerprint?_unit (hcoherent.named hs).symm⟩
    have hunit : (Dependency.unit id.owner).owner ∉ renewal.analysis.failed := hfailed
    refine ⟨⟨s.whole, renewal.testsFor previous (.unit id.owner)⟩,
      (get?_records_next_eq_some hcoherent hunit).2 ⟨trivial, hwhole, rfl⟩, fun t ht => ?_⟩
    rw [hrecord] at ht
    exact hadded t ht

/-- So it is after any number of updates. -/
theorem Reached.covering (h : Reached store) : store.Covering := by
  induction h with
  | empty => exact covering_empty
  | next _ build settings external _ _ _ ih =>
    exact ih.next (build.coherent_analyze settings external)

/-- Where all tests of the unit are called for, a covering record brings in those of the members. -/
theorem Covering.mem_affected_of_escalates (h : store.Covering) {context : Selection.Context}
    {build : Build} {before after : Snapshot}
    (hcompared : context.Compared build id.owner before after)
    (hstale : store.Stale build id.owner)
    (hescalates : context.escalates id.owner (classify before after) = true)
    (ht : t ∈ testsOf store id) (htest : t ∈ context.tests) :
    t ∈ (diff context store build).affected := by
  refine Selection.mem_affected_iff_reason.2 ⟨htest, .record (.unit id.owner),
    ⟨h.mem_testsOf ht, hstale, fun hunit => ?_⟩, hcompared.alarmed, fun _ _ hc => ?_⟩
  · cases hcompared.granularity.symm.trans hunit
  · obtain ⟨rfl, rfl⟩ := hcompared.unique hc
    exact .inl hescalates

/-- **In a store made by updates, the records of units cover those of their members.** With each
record of a method or a field there is one of its unit, which names all its tests. So where a change
calls for all tests of a unit, those of its members are selected, too. -/
theorem covering_of_reached (h : Reached store) :
    (∀ id record, store.records.get? id = some record → id.isUnit = false → ∃ whole,
      store.records.get? (.unit id.owner) = some whole ∧ ∀ t ∈ record.tests, t ∈ whole.tests) ∧
    ∀ (context : Selection.Context) (build : Build) (before after : Snapshot) (id : Dependency),
      context.Compared build id.owner before after → store.Stale build id.owner →
      context.escalates id.owner (classify before after) = true →
      ∀ t ∈ testsOf store id, t ∈ context.tests → t ∈ (diff context store build).affected := by
  refine ⟨fun id record hget _ => h.covering id record hget, ?_⟩
  intro context build before after id hcompared hstale hescalates t ht htest
  exact h.covering.mem_affected_of_escalates hcompared hstale hescalates ht htest

/-! ### A unit that cannot be read for a time -/

/-- The class cannot be read, and members are not tracked. -/
def sampleSpoiled : Renewal :=
  ⟨(Build.ofMap (.ofList [("shop.Cart", [0xca, 0xfe])])).analyze {} [], .unit,
    .ofList ["shop.CartTest"], ∅⟩

/-- The class has lost its method and got a super class. -/
def sampleAdopted : ClassSpec := { sampleWithoutMethod with superName := some "shop.Base" }

theorem reached_sampleSpoiled : Reached (sampleFirstStore.next sampleSpoiled) :=
  .next (.next .empty sampleBuild {} [] .member _ _) _ {} [] .unit _ _

theorem mem_failed_sampleSpoiled : "shop.Cart" ∈ sampleSpoiled.analysis.failed := by
  decide +kernel

/-- The records of the class are kept. -/
theorem mem_testsOf_sampleSpoiled :
    "shop.CartTest" ∈ testsOf (sampleFirstStore.next sampleSpoiled) sampleMethodId := by
  obtain ⟨d, store, h⟩ := exists_firstUpdate_sampleBuild
  obtain ⟨record, hget, ht⟩ := Store.mem_testsOf.1 (mem_testsOf_sampleMethodId h)
  rw [h.records] at hget
  exact Store.mem_testsOf.2 ⟨_, get?_records_next_of_kept mem_failed_sampleSpoiled hget,
    SortedSet.mem_union.2 (.inl ht)⟩

set_option maxRecDepth 4000 in
theorem changes_sampleAdopted :
    ∀ before ∈ (sampleBuild.analyze {} []).snapshots.get? "shop.Cart",
      ∀ after ∈ (buildWith sampleAdopted).snapshot? "shop.Cart",
        before.crc ≠ after.crc ∧ before.superName ≠ after.superName ∧
          after.fingerprint? sampleMethodId = none := by
  decide +kernel

/-- All tests of the unit are called for, and the record of the method does not fit. -/
theorem exists_compared_sampleAdopted : ∃ before after,
    (Selection.contextAfterSample .member).Compared (buildWith sampleAdopted) "shop.Cart"
        before after ∧
      (Selection.contextAfterSample .member).escalates "shop.Cart" (classify before after) = true ∧
      (buildWith sampleAdopted).fingerprint? sampleMethodId = none := by
  obtain ⟨file, -, hbefore⟩ := Selection.exists_decode_sampleUnit .member
  have hanalysis := hbefore
  rw [Selection.snapshots_contextAfterSample] at hanalysis
  obtain ⟨after, hafter⟩ : ∃ after, (buildWith sampleAdopted).snapshot? "shop.Cart" = some after :=
    Option.isSome_iff_exists.1 (by decide +kernel)
  obtain ⟨hcrc, hsuper, hgone⟩ := changes_sampleAdopted _ hanalysis after hafter
  have hchanged : ChangeKind.superClassChanged ∈ classify _ after :=
    List.mem_filter.2 ⟨by decide, bne_iff_ne.2 hsuper⟩
  refine ⟨_, after, ⟨rfl, Selection.Context.sight_eq_known_of_crc hbefore hafter hcrc,
    List.ne_nil_of_mem hchanged⟩, ?_, (congrArg (Option.bind · _) hafter).trans hgone⟩
  rw [Selection.Context.escalates, Bool.or_eq_true]
  exact .inl (List.any_eq_true.2 ⟨_, hchanged, rfl⟩)

/-- The class can be read again and has a super class, which calls for all tests of the unit. -/
theorem covering_sampleSpoiled : Reached (sampleFirstStore.next sampleSpoiled) ∧
    "shop.CartTest" ∈ testsOf (sampleFirstStore.next sampleSpoiled) sampleMethodId ∧
    "shop.CartTest" ∈ testsOf (sampleFirstStore.next sampleSpoiled) (.unit "shop.Cart") ∧
    "shop.CartTest" ∈ (diff (Selection.contextAfterSample .member)
      (sampleFirstStore.next sampleSpoiled) (buildWith sampleAdopted)).affected := by
  obtain ⟨hcovers, hselected⟩ := covering_of_reached reached_sampleSpoiled
  obtain ⟨record, hget, ht⟩ := Store.mem_testsOf.1 mem_testsOf_sampleSpoiled
  obtain ⟨whole, hwhole, htests⟩ := hcovers sampleMethodId record hget rfl
  refine ⟨reached_sampleSpoiled, mem_testsOf_sampleSpoiled,
    Store.mem_testsOf.2 ⟨whole, hwhole, htests _ ht⟩, ?_⟩
  obtain ⟨before, after, hcompared, hescalates, hgone⟩ := exists_compared_sampleAdopted
  have hstale : (sampleFirstStore.next sampleSpoiled).Stale (buildWith sampleAdopted)
      "shop.Cart" := by
    refine ⟨sampleMethodId, rfl, record, hget, ?_⟩
    rw [hgone]
    nofun
  exact hselected _ _ before after sampleMethodId hcompared hstale hescalates _
    mem_testsOf_sampleSpoiled (SortedSet.mem_ofList.2 (List.mem_singleton_self _))

end Retest.Store

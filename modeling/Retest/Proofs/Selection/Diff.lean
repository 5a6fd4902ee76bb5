import Retest.Proofs.Analysis
import Retest.Proofs.Store.Text
import Retest.Selection.Basic

/-!
# Which tests are selected

A selection puts together what became of the units with records.
`Retest.Selection.mem_affected_diff` says which tests that are: those that an
outcome concerns, those of a method that is hidden by a new one, those that may
depend on anything if anything has changed or a unit is new, and those that the
store does not know.

A unit whose class file has the checksum of the last time has no outcome
(`Retest.Selection.Context.outcome_of_snapshot`), so nothing is selected on behalf
of a unit that did not change.
-/

namespace Retest

namespace Store

variable {store : Store}

theorem mem_owners {unit : UnitName} :
    unit ∈ store.owners ↔ ∃ id record, store.records.get? id = some record ∧ id.owner = unit := by
  simp only [owners, SortedSet.mem_ofList, List.mem_map, SortedSet.mem_toList, SortedMap.mem_keys]
  constructor
  · rintro ⟨id, ⟨record, hget⟩, rfl⟩
    exact ⟨id, record, hget, rfl⟩
  · rintro ⟨id, record, hget, rfl⟩
    exact ⟨id, ⟨record, hget⟩, rfl⟩

theorem get?_recordsOf_eq_some {unit : UnitName} {id : Dependency} {record : StoreRecord} :
    (store.recordsOf unit).get? id = some record ↔
      store.records.get? id = some record ∧ id.owner = unit := by
  rw [recordsOf, SortedMap.get?_filter_eq_some, beq_iff_eq]

end Store

namespace Selection

variable {context : Context} {store : Store} {build : Build}

/-! ### Putting outcomes together -/

/-- What became of a unit with records. -/
def outcomeOf (context : Context) (store : Store) (build : Build) (unit : UnitName) : Outcome :=
  context.outcome build unit (store.recordsOf unit)

theorem mem_unions_outcomes {α : Type} [Ord α] [Std.TransOrd α] [Std.LawfulEqOrd α]
    {f : Outcome → SortedSet α} {a : α} :
    a ∈ SortedSet.unions ((outcomes context store build).map fun o => f o.2) ↔
      ∃ unit ∈ store.owners, a ∈ f (outcomeOf context store build unit) := by
  simp [outcomes, outcomeOf]

/-- The dependencies that have changed, methods that are hidden by new ones included. -/
def changedIds (context : Context) (store : Store) (build : Build) : SortedSet Dependency :=
  .unions ((outcomes context store build).map (·.2.changed)) ∪
    .unions ((outcomes context store build).map (·.2.hidden))

theorem mem_changedIds {id : Dependency} : id ∈ changedIds context store build ↔
    ∃ unit ∈ store.owners, id ∈ (outcomeOf context store build unit).changed ∨
      id ∈ (outcomeOf context store build unit).hidden := by
  rw [changedIds, SortedSet.mem_union, mem_unions_outcomes (f := Outcome.changed),
    mem_unions_outcomes (f := Outcome.hidden)]
  constructor
  · rintro (⟨unit, hunit, h⟩ | ⟨unit, hunit, h⟩)
    · exact ⟨unit, hunit, .inl h⟩
    · exact ⟨unit, hunit, .inr h⟩
  · rintro ⟨unit, hunit, h | h⟩
    · exact .inl ⟨unit, hunit, h⟩
    · exact .inr ⟨unit, hunit, h⟩

/-- **Something has changed** since the store was written: a dependency, or a unit is new. -/
def Stirred (context : Context) (store : Store) (build : Build) : Prop :=
  changedIds context store build ≠ ∅ ∨ newUnits context store build ≠ []

/-- **Which tests are selected.** -/
theorem mem_affected_diff {t : UnitName} :
    t ∈ (diff context store build).affected ↔ t ∈ context.tests ∧
      ((∃ unit ∈ store.owners, t ∈ (outcomeOf context store build unit).affected) ∨
        (∃ unit ∈ store.owners, ∃ id ∈ (outcomeOf context store build unit).hidden,
          t ∈ testsOf store id) ∨
        (Stirred context store build ∧ t ∈ store.wildcard) ∨ t ∉ store.tests) := by
  have hhidden : t ∈ SortedSet.unions ((SortedSet.unions ((outcomes context store build).map
      (·.2.hidden))).toList.map (testsOf store)) ↔ ∃ unit ∈ store.owners,
        ∃ id ∈ (outcomeOf context store build unit).hidden, t ∈ testsOf store id := by
    rw [SortedSet.mem_unions]
    simp only [List.mem_map, SortedSet.mem_toList, mem_unions_outcomes (f := Outcome.hidden)]
    constructor
    · rintro ⟨_, ⟨id, ⟨unit, hunit, hid⟩, rfl⟩, ht⟩
      exact ⟨unit, hunit, id, hid, ht⟩
    · rintro ⟨unit, hunit, id, hid, ht⟩
      exact ⟨_, ⟨id, ⟨unit, hunit, hid⟩, rfl⟩, ht⟩
  have hanything : (t ∈ if (changedIds context store build).isEmpty &&
      (newUnits context store build).isEmpty then ∅ else store.wildcard) ↔
        Stirred context store build ∧ t ∈ store.wildcard := by
    split
    · next h =>
      simp only [Bool.and_eq_true, SortedSet.isEmpty_eq_true, List.isEmpty_iff] at h
      simp [Stirred, h]
    · next h =>
      simp only [Bool.and_eq_true, SortedSet.isEmpty_eq_true, List.isEmpty_iff] at h
      refine ⟨fun ht => ⟨?_, ht⟩, fun ht => ht.2⟩
      rwa [Stirred, ← not_and_or]
  -- the tests of changed records, of hidden ones, the wildcard tests, and those not known
  have haffected : (diff context store build).affected =
      (SortedSet.unions ((outcomes context store build).map (·.2.affected)) ∪
        SortedSet.unions ((SortedSet.unions ((outcomes context store build).map
          (·.2.hidden))).toList.map (testsOf store)) ∪
        (if (changedIds context store build).isEmpty && (newUnits context store build).isEmpty
          then ∅ else store.wildcard) ∪ (context.tests \ store.tests)) ∩ context.tests := rfl
  rw [haffected, SortedSet.mem_inter, SortedSet.mem_union, SortedSet.mem_union, SortedSet.mem_union,
    SortedSet.mem_diff, hhidden, hanything, mem_unions_outcomes (f := Outcome.affected), and_comm]
  refine and_congr_right fun ht => ?_
  simp only [ht, true_and, or_assoc]

theorem mem_deleted_diff {unit : UnitName} : unit ∈ (diff context store build).deleted ↔
    unit ∈ store.owners ∧ (outcomeOf context store build unit).deleted = true := by
  simp only [diff, combine, SortedSet.mem_ofList, List.mem_map, List.mem_filter, outcomes,
    outcomeOf]
  constructor
  · rintro ⟨_, ⟨⟨u, hu, rfl⟩, hdeleted⟩, rfl⟩
    exact ⟨hu, hdeleted⟩
  · rintro ⟨hu, hdeleted⟩
    exact ⟨_, ⟨⟨unit, hu, rfl⟩, hdeleted⟩, rfl⟩

theorem changedIds_of_quiet
    (hquiet : ∀ unit ∈ store.owners, outcomeOf context store build unit = {}) :
    changedIds context store build = ∅ := by
  refine SortedSet.eq_empty_of_forall fun id hid => ?_
  obtain ⟨unit, hunit, h⟩ := mem_changedIds.1 hid
  rw [hquiet unit hunit] at h
  exact h.elim (SortedSet.not_mem_empty id) (SortedSet.not_mem_empty id)

/-- Where no unit with records has an outcome, a test is selected only if it may depend on anything,
or is not known. -/
theorem of_mem_affected_of_quiet {t : UnitName}
    (hquiet : ∀ unit ∈ store.owners, outcomeOf context store build unit = {})
    (ht : t ∈ (diff context store build).affected) :
    (newUnits context store build ≠ [] ∧ t ∈ store.wildcard) ∨ t ∉ store.tests := by
  obtain ⟨-, ⟨unit, hunit, h⟩ | ⟨unit, hunit, id, h, -⟩ | ⟨hstirred, h⟩ | h⟩ :=
    mem_affected_diff.1 ht
  · rw [hquiet unit hunit] at h
    exact absurd h (SortedSet.not_mem_empty t)
  · rw [hquiet unit hunit] at h
    exact absurd h (SortedSet.not_mem_empty id)
  · refine .inl ⟨hstirred.resolve_left fun hchanged => hchanged ?_, h⟩
    exact changedIds_of_quiet hquiet
  · exact .inr h

/-- **Nothing is selected if nothing happened**, and every test is known. -/
theorem diff_of_quiet (hquiet : ∀ unit ∈ store.owners, outcomeOf context store build unit = {})
    (hunits : newUnits context store build = []) (htests : ∀ t ∈ context.tests, t ∈ store.tests) :
    diff context store build = { unaffected := context.tests } := by
  have hchanged := changedIds_of_quiet hquiet
  have haffected : (diff context store build).affected = ∅ := by
    refine SortedSet.eq_empty_of_forall fun t ht => ?_
    rcases of_mem_affected_of_quiet hquiet ht with ⟨hnew, -⟩ | hunknown
    · exact hnew hunits
    · exact hunknown (htests t (mem_affected_diff.1 ht).1)
  have hdeleted : (diff context store build).deleted = ∅ := by
    refine SortedSet.eq_empty_of_forall fun unit hunit => ?_
    obtain ⟨hunit, h⟩ := mem_deleted_diff.1 hunit
    rw [hquiet unit hunit] at h
    cases h
  have hparts : diff context store build =
      { affected := (diff context store build).affected
        unaffected := context.tests \ (diff context store build).affected
        changed := .ofList ((changedIds context store build).toList.map Dependency.text)
        deleted := (diff context store build).deleted } := rfl
  rw [hparts, haffected, hdeleted, hchanged]
  have hall : context.tests \ ∅ = context.tests := SortedSet.ext_mem fun t => by simp
  rw [hall]
  rfl

/-! ### Units that did not change -/

/-- **A class file with the checksum of its snapshot has no outcome.** -/
theorem Context.outcome_of_snapshot {unit : UnitName} {bytes : List UInt8} {s : Snapshot}
    (hlocate : build.locate unit = some bytes) (hs : context.snapshots.get? unit = some s)
    (hcrc : s.crc = Digest.Crc32.check bytes) (records : SortedMap Dependency StoreRecord) :
    context.outcome build unit records = {} := by
  have hsame : context.sameChecksum unit bytes = true := by
    rw [Context.sameChecksum, hs]
    simp [hcrc]
  rw [Context.outcome, hlocate]
  exact if_pos hsame

end Selection

end Retest

import Retest.Proofs.Selection.Overriding

/-!
# An edit concerns only tests of the edited unit

Two builds that differ in the class file of one unit differ in the tests that are
selected, but only as far as the unit goes. What became of any other unit is read
from its own class file, its own records and the snapshots, so it is the same for
both builds (`Retest.Selection.outcomeOf_eq_of_agrees`).

The edited unit brings in the tests of its records and itself
(`Retest.Selection.of_mem_affected_outcomeOf`). Beyond that a new instance method
brings in the tests of a method that it hides, which belongs to an ancestor of the
unit (`Retest.Selection.of_mem_hidden_outcomeOf`); and a change of anything brings
in the tests that may depend on anything. There is no other way from an edit to a
test (`Retest.Selection.of_mem_affected_of_agrees`).
-/

namespace Retest

/-- **Two builds agree beside a unit**: all other units have the same class files in both. What the
builds list as their units does not matter for a selection. -/
def Build.AgreesBeside (first second : Build) (unit : UnitName) : Prop :=
  ∀ other, other ≠ unit → first.locate other = second.locate other

namespace Selection

variable {context : Context} {store : Store} {build first second : Build} {unit t : UnitName}
  {id : Dependency}

/-- **What became of another unit is the same for both builds.** -/
theorem outcomeOf_eq_of_agrees (h : first.AgreesBeside second unit) {other : UnitName}
    (hother : other ≠ unit) :
    outcomeOf context store first other = outcomeOf context store second other := by
  rw [outcomeOf, outcomeOf, Context.outcome, Context.outcome, h other hother]

/-- The tests that an outcome concerns have records of the unit, or are the unit. -/
theorem of_mem_affected_outcomeOf (hunit : unit ∈ store.owners) (ht : t ∈ context.tests)
    (h : t ∈ (outcomeOf context store build unit).affected) :
    (∃ id : Dependency, id.owner = unit ∧ t ∈ testsOf store id) ∨ t = unit := by
  rcases (mem_affected_outcomeOf hunit ht).1 h with ⟨id, howner, hnoted, -⟩ | ⟨hnoted, -⟩ | ⟨rfl, -⟩
  · exact .inl ⟨id, howner, hnoted.1⟩
  · exact .inl ⟨.unit unit, rfl, hnoted.1⟩
  · exact .inr rfl

-- the class file is gone, and of two tests only that of its own record is concerned
example : (outcomeOf ⟨{}, .unit, ∅, .ofList ["shop.BoxTest", "shop.CartTest"]⟩
    { records := .ofList [(.unit "shop.Box", ⟨⟨"0a"⟩, .ofList ["shop.BoxTest"]⟩),
        (.unit "shop.Cart", ⟨⟨"1b"⟩, .ofList ["shop.CartTest"]⟩)] }
    (.ofMap ∅) "shop.Cart").affected = .ofList ["shop.CartTest"] := by
  decide +kernel

/-- A method that an outcome hides is that of an ancestor, and a new method of the unit hides it. -/
theorem of_mem_hidden_outcomeOf (hunit : unit ∈ store.owners)
    (h : id ∈ (outcomeOf context store build unit).hidden) :
    ∃ before after, context.snapshots.get? unit = some before ∧
      build.snapshot? unit = some after ∧ ∃ ancestor ∈ context.ancestors after,
        ∃ signature ∈ addedInstanceMethods before after,
          id = .method ⟨ancestor.name, signature⟩ := by
  obtain ⟨-, before, after, hcompared, hid⟩ := (mem_hidden_outcomeOf hunit).1 h
  obtain ⟨signature, hadded, ancestor, ⟨nearer, farther, hlist, -⟩, rfl⟩ :=
    Context.mem_hiddenBy.1 hid
  have hof := context.of_sight build unit
  rw [hcompared.sight] at hof
  have hancestor : ancestor ∈ context.ancestors after := by
    rw [hlist]
    exact List.mem_append_right _ List.mem_cons_self
  exact ⟨before, after, hof.2, hof.1, ancestor, hancestor, signature, hadded, rfl⟩

/-- **A selection is local to the unit that was edited.** Let two builds agree beside a unit. A test
that is selected from the second and not from the first stands in a record of the unit, or may
depend on anything, or is the unit, or stands in the record of a method of an ancestor of the unit
whose slot is that of a new instance method of the unit. -/
theorem of_mem_affected_of_agrees (h : first.AgreesBeside second unit)
    (hsecond : t ∈ (diff context store second).affected)
    (hfirst : t ∉ (diff context store first).affected) :
    (∃ id : Dependency, id.owner = unit ∧ t ∈ testsOf store id) ∨ t ∈ store.wildcard ∨ t = unit ∨
      ∃ before after, context.snapshots.get? unit = some before ∧
        second.snapshot? unit = some after ∧ ∃ ancestor ∈ context.ancestors after,
          ∃ signature ∈ addedInstanceMethods before after,
            t ∈ testsOf store (.method ⟨ancestor.name, signature⟩) := by
  obtain ⟨ht, hreason⟩ := mem_affected_diff.1 hsecond
  -- what any other unit brings in, it brings in from the first build as well
  rcases hreason with ⟨other, howner, hother⟩ | ⟨other, howner, id, hid, hrecorded⟩ |
    ⟨-, hwildcard⟩ | hunknown
  · by_cases hunit : other = unit
    · subst hunit
      rcases of_mem_affected_outcomeOf howner ht hother with hrecord | hitself
      · exact .inl hrecord
      · exact .inr (.inr (.inl hitself))
    · rw [← outcomeOf_eq_of_agrees h hunit] at hother
      exact absurd (mem_affected_diff.2 ⟨ht, .inl ⟨other, howner, hother⟩⟩) hfirst
  · by_cases hunit : other = unit
    · subst hunit
      obtain ⟨before, after, hbefore, hafter, ancestor, hancestor, signature, hadded, rfl⟩ :=
        of_mem_hidden_outcomeOf howner hid
      exact .inr (.inr (.inr ⟨before, after, hbefore, hafter, ancestor, hancestor, signature,
        hadded, hrecorded⟩))
    · rw [← outcomeOf_eq_of_agrees h hunit] at hid
      exact absurd (mem_affected_diff.2 ⟨ht, .inr (.inl ⟨other, howner, id, hid, hrecorded⟩)⟩)
        hfirst
  · exact .inr (.inl hwildcard)
  · exact absurd (mem_affected_diff.2 ⟨ht, .inr (.inr (.inr hunknown))⟩) hfirst

/-! ### A job that gets a method -/

/-- The job as it was, beside its parents. -/
def sampleJobBefore : Build :=
  buildWithJob (sampleJob.addField { access := 0x0001, name := "done", descriptor := "Z" })

theorem agreesBeside_sampleJob : sampleJobBefore.AgreesBeside sampleJobBuild "shop.Job" := by
  intro other hother
  refine (SortedMap.get?_ofList _ _).trans (.trans ?_ (SortedMap.get?_ofList _ _).symm)
  simp [SortedMap.lastValue?, List.find?_cons, hother]

set_option maxRecDepth 4000 in
theorem affected_sampleJob :
    "shop.BaseTest" ∈ (diff sampleJobContext sampleJobStore sampleJobBuild).affected ∧
      "shop.BaseTest" ∉ (diff sampleJobContext sampleJobStore sampleJobBefore).affected := by
  decide +kernel

/-- No record of the job names the test. -/
theorem not_mem_testsOf_sampleJob {id : Dependency} (howner : id.owner = "shop.Job") :
    "shop.BaseTest" ∉ testsOf sampleJobStore id := by
  have hentries : ∀ e ∈ sampleJobStore.records.entries, e.1.owner = "shop.Job" →
      "shop.BaseTest" ∉ e.2.tests := by
    decide +kernel
  intro ht
  obtain ⟨record, hget, ht⟩ := Store.mem_testsOf.1 ht
  exact hentries _ (SortedMap.get?_eq_some_iff.1 hget) howner ht

/-- The test of the method that the job inherited so far is selected once the job has a method of
its own, since that one hides the other. -/
theorem of_mem_affected_sampleJob :
    sampleJobBefore.AgreesBeside sampleJobBuild "shop.Job" ∧
      "shop.BaseTest" ∈ (diff sampleJobContext sampleJobStore sampleJobBuild).affected ∧
      "shop.BaseTest" ∉ (diff sampleJobContext sampleJobStore sampleJobBefore).affected ∧
      ∃ before after, sampleJobContext.snapshots.get? "shop.Job" = some before ∧
        sampleJobBuild.snapshot? "shop.Job" = some after ∧
        ∃ ancestor ∈ sampleJobContext.ancestors after,
          ∃ signature ∈ addedInstanceMethods before after,
            "shop.BaseTest" ∈ testsOf sampleJobStore (.method ⟨ancestor.name, signature⟩) := by
  obtain ⟨hsecond, hfirst⟩ := affected_sampleJob
  refine ⟨agreesBeside_sampleJob, hsecond, hfirst, ?_⟩
  rcases of_mem_affected_of_agrees agreesBeside_sampleJob hsecond hfirst with
    ⟨id, howner, hrecord⟩ | hwildcard | hitself | hhidden
  · exact absurd hrecord (not_mem_testsOf_sampleJob howner)
  · exact absurd hwildcard (SortedSet.not_mem_empty _)
  · exact absurd hitself (by decide)
  · exact hhidden

end Selection

end Retest

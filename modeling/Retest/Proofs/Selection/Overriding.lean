import Retest.Proofs.Selection.Reasons

/-!
# Methods that are hidden by new ones

A new instance method takes the place of those with the same slot that its unit
inherited so far. Calls by way of an ancestor may end in it, and such calls are
recorded for the method of the ancestor; so that method counts as changed, and its
tests are selected.

A unit can inherit one slot by several ways, from its super class and from its
interfaces. Of the ancestors that declare the slot only the first in order counts,
the *nearest* (`Retest.Selection.Context.Nearest`). There is one whenever an
ancestor declares the slot, and the unit marks no other
(`Retest.Selection.mem_affected_of_nearest`). A test that calls the method by way
of another ancestor is missed (`Retest.Selection.not_mem_affected_sampleJob`).
-/

namespace Retest.Selection

namespace Context

variable {context : Context} {before after ancestor : Snapshot} {signature : Signature}

/-- **The nearest ancestor that declares a method**: no ancestor before it does. -/
def Nearest (context : Context) (after : Snapshot) (signature : Signature)
    (ancestor : Snapshot) : Prop :=
  ∃ nearer farther, context.ancestors after = nearer ++ ancestor :: farther ∧
    signature ∈ ancestor.instanceMethods.keys ∧ ∀ s ∈ nearer, signature ∉ s.instanceMethods.keys

theorem contains_instanceMethods {s : Snapshot} :
    s.instanceMethods.contains signature = true ↔ signature ∈ s.instanceMethods.keys := by
  rw [SortedMap.contains_eq_true, SortedMap.mem_keys]

theorem find?_ancestors_eq_some :
    (context.ancestors after).find? (·.instanceMethods.contains signature) = some ancestor ↔
      context.Nearest after signature ancestor := by
  rw [List.find?_eq_some_iff_append, Nearest]
  simp only [contains_instanceMethods, Bool.not_eq_true']
  constructor
  · rintro ⟨hdeclares, nearer, farther, heq, hnearer⟩
    refine ⟨nearer, farther, heq, hdeclares, fun s hs hmem => ?_⟩
    exact Bool.false_ne_true ((hnearer s hs).symm.trans (contains_instanceMethods.2 hmem))
  · rintro ⟨nearer, farther, heq, hdeclares, hnearer⟩
    refine ⟨hdeclares, nearer, farther, heq, fun s hs => ?_⟩
    exact Bool.eq_false_iff.2 fun hmem => hnearer s hs (contains_instanceMethods.1 hmem)

/-- If an ancestor declares a method, then one is the nearest. -/
theorem exists_nearest {s : Snapshot} (hs : s ∈ context.ancestors after)
    (hdeclares : signature ∈ s.instanceMethods.keys) :
    ∃ ancestor, context.Nearest after signature ancestor := by
  have hsome : ((context.ancestors after).find?
      (·.instanceMethods.contains signature)).isSome = true :=
    List.find?_isSome.2 ⟨s, hs, contains_instanceMethods.2 hdeclares⟩
  obtain ⟨ancestor, hfind⟩ := Option.isSome_iff_exists.1 hsome
  exact ⟨ancestor, find?_ancestors_eq_some.1 hfind⟩

/-- **Which methods are hidden**: for each new method that of the nearest ancestor. -/
theorem mem_hiddenBy {id : Dependency} : id ∈ context.hiddenBy before after ↔
    ∃ signature ∈ addedInstanceMethods before after, ∃ ancestor,
      context.Nearest after signature ancestor ∧ .method ⟨ancestor.name, signature⟩ = id := by
  simp only [hiddenBy, SortedSet.mem_ofList, List.mem_filterMap, SortedSet.mem_toList,
    Option.map_eq_some_iff, find?_ancestors_eq_some]

-- a class declares for the first time what its parent declares
example :
    let run : MethodDecl := ⟨0x0001, "run", "()V", [], none, [], none⟩
    let base : ClassFile := ⟨"shop.Base", 0x0021, none, [], none, [], [], [run]⟩
    let job : ClassFile := ⟨"shop.Job", 0x0021, some "shop.Base", [], none, [], [], []⟩
    hiddenBy ⟨{}, .member, .ofList [("shop.Base", .ofClass base 0)], ∅⟩ (.ofClass job 1)
      (.ofClass { job with methods := [run] } 2) = .ofList [.method ⟨"shop.Base", "run()V"⟩] := by
  decide +kernel

end Context

/-- **A unit has a new instance method**, and the selection looks at it: its class file has another
checksum than in its snapshot, and a record of the unit no longer fits. -/
structure Adds (context : Context) (store : Store) (build : Build) (unit : UnitName)
    (signature : Signature) (before after : Snapshot) : Prop where
  granularity : context.granularity = .member
  snapshot : context.snapshots.get? unit = some before
  version : ∃ bytes file, build.locate unit = some bytes ∧
    before.crc ≠ Digest.Crc32.check bytes ∧ ClassFile.decode bytes = .ok file ∧ file.name = unit ∧
    after = Snapshot.ofClass file (Digest.Crc32.check bytes)
  mismatch : ∃ id record, store.records.get? id = some record ∧ id.owner = unit ∧
    after.fingerprint? id ≠ some record.fingerprint
  added : signature ∈ addedInstanceMethods before after

variable {context : Context} {store : Store} {build : Build} {unit : UnitName} {id : Dependency}
  {before after : Snapshot} {signature : Signature}

/-- **A hidden method counts as changed**, and its tests are selected. -/
theorem mem_changed_of_hidden (hunit : unit ∈ store.owners)
    (hid : id ∈ (outcomeOf context store build unit).hidden) :
    id.text ∈ (diff context store build).changed ∧
      ∀ t ∈ context.tests, t ∈ testsOf store id → t ∈ (diff context store build).affected := by
  refine ⟨SortedSet.mem_ofList.2 (List.mem_map_of_mem ?_), fun t ht hrecorded => ?_⟩
  · exact SortedSet.mem_toList.2 (mem_changedIds.2 ⟨unit, hunit, .inr hid⟩)
  · exact mem_affected_diff.2 ⟨ht, .inr (.inl ⟨unit, hunit, id, hid, hrecorded⟩)⟩

/-- Then the members of the unit are compared. -/
theorem Adds.compared (h : Adds context store build unit signature before after) :
    context.Compared build unit before after := by
  obtain ⟨bytes, file, hlocate, hcrc, hdecode, -, hafter⟩ := h.version
  exact ⟨h.granularity, Context.sight_eq_known hlocate h.snapshot hcrc hdecode hafter,
    classify_ne_nil_of_added h.added⟩

theorem Adds.stale (h : Adds context store build unit signature before after) :
    store.Stale build unit := by
  have hof := context.of_sight build unit
  rw [h.compared.sight] at hof
  obtain ⟨id, record, hrecord, rfl, hmismatch⟩ := h.mismatch
  refine ⟨id, rfl, record, hrecord, ?_⟩
  rwa [Build.fingerprint?, hof.1]

/-- The method of the nearest ancestor is hidden, and no other with the slot. -/
theorem Adds.method_mem_hidden (h : Adds context store build unit signature before after)
    (name : UnitName) :
    .method ⟨name, signature⟩ ∈ (outcomeOf context store build unit).hidden ↔
      ∃ ancestor, context.Nearest after signature ancestor ∧ ancestor.name = name := by
  rw [outcomeOf_of_compared h.compared h.stale, Context.mem_hiddenBy]
  constructor
  · rintro ⟨s, -, ancestor, hnearest, heq⟩
    cases heq
    exact ⟨ancestor, hnearest, rfl⟩
  · rintro ⟨ancestor, hnearest, rfl⟩
    exact ⟨signature, h.added, ancestor, hnearest, rfl⟩

/-- **A new method that overrides others selects the tests of the nearest.** There is a nearest one
as soon as an ancestor declares the method; and the unit marks no other. -/
theorem mem_affected_of_nearest (h : Adds context store build unit signature before after) :
    (∀ s ∈ context.ancestors after, signature ∈ s.instanceMethods.keys →
        ∃ ancestor, context.Nearest after signature ancestor) ∧
      (∀ ancestor, context.Nearest after signature ancestor →
        (Dependency.method ⟨ancestor.name, signature⟩).text ∈
            (diff context store build).changed ∧
          ∀ t ∈ context.tests, t ∈ testsOf store (.method ⟨ancestor.name, signature⟩) →
            t ∈ (diff context store build).affected) ∧
      ∀ name, .method ⟨name, signature⟩ ∈ (outcomeOf context store build unit).hidden ↔
        ∃ ancestor, context.Nearest after signature ancestor ∧ ancestor.name = name := by
  refine ⟨fun s hs hdeclares => Context.exists_nearest hs hdeclares, fun ancestor hnearest => ?_,
    h.method_mem_hidden⟩
  exact mem_changed_of_hidden h.stale.mem_owners
    ((h.method_mem_hidden ancestor.name).2 ⟨ancestor, hnearest, rfl⟩)

/-! ### A job that is run in two ways -/

/-- A method that does nothing. -/
def sampleRun : MethodSpec :=
  { access := 0x0001, name := "run", descriptor := "()V", code := some [.ret] }

/-- A job inherits `run` from a class and from an interface. -/
def sampleJob : ClassSpec :=
  { name := "shop.Job", superName := some "shop.Base", interfaces := ["shop.Runner"] }

/-- Some version of the job beside its two parents. -/
def buildWithJob (job : ClassSpec) : Build :=
  .ofMap (.ofList
    [("shop.Base", (ClassSpec.addMethod { name := "shop.Base" } sampleRun).assemble),
      ("shop.Runner", ((ClassSpec.makeInterface { name := "shop.Runner" }).addAbstract "run"
        "()V").assemble),
      ("shop.Job", job.assemble)])

/-- The job had a field at first. -/
def sampleJobContext : Context where
  settings := {}
  granularity := .member
  snapshots := ((buildWithJob (sampleJob.addField
    { access := 0x0001, name := "done", descriptor := "Z" })).analyze {} []).snapshots
  tests := .ofList ["shop.BaseTest", "shop.RunnerTest"]

/-- One test calls the method of the class, another that of the interface. -/
def sampleJobStore : Store where
  records := .ofList
    [(.method ⟨"shop.Base", "run()V"⟩, ⟨⟨"0a"⟩, .ofList ["shop.BaseTest"]⟩),
      (.field ⟨"shop.Job", "done", "Z"⟩, ⟨⟨"1b"⟩, ∅⟩),
      (.method ⟨"shop.Runner", "run()V"⟩, ⟨⟨"2c"⟩, .ofList ["shop.RunnerTest"]⟩)]

/-- Now it has a method of its own instead. -/
def sampleJobBuild : Build := buildWithJob (sampleJob.addMethod sampleRun)

set_option maxRecDepth 4000 in
/-- The two versions of the job, and the ancestors of the second. -/
theorem versions_sampleJob : ∀ before ∈ sampleJobContext.snapshots.get? "shop.Job",
    ∀ bytes ∈ sampleJobBuild.locate "shop.Job", before.crc ≠ Digest.Crc32.check bytes ∧
      ∀ file ∈ (ClassFile.decode bytes).toOption, file.name = "shop.Job" ∧
        file.fields = [] ∧
        "run()V" ∈ addedInstanceMethods before (Snapshot.ofClass file (Digest.Crc32.check bytes)) ∧
        (sampleJobContext.ancestors (Snapshot.ofClass file (Digest.Crc32.check bytes))).map
            (fun s => (s.name, s.instanceMethods.contains "run()V")) =
          [("shop.Base", true), ("shop.Runner", true)] := by
  decide +kernel

theorem exists_adds_sampleJob : ∃ before after,
    Adds sampleJobContext sampleJobStore sampleJobBuild "shop.Job" "run()V" before after ∧
      (∃ ancestor, sampleJobContext.Nearest after "run()V" ancestor ∧ ancestor.name = "shop.Base") ∧
      ∃ s ∈ sampleJobContext.ancestors after, s.name = "shop.Runner" ∧
        "run()V" ∈ s.instanceMethods.keys := by
  obtain ⟨before, hbefore⟩ : ∃ before, sampleJobContext.snapshots.get? "shop.Job" = some before :=
    Option.isSome_iff_exists.1 (by decide +kernel)
  obtain ⟨file, hfile⟩ : ∃ file, sampleJobBuild.version? "shop.Job" = some file :=
    Option.isSome_iff_exists.1 (by decide +kernel)
  obtain ⟨bytes, hlocate, hdecode⟩ := Build.version?_eq_some.1 hfile
  obtain ⟨hcrc, hversions⟩ := versions_sampleJob before hbefore bytes hlocate
  obtain ⟨hname, hfields, hadded, hancestors⟩ := hversions file (by rw [hdecode]; rfl)
  obtain ⟨base, rest, hlist, hbase, hrest⟩ := List.map_eq_cons_iff.1 hancestors
  obtain ⟨runner, others, rfl, hrunner, -⟩ := List.map_eq_cons_iff.1 hrest
  simp only [Prod.mk.injEq, Context.contains_instanceMethods] at hbase hrunner
  refine ⟨before, _, ⟨rfl, hbefore, ⟨bytes, file, hlocate, hcrc, hdecode, hname, rfl⟩, ?_, hadded⟩,
    ⟨base, ⟨[], _, hlist, hbase.2, nofun⟩, hbase.1⟩, runner, by rw [hlist]; simp, hrunner⟩
  -- the field is gone, and its record no longer fits
  refine ⟨.field ⟨"shop.Job", "done", "Z"⟩, ⟨⟨"1b"⟩, ∅⟩, by decide +kernel, rfl, ?_⟩
  rw [Snapshot.fingerprint?_field hname.symm]
  intro h
  obtain ⟨field, hfield, -⟩ := Snapshot.exists_of_get?_slots h
  rw [hfields] at hfield
  cases hfield

theorem mem_affected_sampleJob :
    "shop.BaseTest" ∈ (diff sampleJobContext sampleJobStore sampleJobBuild).affected := by
  obtain ⟨before, after, hadds, ⟨ancestor, hnearest, hname⟩, -⟩ := exists_adds_sampleJob
  refine ((mem_affected_of_nearest hadds).2.1 ancestor hnearest).2 _ (by decide) ?_
  rw [hname]
  decide

set_option maxRecDepth 4000 in
/-- The test that runs the job by way of the interface is missed. -/
theorem not_mem_affected_sampleJob : ∃ before after,
    Adds sampleJobContext sampleJobStore sampleJobBuild "shop.Job" "run()V" before after ∧
      (∃ s ∈ sampleJobContext.ancestors after, s.name = "shop.Runner" ∧
        "run()V" ∈ s.instanceMethods.keys) ∧
      "shop.RunnerTest" ∈ sampleJobContext.tests ∧
      "shop.RunnerTest" ∈ testsOf sampleJobStore (.method ⟨"shop.Runner", "run()V"⟩) ∧
      "shop.RunnerTest" ∉ (diff sampleJobContext sampleJobStore sampleJobBuild).affected := by
  obtain ⟨before, after, hadds, -, hrunner⟩ := exists_adds_sampleJob
  exact ⟨before, after, hadds, hrunner, by decide, by decide, by decide +kernel⟩

end Retest.Selection

import Retest.Proofs.Selection.Soundness

/-!
# Why a test is selected

A test is selected for a reason (`Retest.Selection.Reason`): it is not known, or one
of its records counts as changed, or a method it uses is hidden by a new one, and so
on. Each reason has two sides. The store has to *note* it, by a record that names the
test and one that no longer fits the build; and it has to be *raised* by the
snapshots, by a class file that is not as it was. `Retest.Selection.mem_affected_iff_reason`
says that the tests selected are exactly those with a reason that is both noted and
raised.

The two sides are apart: what is noted depends on the store and not on the snapshots,
and what is raised on the snapshots and not on the store.
-/

namespace Retest

/-! ### What a build says of a dependency -/

/-- The snapshot of a unit as it is now, if its class file is there and can be read. -/
def Build.snapshot? (build : Build) (unit : UnitName) : Option Snapshot :=
  (build.locate unit).bind fun bytes => (Snapshot.decode bytes).toOption.map (·.2)

/-- It is taken from the class file. -/
theorem Build.snapshot?_of_decode {build : Build} {unit : UnitName} {bytes : List UInt8}
    {file : ClassFile} (hlocate : build.locate unit = some bytes)
    (hdecode : ClassFile.decode bytes = .ok file) :
    build.snapshot? unit = some (.ofClass file (Digest.Crc32.check bytes)) := by
  rw [snapshot?, hlocate, Option.bind_some, Snapshot.decode, hdecode]
  rfl

/-- The fingerprint that a dependency has now. -/
def Build.fingerprint? (build : Build) (id : Dependency) : Option Fingerprint :=
  (build.snapshot? id.owner).bind (·.fingerprint? id)

namespace Store

/-- **A record no longer fits** the build. -/
def Misfits (store : Store) (build : Build) (id : Dependency) : Prop :=
  ∃ record, store.records.get? id = some record ∧ build.fingerprint? id ≠ some record.fingerprint

/-- **A unit is stale** if one of its records no longer fits. -/
def Stale (store : Store) (build : Build) (unit : UnitName) : Prop :=
  ∃ id : Dependency, id.owner = unit ∧ store.Misfits build id

theorem Stale.mem_owners {store : Store} {build : Build} {unit : UnitName}
    (h : store.Stale build unit) : unit ∈ store.owners := by
  obtain ⟨id, howner, record, hget, -⟩ := h
  exact Store.mem_owners.2 ⟨id, record, hget, howner⟩

end Store

theorem Dependency.eq_unit_of_isUnit {id : Dependency} (h : id.isUnit = true) :
    id = .unit id.owner := by
  cases id with
  | unit name => rfl
  | method | field => cases h

namespace Selection

/-! ### How a unit looks -/

/-- How the class file of a unit looks against its snapshot. -/
inductive Sight where
  | gone
  /-- It has the checksum of its snapshot. -/
  | same
  | unreadable
  /-- There is no snapshot. -/
  | strange (after : Snapshot)
  | known (before after : Snapshot)

namespace Context

/-- How a unit looks. -/
def sight (context : Context) (build : Build) (unit : UnitName) : Sight :=
  match build.locate unit with
  | none => .gone
  | some bytes =>
    if context.sameChecksum unit bytes then .same
    else
      match Snapshot.decode bytes, context.snapshots.get? unit with
      | .error _, _ => .unreadable
      | .ok (_, after), none => .strange after
      | .ok (_, after), some before => .known before after

variable {context : Context} {build : Build} {unit t : UnitName} {before after : Snapshot}
  {records : SortedMap Dependency StoreRecord}

/-- **What became of a unit** can be told from how it looks. -/
theorem outcome_eq : context.outcome build unit records = match context.sight build unit with
    | .gone => { Outcome.everything records with deleted := true }
    | .same => {}
    | .unreadable => .everything records
    | .strange after | .known _ after => context.compareWith unit records after := by
  rw [outcome, sight]
  cases build.locate unit with
  | none => rfl
  | some bytes =>
    dsimp only
    split
    · rfl
    · rw [inspect]
      cases Snapshot.decode bytes with
      | error fault => rfl
      | ok result =>
        obtain ⟨file, after⟩ := result
        cases context.snapshots.get? unit <;> rfl

/-- A class file with the checksum of its snapshot looks the same. -/
theorem sight_eq_same {bytes : List UInt8} (hlocate : build.locate unit = some bytes)
    (hbefore : context.snapshots.get? unit = some before)
    (hcrc : before.crc = Digest.Crc32.check bytes) : context.sight build unit = .same := by
  have hsame : context.sameChecksum unit bytes = true := by
    rw [sameChecksum, hbefore]
    simp [hcrc]
  rw [sight, hlocate]
  exact if_pos hsame

/-- One with another checksum that can be read is compared. -/
theorem sight_eq_known {bytes : List UInt8} {file : ClassFile}
    (hlocate : build.locate unit = some bytes)
    (hbefore : context.snapshots.get? unit = some before)
    (hcrc : before.crc ≠ Digest.Crc32.check bytes) (hdecode : ClassFile.decode bytes = .ok file)
    (hafter : after = Snapshot.ofClass file (Digest.Crc32.check bytes)) :
    context.sight build unit = .known before after := by
  have hother : context.sameChecksum unit bytes = false := by
    rw [sameChecksum, hbefore]
    simpa using hcrc
  have hsnapshot : Snapshot.decode bytes = .ok (file, after) := by
    rw [Snapshot.decode, hdecode, hafter]
    rfl
  rw [sight, hlocate]
  simp [hother, hsnapshot, hbefore]

/-- **A unit is alarming** if its class file is not as it was, and the difference matters. -/
def Alarmed (context : Context) (build : Build) (unit : UnitName) : Prop :=
  match context.sight build unit with
  | .same => False
  | .gone | .unreadable | .strange _ => True
  | .known before after =>
    match context.granularity with
    | .unit =>
      equivalent before after (context.settings.isFixture unit) (context.inHierarchy after) = false
    | .member => classify before after ≠ []

/-- **The members of a unit are compared** with those of its snapshot. -/
structure Compared (context : Context) (build : Build) (unit : UnitName)
    (before after : Snapshot) : Prop where
  granularity : context.granularity = .member
  sight : context.sight build unit = .known before after
  kinds : classify before after ≠ []

end Context

/-! ### What became of a unit -/

section Outcome

variable {context : Context} {build : Build} {store : Store} {unit t : UnitName} {id : Dependency}
  {before after : Snapshot}

/-- What is known of the snapshots of a unit that looks in a certain way. -/
theorem Context.of_sight (context : Context) (build : Build) (unit : UnitName) :
    match context.sight build unit with
    | .gone | .unreadable => build.snapshot? unit = none
    | .same => True
    | .strange after => build.snapshot? unit = some after ∧ context.snapshots.get? unit = none
    | .known before after =>
      build.snapshot? unit = some after ∧ context.snapshots.get? unit = some before := by
  rw [sight, Build.snapshot?]
  cases build.locate unit with
  | none => rfl
  | some bytes =>
    cases hsame : context.sameChecksum unit bytes with
    | true => simp [hsame]
    | false =>
      cases hdecode : Snapshot.decode bytes with
      | error fault => simp [hsame, hdecode, Except.toOption]
      | ok result =>
        cases hget : context.snapshots.get? unit <;> simp [hsame, hdecode, Except.toOption]

/-- The records of a unit that no longer fit. -/
def misfits (store : Store) (build : Build) (unit : UnitName) :
    SortedMap Dependency StoreRecord :=
  (store.recordsOf unit).filter fun id r => build.fingerprint? id != some r.fingerprint

theorem get?_misfits {record : StoreRecord} : (misfits store build unit).get? id = some record ↔
    (store.records.get? id = some record ∧ id.owner = unit) ∧
      build.fingerprint? id ≠ some record.fingerprint := by
  rw [misfits, SortedMap.get?_filter_eq_some, Store.get?_recordsOf_eq_some, bne_iff_ne]

theorem misfits_isEmpty : (misfits store build unit).isEmpty = true ↔ ¬store.Stale build unit := by
  rw [SortedMap.isEmpty_eq_true_iff]
  constructor
  · rintro hnone ⟨id, howner, record, hget, hmisfit⟩
    cases (hnone id).symm.trans (get?_misfits.2 ⟨⟨hget, howner⟩, hmisfit⟩)
  · intro hfresh id
    rw [Option.eq_none_iff_forall_ne_some]
    intro record hget
    obtain ⟨⟨hget, howner⟩, hmisfit⟩ := get?_misfits.1 hget
    exact hfresh ⟨id, howner, record, hget, hmisfit⟩

/-- Where there is a snapshot now, it tells the misfits. -/
theorem misfits_eq (h : build.snapshot? unit = some after) : misfits store build unit =
    (store.recordsOf unit).filter fun id r => after.fingerprint? id != some r.fingerprint := by
  refine SortedMap.ext_get? fun id => Option.ext fun record => ?_
  rw [get?_misfits, SortedMap.get?_filter_eq_some, Store.get?_recordsOf_eq_some, bne_iff_ne]
  refine and_congr_right fun hget => ?_
  rw [Build.fingerprint?, hget.2, h]
  rfl

/-- Where there is none, no record fits. -/
theorem misfits_of_none (h : build.snapshot? unit = none) :
    misfits store build unit = store.recordsOf unit := by
  refine SortedMap.ext_get? fun id => Option.ext fun record => ?_
  rw [get?_misfits, Store.get?_recordsOf_eq_some]
  refine and_iff_left_of_imp fun hget => ?_
  rw [Build.fingerprint?, hget.2, h]
  nofun

/-- The records of a unit that count as changed where its members are not compared. -/
def counted (granularity : Granularity) (store : Store) (build : Build) (unit : UnitName) :
    SortedMap Dependency StoreRecord :=
  match granularity with
  | .unit => misfits store build unit
  | .member => store.recordsOf unit

theorem counted_of_none (h : build.snapshot? unit = none) (granularity : Granularity) :
    counted granularity store build unit = store.recordsOf unit := by
  cases granularity
  · exact misfits_of_none h
  · rfl

/-- What became of a unit whose class file can be read and is not as it was. -/
theorem compareWith_eq (h : build.snapshot? unit = some after) :
    context.compareWith unit (store.recordsOf unit) after =
      if (misfits store build unit).isEmpty then {}
      else
        match context.granularity, context.snapshots.get? unit with
        | .unit, some before =>
          if equivalent before after (context.settings.isFixture unit) (context.inHierarchy after)
          then {} else .everything (misfits store build unit)
        | .unit, none => .everything (misfits store build unit)
        | .member, some before =>
          context.memberOutcome unit (store.recordsOf unit) before after
        | .member, none => .everything (store.recordsOf unit) := by
  rw [misfits_eq h]
  rfl

/-- A unit with records and without a snapshot now is stale. -/
theorem stale_of_none (hunit : unit ∈ store.owners) (h : build.snapshot? unit = none) :
    store.Stale build unit := by
  obtain ⟨id, record, hget, rfl⟩ := Store.mem_owners.1 hunit
  refine ⟨id, rfl, record, hget, ?_⟩
  rw [Build.fingerprint?, h]
  nofun

/-- **Nothing became of a unit that is not alarming or not stale.** -/
theorem outcomeOf_of_calm (hunit : unit ∈ store.owners)
    (h : ¬(context.Alarmed build unit ∧ store.Stale build unit)) :
    outcomeOf context store build unit = {} := by
  have hof := context.of_sight build unit
  rw [Context.Alarmed] at h
  rw [outcomeOf, Context.outcome_eq]
  cases hsight : context.sight build unit with
  | same => rfl
  | gone =>
    rw [hsight] at hof h
    exact absurd ⟨trivial, stale_of_none hunit hof⟩ h
  | unreadable =>
    rw [hsight] at hof h
    exact absurd ⟨trivial, stale_of_none hunit hof⟩ h
  | strange after =>
    rw [hsight] at hof h
    dsimp only
    rw [compareWith_eq hof.1, if_pos (misfits_isEmpty.2 fun hstale => h ⟨trivial, hstale⟩)]
  | known before after =>
    rw [hsight] at hof h
    dsimp only at h ⊢
    rw [compareWith_eq hof.1, hof.2]
    by_cases hstale : store.Stale build unit
    · -- the difference does not matter
      rw [if_neg (misfits_isEmpty.not.2 (not_not.2 hstale))]
      cases hgranularity : context.granularity with
      | unit =>
        rw [hgranularity] at h
        exact if_pos (by simpa [hstale] using h)
      | member =>
        rw [hgranularity] at h
        exact if_pos (by simpa [hstale] using h)
    · exact if_pos (misfits_isEmpty.2 hstale)

/-- **Where members are not compared, all that counts has changed.** -/
theorem outcomeOf_of_alarmed (halarmed : context.Alarmed build unit)
    (hstale : store.Stale build unit)
    (hcompared : ∀ before after, ¬context.Compared build unit before after) :
    ∃ deleted, outcomeOf context store build unit =
      { Outcome.everything (counted context.granularity store build unit) with deleted } := by
  have hof := context.of_sight build unit
  have hmisfits : ¬(misfits store build unit).isEmpty = true :=
    misfits_isEmpty.not.2 (not_not.2 hstale)
  rw [Context.Alarmed] at halarmed
  rw [outcomeOf, Context.outcome_eq]
  cases hsight : context.sight build unit with
  | same =>
    rw [hsight] at halarmed
    exact halarmed.elim
  | gone =>
    rw [hsight] at hof
    exact ⟨true, by rw [counted_of_none hof]⟩
  | unreadable =>
    rw [hsight] at hof
    exact ⟨false, by rw [counted_of_none hof]; rfl⟩
  | strange after =>
    rw [hsight] at hof
    dsimp only
    rw [compareWith_eq hof.1, hof.2, if_neg hmisfits]
    cases context.granularity <;> exact ⟨false, rfl⟩
  | known before after =>
    rw [hsight] at hof halarmed
    dsimp only at halarmed ⊢
    rw [compareWith_eq hof.1, hof.2, if_neg hmisfits]
    cases hgranularity : context.granularity with
    | unit =>
      rw [hgranularity] at halarmed
      exact ⟨false, if_neg (by simpa using halarmed)⟩
    | member =>
      rw [hgranularity] at halarmed
      exact absurd ⟨hgranularity, hsight, halarmed⟩ (hcompared before after)

/-- **Where members are compared, the comparison decides.** -/
theorem outcomeOf_of_compared (hcompared : context.Compared build unit before after)
    (hstale : store.Stale build unit) : outcomeOf context store build unit =
      { affected := context.affectedBy unit (store.recordsOf unit) before after
        changed := Context.changedIn unit before after
        hidden := context.hiddenBy before after } := by
  have hof := context.of_sight build unit
  rw [hcompared.sight] at hof
  have hkinds : ¬(classify before after).isEmpty = true := by
    rw [List.isEmpty_iff]
    exact hcompared.kinds
  rw [outcomeOf, Context.outcome_eq, hcompared.sight]
  dsimp only
  rw [compareWith_eq hof.1, hof.2, if_neg (misfits_isEmpty.not.2 (not_not.2 hstale)),
    hcompared.granularity]
  exact if_neg hkinds

/-- **The three ways in which a unit with records comes out.** -/
theorem outcomeOf_cases (context : Context) (build : Build) (hunit : unit ∈ store.owners) :
    (¬(context.Alarmed build unit ∧ store.Stale build unit) ∧
        outcomeOf context store build unit = {}) ∨
      (∃ before after, context.Compared build unit before after ∧ store.Stale build unit ∧
        outcomeOf context store build unit =
          { affected := context.affectedBy unit (store.recordsOf unit) before after
            changed := Context.changedIn unit before after
            hidden := context.hiddenBy before after }) ∨
      (∀ before after, ¬context.Compared build unit before after) ∧
        context.Alarmed build unit ∧ store.Stale build unit ∧
        ∃ deleted, outcomeOf context store build unit =
          { Outcome.everything (counted context.granularity store build unit) with deleted } := by
  by_cases hmoved : context.Alarmed build unit ∧ store.Stale build unit
  · obtain ⟨halarmed, hstale⟩ := hmoved
    by_cases hcompared : ∃ before after, context.Compared build unit before after
    · obtain ⟨before, after, hcompared⟩ := hcompared
      exact .inr (.inl ⟨before, after, hcompared, hstale, outcomeOf_of_compared hcompared hstale⟩)
    · simp only [not_exists] at hcompared
      exact .inr (.inr ⟨hcompared, halarmed, hstale,
        outcomeOf_of_alarmed halarmed hstale hcompared⟩)
  · exact .inl ⟨hmoved, outcomeOf_of_calm hunit hmoved⟩

theorem Context.Compared.alarmed (h : context.Compared build unit before after) :
    context.Alarmed build unit := by
  rw [Context.Alarmed, h.sight]
  dsimp only
  rw [h.granularity]
  exact h.kinds

theorem Context.Compared.unique {before' after' : Snapshot}
    (h : context.Compared build unit before after)
    (h' : context.Compared build unit before' after') : before' = before ∧ after' = after := by
  have hsight := h.sight.symm.trans h'.sight
  cases hsight
  exact ⟨rfl, rfl⟩

end Outcome

/-! ### Reasons -/

/-- Why a test is selected. -/
inductive Reason where
  /-- The store does not know the test. -/
  | unknown
  /-- A record of the test counts as changed. -/
  | record (id : Dependency)
  /-- The test depends on a unit, and on none of its members. -/
  | bystander (unit : UnitName)
  /-- The test has changed. -/
  | itself
  /-- A method of the test is hidden by a new one of a unit. -/
  | hidden (unit : UnitName) (id : Dependency)
  /-- The test may depend on anything, and a unit has changed. -/
  | anything (unit : UnitName)
  /-- The test may depend on anything, and a unit is new. -/
  | news (unit : UnitName)

namespace Reason

/-- **A store notes a reason.** -/
def Noted (granularity : Granularity) (store : Store) (build : Build) (t : UnitName) :
    Reason → Prop
  | unknown => t ∉ store.tests
  | record id => t ∈ testsOf store id ∧ store.Stale build id.owner ∧
      (granularity = .unit → store.Misfits build id)
  | bystander unit => t ∈ testsOf store (.unit unit) ∧ store.Stale build unit ∧
      ∀ id : Dependency, id.owner = unit → id.isUnit = false → t ∉ testsOf store id
  | itself => store.Stale build t
  | hidden unit id => t ∈ testsOf store id ∧ store.Stale build unit
  | anything unit => t ∈ store.wildcard ∧ store.Stale build unit
  | news unit => t ∈ store.wildcard ∧ unit ∉ store.owners

/-- **Snapshots raise a reason.** -/
def Raised (context : Context) (build : Build) (t : UnitName) : Reason → Prop
  | unknown => True
  | record id => context.Alarmed build id.owner ∧
      ∀ before after, context.Compared build id.owner before after →
        if id.isUnit then context.escalates id.owner (classify before after) = true ∨
          addedInstanceMethods before after ≠ ∅ ∧ context.inheritsFrom t id.owner = true
        else id ∈ Context.changedIn id.owner before after
  | bystander unit => ∃ before after, context.Compared build unit before after
  | itself => ∃ before after, context.Compared build t before after
  | hidden unit id => ∃ before after, context.Compared build unit before after ∧
      id ∈ context.hiddenBy before after
  | anything unit => context.Alarmed build unit
  | news unit => unit ∈ build.units ∧ context.settings.isExcluded unit = false ∧
      context.snapshots.get? unit = none

/-- **A reason holds** if the store notes it and the snapshots raise it. -/
def Holds (context : Context) (store : Store) (build : Build) (t : UnitName) (reason : Reason) :
    Prop :=
  reason.Noted context.granularity store build t ∧ reason.Raised context build t

end Reason

section Membership

variable {context : Context} {build : Build} {store : Store} {unit t : UnitName} {id : Dependency}
  {before after : Snapshot}

/-- The tests of the records of a unit that pass a test. -/
theorem mem_unions_filter {p : Dependency → Bool} :
    t ∈ SortedSet.unions (((store.recordsOf unit).filter fun id _ => p id).values.map
        StoreRecord.tests) ↔
      ∃ id : Dependency, id.owner = unit ∧ p id = true ∧ t ∈ testsOf store id := by
  simp only [Store.mem_unions_tests, SortedMap.get?_filter_eq_some,
    Store.get?_recordsOf_eq_some, Store.mem_testsOf]
  constructor
  · rintro ⟨id, record, ⟨⟨hget, howner⟩, hp⟩, ht⟩
    exact ⟨id, howner, hp, record, hget, ht⟩
  · rintro ⟨id, howner, hp, record, hget, ht⟩
    exact ⟨id, record, ⟨⟨hget, howner⟩, hp⟩, ht⟩

/-- The tests of the records of a unit that count as changed. -/
theorem mem_affected_counted {granularity : Granularity} :
    t ∈ (Outcome.everything (counted granularity store build unit)).affected ↔
      ∃ id : Dependency, id.owner = unit ∧ t ∈ testsOf store id ∧
        (granularity = .unit → store.Misfits build id) := by
  rw [Outcome.everything, Store.mem_unions_tests]
  cases granularity with
  | unit =>
    simp only [counted, get?_misfits, Store.mem_testsOf, forall_const]
    constructor
    · rintro ⟨id, record, ⟨⟨hget, howner⟩, hmisfit⟩, ht⟩
      exact ⟨id, howner, ⟨record, hget, ht⟩, record, hget, hmisfit⟩
    · rintro ⟨id, howner, ⟨record, hget, ht⟩, record', hget', hmisfit⟩
      cases hget.symm.trans hget'
      exact ⟨id, record, ⟨⟨hget, howner⟩, hmisfit⟩, ht⟩
  | member =>
    simp only [counted, Store.get?_recordsOf_eq_some, Store.mem_testsOf, reduceCtorEq,
      false_imp_iff, and_true]
    constructor
    · rintro ⟨id, record, ⟨hget, howner⟩, ht⟩
      exact ⟨id, howner, record, hget, ht⟩
    · rintro ⟨id, howner, record, hget, ht⟩
      exact ⟨id, record, ⟨hget, howner⟩, ht⟩

/-- **The tests that are concerned where members are compared**: those of a changed member, those of
the unit itself if that is called for or they use none of its members, and the unit if it is a
test. -/
theorem Context.mem_affectedBy_iff :
    t ∈ context.affectedBy unit (store.recordsOf unit) before after ↔
      (∃ id : Dependency, id.owner = unit ∧ t ∈ testsOf store id ∧
        if id.isUnit then context.escalates unit (classify before after) = true ∨
          addedInstanceMethods before after ≠ ∅ ∧ context.inheritsFrom t unit = true
        else id ∈ changedIn unit before after) ∨
      (t ∈ testsOf store (.unit unit) ∧
        ∀ id : Dependency, id.owner = unit → id.isUnit = false → t ∉ testsOf store id) ∨
      (t ∈ context.tests ∧ t = unit) := by
  have hdirect : t ∈ SortedSet.unions ((((store.recordsOf unit).filter fun id _ =>
      !id.isUnit).filter fun id _ => (changedIn unit before after).contains id).values.map
        StoreRecord.tests) ↔
        ∃ id : Dependency, id.owner = unit ∧ id.isUnit = false ∧ id ∈ changedIn unit before after ∧
          t ∈ testsOf store id := by
    simp only [Store.mem_unions_tests, SortedMap.get?_filter_eq_some,
      Store.get?_recordsOf_eq_some, Store.mem_testsOf, Bool.not_eq_true',
      SortedSet.contains_eq_true]
    constructor
    · rintro ⟨id, record, ⟨⟨⟨hget, howner⟩, hmember⟩, hchanged⟩, ht⟩
      exact ⟨id, howner, hmember, hchanged, record, hget, ht⟩
    · rintro ⟨id, howner, hmember, hchanged, record, hget, ht⟩
      exact ⟨id, record, ⟨⟨⟨hget, howner⟩, hmember⟩, hchanged⟩, ht⟩
  have hunit : t ∈ SortedSet.unions (((store.recordsOf unit).filter fun id _ =>
      id.isUnit).values.map StoreRecord.tests) ↔ t ∈ testsOf store (.unit unit) := by
    rw [mem_unions_filter]
    constructor
    · rintro ⟨id, rfl, hid, ht⟩
      rwa [← Dependency.eq_unit_of_isUnit hid]
    · exact fun ht => ⟨.unit unit, rfl, rfl, ht⟩
  have hothers : (!(SortedSet.unions (((store.recordsOf unit).filter fun id _ =>
      !id.isUnit).values.map StoreRecord.tests)).contains t) = true ↔
        ∀ id : Dependency, id.owner = unit → id.isUnit = false → t ∉ testsOf store id := by
    rw [Bool.not_eq_true', SortedSet.contains_eq_false, mem_unions_filter]
    simp only [Bool.not_eq_true', not_exists, not_and]
  have hadds : (!(addedInstanceMethods before after).isEmpty) = true ↔
      addedInstanceMethods before after ≠ ∅ := by
    rw [Bool.not_eq_true', ← Bool.not_eq_true, SortedSet.isEmpty_eq_true]
  rw [affectedBy, SortedSet.mem_union, SortedSet.mem_union, SortedSet.mem_filter,
    SortedSet.mem_filter, hdirect, hunit, Bool.or_eq_true, Bool.or_eq_true, Bool.and_eq_true,
    hothers, hadds, beq_iff_eq]
  constructor
  · rintro ((⟨id, howner, hmember, hchanged, ht⟩ | ⟨ht, h | h⟩) | h)
    · exact .inl ⟨id, howner, ht, by rwa [if_neg (by simp [hmember])]⟩
    · exact .inl ⟨.unit unit, rfl, ht, h⟩
    · exact .inr (.inl ⟨ht, h⟩)
    · exact .inr (.inr h)
  · rintro (⟨id, howner, ht, h⟩ | ⟨ht, h⟩ | h)
    · cases hid : id.isUnit with
      | true =>
        rw [if_pos hid] at h
        rw [Dependency.eq_unit_of_isUnit hid, howner] at ht
        exact .inl (.inr ⟨ht, .inl h⟩)
      | false =>
        rw [if_neg (by simp [hid])] at h
        exact .inl (.inl ⟨id, howner, hid, h, ht⟩)
    · exact .inl (.inr ⟨ht, .inr h⟩)
    · exact .inr h

/-- **Which tests an outcome concerns, and why.** -/
theorem mem_affected_outcomeOf (hunit : unit ∈ store.owners) (ht : t ∈ context.tests) :
    t ∈ (outcomeOf context store build unit).affected ↔
      (∃ id : Dependency, id.owner = unit ∧ (Reason.record id).Holds context store build t) ∨
        (Reason.bystander unit).Holds context store build t ∨
        (t = unit ∧ Reason.itself.Holds context store build t) := by
  obtain ⟨hcalm, houtcome⟩ | ⟨before, after, hcompared, hstale, houtcome⟩ |
    ⟨hcompared, halarmed, hstale, deleted, houtcome⟩ := outcomeOf_cases context build hunit
  · rw [houtcome]
    refine iff_of_false (SortedSet.not_mem_empty t) ?_
    rintro (⟨id, rfl, ⟨-, hstale, -⟩, halarmed, -⟩ | ⟨⟨-, hstale, -⟩, _, _, hcompared⟩ |
      ⟨rfl, hstale, _, _, hcompared⟩)
    · exact hcalm ⟨halarmed, hstale⟩
    · exact hcalm ⟨hcompared.alarmed, hstale⟩
    · exact hcalm ⟨hcompared.alarmed, hstale⟩
  · rw [houtcome, Context.mem_affectedBy_iff]
    constructor
    · rintro (⟨id, rfl, hid, h⟩ | ⟨hid, h⟩ | ⟨-, rfl⟩)
      · refine .inl ⟨id, rfl, ⟨hid, hstale, fun hunit => ?_⟩, hcompared.alarmed, fun _ _ hc => ?_⟩
        · cases hcompared.granularity.symm.trans hunit
        · obtain ⟨rfl, rfl⟩ := hcompared.unique hc
          exact h
      · exact .inr (.inl ⟨⟨hid, hstale, h⟩, before, after, hcompared⟩)
      · exact .inr (.inr ⟨rfl, hstale, before, after, hcompared⟩)
    · rintro (⟨id, rfl, ⟨hid, -, -⟩, -, h⟩ | ⟨⟨hid, -, h⟩, -⟩ | ⟨rfl, -⟩)
      · exact .inl ⟨id, rfl, hid, h before after hcompared⟩
      · exact .inr (.inl ⟨hid, h⟩)
      · exact .inr (.inr ⟨ht, rfl⟩)
  · rw [houtcome]
    refine mem_affected_counted.trans ⟨?_, ?_⟩
    · rintro ⟨id, rfl, hid, hmisfit⟩
      exact .inl ⟨id, rfl, ⟨hid, hstale, hmisfit⟩, halarmed,
        fun _ _ hc => absurd hc (hcompared _ _)⟩
    · rintro (⟨id, rfl, ⟨hid, -, hmisfit⟩, -⟩ | ⟨-, _, _, hc⟩ | ⟨rfl, -, _, _, hc⟩)
      · exact ⟨id, rfl, hid, hmisfit⟩
      · exact absurd hc (hcompared _ _)
      · exact absurd hc (hcompared _ _)

/-- **Which methods an outcome hides.** -/
theorem mem_hidden_outcomeOf (hunit : unit ∈ store.owners) :
    id ∈ (outcomeOf context store build unit).hidden ↔ store.Stale build unit ∧
      ∃ before after, context.Compared build unit before after ∧
        id ∈ context.hiddenBy before after := by
  obtain ⟨hcalm, houtcome⟩ | ⟨before, after, hcompared, hstale, houtcome⟩ |
    ⟨hcompared, -, -, deleted, houtcome⟩ := outcomeOf_cases context build hunit
  · rw [houtcome]
    refine iff_of_false (SortedSet.not_mem_empty id) ?_
    rintro ⟨hstale, _, _, hc, -⟩
    exact hcalm ⟨hc.alarmed, hstale⟩
  · rw [houtcome]
    constructor
    · exact fun hid => ⟨hstale, before, after, hcompared, hid⟩
    · rintro ⟨-, _, _, hc, hid⟩
      obtain ⟨rfl, rfl⟩ := hcompared.unique hc
      exact hid
  · rw [houtcome]
    refine iff_of_false (SortedSet.not_mem_empty id) ?_
    rintro ⟨-, _, _, hc, -⟩
    exact hcompared _ _ hc

/-- **Something has changed** if a unit is alarming and stale. -/
theorem changedIds_ne_empty_iff : changedIds context store build ≠ ∅ ↔
    ∃ unit, context.Alarmed build unit ∧ store.Stale build unit := by
  constructor
  · intro hne
    by_contra hcalm
    simp only [not_exists] at hcalm
    exact hne (changedIds_of_quiet fun unit hunit => outcomeOf_of_calm hunit (hcalm unit))
  · rintro ⟨unit, halarmed, hstale⟩ hempty
    have hchanged : ∃ id, id ∈ (outcomeOf context store build unit).changed := by
      obtain ⟨hcalm, -⟩ | ⟨before, after, -, -, houtcome⟩ | ⟨-, -, -, deleted, houtcome⟩ :=
        outcomeOf_cases context build hstale.mem_owners
      · exact absurd ⟨halarmed, hstale⟩ hcalm
      · rw [houtcome]
        exact ⟨.unit unit, Context.mem_changedIn.2 (.inl rfl)⟩
      · rw [houtcome]
        obtain ⟨id, howner, record, hget, hmisfit⟩ := hstale
        refine ⟨id, SortedMap.mem_keys.2 ⟨record, ?_⟩⟩
        cases context.granularity with
        | unit => exact get?_misfits.2 ⟨⟨hget, howner⟩, hmisfit⟩
        | member => exact Store.get?_recordsOf_eq_some.2 ⟨hget, howner⟩
    obtain ⟨id, hid⟩ := hchanged
    have hmem : id ∈ changedIds context store build :=
      mem_changedIds.2 ⟨unit, hstale.mem_owners, .inl hid⟩
    rw [hempty] at hmem
    exact SortedSet.not_mem_empty id hmem

theorem newUnits_ne_nil_iff : newUnits context store build ≠ [] ↔
    ∃ unit ∈ build.units, context.settings.isExcluded unit = false ∧
      context.snapshots.get? unit = none ∧ unit ∉ store.owners := by
  rw [Ne, List.eq_nil_iff_forall_not_mem, not_forall_not]
  simp only [newUnits, List.mem_filter, Bool.and_eq_true, Bool.not_eq_true',
    SortedSet.contains_eq_false, SortedMap.contains, Option.isSome_eq_false_iff,
    Option.isNone_iff_eq_none, and_assoc]

/-- **A test is selected exactly if there is a reason.** -/
theorem mem_affected_iff_reason : t ∈ (diff context store build).affected ↔
    t ∈ context.tests ∧ ∃ reason : Reason, reason.Holds context store build t := by
  rw [mem_affected_diff]
  refine and_congr_right fun ht => ⟨?_, ?_⟩
  · rintro (⟨unit, hunit, h⟩ | ⟨unit, hunit, id, hid, h⟩ | ⟨hstirred, h⟩ | h)
    · obtain ⟨id, -, h⟩ | h | ⟨-, h⟩ := (mem_affected_outcomeOf hunit ht).1 h
      · exact ⟨_, h⟩
      · exact ⟨_, h⟩
      · exact ⟨_, h⟩
    · obtain ⟨hstale, hraised⟩ := (mem_hidden_outcomeOf hunit).1 hid
      exact ⟨.hidden unit id, ⟨h, hstale⟩, hraised⟩
    · rcases hstirred with hchanged | hnew
      · obtain ⟨unit, halarmed, hstale⟩ := changedIds_ne_empty_iff.1 hchanged
        exact ⟨.anything unit, ⟨h, hstale⟩, halarmed⟩
      · obtain ⟨unit, hunit, hexcluded, hnone, howner⟩ := newUnits_ne_nil_iff.1 hnew
        exact ⟨.news unit, ⟨h, howner⟩, hunit, hexcluded, hnone⟩
    · exact ⟨.unknown, h, trivial⟩
  · rintro ⟨reason, hnoted, hraised⟩
    cases reason with
    | unknown => exact .inr (.inr (.inr hnoted))
    | record id =>
      have hunit := hnoted.2.1.mem_owners
      exact .inl ⟨id.owner, hunit,
        (mem_affected_outcomeOf hunit ht).2 (.inl ⟨id, rfl, hnoted, hraised⟩)⟩
    | bystander unit =>
      have hunit := hnoted.2.1.mem_owners
      exact .inl ⟨unit, hunit, (mem_affected_outcomeOf hunit ht).2 (.inr (.inl ⟨hnoted, hraised⟩))⟩
    | itself =>
      have hunit := Store.Stale.mem_owners hnoted
      exact .inl ⟨t, hunit,
        (mem_affected_outcomeOf hunit ht).2 (.inr (.inr ⟨rfl, hnoted, hraised⟩))⟩
    | hidden unit id =>
      have hunit := hnoted.2.mem_owners
      exact .inr (.inl ⟨unit, hunit, id, (mem_hidden_outcomeOf hunit).2 ⟨hnoted.2, hraised⟩,
        hnoted.1⟩)
    | anything unit =>
      have hchanged := changedIds_ne_empty_iff.2 ⟨unit, hraised, hnoted.2⟩
      exact .inr (.inr (.inl ⟨.inl hchanged, hnoted.1⟩))
    | news unit =>
      obtain ⟨hunit, hexcluded, hnone⟩ := hraised
      have hnew := newUnits_ne_nil_iff.2 ⟨unit, hunit, hexcluded, hnone, hnoted.2⟩
      exact .inr (.inr (.inl ⟨.inr hnew, hnoted.1⟩))

/-! ### A reason that is easy to see -/

/-- A test of a record is selected if the unit is gone. -/
theorem Reason.noted_of_gone {granularity : Granularity} (ht : t ∈ testsOf store id)
    (hgone : build.locate id.owner = none) :
    (Reason.record id).Noted granularity store build t := by
  obtain ⟨record, hget, -⟩ := Store.mem_testsOf.1 ht
  have hmisfits : store.Misfits build id := by
    refine ⟨record, hget, ?_⟩
    rw [Build.fingerprint?, Build.snapshot?, hgone]
    nofun
  exact ⟨ht, ⟨id, rfl, hmisfits⟩, fun _ => hmisfits⟩

theorem Reason.raised_of_gone (hgone : build.locate id.owner = none) :
    (Reason.record id).Raised context build t := by
  have hsight : context.sight build id.owner = .gone := by rw [Context.sight, hgone]
  refine ⟨by rw [Context.Alarmed, hsight]; trivial, fun before after hcompared => ?_⟩
  cases hsight.symm.trans hcompared.sight

end Membership

end Selection

end Retest

import Retest.Proofs.Selection.Run
import Retest.Proofs.Snapshot.Change

/-!
# Names that the store can keep

The next store has a record for each unit that can be read, and when members are
tracked for each of its members, under their names as the class file gives them.
A class file may give names that do not come back from the text of a store: a
method may be called `do it`, a field `a#b`. `Retest.Store.readsBack_next_iff_plain`
says when all records of the next store can be found again in its text: exactly if
all names that are recorded are plain. Then the store is read as it was written. A
record with another name is lost.
-/

namespace Retest

/-! ### What is recorded of a class file -/

namespace ClassFile

variable {file : ClassFile} {granularity : Granularity} {id : Dependency}

/-- **The dependencies that get a record** for a class file. The slot of a field is cut at its first
colon. -/
def recorded (granularity : Granularity) (file : ClassFile) : List Dependency :=
  .unit file.name :: match granularity with
    | .unit => []
    | .member =>
      file.methods.map (fun m => .method ⟨file.name, m.slot⟩) ++
        file.fields.filterMap fun f => (FieldKey.ofSlot? file.name f.slot).map .field

/-- They are those that are tracked and have a fingerprint. -/
theorem mem_recorded (crc : UInt32) : id ∈ file.recorded granularity ↔
    id.IsTracked granularity ∧ ∃ f, (Snapshot.ofClass file crc).fingerprint? id = some f := by
  constructor
  · intro hid
    rcases List.mem_cons.1 hid with rfl | hid
    · exact ⟨trivial, _, Snapshot.fingerprint?_unit rfl⟩
    cases granularity with
    | unit => cases hid
    | member =>
      rcases List.mem_append.1 hid with hid | hid
      · have hmember : id ∈ file.members := List.mem_append_left _ hid
        obtain ⟨m, -, rfl⟩ := List.mem_map.1 hid
        exact ⟨rfl, exists_fingerprint? crc hmember⟩
      · obtain ⟨f, hf, hid⟩ := List.mem_filterMap.1 hid
        obtain ⟨key, hkey, rfl⟩ := Option.map_eq_some_iff.1 hid
        obtain ⟨howner, hslot, hcolon⟩ := FieldKey.ofSlot?_eq_some_iff.1 hkey
        refine ⟨⟨rfl, hcolon⟩, ?_⟩
        rw [Snapshot.fingerprint?_field howner, Snapshot.field?, ← FieldKey.slot, hslot]
        exact Snapshot.exists_get?_slots hf rfl
  · rintro ⟨htracked, fingerprint, hget⟩
    have howner := Snapshot.owner_of_fingerprint? hget
    cases id with
    | unit name =>
      obtain rfl : name = file.name := howner
      exact List.mem_cons_self
    | method key =>
      obtain ⟨owner, signature⟩ := key
      obtain rfl : owner = file.name := howner
      obtain rfl : granularity = .member := htracked
      rw [Snapshot.fingerprint?_method rfl] at hget
      refine List.mem_cons_of_mem _ (List.mem_append_left _ (List.mem_map.2 ?_))
      obtain hget | hget | hget := Snapshot.get?_of_method? hget
      all_goals
        obtain ⟨m, hm, -, rfl, -⟩ := Snapshot.exists_of_get?_slots hget
        exact ⟨m, hm, rfl⟩
    | field key =>
      obtain ⟨rfl, hcolon⟩ := htracked
      rw [Snapshot.fingerprint?_field howner] at hget
      obtain ⟨f, hf, -, hslot, -⟩ := Snapshot.exists_of_get?_slots hget
      refine List.mem_cons_of_mem _ (List.mem_append_right _ (List.mem_filterMap.2 ⟨f, hf, ?_⟩))
      have hkey : FieldKey.ofSlot? file.name f.slot = some key :=
        FieldKey.ofSlot?_eq_some_iff.2 ⟨howner, hslot.symm, hcolon⟩
      rw [hkey]
      rfl

end ClassFile

/-- **A build with plain names**: all that is recorded of its class files has plain names. -/
def Build.HasPlainNames (build : Build) (settings : Settings) (granularity : Granularity) : Prop :=
  ∀ e ∈ build.parsed settings, ∀ id ∈ e.2.file.recorded granularity, id.IsPlain

instance (build : Build) (settings : Settings) (granularity : Granularity) :
    Decidable (build.HasPlainNames settings granularity) :=
  inferInstanceAs (Decidable (∀ e ∈ build.parsed settings, _))

theorem Build.readsBack_analyze_iff_plain {build : Build} {settings : Settings}
    {external : List (UnitName × UnitName)} {granularity : Granularity} :
    (build.analyze settings external).ReadsBack granularity ↔
      build.HasPlainNames settings granularity := by
  constructor
  · rintro h ⟨unit, p⟩ hp id hid
    obtain ⟨bytes, -, -, hname, hs⟩ := Build.of_parse (Build.mem_parsed.1 hp).2
    obtain ⟨htracked, f, hf⟩ := (ClassFile.mem_recorded (Digest.Crc32.check bytes)).1 hid
    have howner : id.owner = unit := (Snapshot.owner_of_fingerprint? hf).trans hname
    refine Dependency.readsBack_iff.1 (h id htracked f (Analysis.fingerprint?_eq_some.2 ?_))
    exact ⟨p.snapshot, Build.get?_snapshots_analyze.2 ⟨p, howner ▸ hp, rfl⟩, hs ▸ hf⟩
  · intro h id htracked f hf
    obtain ⟨s, hs, hf⟩ := Analysis.fingerprint?_eq_some.1 hf
    obtain ⟨p, hp, rfl⟩ := Build.get?_snapshots_analyze.1 hs
    obtain ⟨bytes, -, -, -, hs⟩ := Build.of_parse (Build.mem_parsed.1 hp).2
    rw [hs] at hf
    exact Dependency.readsBack_iff.2 (h (id.owner, p) hp id
      ((ClassFile.mem_recorded _).2 ⟨htracked, f, hf⟩))

namespace Store

variable {renewal : Renewal} {previous : Store}

/-! ### What the next store keeps -/

/-- **The records of the next store come back exactly if names are plain.** If they are, and tests
have names that can stand between commas, then all of the store is read as it was written; and
whatever is read, it holds no record whose dependency does not read back. -/
theorem readsBack_next_iff_plain {build : Build} {settings : Settings}
    {external : List (UnitName × UnitName)} {granularity : Granularity}
    {tests refreshed : SortedSet UnitName} {next : Store}
    (hprevious : ∀ {id record}, previous.records.get? id = some record → id.ReadsBack)
    (hnext : next =
      previous.next ⟨build.analyze settings external, granularity, tests, refreshed⟩) :
    ((∀ {id record}, next.records.get? id = some record → id.ReadsBack) ↔
        build.HasPlainNames settings granularity) ∧
      ∀ d d', (persist next (build.analyze settings external) settings).run.run d = (.ok (), d') →
        (build.HasPlainNames settings granularity →
          (∀ {id record}, previous.records.get? id = some record → record.fingerprint.IsHex) →
          (∀ t, t ∈ previous.tests ∨ t ∈ tests ∨ t ∈ refreshed → IsTestName t) →
          d'.loadStore = some { next with
            knownTests := next.listedIn (settings.encodingFor next.tests.size) }) ∧
        ∀ loaded, d'.loadStore = some loaded →
          ∀ id : Dependency, ¬id.ReadsBack → loaded.records.get? id = none := by
  subst hnext
  have hcoherent := build.coherent_analyze settings external
  have hiff := (@readsBack_next_iff ⟨_, granularity, tests, refreshed⟩ _ hcoherent hprevious).trans
    Build.readsBack_analyze_iff_plain
  refine ⟨hiff, fun d d' hpersist =>
    ⟨fun hplain hhex htests => ?_, fun loaded hloaded id hid => ?_⟩⟩
  · obtain ⟨-, -, rfl⟩ := (persist_eq_ok (validate_next hcoherent previous)).1 hpersist
    rw [StoreDirectory.loadStore_written]
    exact parse?_render_of_isTestName (hiff.2 hplain) (isHex_next hcoherent hhex)
      (fun t ht => htests t (mem_tests_next hcoherent ht)) _
  · rw [Option.eq_none_iff_forall_ne_some]
    intro record hget
    exact hid ((StoreDirectory.readable_of_loadStore hloaded).readsBack hget)

/-- What is stored after a first run of the test on a build. -/
def sampleNext (build : Build) : Store :=
  Store.next {} ⟨build.analyze {} [], .member, .ofList ["shop.CartTest"],
    .ofList ["shop.CartTest"]⟩

theorem loadStore_sampleNext : ∃ d',
    (persist (sampleNext sampleBuild) (sampleBuild.analyze {} []) {}).run.run ⟨"store", none⟩ =
      (.ok (), d') ∧
    d'.loadStore = some { sampleNext sampleBuild with
      knownTests := (sampleNext sampleBuild).listedIn
        (Settings.encodingFor {} (sampleNext sampleBuild).tests.size) } := by
  have hnone : ∀ {id record}, ({} : Store).records.get? id = some record → False := by
    intro id record h
    cases (SortedMap.get?_empty id).symm.trans h
  have hnext : sampleNext sampleBuild = Store.next {} ⟨sampleBuild.analyze {} [], .member,
      .ofList ["shop.CartTest"], .ofList ["shop.CartTest"]⟩ := rfl
  have hvalid : (sampleNext sampleBuild).validate (sampleBuild.analyze {} []).knows = .ok () :=
    @validate_next ⟨_, _, _, _⟩ (sampleBuild.coherent_analyze {} []) {}
  have hrun : (persist (sampleNext sampleBuild) (sampleBuild.analyze {} []) {}).run.run
      ⟨"store", none⟩ = (.ok (), StoreDirectory.written ⟨"store", none⟩ {} (sampleNext sampleBuild)
        (sampleBuild.analyze {} []).snapshots.values) :=
    (persist_eq_ok hvalid).2 ⟨by decide, by decide, rfl⟩
  obtain ⟨-, hkept⟩ := readsBack_next_iff_plain (fun h => (hnone h).elim) hnext
  refine ⟨_, hrun, (hkept _ _ hrun).1 (by decide +kernel) (fun h => (hnone h).elim) ?_⟩
  rintro t (ht | ht | ht)
  · cases ht
  all_goals
    rw [SortedSet.mem_ofList, List.mem_singleton] at ht
    rw [ht]
    decide

/-- A method with a space in its name is called by another. -/
def sampleSpaced : ClassSpec :=
  (ClassSpec.addMethod { name := "shop.Cart" }
    { access := 0x0008, name := "do it", descriptor := "()I"
      code := some [.iconst 3, .ireturn] }).addMethod
    { access := 0x0001, name := "total", descriptor := "()I"
      code := some [.member 0xb8 "shop.Cart" "do it" "()I", .ireturn] }

/-- The test depends on the method, but the record will be lost. -/
theorem not_readsBack_sampleSpaced :
    (∃ record, (sampleNext (buildWith sampleSpaced)).records.get?
        (.method ⟨"shop.Cart", "do it()I"⟩) = some record ∧ "shop.CartTest" ∈ record.tests) ∧
      ¬(Dependency.method ⟨"shop.Cart", "do it()I"⟩).ReadsBack := by
  have hrecord : ((sampleNext (buildWith sampleSpaced)).records.get?
      (.method ⟨"shop.Cart", "do it()I"⟩)).any (·.tests.contains "shop.CartTest") = true := by
    decide +kernel
  obtain ⟨record, hget, ht⟩ := (Option.any_eq_true _ _).1 hrecord
  exact ⟨⟨record, hget, SortedSet.contains_eq_true.1 ht⟩, by decide +kernel⟩

end Store

end Retest

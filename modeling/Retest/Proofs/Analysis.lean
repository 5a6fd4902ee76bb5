import Retest.Analysis
import Retest.Proofs.Sorted
import Retest.Proofs.Store.Line

/-!
# What an analysis knows

The analysis of a build has a snapshot for each unit that can be read, under the
name of the unit (`Retest.Build.get?_snapshots_analyze`), and lists the others as
failed. Its parts fit together (`Retest.Analysis.Coherent`): a snapshot stands
under its own name, no unit with a snapshot has failed, and every fingerprint was
computed, so it reads back.
-/

namespace Retest

/-! ### Fingerprints in a snapshot -/

namespace Snapshot

/-- A fingerprint by slot is that of a member with the slot. -/
theorem exists_of_get?_slots {α : Type} {members : List α} {keep : α → Bool} {slot : α → String}
    {fingerprint : α → Fingerprint} {k : String} {f : Fingerprint}
    (h : (slots members keep slot fingerprint).get? k = some f) :
    ∃ m ∈ members, keep m = true ∧ slot m = k ∧ fingerprint m = f := by
  obtain ⟨m, hm, he⟩ := List.mem_map.1 (SortedMap.mem_of_get?_ofList h)
  obtain ⟨hslot, hf⟩ := Prod.mk.inj he
  exact ⟨m, (List.mem_filter.1 hm).1, (List.mem_filter.1 hm).2, hslot, hf⟩

@[simp] theorem name_ofClass (file : ClassFile) (crc : UInt32) :
    (ofClass file crc).name = file.name := rfl

@[simp] theorem crc_ofClass (file : ClassFile) (crc : UInt32) : (ofClass file crc).crc = crc := rfl

/-- The fingerprint of a method is found among those of its kind. -/
theorem get?_of_method? {s : Snapshot} {signature : Signature} {f : Fingerprint}
    (h : s.method? signature = some f) :
    s.constructors.get? signature = some f ∨ s.instanceMethods.get? signature = some f ∨
      s.staticMethods.get? signature = some f := by
  rw [method?] at h
  cases hc : s.constructors.get? signature with
  | some g => simp_all
  | none =>
    cases hi : s.instanceMethods.get? signature <;> simp_all

/-- A dependency has a fingerprint only in the snapshot of its owner. -/
theorem owner_of_fingerprint? {s : Snapshot} {id : Dependency} {f : Fingerprint}
    (h : s.fingerprint? id = some f) : id.owner = s.name := by
  rw [fingerprint?.eq_def] at h
  split at h
  · cases h
  · next ho => exact not_not.1 ho

theorem fingerprint?_unit {s : Snapshot} {u : UnitName} (h : u = s.name) :
    s.fingerprint? (.unit u) = some s.whole := if_neg (not_not.2 h)

theorem fingerprint?_method {s : Snapshot} {k : MethodKey} (h : k.owner = s.name) :
    s.fingerprint? (.method k) = s.method? k.signature := if_neg (not_not.2 h)

theorem fingerprint?_field {s : Snapshot} {k : FieldKey} (h : k.owner = s.name) :
    s.fingerprint? (.field k) = s.field? k.name k.descriptor := if_neg (not_not.2 h)

/-- All fingerprints of a class file read back. -/
theorem isHex_of_fingerprint?_ofClass {file : ClassFile} {crc : UInt32} {id : Dependency}
    {f : Fingerprint} (h : (ofClass file crc).fingerprint? id = some f) : f.IsHex := by
  have ho := owner_of_fingerprint? h
  cases id with
  | unit name =>
    rw [fingerprint?_unit (u := name) ho] at h
    cases h
    exact Fingerprint.isHex_ordered _
  | method key =>
    rw [fingerprint?_method (k := key) ho] at h
    obtain h | h | h := get?_of_method? h
    all_goals
      obtain ⟨m, -, -, -, rfl⟩ := exists_of_get?_slots h
      exact Fingerprint.isHex_ordered _
  | field key =>
    rw [fingerprint?_field (k := key) ho] at h
    obtain ⟨m, -, -, -, rfl⟩ := exists_of_get?_slots h
    exact Fingerprint.isHex_ordered _

end Snapshot

/-! ### Units that can be read -/

namespace Build

/-- What is read of a unit is what its class file declares. -/
theorem of_parseBytes {unit : UnitName} {bytes : List UInt8} {p : ParsedUnit}
    (h : parseBytes unit bytes = .ok p) :
    ClassFile.decode bytes = .ok p.file ∧ p.file.name = unit ∧
      p.snapshot = Snapshot.ofClass p.file (Digest.Crc32.check bytes) := by
  rw [parseBytes, Snapshot.decode] at h
  cases hd : ClassFile.decode bytes with
  | error fault => rw [hd] at h; cases h
  | ok file =>
    rw [hd] at h
    simp only [bind, Except.bind, pure, Except.pure] at h
    split at h
    · next hname =>
      cases h
      exact ⟨rfl, hname, rfl⟩
    · cases h

theorem of_parse {build : Build} {unit : UnitName} {p : ParsedUnit} (h : build.parse unit = .ok p) :
    ∃ bytes, build.locate unit = some bytes ∧ ClassFile.decode bytes = .ok p.file ∧
      p.file.name = unit ∧ p.snapshot = Snapshot.ofClass p.file (Digest.Crc32.check bytes) := by
  rw [parse] at h
  split at h
  · cases h
  · next bytes hbytes => exact ⟨bytes, hbytes, of_parseBytes h⟩

variable {build : Build} {settings : Settings}

theorem mem_parsed {unit : UnitName} {p : ParsedUnit} :
    (unit, p) ∈ build.parsed settings ↔
      unit ∈ build.relevant settings ∧ build.parse unit = .ok p := by
  rw [parsed, List.mem_filterMap]
  constructor
  · rintro ⟨u, hu, h⟩
    cases hp : build.parse u with
    | error e => rw [hp] at h; cases h
    | ok q =>
      rw [hp] at h
      cases h
      exact ⟨hu, hp⟩
  · rintro ⟨hu, hp⟩
    exact ⟨unit, hu, by rw [hp]; rfl⟩

/-- What is read of a unit declares it. -/
theorem name_of_mem_parsed {unit : UnitName} {p : ParsedUnit}
    (h : (unit, p) ∈ build.parsed settings) : p.file.name = unit := by
  obtain ⟨-, -, -, hname, -⟩ := of_parse (mem_parsed.1 h).2
  exact hname

/-- A unit is read in one way. -/
theorem eq_of_mem_parsed {unit : UnitName} {p q : ParsedUnit}
    (hp : (unit, p) ∈ build.parsed settings) (hq : (unit, q) ∈ build.parsed settings) : q = p :=
  Except.ok.inj ((mem_parsed.1 hq).2.symm.trans (mem_parsed.1 hp).2)

variable {external : List (UnitName × UnitName)}

/-- **The snapshots of an analysis** are those of the units that can be read. -/
theorem get?_snapshots_analyze {unit : UnitName} {s : Snapshot} :
    (build.analyze settings external).snapshots.get? unit = some s ↔
      ∃ p, (unit, p) ∈ build.parsed settings ∧ p.snapshot = s := by
  have hmem : ∀ s, (unit, s) ∈ (build.parsed settings).map (fun e => (e.1, e.2.snapshot)) ↔
      ∃ p, (unit, p) ∈ build.parsed settings ∧ p.snapshot = s := fun s => by
    rw [List.mem_map]
    constructor
    · rintro ⟨⟨u, p⟩, hp, he⟩
      cases he
      exact ⟨p, hp, rfl⟩
    · rintro ⟨p, hp, rfl⟩
      exact ⟨(unit, p), hp, rfl⟩
  refine (SortedMap.get?_ofList_eq_some_iff fun s s' hs hs' => ?_).trans (hmem s)
  -- a unit may be listed twice, but it is read in one way
  obtain ⟨p, hp, rfl⟩ := (hmem s).1 hs
  obtain ⟨q, hq, rfl⟩ := (hmem s').1 hs'
  rw [eq_of_mem_parsed hp hq]

/-- A snapshot of an analysis was taken of a class file that declares the unit. -/
theorem exists_ofClass_of_snapshot {unit : UnitName} {s : Snapshot}
    (h : (build.analyze settings external).snapshots.get? unit = some s) :
    unit ∈ build.relevant settings ∧ ∃ bytes file, build.locate unit = some bytes ∧
      ClassFile.decode bytes = .ok file ∧ file.name = unit ∧
      s = Snapshot.ofClass file (Digest.Crc32.check bytes) := by
  obtain ⟨p, hp, rfl⟩ := get?_snapshots_analyze.1 h
  obtain ⟨hrelevant, hparse⟩ := mem_parsed.1 hp
  obtain ⟨bytes, hclass⟩ := of_parse hparse
  exact ⟨hrelevant, bytes, p.file, hclass⟩

/-- It has the checksum of the class file. -/
theorem exists_locate_of_snapshot {unit : UnitName} {s : Snapshot}
    (h : (build.analyze settings external).snapshots.get? unit = some s) :
    unit ∈ build.relevant settings ∧
      ∃ bytes, build.locate unit = some bytes ∧ s.crc = Digest.Crc32.check bytes := by
  obtain ⟨hrelevant, bytes, file, hlocate, -, -, rfl⟩ := exists_ofClass_of_snapshot h
  exact ⟨hrelevant, bytes, hlocate, Snapshot.crc_ofClass file _⟩

theorem mem_failed_analyze {unit : UnitName} :
    unit ∈ (build.analyze settings external).failed ↔
      unit ∈ build.relevant settings ∧ ∀ p, build.parse unit ≠ .ok p := by
  rw [analyze, SortedSet.mem_ofList, unparsed, List.mem_filter]
  refine and_congr_right fun _ => ?_
  cases build.parse unit <;> simp [Except.toOption]

/-- **Every unit can be read**: its class file is there, and declares the unit. -/
def AllRead (build : Build) (settings : Settings) : Prop :=
  ∀ unit ∈ build.relevant settings, ∃ p, build.parse unit = .ok p

instance (build : Build) (settings : Settings) : Decidable (build.AllRead settings) :=
  decidable_of_iff
    (∀ unit ∈ build.relevant settings, (build.parse unit).toOption.isSome = true) <| by
    refine forall₂_congr fun unit _ => ?_
    cases build.parse unit <;> simp [Except.toOption]

theorem AllRead.failed_eq_empty (h : build.AllRead settings) :
    (build.analyze settings external).failed = ∅ := by
  refine SortedSet.eq_empty_of_forall fun unit hunit => ?_
  obtain ⟨hrelevant, hfails⟩ := mem_failed_analyze.1 hunit
  obtain ⟨p, hp⟩ := h unit hrelevant
  exact hfails p hp

theorem AllRead.not_mem_failed (h : build.AllRead settings) (unit : UnitName) :
    unit ∉ (build.analyze settings external).failed := by
  rw [h.failed_eq_empty]
  exact SortedSet.not_mem_empty unit

end Build

/-! ### The parts fit together -/

/-- **An analysis whose parts fit together.** -/
structure Analysis.Coherent (analysis : Analysis) : Prop where
  /-- A snapshot stands under its own name. -/
  named : ∀ {unit s}, analysis.snapshots.get? unit = some s → s.name = unit
  /-- A unit with a snapshot has not failed. -/
  apart : ∀ {unit s}, analysis.snapshots.get? unit = some s → unit ∉ analysis.failed
  /-- Every fingerprint reads back. -/
  isHex : ∀ {id f}, analysis.fingerprint? id = some f → f.IsHex

theorem Build.coherent_analyze (build : Build) (settings : Settings)
    (external : List (UnitName × UnitName)) : (build.analyze settings external).Coherent where
  named h := by
    obtain ⟨-, bytes, file, -, -, hname, rfl⟩ := exists_ofClass_of_snapshot h
    exact hname
  apart h hfailed := by
    obtain ⟨p, hp, rfl⟩ := get?_snapshots_analyze.1 h
    exact (mem_failed_analyze.1 hfailed).2 p (mem_parsed.1 hp).2
  isHex h := by
    obtain ⟨s, hs, h⟩ := Option.bind_eq_some_iff.1 h
    obtain ⟨-, bytes, file, -, -, -, rfl⟩ := exists_ofClass_of_snapshot hs
    exact Snapshot.isHex_of_fingerprint?_ofClass h

end Retest

import Retest.Proofs.Inventory
import Retest.Proofs.Selection.Run
import Retest.Selection.Tests

/-!
# Two ways of finding tests

Tests are found from an analysis, or by a scan that reads only the class files of
test fixtures. Both leave out abstract classes and interfaces, and of the units
that are left out neither knows anything; and where the class file of a fixture
declares its unit, the two agree about it.

They differ about class files that an analysis cannot use. For a scan a class file
that cannot be read holds a test, since it may, and a class file that declares
another unit is judged like any other; an analysis knows of no such unit.
`Retest.Build.tests_analyze_eq_scanTests_iff` says that this is the only difference:
an analysis finds just those tests of a scan that have not failed, in the same
order.
-/

namespace Retest

namespace Build

variable {build : Build} {settings : Settings} {external : List (UnitName × UnitName)}
  {unit : UnitName}

/-- **The units of an analysis** are those that can be read. -/
theorem get?_units_analyze {info : UnitInfo} :
    (build.analyze settings external).inventory.units.get? unit = some info ↔
      ∃ p, (unit, p) ∈ build.parsed settings ∧ p.file.info = info := by
  have hunits : (build.analyze settings external).inventory.units =
      .ofList ((((build.parsed settings).map (·.2.file)).filter fun file =>
        !settings.isExcluded file.name).map fun file => (file.name, file.info)) :=
    Declarations.units_addClasses settings {} _
  have hmem : ∀ info, (unit, info) ∈ (((build.parsed settings).map (·.2.file)).filter fun file =>
      !settings.isExcluded file.name).map (fun file => (file.name, file.info)) ↔
        ∃ p, (unit, p) ∈ build.parsed settings ∧ p.file.info = info := by
    intro info
    simp only [List.mem_map, List.mem_filter, Prod.mk.injEq]
    constructor
    · rintro ⟨_, ⟨⟨⟨u, p⟩, hp, rfl⟩, -⟩, rfl, rfl⟩
      rw [name_of_mem_parsed hp]
      exact ⟨p, hp, rfl⟩
    · rintro ⟨p, hp, rfl⟩
      have hname := name_of_mem_parsed hp
      refine ⟨p.file, ⟨⟨(unit, p), hp, rfl⟩, ?_⟩, hname, rfl⟩
      rw [hname]
      exact (List.mem_filter.1 (mem_parsed.1 hp).1).2
  rw [hunits]
  refine (SortedMap.get?_ofList_eq_some_iff fun info other hinfo hother => ?_).trans (hmem info)
  obtain ⟨p, hp, rfl⟩ := (hmem info).1 hinfo
  obtain ⟨q, hq, rfl⟩ := (hmem other).1 hother
  rw [eq_of_mem_parsed hp hq]

/-! ### Tests that are found -/

theorem mem_tests_analyze :
    unit ∈ (build.analyze settings external).tests settings ↔
      ∃ p, (unit, p) ∈ build.parsed settings ∧ settings.isFixture unit = true ∧
        p.file.access.isInterface = false ∧ p.file.access.isAbstract = false := by
  rw [Analysis.tests, SortedSet.mem_toList, SortedMap.mem_keys]
  simp only [SortedMap.get?_filter_eq_some, get?_units_analyze, Bool.and_eq_true,
    Bool.not_eq_true']
  constructor
  · rintro ⟨_, ⟨p, hp, rfl⟩, ⟨hinterface, habstract⟩, hfixture⟩
    exact ⟨p, hp, hfixture, hinterface, habstract⟩
  · rintro ⟨p, hp, hfixture, hinterface, habstract⟩
    exact ⟨p.file.info, ⟨p, hp, rfl⟩, ⟨hinterface, habstract⟩, hfixture⟩

theorem mem_scanTests :
    unit ∈ build.scanTests settings ↔
      unit ∈ build.relevant settings ∧ settings.isFixture unit = true ∧
        ∃ bytes, build.locate unit = some bytes ∧ canHoldTest bytes = true := by
  rw [scanTests, List.mem_filter, Bool.and_eq_true, Option.any_eq_true]

/-- A class file that can be read holds a test unless it is abstract or an interface. -/
theorem canHoldTest_of_decode {bytes : List UInt8} {file : ClassFile}
    (h : ClassFile.decode bytes = .ok file) :
    canHoldTest bytes = true ↔
      file.access.isInterface = false ∧ file.access.isAbstract = false := by
  rw [canHoldTest, h]
  simp only [Bool.and_eq_true, Bool.not_eq_true']

/-- An analysis finds the tests that a scan finds and that have not failed. -/
theorem mem_tests_analyze_iff :
    unit ∈ (build.analyze settings external).tests settings ↔
      unit ∈ build.scanTests settings ∧ unit ∉ (build.analyze settings external).failed := by
  rw [mem_tests_analyze, mem_scanTests, mem_failed_analyze]
  constructor
  · rintro ⟨p, hp, hfixture, hkind⟩
    obtain ⟨hrelevant, hparse⟩ := mem_parsed.1 hp
    obtain ⟨bytes, hlocate, hdecode, -⟩ := of_parse hparse
    exact ⟨⟨hrelevant, hfixture, bytes, hlocate, (canHoldTest_of_decode hdecode).2 hkind⟩,
      fun hfailed => hfailed.2 p hparse⟩
  · rintro ⟨⟨hrelevant, hfixture, bytes, hlocate, hholds⟩, hread⟩
    obtain ⟨p, hparse⟩ : ∃ p, build.parse unit = .ok p := by
      by_contra hfails
      exact hread ⟨hrelevant, fun p hp => hfails ⟨p, hp⟩⟩
    obtain ⟨bytes', hlocate', hdecode, -⟩ := of_parse hparse
    cases hlocate.symm.trans hlocate'
    exact ⟨p, mem_parsed.2 ⟨hrelevant, hparse⟩, hfixture, (canHoldTest_of_decode hdecode).1 hholds⟩

/-- A fixture **that only a scan takes for a test**: its class file cannot be read, or
declares another unit and is neither abstract nor an interface. -/
def OnlyScanned (build : Build) (settings : Settings) (unit : UnitName) : Prop :=
  unit ∈ build.relevant settings ∧ settings.isFixture unit = true ∧
    ∃ bytes, build.locate unit = some bytes ∧
      ((∃ fault, ClassFile.decode bytes = .error fault) ∨
        ∃ file, ClassFile.decode bytes = .ok file ∧ file.name ≠ unit ∧
          file.access.isInterface = false ∧ file.access.isAbstract = false)

theorem mem_scanTests_and_failed :
    unit ∈ build.scanTests settings ∧ unit ∈ (build.analyze settings external).failed ↔
      build.OnlyScanned settings unit := by
  rw [mem_scanTests, mem_failed_analyze]
  constructor
  · rintro ⟨⟨hrelevant, hfixture, bytes, hlocate, hholds⟩, -, hfails⟩
    refine ⟨hrelevant, hfixture, bytes, hlocate, ?_⟩
    cases hdecode : ClassFile.decode bytes with
    | error fault => exact .inl ⟨fault, rfl⟩
    | ok file =>
      refine .inr ⟨file, rfl, fun hname => ?_, (canHoldTest_of_decode hdecode).1 hholds⟩
      have hparse : build.parse unit = .ok ⟨file, .ofClass file (Digest.Crc32.check bytes)⟩ := by
        simp [parse, parseBytes, Snapshot.decode, hlocate, hdecode, hname, bind, Except.bind,
          pure, Except.pure]
      exact hfails _ hparse
  · rintro ⟨hrelevant, hfixture, bytes, hlocate, hcase⟩
    have hfails : ∀ p, build.parse unit ≠ .ok p := by
      intro p hparse
      obtain ⟨bytes', hlocate', hdecode, hname, -⟩ := of_parse hparse
      cases hlocate.symm.trans hlocate'
      obtain ⟨fault, hfault⟩ | ⟨file, hfile, hother, -⟩ := hcase
      · cases hfault.symm.trans hdecode
      · cases hfile.symm.trans hdecode
        exact hother hname
    refine ⟨⟨hrelevant, hfixture, bytes, hlocate, ?_⟩, hrelevant, hfails⟩
    obtain ⟨fault, hfault⟩ | ⟨file, hfile, -, hkind⟩ := hcase
    · rw [canHoldTest, hfault]
    · exact (canHoldTest_of_decode hfile).2 hkind

/-- An analysis lists tests in the order of a scan. -/
theorem tests_analyze_eq_filter (files : SortedMap UnitName (List UInt8)) (settings : Settings)
    (external : List (UnitName × UnitName)) :
    ((ofMap files).analyze settings external).tests settings =
      ((ofMap files).scanTests settings).filter
        (fun unit => !((ofMap files).analyze settings external).failed.contains unit) := by
  have hsorted : ((ofMap files).scanTests settings).Pairwise (compare · · = .lt) :=
    ((files.keys.sorted.filter _).filter _).filter _
  -- increasing lists with the same members are the same
  refine congrArg SortedSet.toList (SortedSet.ext_mem (t := ⟨_, hsorted.filter _⟩) fun unit => ?_)
  change unit ∈ ((ofMap files).analyze settings external).tests settings ↔
    unit ∈ ((ofMap files).scanTests settings).filter _
  rw [mem_tests_analyze_iff, List.mem_filter, Bool.not_eq_true', SortedSet.contains_eq_false]

/-- **The two ways of finding tests differ by the class files that only a scan takes for
tests**: an analysis finds the others of a scan, in the same order; so both find the same
where there is no such class file, and only there. -/
theorem tests_analyze_eq_scanTests_iff (files : SortedMap UnitName (List UInt8))
    (settings : Settings) (external : List (UnitName × UnitName)) :
    ((ofMap files).analyze settings external).tests settings =
        ((ofMap files).scanTests settings).filter
          (fun unit => !((ofMap files).analyze settings external).failed.contains unit) ∧
      (∀ unit, unit ∈ (ofMap files).scanTests settings ∧
          unit ∈ ((ofMap files).analyze settings external).failed ↔
        (ofMap files).OnlyScanned settings unit) ∧
      (((ofMap files).analyze settings external).tests settings =
          (ofMap files).scanTests settings ↔
        ∀ unit, ¬(ofMap files).OnlyScanned settings unit) := by
  have honly : ∀ unit, unit ∈ (ofMap files).scanTests settings ∧
      unit ∈ ((ofMap files).analyze settings external).failed ↔
        (ofMap files).OnlyScanned settings unit := fun unit => mem_scanTests_and_failed
  refine ⟨tests_analyze_eq_filter files settings external, honly, ?_⟩
  rw [tests_analyze_eq_filter, List.filter_eq_self]
  refine forall_congr' fun unit => ?_
  rw [← honly, not_and, Bool.not_eq_true', SortedSet.contains_eq_false]

example : (ofMap (.ofList [("shop.CartTest", [0xca, 0xfe])])).scanTests {} = ["shop.CartTest"] ∧
    ((ofMap (.ofList [("shop.CartTest", [0xca, 0xfe])])).analyze {} []).tests {} = [] := by
  decide +kernel

/-! ### Class files that only a scan takes for tests -/

/-- The test of the sample, once more under another name, and beside a class file that
cannot be read. -/
def sampleDoubtful : Build :=
  .ofMap (.ofList [("shop.BrokenTest", [0xca, 0xfe]), ("shop.CartTest", sampleTest.assemble),
    ("shop.MovedTest", sampleTest.assemble)])

set_option maxRecDepth 4000 in
theorem tests_sampleDoubtful :
    sampleDoubtful.scanTests {} = ["shop.BrokenTest", "shop.CartTest", "shop.MovedTest"] ∧
      (sampleDoubtful.analyze {} []).tests {} = ["shop.CartTest"] := by
  decide +kernel

end Build

end Retest

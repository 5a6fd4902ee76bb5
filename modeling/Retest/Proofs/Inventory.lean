import Retest.Inventory
import Retest.Proofs.Sorted

/-!
# The units of an inventory

A class file declares its own unit and no other: of its facts the first is about
the unit, and all others are about fields and methods and what they use. So the
units of an inventory are those of the class files that were taken up
(`Retest.Declarations.units_addClasses`).
-/

namespace Retest

/-! ### Facts that declare a unit -/

section Facts

variable {caller : MethodKey} {name : UnitName} {info : UnitInfo}

theorem Handle.fact_ne_unit (handle : Handle) : handle.fact caller ≠ .unit name info := by
  rw [Handle.fact]
  split <;> nofun

theorem Constant.unit_notMem_facts (constant : Constant) :
    Fact.unit name info ∉ constant.facts caller := by
  cases constant with
  | handle h => exact fun hmem => h.fact_ne_unit (List.mem_singleton.1 hmem).symm
  | _ => exact List.not_mem_nil

theorem Instruction.unit_notMem_facts (instruction : Instruction) :
    Fact.unit name info ∉ instruction.facts caller := by
  rw [Instruction.facts]
  split
  · simp
  · simp
  · exact Constant.unit_notMem_facts _
  · next bootstrap _ =>
    simp only [Bootstrap.facts, List.mem_cons, List.mem_flatMap, not_or, not_exists, not_and]
    exact ⟨bootstrap.handle.fact_ne_unit.symm, fun c _ => c.unit_notMem_facts⟩
  · exact List.not_mem_nil

/-- A method declares no unit. -/
theorem MethodDecl.unit_notMem_facts (unit : UnitName) (method : MethodDecl) :
    Fact.unit name info ∉ method.facts unit := by
  rw [MethodDecl.facts, List.mem_cons, not_or]
  refine ⟨nofun, ?_⟩
  cases method.code with
  | none => exact List.not_mem_nil
  | some code =>
    simp only [Option.elim_some, List.mem_flatMap, not_exists, not_and]
    exact fun i _ => i.unit_notMem_facts

end Facts

/-! ### Units that are declared -/

namespace Declarations

theorem units_foldl_observe {facts : List Fact} (h : ∀ name info, Fact.unit name info ∉ facts)
    (declared : Declarations) : (facts.foldl observe declared).units = declared.units := by
  induction facts generalizing declared with
  | nil => rfl
  | cons fact facts ih =>
    rw [List.foldl_cons, ih fun name info hmem => h name info (List.mem_cons_of_mem _ hmem)]
    cases fact with
    | unit name info => exact absurd List.mem_cons_self (h name info)
    | field | method | call | access => rfl

/-- A class file declares its own unit and no other. -/
theorem units_addClass (settings : Settings) (declared : Declarations) (file : ClassFile) :
    (declared.addClass settings file).units =
      if settings.isExcluded file.name then declared.units
      else declared.units.insert file.name file.info := by
  rw [addClass]
  split
  · rfl
  · rw [ClassFile.facts, List.cons_append, List.foldl_cons, units_foldl_observe]
    · rfl
    · intro name info
      simp only [List.mem_append, List.mem_map, List.mem_flatMap, not_or, not_exists, not_and]
      refine ⟨fun field _ hfact => ?_, fun m _ => m.unit_notMem_facts file.name⟩
      cases hfact

/-- **The units of class files**: each under its name, as its last class file says. -/
theorem units_addClasses (settings : Settings) (declared : Declarations) (files : List ClassFile) :
    (declared.addClasses settings files).units =
      declared.units.insertMany ((files.filter fun file => !settings.isExcluded file.name).map
        fun file => (file.name, file.info)) := by
  induction files generalizing declared with
  | nil => rfl
  | cons file files ih =>
    have hcons : declared.addClasses settings (file :: files) =
        (declared.addClass settings file).addClasses settings files := rfl
    rw [hcons, ih, units_addClass]
    cases hexcluded : settings.isExcluded file.name with
    | true => simp [hexcluded]
    | false => simp [hexcluded, SortedMap.insertMany]

/-- The unit of a class file that is not left out is declared. -/
theorem mem_units_addClasses {settings : Settings} {declared : Declarations}
    {files : List ClassFile} {file : ClassFile} (hfile : file ∈ files)
    (hkept : settings.isExcluded file.name = false) :
    file.name ∈ (declared.addClasses settings files).units.keys := by
  have hentry : (file.name, file.info) ∈ (files.filter fun file =>
      !settings.isExcluded file.name).map fun file => (file.name, file.info) :=
    List.mem_map_of_mem (List.mem_filter.2 ⟨hfile, by rw [hkept]; rfl⟩)
  obtain ⟨info, hlast⟩ := SortedMap.exists_lastValue?_of_mem hentry
  rw [units_addClasses, SortedMap.mem_keys, SortedMap.get?_insertMany, hlast]
  exact ⟨info, rfl⟩

end Declarations

end Retest

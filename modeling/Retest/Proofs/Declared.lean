import Mathlib.Data.List.Basic
import Retest.Proofs.Ancestry
import Retest.Proofs.Inventory

/-!
# The members of an inventory

An inventory has the methods and the fields of the class files that were taken up, under the
units of these files (`Retest.Inventory.declaresMethod_iff`,
`Retest.Inventory.declaresField_iff`). Of the facts of a class file, those that declare members
are about its own; all other facts say what one of its methods uses
(`Retest.ClassFile.exists_method_of_mem_facts`).

A unit that is left out has no place in an inventory: it declares nothing, has no ancestors, and
no member is found from it upward (`Retest.Inventory.isExcluded_of_findUpward?`).
-/

namespace Retest

/-! ### Facts about members -/

namespace Fact

/-- The method that a fact declares. -/
def methodKey? : Fact → Option MethodKey
  | .method key _ _ => some key
  | .unit .. | .field .. | .call .. | .access .. => none

/-- The field that a fact declares. -/
def fieldKey? : Fact → Option FieldKey
  | .field key _ => some key
  | .unit .. | .method .. | .call .. | .access .. => none

/-- The method that uses something, according to a fact. -/
def caller? : Fact → Option MethodKey
  | .call caller _ _ _ => some caller
  | .access caller _ _ _ => some caller
  | .unit .. | .method .. | .field .. => none

variable {fact : Fact} {caller : MethodKey}

theorem methodKey?_of_caller? (h : fact.caller? = some caller) : fact.methodKey? = none := by
  cases fact <;> first | rfl | cases h

theorem fieldKey?_of_caller? (h : fact.caller? = some caller) : fact.fieldKey? = none := by
  cases fact <;> first | rfl | cases h

end Fact

section Uses

variable {fact : Fact} {caller : MethodKey}

theorem Handle.caller?_fact (handle : Handle) : (handle.fact caller).caller? = some caller := by
  rw [Handle.fact]
  split <;> rfl

theorem Constant.caller?_of_mem_facts {constant : Constant} (h : fact ∈ constant.facts caller) :
    fact.caller? = some caller := by
  cases constant with
  | handle handle => rw [List.mem_singleton.1 h, handle.caller?_fact]
  | _ => cases h

/-- The facts of an instruction are about what the method uses. -/
theorem Instruction.caller?_of_mem_facts {instruction : Instruction}
    (h : fact ∈ instruction.facts caller) : fact.caller? = some caller := by
  rw [Instruction.facts] at h
  split at h
  · rw [List.mem_singleton.1 h]
    rfl
  · rw [List.mem_singleton.1 h]
    rfl
  · exact Constant.caller?_of_mem_facts h
  · next bootstrap _ =>
    rcases List.mem_cons.1 h with rfl | h
    · exact bootstrap.handle.caller?_fact
    · obtain ⟨c, -, hc⟩ := List.mem_flatMap.1 h
      exact Constant.caller?_of_mem_facts hc
  · cases h

end Uses

/-- The uses of a method. -/
def MethodDecl.uses (unit : UnitName) (method : MethodDecl) : List Fact :=
  method.code.elim [] fun code => code.instructions.flatMap (Instruction.facts ⟨unit, method.slot⟩)

theorem MethodDecl.facts_eq (unit : UnitName) (method : MethodDecl) : method.facts unit =
    .method ⟨unit, method.slot⟩ method.access.isStatic method.access.isAbstract ::
      method.uses unit := rfl

theorem MethodDecl.mem_uses {unit : UnitName} {method : MethodDecl} {fact : Fact} :
    fact ∈ method.uses unit ↔ ∃ code ∈ method.code, ∃ instruction ∈ code.instructions,
      fact ∈ instruction.facts ⟨unit, method.slot⟩ := by
  rw [uses]
  cases method.code <;> simp

theorem MethodDecl.caller?_of_mem_uses {unit : UnitName} {method : MethodDecl} {fact : Fact}
    (h : fact ∈ method.uses unit) : fact.caller? = some ⟨unit, method.slot⟩ := by
  obtain ⟨code, -, i, -, hi⟩ := mem_uses.1 h
  exact Instruction.caller?_of_mem_facts hi

namespace ClassFile

/-- **A class file declares its own methods.** -/
theorem filterMap_methodKey?_facts (file : ClassFile) :
    file.facts.filterMap Fact.methodKey? = file.methods.map fun m => ⟨file.name, m.slot⟩ := by
  have hmethod : ∀ m : MethodDecl, (m.facts file.name).filterMap Fact.methodKey? =
      [⟨file.name, m.slot⟩] := fun m => by
    have huses : (m.uses file.name).filterMap Fact.methodKey? = [] :=
      List.filterMap_eq_nil_iff.2 fun fact h =>
        Fact.methodKey?_of_caller? (MethodDecl.caller?_of_mem_uses h)
    simp [m.facts_eq, Fact.methodKey?, huses]
  rw [facts, List.cons_append, List.filterMap_cons_none rfl, List.filterMap_append,
    List.filterMap_flatMap, funext hmethod, ← List.map_eq_flatMap]
  simp [Fact.methodKey?]

/-- **A class file declares its own fields.** -/
theorem filterMap_fieldKey?_facts (file : ClassFile) :
    file.facts.filterMap Fact.fieldKey? =
      file.fields.map fun f => ⟨file.name, f.name, f.descriptor⟩ := by
  have hmethod : ∀ m : MethodDecl, (m.facts file.name).filterMap Fact.fieldKey? = [] := fun m => by
    rw [m.facts_eq, List.filterMap_cons_none rfl]
    exact List.filterMap_eq_nil_iff.2 fun fact h =>
      Fact.fieldKey?_of_caller? (MethodDecl.caller?_of_mem_uses h)
  rw [facts, List.cons_append, List.filterMap_cons_none rfl, List.filterMap_append,
    List.filterMap_flatMap, funext hmethod]
  simp [Fact.fieldKey?, Function.comp_def]

/-- What a method uses is what its instructions use. -/
theorem mem_facts_iff_of_caller? {file : ClassFile} {fact : Fact} {caller : MethodKey}
    (hcaller : fact.caller? = some caller) : fact ∈ file.facts ↔
      ∃ method ∈ file.methods, caller = ⟨file.name, method.slot⟩ ∧ ∃ code ∈ method.code,
        ∃ instruction ∈ code.instructions, fact ∈ instruction.facts caller := by
  constructor
  · intro h
    rcases List.mem_append.1 h with h | h
    · rcases List.mem_cons.1 h with rfl | h
      · cases hcaller
      · obtain ⟨f, -, rfl⟩ := List.mem_map.1 h
        cases hcaller
    · obtain ⟨method, hmethod, hfact⟩ := List.mem_flatMap.1 h
      rw [method.facts_eq] at hfact
      rcases List.mem_cons.1 hfact with rfl | huse
      · cases hcaller
      · rw [MethodDecl.caller?_of_mem_uses huse] at hcaller
        cases hcaller
        exact ⟨method, hmethod, rfl, MethodDecl.mem_uses.1 huse⟩
  · rintro ⟨method, hmethod, rfl, huse⟩
    refine List.mem_append_right _ (List.mem_flatMap.2 ⟨method, hmethod, ?_⟩)
    rw [method.facts_eq]
    exact List.mem_cons_of_mem _ (MethodDecl.mem_uses.2 huse)

/-- What uses something, according to a class file, is a method of it. -/
theorem exists_method_of_mem_facts {file : ClassFile} {fact : Fact} {caller : MethodKey}
    (h : fact ∈ file.facts) (hcaller : fact.caller? = some caller) :
    ∃ m ∈ file.methods, caller = ⟨file.name, m.slot⟩ := by
  obtain ⟨m, hm, hkey, -⟩ := (mem_facts_iff_of_caller? hcaller).1 h
  exact ⟨m, hm, hkey⟩

theorem owner_of_mem_facts {file : ClassFile} {fact : Fact} {caller : MethodKey}
    (h : fact ∈ file.facts) (hcaller : fact.caller? = some caller) : caller.owner = file.name := by
  obtain ⟨m, -, rfl⟩ := exists_method_of_mem_facts h hcaller
  rfl

end ClassFile

/-! ### Members that are declared -/

namespace Declarations

variable {declared : Declarations} {unit : UnitName} {slot : String}

theorem mem_methods_observe {fact : Fact} :
    slot ∈ ((declared.observe fact).methods.get? unit).getD ∅ ↔
      slot ∈ (declared.methods.get? unit).getD ∅ ∨ fact.methodKey? = some ⟨unit, slot⟩ := by
  cases fact with
  | unit => simp [observe, SortedMap.mem_get?_addTo, Fact.methodKey?]
  | method key =>
    rw [observe, SortedMap.mem_get?_addTo, SortedSet.mem_ofList, List.mem_singleton,
      Fact.methodKey?, Option.some.injEq, MethodKey.mk.injEq, eq_comm, eq_comm (a := slot)]
  | field | call | access => simp [observe, Fact.methodKey?]

theorem mem_fields_observe {fact : Fact} :
    slot ∈ ((declared.observe fact).fields.get? unit).getD ∅ ↔
      slot ∈ (declared.fields.get? unit).getD ∅ ∨
        ∃ key, fact.fieldKey? = some key ∧ key.owner = unit ∧ key.slot = slot := by
  cases fact with
  | unit => simp [observe, SortedMap.mem_get?_addTo, Fact.fieldKey?]
  | field key =>
    simp [observe, SortedMap.mem_get?_addTo, Fact.fieldKey?, eq_comm]
  | method | call | access => simp [observe, Fact.fieldKey?]

/-- What each fact adds to the slots of a kind, class files add that are not left out. -/
theorem mem_slots_addClasses {slots : Declarations → SortedMap UnitName (SortedSet String)}
    {declares : Fact → Prop}
    (hstep : ∀ declared fact, slot ∈ ((slots (observe declared fact)).get? unit).getD ∅ ↔
      slot ∈ ((slots declared).get? unit).getD ∅ ∨ declares fact)
    (settings : Settings) (declared : Declarations) (files : List ClassFile) :
    slot ∈ ((slots (declared.addClasses settings files)).get? unit).getD ∅ ↔
      slot ∈ ((slots declared).get? unit).getD ∅ ∨
        ∃ file ∈ files, settings.isExcluded file.name = false ∧
          ∃ fact ∈ file.facts, declares fact := by
  have hfacts : ∀ (facts : List Fact) (declared : Declarations),
      slot ∈ ((slots (facts.foldl observe declared)).get? unit).getD ∅ ↔
        slot ∈ ((slots declared).get? unit).getD ∅ ∨ ∃ fact ∈ facts, declares fact := by
    intro facts
    induction facts with
    | nil => simp
    | cons fact facts ih =>
      intro declared
      simp [ih, hstep, or_assoc]
  induction files generalizing declared with
  | nil => simp [addClasses]
  | cons file files ih =>
    have hcons : declared.addClasses settings (file :: files) =
        (declared.addClass settings file).addClasses settings files := rfl
    rw [hcons]
    refine (ih _).trans ?_
    rw [addClass]
    cases hkept : settings.isExcluded file.name with
    | true => simp [hkept]
    | false => simp [hkept, hfacts, or_assoc]

/-- The units that are declared are not left out. -/
theorem isExcluded_of_mem_units {settings : Settings} {files : List ClassFile}
    (h : unit ∈ (addClasses settings {} files).units.keys) : settings.isExcluded unit = false := by
  obtain ⟨info, hget⟩ := SortedMap.mem_keys.1 h
  rw [units_addClasses] at hget
  obtain ⟨file, hfile, heq⟩ := List.mem_map.1 (SortedMap.mem_of_get?_ofList hget)
  obtain ⟨rfl, -⟩ := Prod.mk.inj heq
  simpa using (List.mem_filter.1 hfile).2

end Declarations

/-! ### What is found in an inventory -/

namespace Inventory

variable {settings : Settings} {files : List ClassFile} {unit : UnitName}

/-- **The methods of an inventory** are those of the class files that are not left out. -/
theorem declaresMethod_iff {signature : Signature} :
    ((Declarations.addClasses settings {} files).inventory settings).declaresMethod unit
        signature = true ↔
      ∃ file ∈ files, settings.isExcluded file.name = false ∧ file.name = unit ∧
        ∃ m ∈ file.methods, m.slot = signature := by
  rw [declaresMethod, SortedSet.contains_eq_true, methodsOf]
  refine (@Declarations.mem_slots_addClasses _ _ Declarations.methods _
    (fun declared fact => Declarations.mem_methods_observe) settings {} files).trans ?_
  refine (or_iff_right (SortedSet.not_mem_empty _)).trans (exists_congr fun file =>
    and_congr_right fun _ => and_congr_right fun _ => ?_)
  rw [← List.mem_filterMap, file.filterMap_methodKey?_facts, List.mem_map]
  simp only [MethodKey.mk.injEq]
  constructor
  · rintro ⟨m, hm, hname, hslot⟩
    exact ⟨hname, m, hm, hslot⟩
  · rintro ⟨hname, m, hm, hslot⟩
    exact ⟨m, hm, hname, hslot⟩

/-- **The fields of an inventory** are those of the class files that are not left out. -/
theorem declaresField_iff {slot : String} :
    ((Declarations.addClasses settings {} files).inventory settings).declaresField unit
        slot = true ↔
      ∃ file ∈ files, settings.isExcluded file.name = false ∧ file.name = unit ∧
        ∃ f ∈ file.fields, f.slot = slot := by
  rw [declaresField, SortedSet.contains_eq_true]
  refine (@Declarations.mem_slots_addClasses _ _ Declarations.fields _
    (fun declared fact => Declarations.mem_fields_observe) settings {} files).trans ?_
  refine (or_iff_right (SortedSet.not_mem_empty _)).trans (exists_congr fun file =>
    and_congr_right fun _ => and_congr_right fun _ => ?_)
  have hkeys : ∀ key, (∃ fact ∈ file.facts, fact.fieldKey? = some key) ↔
      ∃ f ∈ file.fields, (⟨file.name, f.name, f.descriptor⟩ : FieldKey) = key := fun key => by
    rw [← List.mem_filterMap, file.filterMap_fieldKey?_facts, List.mem_map]
  constructor
  · rintro ⟨fact, hfact, key, hkey, rfl, rfl⟩
    obtain ⟨f, hf, rfl⟩ := (hkeys key).1 ⟨fact, hfact, hkey⟩
    exact ⟨rfl, f, hf, rfl⟩
  · rintro ⟨rfl, f, hf, rfl⟩
    obtain ⟨fact, hfact, hkey⟩ := (hkeys _).2 ⟨f, hf, rfl⟩
    exact ⟨fact, hfact, _, hkey, rfl, rfl⟩

theorem isExcluded_of_declaresMethod {signature : Signature}
    (h : ((Declarations.addClasses settings {} files).inventory settings).declaresMethod unit
      signature = true) : settings.isExcluded unit = false := by
  obtain ⟨file, -, hkept, rfl, -⟩ := declaresMethod_iff.1 h
  exact hkept

theorem isExcluded_of_declaresField {slot : String}
    (h : ((Declarations.addClasses settings {} files).inventory settings).declaresField unit
      slot = true) : settings.isExcluded unit = false := by
  obtain ⟨file, -, hkept, rfl, -⟩ := declaresField_iff.1 h
  exact hkept

/-- A unit with ancestors is declared. -/
theorem mem_units_of_mem_ancestors {ancestor : UnitName}
    (h : ancestor ∈ ((Declarations.addClasses settings {} files).inventory
      settings).hierarchy.ancestors unit) :
    unit ∈ (Declarations.addClasses settings {} files).units.keys := by
  obtain ⟨-, hup⟩ := Declarations.mem_ancestors_hierarchy.1 h
  obtain ⟨parent, ⟨info, hinfo, -⟩, -⟩ := Relation.TransGen.head'_iff.1 hup
  exact SortedMap.mem_keys_of_get? hinfo

/-- **Nothing is found upward from a unit that is left out.** -/
theorem isExcluded_of_findUpward? {test : UnitName → Bool} {owner : UnitName}
    (htest : ∀ u, test u = true → settings.isExcluded u = false)
    (h : ((Declarations.addClasses settings {} files).inventory settings).findUpward? owner test =
      some unit) : settings.isExcluded owner = false := by
  rcases List.mem_cons.1 (List.mem_of_find?_eq_some h) with rfl | hmem
  · exact htest unit (List.find?_some h)
  · exact Declarations.isExcluded_of_mem_units (mem_units_of_mem_ancestors hmem)

end Inventory

end Retest

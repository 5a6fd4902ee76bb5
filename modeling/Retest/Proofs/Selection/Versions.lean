import Retest.Proofs.CallGraph.Agreement
import Retest.Proofs.Selection.Reasons
import Retest.Proofs.Selection.Tests
import Retest.Proofs.Snapshot.Unchanged

/-!
# Two versions of a unit

A call graph is made from class files, a selection from snapshots of them. For a build in which all
units are listed under their own names the two say the same: what is declared has a fingerprint
(`Retest.Build.declaresMethod_files_iff`, `Retest.Build.declaresField_files_iff`), and the parents
that the hierarchy knows are those that the snapshots name
(`Retest.Build.ancestors_files_congr`).

Of a unit that is there in two builds there are two versions. What the call graph makes of them is
the same if they have the same outline and their methods use the same (`Retest.ClassFile.Alike`).
If not, then the unit is looked into and its records are found not to fit
(`Retest.Selection.noticed_of_not_alike`), unless nothing of the difference is to be seen in
checksums and fingerprints (`Retest.ParsedUnit.Veils`). From there the reasons for which a test is
selected follow: other parents, a member that has changed, a method that is hidden by a new one, or
the unit being the test itself.
-/

namespace Retest

/-! ### Members in snapshots -/

namespace Snapshot

variable {file : ClassFile} {crc : UInt32}

/-- The methods with a fingerprint are those that the class file declares. -/
theorem exists_method?_ofClass {slot : Signature} :
    (∃ f, (ofClass file crc).method? slot = some f) ↔ ∃ m ∈ file.methods, m.slot = slot := by
  constructor
  · rintro ⟨f, hf⟩
    obtain hf | hf | hf := get?_of_method? hf
    all_goals
      obtain ⟨m, hm, -, hslot, -⟩ := exists_of_get?_slots hf
      exact ⟨m, hm, hslot⟩
  · rintro ⟨m, hm, rfl⟩
    have hmember : .method ⟨file.name, m.slot⟩ ∈ file.members :=
      List.mem_append_left _ (List.mem_map.2 ⟨m, hm, rfl⟩)
    have hfound := ClassFile.exists_fingerprint? crc hmember
    rwa [fingerprint?_method rfl] at hfound

/-- The slots of fields with a fingerprint are those that the class file declares. -/
theorem exists_get?_fields_ofClass {slot : String} :
    (∃ f, (ofClass file crc).fields.get? slot = some f) ↔ ∃ d ∈ file.fields, d.slot = slot := by
  constructor
  · rintro ⟨f, hf⟩
    obtain ⟨d, hd, -, hslot, -⟩ := exists_of_get?_slots hf
    exact ⟨d, hd, hslot⟩
  · rintro ⟨d, hd, rfl⟩
    exact exists_get?_slots hd rfl

end Snapshot

/-! ### What a build declares -/

namespace Build

/-- The class files of a build that can be read. -/
def files (build : Build) (settings : Settings) : List ClassFile :=
  (build.parsed settings).map (·.2.file)

variable {build : Build} {settings : Settings} {external : List (UnitName × UnitName)}

theorem mem_kept_files {file : ClassFile} :
    file ∈ CallGraph.kept settings (build.files settings) ↔
      ∃ p, (file.name, p) ∈ build.parsed settings ∧ p.file = file := by
  rw [CallGraph.mem_kept, files, List.mem_map]
  constructor
  · rintro ⟨⟨⟨unit, p⟩, hp, rfl⟩, -⟩
    exact ⟨p, name_of_mem_parsed hp ▸ hp, rfl⟩
  · rintro ⟨p, hp, hfile⟩
    refine ⟨⟨_, hp, hfile⟩, ?_⟩
    simpa using (List.mem_filter.1 (mem_parsed.1 hp).1).2

/-- **What a unit of a build declares** has a fingerprint, and nothing else. -/
theorem exists_fingerprint?_iff {id : Dependency} :
    (∃ f, (build.analyze settings external).fingerprint? id = some f) ↔
      ∃ p, (id.owner, p) ∈ build.parsed settings ∧ ∃ f, p.snapshot.fingerprint? id = some f := by
  simp only [Analysis.fingerprint?_eq_some, get?_snapshots_analyze]
  constructor
  · rintro ⟨f, _, ⟨p, hp, rfl⟩, hf⟩
    exact ⟨p, hp, f, hf⟩
  · rintro ⟨p, hp, f, hf⟩
    exact ⟨f, _, ⟨p, hp, rfl⟩, hf⟩

theorem snapshot_of_mem_parsed {unit : UnitName} {p : ParsedUnit}
    (hp : (unit, p) ∈ build.parsed settings) :
    ∃ bytes, build.locate unit = some bytes ∧ ClassFile.decode bytes = .ok p.file ∧
      p.file.name = unit ∧ p.snapshot = .ofClass p.file (Digest.Crc32.check bytes) :=
  of_parse (mem_parsed.1 hp).2

theorem exists_fingerprint?_unit_iff {unit : UnitName} :
    (∃ f, (build.analyze settings external).fingerprint? (.unit unit) = some f) ↔
      ∃ p, (unit, p) ∈ build.parsed settings := by
  rw [exists_fingerprint?_iff]
  refine exists_congr fun p => and_iff_left_of_imp fun hp => ?_
  obtain ⟨bytes, -, -, hname, hsnapshot⟩ := snapshot_of_mem_parsed hp
  refine ⟨_, Snapshot.fingerprint?_unit ?_⟩
  rw [hsnapshot, Snapshot.name_ofClass, hname]
  rfl

/-- The class file of a unit is found by the name of the unit. -/
theorem exists_mem_files_iff {unit : UnitName} {P : ClassFile → Prop} :
    (∃ file ∈ build.files settings, settings.isExcluded file.name = false ∧ file.name = unit ∧
      P file) ↔ ∃ p, (unit, p) ∈ build.parsed settings ∧ P p.file := by
  constructor
  · rintro ⟨file, hfile, hkept, rfl, h⟩
    obtain ⟨p, hp, rfl⟩ := mem_kept_files.1 (CallGraph.mem_kept.2 ⟨hfile, hkept⟩)
    exact ⟨p, hp, h⟩
  · rintro ⟨p, hp, h⟩
    have hname := name_of_mem_parsed hp
    obtain ⟨hfile, hkept⟩ := CallGraph.mem_kept.1 (mem_kept_files.2 ⟨p, hname.symm ▸ hp, rfl⟩)
    exact ⟨p.file, hfile, hkept, hname, h⟩

/-- **The methods of a build** are those with a fingerprint. -/
theorem declaresMethod_files_iff {key : MethodKey} :
    (CallGraph.Context.ofClasses settings (build.files settings)).inventory.declaresMethod
        key.owner key.signature = true ↔
      ∃ f, (build.analyze settings external).fingerprint? (.method key) = some f := by
  rw [exists_fingerprint?_iff]
  refine (Inventory.declaresMethod_iff.trans exists_mem_files_iff).trans
    (exists_congr fun p => and_congr_right fun hp => ?_)
  obtain ⟨bytes, -, -, hname, hsnapshot⟩ := snapshot_of_mem_parsed hp
  rw [hsnapshot, Snapshot.fingerprint?_method hname.symm]
  exact Snapshot.exists_method?_ofClass.symm

/-- **The fields of a build** are those with a fingerprint. -/
theorem declaresField_files_iff {key : FieldKey} :
    (CallGraph.Context.ofClasses settings (build.files settings)).inventory.declaresField
        key.owner key.slot = true ↔
      ∃ f, (build.analyze settings external).fingerprint? (.field key) = some f := by
  rw [exists_fingerprint?_iff]
  refine (Inventory.declaresField_iff.trans exists_mem_files_iff).trans
    (exists_congr fun p => and_congr_right fun hp => ?_)
  obtain ⟨bytes, -, -, hname, hsnapshot⟩ := snapshot_of_mem_parsed hp
  rw [hsnapshot, Snapshot.fingerprint?_field hname.symm]
  exact Snapshot.exists_get?_fields_ofClass.symm

/-- A method that uses something has a fingerprint. -/
theorem exists_fingerprint?_of_mem_facts {file : ClassFile} {fact : Fact} {caller : MethodKey}
    (hfile : file ∈ CallGraph.kept settings (build.files settings)) (hfact : fact ∈ file.facts)
    (hcaller : fact.caller? = some caller) :
    ∃ f, (build.analyze settings external).fingerprint? (.method caller) = some f := by
  obtain ⟨m, hm, rfl⟩ := ClassFile.exists_method_of_mem_facts hfact hcaller
  obtain ⟨hmem, hkept⟩ := CallGraph.mem_kept.1 hfile
  exact declaresMethod_files_iff.1
    (Inventory.declaresMethod_iff.2 ⟨file, hmem, hkept, rfl, m, hm, rfl⟩)

/-- **What a method of a build uses** stands in the class file of its unit. -/
theorem exists_mem_facts_iff {fact : Fact} {caller : MethodKey}
    (hcaller : fact.caller? = some caller) :
    (∃ file ∈ CallGraph.kept settings (build.files settings), fact ∈ file.facts) ↔
      ∃ p, (caller.owner, p) ∈ build.parsed settings ∧ fact ∈ p.file.facts := by
  constructor
  · rintro ⟨file, hfile, hfact⟩
    obtain ⟨p, hp, rfl⟩ := mem_kept_files.1 hfile
    exact ⟨p, ClassFile.owner_of_mem_facts hfact hcaller ▸ hp, hfact⟩
  · rintro ⟨p, hp, hfact⟩
    refine ⟨p.file, mem_kept_files.2 ⟨p, ?_, rfl⟩, hfact⟩
    rwa [← ClassFile.owner_of_mem_facts hfact hcaller]

end Build

/-! ### Parents -/

/-- The super class and the interfaces that a unit names. -/
def Analysis.parents? (analysis : Analysis) (unit : UnitName) :
    Option (Option UnitName × SortedSet UnitName) :=
  (analysis.snapshots.get? unit).map fun s => (s.superName, s.interfaces)

namespace Build

variable {build build' : Build} {settings : Settings}
  {external external' : List (UnitName × UnitName)} {unit parent : UnitName}

theorem parents?_analyze_eq_some {names : Option UnitName × SortedSet UnitName} :
    (build.analyze settings external).parents? unit = some names ↔
      ∃ p, (unit, p) ∈ build.parsed settings ∧
        (p.file.superName, SortedSet.ofList p.file.interfaces) = names := by
  rw [Analysis.parents?, Option.map_eq_some_iff]
  simp only [get?_snapshots_analyze]
  constructor
  · rintro ⟨_, ⟨p, hp, rfl⟩, rfl⟩
    obtain ⟨bytes, -, -, -, hsnapshot⟩ := snapshot_of_mem_parsed hp
    exact ⟨p, hp, by rw [hsnapshot]; rfl⟩
  · rintro ⟨p, hp, rfl⟩
    obtain ⟨bytes, -, -, -, hsnapshot⟩ := snapshot_of_mem_parsed hp
    exact ⟨_, ⟨p, hp, rfl⟩, by rw [hsnapshot]; rfl⟩

theorem superclass_files_iff :
    (CallGraph.Context.ofClasses settings
        (build.files settings)).inventory.hierarchy.superclass.get? unit = some parent ↔
      ∃ names, (build.analyze settings external).parents? unit = some names ∧
        names.1 = some parent ∧ settings.isExcluded parent = false := by
  refine Declarations.extends_hierarchy.trans ?_
  simp only [parents?_analyze_eq_some]
  constructor
  · rintro ⟨info, hinfo, hsuper, hkept⟩
    obtain ⟨p, hp, rfl⟩ := (@get?_units_analyze build settings external unit info).1 hinfo
    exact ⟨_, ⟨p, hp, rfl⟩, hsuper, hkept⟩
  · rintro ⟨_, ⟨p, hp, rfl⟩, hsuper, hkept⟩
    exact ⟨_, (@get?_units_analyze build settings external unit _).2 ⟨p, hp, rfl⟩, hsuper, hkept⟩

theorem mem_parentsOf_files_iff :
    parent ∈ (CallGraph.Context.ofClasses settings
        (build.files settings)).inventory.hierarchy.parentsOf unit ↔
      ∃ names, (build.analyze settings external).parents? unit = some names ∧
        (names.1 = some parent ∨ parent ∈ names.2) ∧ settings.isExcluded parent = false := by
  refine Declarations.mem_parentsOf_hierarchy.trans ?_
  simp only [parents?_analyze_eq_some]
  have hparents : ∀ file : ClassFile, parent ∈ file.info.parents ↔
      file.superName = some parent ∨ parent ∈ SortedSet.ofList file.interfaces := by
    intro file
    rw [UnitInfo.parents, List.mem_append, Option.mem_toList, SortedSet.mem_ofList]
    rfl
  constructor
  · rintro ⟨info, hinfo, hparent, hkept⟩
    obtain ⟨p, hp, rfl⟩ := (@get?_units_analyze build settings external unit info).1 hinfo
    exact ⟨_, ⟨p, hp, rfl⟩, (hparents p.file).1 hparent, hkept⟩
  · rintro ⟨_, ⟨p, hp, rfl⟩, hparent, hkept⟩
    exact ⟨_, (@get?_units_analyze build settings external unit _).2 ⟨p, hp, rfl⟩,
      (hparents p.file).2 hparent, hkept⟩

/-- **Units that name the same parents on the whole way up have the same ancestors.** -/
theorem ancestors_files_congr
    (h : ∀ u ∈ unit :: (CallGraph.Context.ofClasses settings
      (build'.files settings)).inventory.hierarchy.ancestors unit,
      (build.analyze settings external).parents? u =
        (build'.analyze settings external').parents? u) :
    (CallGraph.Context.ofClasses settings (build.files settings)).inventory.hierarchy.ancestors
        unit =
      (CallGraph.Context.ofClasses settings (build'.files settings)).inventory.hierarchy.ancestors
        unit := by
  refine Hierarchy.ancestors_congr (fun u hu => Option.ext fun parent => ?_) fun u hu =>
    SortedSet.ext_mem fun parent => ?_
  · exact superclass_files_iff.trans ((h u hu).symm ▸ superclass_files_iff.symm)
  · exact mem_parentsOf_files_iff.trans ((h u hu).symm ▸ mem_parentsOf_files_iff.symm)

end Build

/-! ### Two versions of a class file -/

namespace ClassFile

/-- Two class files have the same outline: they name the same parents, and declare methods and
fields with the same slots. -/
structure SameOutline (old new : ClassFile) : Prop where
  superName : old.superName = new.superName
  interfaces : ∀ unit, unit ∈ old.interfaces ↔ unit ∈ new.interfaces
  methods : ∀ slot, (∃ m ∈ old.methods, m.slot = slot) ↔ ∃ m ∈ new.methods, m.slot = slot
  fields : ∀ slot, (∃ f ∈ old.fields, f.slot = slot) ↔ ∃ f ∈ new.fields, f.slot = slot

/-- **Two class files say the same**: their outline is the same, and their methods use the same. -/
structure Alike (old new : ClassFile) : Prop extends SameOutline old new where
  uses : ∀ {fact : Fact} {caller}, fact.caller? = some caller →
    (fact ∈ old.facts ↔ fact ∈ new.facts)

/-- **A class file whose members can be told apart** by their slots and their declarations: no two
methods have the same slot, no name of a field holds a colon, and no type one or an equals sign. -/
structure Plain (file : ClassFile) : Prop where
  wellDeclared : file.WellDeclared
  colons : ∀ f ∈ file.fields, ':' ∉ f.name.toList ∧ ':' ∉ f.descriptor.toList

instance (file : ClassFile) : Decidable file.Plain :=
  decidable_of_iff (file.WellDeclared ∧
    ∀ f ∈ file.fields, ':' ∉ f.name.toList ∧ ':' ∉ f.descriptor.toList)
    ⟨fun h => ⟨h.1, h.2⟩, fun h => ⟨h.1, h.2⟩⟩

theorem Plain.declaresPlainly {file : ClassFile} (h : file.Plain) : file.DeclaresPlainly :=
  fun f hf => ⟨(h.colons f hf).1, h.wellDeclared.descriptors f hf⟩

/-- All that has a fingerprint there is tracked. -/
theorem Plain.isTracked {file : ClassFile} {crc : UInt32} {id : Dependency} {f : Fingerprint}
    (h : file.Plain) (hf : (Snapshot.ofClass file crc).fingerprint? id = some f) :
    id.IsTracked .member := by
  cases id with
  | unit => trivial
  | method key => rfl
  | field key =>
    refine ⟨rfl, fun hcolon => ?_⟩
    rw [Snapshot.fingerprint?_field (Snapshot.owner_of_fingerprint? hf)] at hf
    obtain ⟨d, hd, hslot⟩ := Snapshot.exists_get?_fields_ofClass.1 ⟨f, hf⟩
    -- a slot has one colon, behind the name
    obtain ⟨front, back, hname, hfront⟩ := List.eq_append_cons_of_mem hcolon
    have htext : d.name.toList ++ ':' :: d.descriptor.toList =
        front ++ ':' :: (back ++ ':' :: key.descriptor.toList) := by
      have htext := congrArg String.toList hslot
      simpa [FieldDecl.slot, hname] using htext
    obtain ⟨-, hdescriptor⟩ := Text.append_separator_inj (h.colons d hd).1 hfront htext
    refine (h.colons d hd).2 ?_
    rw [hdescriptor]
    exact List.mem_append_right _ List.mem_cons_self

/-- Class files with the same outline name the same parents. -/
theorem SameOutline.parents_eq {old new : ClassFile} (h : old.SameOutline new) :
    (old.superName, SortedSet.ofList old.interfaces) =
      (new.superName, SortedSet.ofList new.interfaces) := by
  refine Prod.ext h.superName (SortedSet.ext_mem fun unit => ?_)
  exact SortedSet.mem_ofList.trans ((h.interfaces unit).trans SortedSet.mem_ofList.symm)

/-- Class files with the same outline have fingerprints for the same members. -/
theorem SameOutline.exists_fingerprint?_iff {old new : ClassFile} {crc crc' : UInt32}
    {id : Dependency} (h : old.SameOutline new) (hname : new.name = old.name) :
    (∃ f, (Snapshot.ofClass old crc).fingerprint? id = some f) ↔
      ∃ f, (Snapshot.ofClass new crc').fingerprint? id = some f := by
  by_cases howner : id.owner = old.name
  · have howner' : id.owner = new.name := howner.trans hname.symm
    cases id with
    | unit name =>
      rw [Snapshot.fingerprint?_unit howner, Snapshot.fingerprint?_unit howner']
      exact iff_of_true ⟨_, rfl⟩ ⟨_, rfl⟩
    | method key =>
      rw [Snapshot.fingerprint?_method howner, Snapshot.fingerprint?_method howner',
        Snapshot.exists_method?_ofClass, Snapshot.exists_method?_ofClass, h.methods]
    | field key =>
      rw [Snapshot.fingerprint?_field howner, Snapshot.fingerprint?_field howner']
      exact Snapshot.exists_get?_fields_ofClass.trans
        ((h.fields _).trans Snapshot.exists_get?_fields_ofClass.symm)
  · have howner' : id.owner ≠ new.name := fun heq => howner (heq.trans hname)
    refine iff_of_false ?_ ?_ <;> rintro ⟨f, hf⟩
    · exact howner (Snapshot.owner_of_fingerprint? hf)
    · exact howner' (Snapshot.owner_of_fingerprint? hf)

end ClassFile

/-- **A difference between two versions of a unit that is not seen.** Differences in what the class
files say are hidden by a checksum that is the same, by fingerprints that are all the same, or by
members that cannot be told apart; and a method may use something else and have the same
fingerprint. -/
inductive ParsedUnit.Veils (old new : ParsedUnit) : Prop where
  | checksum (hunlike : ¬old.file.Alike new.file) (hcrc : old.snapshot.crc = new.snapshot.crc)
  | fingerprints (hunlike : ¬old.file.Alike new.file) (hsame : ∀ id f,
      old.snapshot.fingerprint? id = some f → new.snapshot.fingerprint? id = some f)
  | mixed (hunlike : ¬old.file.Alike new.file) (hplain : ¬(old.file.Plain ∧ new.file.Plain))
  | body {fact : Fact} {caller : MethodKey} {f : Fingerprint} (hcaller : fact.caller? = some caller)
      (hold : old.snapshot.fingerprint? (.method caller) = some f)
      (hnew : new.snapshot.fingerprint? (.method caller) = some f)
      (huses : ¬(fact ∈ old.file.facts ↔ fact ∈ new.file.facts))

namespace ParsedUnit

variable {old new : ParsedUnit}

/-- There is nothing to be seen in versions that say the same. -/
theorem not_veils_of_alike (h : old.file.Alike new.file) : ¬old.Veils new := by
  intro hveils
  cases hveils with
  | checksum hunlike => exact hunlike h
  | fingerprints hunlike => exact hunlike h
  | mixed hunlike => exact hunlike h
  | body hcaller _ _ huses => exact huses (h.uses hcaller)

/-- A difference is seen if the checksums differ, members can be told apart, and some method has
another fingerprint, as each does that uses something else. -/
theorem not_veils_of_ne {key : MethodKey} (hcrc : old.snapshot.crc ≠ new.snapshot.crc)
    (hplain : old.file.Plain ∧ new.file.Plain)
    (hthere : old.snapshot.fingerprint? (.method key) ≠ none)
    (hne : old.snapshot.fingerprint? (.method key) ≠ new.snapshot.fingerprint? (.method key))
    (huses : ∀ fact ∈ old.file.facts ++ new.file.facts, ∀ caller ∈ fact.caller?,
      (fact ∈ old.file.facts ∧ fact ∈ new.file.facts) ∨ caller = key) : ¬old.Veils new := by
  intro hveils
  cases hveils with
  | checksum _ heq => exact hcrc heq
  | fingerprints _ hsame =>
    obtain ⟨f, hf⟩ := Option.ne_none_iff_exists'.1 hthere
    exact hne (hf.trans (hsame _ f hf).symm)
  | mixed _ hmixed => exact hmixed hplain
  | @body fact caller f hcaller hold hnew hdiffers =>
    have hkept : ∀ fact' ∈ old.file.facts ++ new.file.facts, fact'.caller? = some caller →
        fact' ∈ old.file.facts ∧ fact' ∈ new.file.facts := by
      intro fact' hfact hcaller'
      refine (huses fact' hfact caller hcaller').resolve_right ?_
      rintro rfl
      exact hne (hold.trans hnew.symm)
    exact hdiffers ⟨fun hfact => (hkept fact (List.mem_append_left _ hfact) hcaller).2,
      fun hfact => (hkept fact (List.mem_append_right _ hfact) hcaller).1⟩

end ParsedUnit

namespace Selection

variable {settings : Settings} {build later : Build} {external : List (UnitName × UnitName)}
  {context : Context} {store : Store} {unit t : UnitName} {old new : ParsedUnit} {id : Dependency}

/-- Versions with the same outline have fingerprints for the same members. -/
theorem exists_fingerprint?_iff_of_sameOutline (hold : (unit, old) ∈ build.parsed settings)
    (hnew : (unit, new) ∈ later.parsed settings) (h : old.file.SameOutline new.file)
    (id : Dependency) :
    (∃ f, old.snapshot.fingerprint? id = some f) ↔ ∃ f, new.snapshot.fingerprint? id = some f := by
  obtain ⟨bytes, -, -, hname, hold₀⟩ := Build.snapshot_of_mem_parsed hold
  obtain ⟨bytes', -, -, hname', hnew₀⟩ := Build.snapshot_of_mem_parsed hnew
  rw [hold₀, hnew₀]
  exact h.exists_fingerprint?_iff (hname'.trans hname.symm)

/-- Two versions of a unit are compared with one another, and its records no longer fit. -/
structure Noticed (context : Context) (store : Store) (later : Build) (unit : UnitName)
    (old new : ParsedUnit) : Prop where
  compared : context.Compared later unit old.snapshot new.snapshot
  stale : store.Stale later unit
  plain : old.file.Plain ∧ new.file.Plain

/-- **A difference in what class files say is noticed** unless it is not seen. -/
theorem noticed_of_not_alike (hgranularity : context.granularity = .member)
    (hold : (unit, old) ∈ build.parsed settings) (hnew : (unit, new) ∈ later.parsed settings)
    (hsnapshot : context.snapshots.get? unit = some old.snapshot)
    (hrecords : ∀ id f, id.IsTracked .member → old.snapshot.fingerprint? id = some f →
      ∃ record, store.records.get? id = some record ∧ record.fingerprint = f)
    (hunlike : ¬old.file.Alike new.file) (hseen : ¬old.Veils new) :
    Noticed context store later unit old new := by
  obtain ⟨bytes₀, -, -, hname₀, hold₀⟩ := Build.snapshot_of_mem_parsed hold
  obtain ⟨bytes, hlocate, hdecode, hname, hnew₀⟩ := Build.snapshot_of_mem_parsed hnew
  have hcrc : old.snapshot.crc ≠ Digest.Crc32.check bytes := fun hcrc =>
    hseen (.checksum hunlike (by rw [hcrc, hnew₀, Snapshot.crc_ofClass]))
  have hplain : old.file.Plain ∧ new.file.Plain := by
    by_contra hplain
    exact hseen (.mixed hunlike hplain)
  -- something has another fingerprint, or none
  obtain ⟨id, f, hf, hne⟩ : ∃ id f, old.snapshot.fingerprint? id = some f ∧
      new.snapshot.fingerprint? id ≠ some f := by
    by_contra! hsame
    exact hseen (.fingerprints hunlike hsame)
  refine ⟨⟨hgranularity, Context.sight_eq_known hlocate hsnapshot hcrc hdecode hnew₀, ?_⟩, ?_,
    hplain⟩
  · intro hnil
    refine hne ?_
    rw [hold₀, hnew₀] at hnil
    rw [← hf, hold₀, hnew₀]
    exact (ClassFile.fingerprint?_eq_of_classify_eq_nil (hname.trans hname₀.symm)
      hplain.1.declaresPlainly hplain.2.declaresPlainly hnil id).symm
  · have howner : id.owner = unit := by
      rw [hold₀] at hf
      exact (Snapshot.owner_of_fingerprint? hf).trans hname₀
    have htracked : id.IsTracked .member := hplain.1.isTracked (hold₀ ▸ hf)
    obtain ⟨record, hget, hfingerprint⟩ := hrecords id f htracked hf
    refine ⟨id, howner, record, hget, ?_⟩
    have hnow : later.fingerprint? id = new.snapshot.fingerprint? id := by
      rw [Build.fingerprint?, howner, Build.snapshot?_of_decode hlocate hdecode,
        Option.bind_some, ← hnew₀]
    rwa [hnow, hfingerprint]

namespace Noticed

variable (h : Noticed context store later unit old new)
include h

/-- The test of a unit that names other parents is selected. -/
theorem holds_of_parents (ht : t ∈ testsOf store (.unit unit))
    (hparents : (old.snapshot.superName, old.snapshot.interfaces) ≠
      (new.snapshot.superName, new.snapshot.interfaces)) :
    (Reason.record (.unit unit)).Holds context store later t := by
  have hescalates : context.escalates unit (classify old.snapshot new.snapshot) = true := by
    rw [Context.escalates, Bool.or_eq_true, List.any_eq_true]
    left
    by_cases hsuper : old.snapshot.superName = new.snapshot.superName
    · have hinterfaces : old.snapshot.interfaces ≠ new.snapshot.interfaces := fun heq =>
        hparents (by rw [hsuper, heq])
      exact ⟨.interfacesChanged, mem_classify.2 (bne_iff_ne.2 hinterfaces), rfl⟩
    · exact ⟨.superClassChanged, mem_classify.2 (bne_iff_ne.2 hsuper), rfl⟩
  refine ⟨⟨ht, h.stale, fun hunit => ?_⟩, h.compared.alarmed, fun before after hcompared => ?_⟩
  · cases h.compared.granularity.symm.trans hunit
  · obtain ⟨rfl, rfl⟩ := h.compared.unique hcompared
    exact .inl hescalates

/-- The test of a member that has changed is selected. -/
theorem holds_of_changed (howner : id.owner = unit) (hmember : id.isUnit = false)
    (ht : t ∈ testsOf store id) (hchanged : id ∈ Context.changedIn unit old.snapshot new.snapshot) :
    (Reason.record id).Holds context store later t := by
  subst howner
  refine ⟨⟨ht, h.stale, fun hunit => ?_⟩, h.compared.alarmed, fun before after hcompared => ?_⟩
  · cases h.compared.granularity.symm.trans hunit
  · obtain ⟨rfl, rfl⟩ := h.compared.unique hcompared
    rwa [if_neg (by simp [hmember])]

/-- The test of a method that is hidden is selected. -/
theorem holds_of_hidden (ht : t ∈ testsOf store id)
    (hid : id ∈ context.hiddenBy old.snapshot new.snapshot) :
    (Reason.hidden unit id).Holds context store later t :=
  ⟨⟨ht, h.stale⟩, _, _, h.compared, hid⟩

end Noticed

/-- A test whose own class file has changed is selected. -/
theorem Noticed.holds_itself (h : Noticed context store later t old new) :
    Reason.itself.Holds context store later t :=
  ⟨h.stale, _, _, h.compared⟩

/-- **A member that keeps its fingerprint** is the only one that has not changed. -/
theorem fingerprint?_eq_of_not_changed {old new : ClassFile} {crc crc' : UInt32} {f : Fingerprint}
    (hold : old.Plain) (hnew : new.Plain) (hname : old.name = unit) (hname' : new.name = unit)
    (htracked : id.IsTracked .member) (hmember : id.isUnit = false)
    (hf : (Snapshot.ofClass old crc).fingerprint? id = some f)
    (hchanged : id ∉ Context.changedIn unit (.ofClass old crc) (.ofClass new crc')) :
    (Snapshot.ofClass new crc').fingerprint? id = some f := by
  have howner := Snapshot.owner_of_fingerprint? hf
  have howner' : id.owner = new.name := howner.trans (hname.trans hname'.symm)
  rw [Context.mem_changedIn, not_or, not_or] at hchanged
  by_contra hne
  cases id with
  | unit => cases hmember
  | method key =>
    rw [Snapshot.fingerprint?_method howner] at hf
    rw [Snapshot.fingerprint?_method howner'] at hne
    have hmem := mem_changedMethods (hold.wellDeclared.apart crc) (hnew.wellDeclared.apart crc') hf
      hne
    rw [← howner] at hmem
    exact hchanged.2.1 hmem
  | field key =>
    rw [Snapshot.fingerprint?_field howner] at hf
    rw [Snapshot.fingerprint?_field howner'] at hne
    exact hchanged.2.2 (mem_changedFields howner' htracked.2 hf hne)

end Selection

end Retest

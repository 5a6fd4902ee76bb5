import Retest.Proofs.Snapshot.Change
import Retest.Selection.Outcome

/-!
# Units without a change

Where no kind of change is seen between two snapshots of a unit, a selection takes the unit
for unchanged and looks no further. That is right only if nothing that is kept of the unit
has changed. `Retest.Snapshot.unchanged_of_classify_eq_nil` says so for the snapshots of any
two class files: then all members have the fingerprints they had, and so has the whole, and
the other way round a fingerprint that has moved always leads to a closer look.

The kinds of changes look at fields in two ways. Their declarations are compared as sets of
texts, their fingerprints only where both snapshots have the slot; so it has to be shown that
equal sets of declarations belong to equal sets of slots
(`Retest.ClassFile.exists_get?_fields`). Here the names of fields come in: a declaration
`name:type=value` tells its slot if no colon stands in the name and no equals sign in the
type. Methods need nothing of the kind, as their maps are compared slot by slot.
-/

namespace Retest

variable {before after : Snapshot}

/-! ### Kinds of changes, one by one -/

theorem mem_classify {kind : ChangeKind} :
    kind ∈ classify before after ↔ kind.occurs before after = true := by
  have hall : kind ∈ ChangeKind.all := by cases kind <;> decide
  rw [classify, List.mem_filter, and_iff_right hall]

theorem occurs_eq_false (h : classify before after = []) (kind : ChangeKind) :
    kind.occurs before after = false := by
  rw [← Bool.not_eq_true, ← mem_classify, h]
  exact List.not_mem_nil

/-- The values that two maps have under a key agree in a part of them, for all keys. -/
theorem SortedMap.any_part_ne_eq_false {α β : Type} [BEq α] [LawfulBEq α] (part : β → α)
    {m n : SortedMap String β} :
    (m.entries.any fun e => (n.get? e.1).any (part · != part e.2)) = false ↔
      ∀ k v w, m.get? k = some v → n.get? k = some w → part w = part v := by
  rw [List.any_eq_false]
  constructor
  · intro h k v w hv hw
    simpa [hw] using h (k, v) (get?_eq_some_iff.1 hv)
  · intro h e he
    cases hw : n.get? e.1 with
    | none => simp
    | some w => simpa using h e.1 e.2 w (get?_eq_some_iff.2 he) hw

namespace Snapshot

theorem extraDeclarations_isEmpty {s t : Snapshot} : (s.extraDeclarations t).isEmpty = true ↔
    ∀ text ∈ s.declarations, text ∈ t.declarations := by
  rw [SortedSet.isEmpty_eq_true, extraDeclarations]
  constructor
  · intro hempty text htext
    by_contra hnot
    have hextra : text ∈ s.declarations \ t.declarations := SortedSet.mem_diff.2 ⟨htext, hnot⟩
    rw [hempty] at hextra
    exact SortedSet.not_mem_empty text hextra
  · intro hsub
    refine SortedSet.eq_empty_of_forall fun text htext => ?_
    obtain ⟨hin, hout⟩ := SortedSet.mem_diff.1 htext
    exact hout (hsub text hin)

/-- No field is retagged if those in both snapshots have one fingerprint. -/
theorem retagsField_eq_false : before.retagsField after = false ↔
    ∀ slot f g, before.fields.get? slot = some f → after.fields.get? slot = some g → g = f :=
  SortedMap.any_part_ne_eq_false id

/-- Where no change is seen, the declarations of fields are the same, and no field is retagged. -/
theorem fields_of_classify_eq_nil (h : classify before after = []) :
    (∀ text ∈ before.declarations, text ∈ after.declarations) ∧
      (∀ text ∈ after.declarations, text ∈ before.declarations) ∧
      before.retagsField after = false := by
  have hadded := occurs_eq_false h .fieldAdded
  have hremoved := occurs_eq_false h .fieldRemoved
  have hchanged := occurs_eq_false h .fieldChanged
  simp only [ChangeKind.occurs] at hadded hremoved hchanged
  rw [← extraDeclarations_isEmpty, ← extraDeclarations_isEmpty]
  cases hold : (before.extraDeclarations after).isEmpty <;>
    cases hnew : (after.extraDeclarations before).isEmpty <;> simp_all

/-- Where no change is seen, the methods of each kind are the same. -/
theorem methods_of_classify_eq_nil (h : classify before after = []) :
    before.constructors = after.constructors ∧ before.instanceMethods = after.instanceMethods ∧
      before.staticMethods = after.staticMethods := by
  have hoccurs := occurs_eq_false h
  refine ⟨?_, MethodDiff.eq_of_between ?_ ?_ ?_, MethodDiff.eq_of_between ?_ ?_ ?_⟩
  · simpa [ChangeKind.occurs] using hoccurs .constructorUpdated
  · simpa [ChangeKind.occurs, ChangeKind.occurs.instanceDiff] using hoccurs .instanceMethodAdded
  · simpa [ChangeKind.occurs, ChangeKind.occurs.instanceDiff] using hoccurs .instanceMethodRemoved
  · simpa [ChangeKind.occurs, ChangeKind.occurs.instanceDiff] using hoccurs .instanceMethodRenamed
  · simpa [ChangeKind.occurs, ChangeKind.occurs.staticDiff] using hoccurs .staticMethodAdded
  · simpa [ChangeKind.occurs, ChangeKind.occurs.staticDiff] using hoccurs .staticMethodRemoved
  · simpa [ChangeKind.occurs, ChangeKind.occurs.staticDiff] using hoccurs .staticMethodRenamed

/-! ### Members that are the same -/

/-- **Two snapshots have the same members**, with the same fingerprints. -/
structure SameMembers (before after : Snapshot) : Prop where
  fields : before.fields = after.fields
  constructors : before.constructors = after.constructors
  instanceMethods : before.instanceMethods = after.instanceMethods
  staticMethods : before.staticMethods = after.staticMethods

namespace SameMembers

variable (h : before.SameMembers after)

include h

theorem changedMethods_eq : changedMethods before after = ∅ := by
  have hmethods : before.methods = after.methods := by
    rw [methods, methods, h.constructors, h.instanceMethods, h.staticMethods]
  have hold : before.methods.entries.filter
      (fun e => after.methods.get? e.1 != some e.2) = [] := by
    refine List.filter_eq_nil_iff.2 fun e he => ?_
    rw [hmethods] at he
    simp [SortedMap.get?_eq_some_iff.2 he]
  have hnew : after.methods.entries.filter (fun e => !before.methods.contains e.1) = [] := by
    refine List.filter_eq_nil_iff.2 fun e he => ?_
    simp [hmethods, SortedMap.contains, SortedMap.get?_eq_some_iff.2 he]
  rw [changedMethods, hold, hnew]
  rfl

theorem changedFields_eq : changedFields before after = ∅ := by
  refine SortedSet.eq_empty_of_forall fun id hid => ?_
  obtain ⟨slot, hslot, -⟩ := List.mem_filterMap.1 (SortedSet.mem_ofList.1 hid)
  have hne := (SortedSet.mem_filter.1 hslot).2
  rw [h.fields, bne_self_eq_false] at hne
  cases hne

theorem method?_eq (slot : Signature) : before.method? slot = after.method? slot := by
  rw [method?, method?, h.constructors, h.instanceMethods, h.staticMethods]

end SameMembers

/-- The whole is a matter of header, parents and members. -/
theorem SameMembers.summary_eq (h : before.SameMembers after)
    (hheader : before.header = after.header) (hsuper : before.superName = after.superName)
    (hinterfaces : before.interfaces = after.interfaces) : before.summary = after.summary := by
  rw [summary, summary, hheader, hsuper, hinterfaces, h.fields, h.constructors, h.instanceMethods,
    h.staticMethods]

end Snapshot

/-! ### Class files -/

namespace ClassFile

/-- **Declarations tell the fields of a class file**: no name of a field holds a colon, and no type
an equals sign. -/
def DeclaresPlainly (file : ClassFile) : Prop :=
  ∀ f ∈ file.fields, ':' ∉ f.name.toList ∧ '=' ∉ f.descriptor.toList

instance (file : ClassFile) : Decidable file.DeclaresPlainly :=
  inferInstanceAs (Decidable (∀ f ∈ file.fields, ':' ∉ f.name.toList ∧ '=' ∉ f.descriptor.toList))

variable {old new : ClassFile} {crc crc' : UInt32}

/-- A field whose declaration is in another class file has its slot there. -/
theorem exists_get?_fields (hold : old.DeclaresPlainly) (hnew : new.DeclaresPlainly)
    (hsub : ∀ text ∈ (Snapshot.ofClass old crc).declarations,
      text ∈ (Snapshot.ofClass new crc').declarations)
    {slot : String} {f : Fingerprint} (hf : (Snapshot.ofClass old crc).fields.get? slot = some f) :
    ∃ g, (Snapshot.ofClass new crc').fields.get? slot = some g := by
  obtain ⟨d, hd, -, rfl, -⟩ := Snapshot.exists_of_get?_slots hf
  have htext : d.declaration ∈ (Snapshot.ofClass old crc).declarations :=
    SortedSet.mem_ofList.2 (List.mem_map_of_mem hd)
  obtain ⟨e, he, hdeclaration⟩ := List.mem_map.1 (SortedSet.mem_ofList.1 (hsub _ htext))
  have hslot : e.slot = d.slot := FieldDecl.slot_of_declaration hdeclaration
    (hnew e he).1 (hold d hd).1 (hnew e he).2 (hold d hd).2
  rw [← hslot]
  exact Snapshot.exists_get?_slots he rfl

/-- **Where no change is seen, the members are the same.** -/
theorem sameMembers_of_classify_eq_nil (hold : old.DeclaresPlainly) (hnew : new.DeclaresPlainly)
    (h : classify (Snapshot.ofClass old crc) (Snapshot.ofClass new crc') = []) :
    (Snapshot.ofClass old crc).SameMembers (Snapshot.ofClass new crc') := by
  obtain ⟨hconstructors, hinstances, hstatics⟩ := Snapshot.methods_of_classify_eq_nil h
  obtain ⟨hkept, hback, hretags⟩ := Snapshot.fields_of_classify_eq_nil h
  have hsame := Snapshot.retagsField_eq_false.1 hretags
  refine ⟨SortedMap.ext_get? fun slot => Option.ext fun f => ⟨fun hf => ?_, fun hf => ?_⟩,
    hconstructors, hinstances, hstatics⟩
  · obtain ⟨g, hg⟩ := exists_get?_fields hold hnew hkept hf
    rw [hg, hsame slot f g hf hg]
  · obtain ⟨g, hg⟩ := exists_get?_fields hnew hold hback hf
    rw [hg, hsame slot g f hg hf]

/-- The fingerprint of the whole is taken of the summary. -/
theorem whole_ofClass (file : ClassFile) (crc : UInt32) :
    (Snapshot.ofClass file crc).whole = .ordered (Snapshot.ofClass file crc).summary := rfl

/-- **Where no change is seen, the whole is the same.** -/
theorem whole_eq_of_classify_eq_nil (hold : old.DeclaresPlainly) (hnew : new.DeclaresPlainly)
    (h : classify (Snapshot.ofClass old crc) (Snapshot.ofClass new crc') = []) :
    (Snapshot.ofClass old crc).whole = (Snapshot.ofClass new crc').whole := by
  have hoccurs := occurs_eq_false h
  have hheader : (Snapshot.ofClass old crc).header = (Snapshot.ofClass new crc').header := by
    simpa [ChangeKind.occurs] using hoccurs .headerChanged
  have hsuper : (Snapshot.ofClass old crc).superName = (Snapshot.ofClass new crc').superName := by
    simpa [ChangeKind.occurs] using hoccurs .superClassChanged
  have hinterfaces :
      (Snapshot.ofClass old crc).interfaces = (Snapshot.ofClass new crc').interfaces := by
    simpa [ChangeKind.occurs] using hoccurs .interfacesChanged
  rw [whole_ofClass, whole_ofClass,
    (sameMembers_of_classify_eq_nil hold hnew h).summary_eq hheader hsuper hinterfaces]

/-- Then every dependency of the unit has the fingerprint it had. -/
theorem fingerprint?_eq_of_classify_eq_nil (hname : new.name = old.name)
    (hold : old.DeclaresPlainly) (hnew : new.DeclaresPlainly)
    (h : classify (Snapshot.ofClass old crc) (Snapshot.ofClass new crc') = []) (id : Dependency) :
    (Snapshot.ofClass old crc).fingerprint? id = (Snapshot.ofClass new crc').fingerprint? id := by
  have hsame := sameMembers_of_classify_eq_nil hold hnew h
  by_cases howner : id.owner = old.name
  · have howner' : id.owner = new.name := howner.trans hname.symm
    cases id with
    | unit name =>
      rw [Snapshot.fingerprint?_unit howner, Snapshot.fingerprint?_unit howner',
        whole_eq_of_classify_eq_nil hold hnew h]
    | method key =>
      rw [Snapshot.fingerprint?_method howner, Snapshot.fingerprint?_method howner',
        hsame.method?_eq]
    | field key =>
      rw [Snapshot.fingerprint?_field howner, Snapshot.fingerprint?_field howner', Snapshot.field?,
        Snapshot.field?, hsame.fields]
  · have howner' : id.owner ≠ new.name := fun heq => howner (heq.trans hname)
    exact (if_pos howner).trans (if_pos howner').symm

end ClassFile

/-! ### Selections -/

/-- Where a change is seen, the members of a unit are compared, and the unit counts as changed. -/
theorem Selection.Context.mem_changed_memberOutcome {context : Context} {unit : UnitName}
    {records : SortedMap Dependency StoreRecord} (h : classify before after ≠ []) :
    .unit unit ∈ (context.memberOutcome unit records before after).changed := by
  rw [memberOutcome, if_neg (by simpa using h)]
  refine SortedSet.mem_union.2 (.inl (SortedSet.mem_union.2 (.inl ?_)))
  exact SortedSet.mem_ofList.2 List.mem_cons_self

namespace Snapshot

/-- **No change is seen only where nothing has changed.** Let the declarations of two class files of
one unit tell their fields. If no kind of change is seen between their snapshots, no method and no
field is among the changed ones, all members have the fingerprints they had, and so has the whole.
Hence, if a record with the fingerprint that was stored no longer fits, a selection does not pass
the unit over. -/
theorem unchanged_of_classify_eq_nil {old new : ClassFile} (crc crc' : UInt32)
    (hname : new.name = old.name) (hold : old.DeclaresPlainly) (hnew : new.DeclaresPlainly) :
    (classify (ofClass old crc) (ofClass new crc') = [] →
      changedMethods (ofClass old crc) (ofClass new crc') = ∅ ∧
        changedFields (ofClass old crc) (ofClass new crc') = ∅ ∧
        (ofClass old crc).SameMembers (ofClass new crc') ∧
        (ofClass old crc).whole = (ofClass new crc').whole) ∧
      ∀ (context : Selection.Context) (records : SortedMap Dependency StoreRecord)
        (id : Dependency) (record : StoreRecord), records.get? id = some record →
        (ofClass old crc).fingerprint? id = some record.fingerprint →
        (ofClass new crc').fingerprint? id ≠ some record.fingerprint →
        classify (ofClass old crc) (ofClass new crc') ≠ [] ∧
          .unit old.name ∈ (context.memberOutcome old.name records (ofClass old crc)
            (ofClass new crc')).changed := by
  refine ⟨fun h => ?_, fun context records id record _ hstored hmoved => ?_⟩
  · have hsame := ClassFile.sameMembers_of_classify_eq_nil hold hnew h
    exact ⟨hsame.changedMethods_eq, hsame.changedFields_eq, hsame,
      ClassFile.whole_eq_of_classify_eq_nil hold hnew h⟩
  · have hnoticed : classify (ofClass old crc) (ofClass new crc') ≠ [] := fun h => hmoved <| by
      rw [← ClassFile.fingerprint?_eq_of_classify_eq_nil hname hold hnew h, hstored]
    exact ⟨hnoticed, Selection.Context.mem_changed_memberOutcome hnoticed⟩

end Snapshot

/-! ### A class that is compiled again -/

namespace ClassFile

/-- A method that returns a number, which depends on its opcode, on a stack of some size. -/
def sampleCount (opcode : UInt8) (stack : UInt16) : MethodDecl where
  access := 0x0001
  name := "count"
  descriptor := "()I"
  exceptions := []
  signature := none
  annotations := []
  code := some ⟨stack, 1, [⟨opcode, .none⟩, ⟨0xac, .none⟩], []⟩

/-- A class with a field and methods. -/
def sampleStock (fieldAccess : Access) (methods : List MethodDecl) : ClassFile where
  name := "shop.Stock"
  access := 0x0021
  superName := some "java.lang.Object"
  interfaces := []
  signature := none
  annotations := []
  fields := [⟨fieldAccess, "left", "I", none, none, []⟩]
  methods := methods

/-- A class with a method. -/
def sampleStockOld : ClassFile := sampleStock 0x0002 [sampleCount 0x04 1]

/-- The same, with more room for the method. -/
def sampleStockRoomy : ClassFile := sampleStock 0x0002 [sampleCount 0x04 2]

/-- The same, with another number. -/
def sampleStockNew : ClassFile := sampleStock 0x0002 [sampleCount 0x05 1]

/-- What a store keeps of a method of the class. -/
def sampleStockRecord : StoreRecord := ⟨.ordered (sampleCount 0x04 1).lines, ∅⟩

/-- The method. -/
def sampleStockId : Dependency := .method ⟨"shop.Stock", "count()I"⟩

example : sampleStockOld.DeclaresPlainly ∧
    ¬({ sampleStockOld with
      fields := [⟨0x0002, "a:b", "I", none, none, []⟩] } : ClassFile).DeclaresPlainly := by
  decide +kernel

end ClassFile

open ClassFile in
/-- More room is no change; another number is one, and the unit is not passed over. -/
theorem Snapshot.unchanged_sampleStock :
    (classify (ofClass sampleStockOld 1) (ofClass sampleStockRoomy 2) = [] ∧
        changedMethods (ofClass sampleStockOld 1) (ofClass sampleStockRoomy 2) = ∅ ∧
        changedFields (ofClass sampleStockOld 1) (ofClass sampleStockRoomy 2) = ∅ ∧
        (ofClass sampleStockOld 1).SameMembers (ofClass sampleStockRoomy 2) ∧
        (ofClass sampleStockOld 1).whole = (ofClass sampleStockRoomy 2).whole) ∧
      (ofClass sampleStockOld 1).fingerprint? sampleStockId = some sampleStockRecord.fingerprint ∧
      (ofClass sampleStockNew 3).fingerprint? sampleStockId ≠ some sampleStockRecord.fingerprint ∧
      classify (ofClass sampleStockOld 1) (ofClass sampleStockNew 3) ≠ [] ∧
      .unit sampleStockOld.name ∈ (Selection.Context.memberOutcome ⟨{}, .member, ∅, ∅⟩
        sampleStockOld.name (.ofList [(sampleStockId, sampleStockRecord)])
        (ofClass sampleStockOld 1) (ofClass sampleStockNew 3)).changed := by
  have hkinds : classify (ofClass sampleStockOld 1) (ofClass sampleStockRoomy 2) = [] := by
    decide +kernel
  have hold : sampleStockOld.DeclaresPlainly := by decide
  have hroomy : sampleStockRoomy.DeclaresPlainly := by decide
  have hnew : sampleStockNew.DeclaresPlainly := by decide
  have hstored : (ofClass sampleStockOld 1).fingerprint? sampleStockId =
      some sampleStockRecord.fingerprint := by decide +kernel
  have hother : (ofClass sampleStockNew 3).fingerprint? sampleStockId ≠
      some sampleStockRecord.fingerprint := by decide +kernel
  have hget : (SortedMap.ofList [(sampleStockId, sampleStockRecord)]).get? sampleStockId =
      some sampleStockRecord := by
    simp [SortedMap.get?_ofList, SortedMap.lastValue?]
  have hsame := @unchanged_of_classify_eq_nil sampleStockOld sampleStockRoomy 1 2 rfl hold hroomy
  have hseen := @unchanged_of_classify_eq_nil sampleStockOld sampleStockNew 1 3 rfl hold hnew
  exact ⟨⟨hkinds, hsame.1 hkinds⟩, hstored, hother, hseen.2 ⟨{}, .member, ∅, ∅⟩ _ _ _ hget hstored
    hother⟩

end Retest

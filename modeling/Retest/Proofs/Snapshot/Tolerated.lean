import Retest.Proofs.Snapshot.Lines
import Retest.Proofs.Snapshot.Unchanged
import Retest.Proofs.Store.Line

/-!
# Changes that whole units tolerate

Two snapshots of a unit can stand for one another (`Retest.equivalent`) although they differ.
The differences that are meant are members that come and fields that go
(`Retest.ChangeKind.tolerated`), and `Retest.ClassFile.tolerated_iff_of_equivalent` says when
there are no others: all fields that stay have the text they had, and all methods that stay the
header.

The equivalence looks at declarations of fields and never at their fingerprints, so a field may
change its access flags, its generic signature or its annotations and nothing is noticed
(`Retest.ClassFile.not_tolerated_sampleStock`). The headers of methods are compared only where
no method came; otherwise they are left to the fingerprints, which hold them. So they stay the
same if the lines of a method are single lines and its exceptions can be told, and what is left
is fields alone.
-/

namespace Retest

/-- The kinds of changes that bring members, or take fields away. -/
def ChangeKind.tolerated : List ChangeKind :=
  [fieldAdded, fieldRemoved, instanceMethodAdded, staticMethodAdded]

/-- Where methods were only added, those that were there have the fingerprints they had. -/
theorem MethodDiff.get?_of_onlyAdds {before after : SortedMap Signature Fingerprint}
    (h : (between before after).onlyAdds = true) {slot : Signature} {f : Fingerprint}
    (hf : before.get? slot = some f) : after.get? slot = some f := by
  obtain ⟨hremoved, hrenamed⟩ := Bool.and_eq_true_iff.1 h
  by_contra hne
  rcases mem_between_old.2 ⟨f, hf, hne⟩ with hslot | hslot
  · rw [List.isEmpty_iff.1 hremoved] at hslot
    exact List.not_mem_nil hslot
  · rw [List.isEmpty_iff.1 hrenamed] at hslot
    exact List.not_mem_nil hslot

theorem MethodDiff.onlyAdds_of_isEmpty {diff : MethodDiff} (h : diff.isEmpty = true) :
    diff.onlyAdds = true := by
  simp only [isEmpty, onlyAdds, Bool.and_eq_true] at h ⊢
  exact ⟨h.1.2, h.2⟩

/-! ### What two snapshots that stand for one another share -/

namespace Snapshot

variable {before after : Snapshot}

/-- **A snapshot keeps what another has**: parents, header and constructors, the declarations on
one of the two sides, and every method with its fingerprint. -/
structure Keeps (before after : Snapshot) : Prop where
  superName : before.superName = after.superName
  interfaces : before.interfaces = after.interfaces
  header : before.header = after.header
  declarations : (after.extraDeclarations before).isEmpty = true ∨
    (before.extraDeclarations after).isEmpty = true
  constructors : before.constructors = after.constructors
  instanceMethods :
    (MethodDiff.between before.instanceMethods after.instanceMethods).onlyAdds = true
  staticMethods : (MethodDiff.between before.staticMethods after.staticMethods).onlyAdds = true

theorem keeps_of_equivalent {isFixture inHierarchy : Bool}
    (h : equivalent before after isFixture inHierarchy = true) : before.Keeps after := by
  simp only [equivalent, Bool.and_eq_true, Bool.or_eq_true, beq_iff_eq] at h
  obtain ⟨⟨⟨⟨⟨hsuper, hinterfaces⟩, hheader⟩, hdeclarations⟩, hconstructors⟩, hmethods⟩ := h
  have honly : (MethodDiff.between before.instanceMethods after.instanceMethods).onlyAdds = true ∧
      (MethodDiff.between before.staticMethods after.staticMethods).onlyAdds = true := by
    split at hmethods
    · next hempty =>
      exact ⟨MethodDiff.onlyAdds_of_isEmpty hempty.1, MethodDiff.onlyAdds_of_isEmpty hempty.2⟩
    · simp only [Bool.and_eq_true] at hmethods
      exact hmethods.1.1
  exact ⟨hsuper, hinterfaces, hheader, hdeclarations, hconstructors, honly.1, honly.2⟩

/-- No header differs if those of methods in both snapshots agree in the part. -/
theorem changesHeader_eq_false {α : Type} [BEq α] [LawfulBEq α] {part : MethodHeader → α} :
    before.changesHeader part after = false ↔ ∀ slot h h', before.methodHeaders.get? slot = some h →
      after.methodHeaders.get? slot = some h' → part h' = part h :=
  SortedMap.any_part_ne_eq_false part

/-- Three kinds of changes are neither tolerated nor excluded. -/
theorem Keeps.mem_classify (h : before.Keeps after) {kind : ChangeKind}
    (hkind : kind ∈ classify before after) : kind ∈ ChangeKind.tolerated ∨
      kind = .fieldChanged ∨ kind = .exceptionsChanged ∨ kind = .modifierChanged := by
  have hoccurs := Retest.mem_classify.1 hkind
  have hinstances := h.instanceMethods
  have hstatics := h.staticMethods
  simp only [MethodDiff.onlyAdds, Bool.and_eq_true] at hinstances hstatics
  cases kind with
  | superClassChanged => simp [ChangeKind.occurs, h.superName] at hoccurs
  | interfacesChanged => simp [ChangeKind.occurs, h.interfaces] at hoccurs
  | headerChanged => simp [ChangeKind.occurs, h.header] at hoccurs
  | constructorUpdated => simp [ChangeKind.occurs, h.constructors] at hoccurs
  | instanceMethodRemoved =>
    simp [ChangeKind.occurs, ChangeKind.occurs.instanceDiff, hinstances.1] at hoccurs
  | instanceMethodRenamed =>
    simp [ChangeKind.occurs, ChangeKind.occurs.instanceDiff, hinstances.2] at hoccurs
  | staticMethodRemoved =>
    simp [ChangeKind.occurs, ChangeKind.occurs.staticDiff, hstatics.1] at hoccurs
  | staticMethodRenamed =>
    simp [ChangeKind.occurs, ChangeKind.occurs.staticDiff, hstatics.2] at hoccurs
  | fieldChanged | exceptionsChanged | modifierChanged => simp
  | fieldAdded | fieldRemoved | instanceMethodAdded | staticMethodAdded => left; decide

/-- A field is seen to have changed only by its fingerprint. -/
theorem Keeps.occurs_fieldChanged (h : before.Keeps after) :
    ChangeKind.fieldChanged.occurs before after = before.retagsField after := by
  rcases h.declarations with hempty | hempty <;> simp [ChangeKind.occurs, hempty]

/-- **All changes are tolerated where no field is retagged and no header changed.** -/
theorem Keeps.forall_tolerated_iff (h : before.Keeps after) :
    (∀ kind ∈ classify before after, kind ∈ ChangeKind.tolerated) ↔
      before.retagsField after = false ∧
        before.changesHeader MethodHeader.exceptions after = false ∧
        before.changesHeader MethodHeader.access after = false := by
  constructor
  · intro hall
    have hno : ∀ kind : ChangeKind, kind ∉ ChangeKind.tolerated →
        kind.occurs before after = false := fun kind hkind => by
      rw [← Bool.not_eq_true, ← Retest.mem_classify]
      exact fun hin => hkind (hall kind hin)
    exact ⟨h.occurs_fieldChanged ▸ hno .fieldChanged (by decide),
      hno .exceptionsChanged (by decide), hno .modifierChanged (by decide)⟩
  · rintro ⟨hfields, hexceptions, haccess⟩ kind hkind
    have hoccurs := Retest.mem_classify.1 hkind
    rcases h.mem_classify hkind with htolerated | rfl | rfl | rfl
    · exact htolerated
    · rw [h.occurs_fieldChanged, hfields] at hoccurs
      cases hoccurs
    · exact absurd (hexceptions.symm.trans hoccurs) Bool.false_ne_true
    · exact absurd (haccess.symm.trans hoccurs) Bool.false_ne_true

end Snapshot

/-! ### Members in two class files -/

/-- What a method declares beside its body. -/
def MethodDecl.header (m : MethodDecl) : MethodHeader := ⟨m.access, m.exceptions⟩

/-- The lines of which the fingerprint of a method is taken. -/
def MethodDecl.printed (m : MethodDecl) : List String :=
  if isInitializerName m.name then Fingerprint.sortLines m.lines else m.lines

namespace ClassFile

/-- **No two members share a slot.** -/
structure Distinct (file : ClassFile) : Prop where
  methods : (file.methods.map MethodDecl.slot).Nodup
  fields : (file.fields.map FieldDecl.slot).Nodup

instance (file : ClassFile) : Decidable file.Distinct :=
  decidable_of_iff ((file.methods.map MethodDecl.slot).Nodup ∧
    (file.fields.map FieldDecl.slot).Nodup) ⟨fun h => ⟨h.1, h.2⟩, fun h => ⟨h.1, h.2⟩⟩

/-- The octets of which the fingerprints of members are taken. -/
def texts (file : ClassFile) : List (List UInt8) :=
  file.fields.map (fun f => Fingerprint.octets f.lines) ++
    file.methods.map fun m => Fingerprint.octets m.printed

/-- **SHA-256 tells the members of two class files apart.** -/
def ToldApart (old new : ClassFile) : Prop :=
  ∀ a ∈ old.texts, ∀ b ∈ new.texts, ¬Digest.Sha256.Collide a b

instance (old new : ClassFile) : Decidable (old.ToldApart new) :=
  inferInstanceAs (Decidable (∀ a ∈ old.texts, ∀ b ∈ new.texts, ¬Digest.Sha256.Collide a b))

/-- A field in both class files has the same text in them. -/
def KeepsFields (old new : ClassFile) : Prop :=
  ∀ f ∈ old.fields, ∀ g ∈ new.fields, f.slot = g.slot →
    Fingerprint.octets f.lines = Fingerprint.octets g.lines

/-- A method in both class files has the same access flags and exceptions in them. -/
def KeepsHeaders (old new : ClassFile) : Prop :=
  ∀ m ∈ old.methods, ∀ m' ∈ new.methods, m.slot = m'.slot → m.header = m'.header

/-- A field in both class files has the same access flags, generic signature and annotations. -/
def KeepsDecorations (old new : ClassFile) : Prop :=
  ∀ f ∈ old.fields, ∀ g ∈ new.fields, f.slot = g.slot →
    f.access = g.access ∧ f.signature = g.signature ∧ f.annotations = g.annotations

variable {old new : ClassFile} {crc crc' : UInt32}

theorem get?_fields {file : ClassFile} (h : file.Distinct) {f : FieldDecl} (hf : f ∈ file.fields) :
    (Snapshot.ofClass file crc).fields.get? f.slot = some (.ordered f.lines) :=
  (Snapshot.get?_slots h.fields hf _ _).trans (if_pos rfl)

theorem get?_methodHeaders {file : ClassFile} (h : file.Distinct) {m : MethodDecl}
    (hm : m ∈ file.methods) :
    (Snapshot.ofClass file crc).methodHeaders.get? m.slot = some m.header := by
  refine (SortedMap.get?_ofList_eq_some_iff fun v w hv hw => ?_).2 (List.mem_map.2 ⟨m, hm, rfl⟩)
  obtain ⟨d, hd, hv⟩ := List.mem_map.1 hv
  obtain ⟨e, he, hw⟩ := List.mem_map.1 hw
  obtain ⟨hd', rfl⟩ := Prod.mk.inj hv
  obtain ⟨he', rfl⟩ := Prod.mk.inj hw
  rw [List.inj_on_of_nodup_map h.methods hd he (hd'.trans he'.symm)]

/-- **No field is retagged if the fields that stay keep their text.** -/
theorem retagsField_eq_false_iff (hold : old.Distinct) (hnew : new.Distinct)
    (hsha : old.ToldApart new) :
    (Snapshot.ofClass old crc).retagsField (Snapshot.ofClass new crc') = false ↔
      old.KeepsFields new := by
  have hoctets : ∀ f ∈ old.fields, ∀ g ∈ new.fields,
      (Fingerprint.ordered f.lines = Fingerprint.ordered g.lines ↔
        Fingerprint.octets f.lines = Fingerprint.octets g.lines) := fun f hf g hg =>
    Fingerprint.ordered_eq_iff_octets <|
      hsha _ (List.mem_append_left _ (List.mem_map_of_mem hf)) _
        (List.mem_append_left _ (List.mem_map_of_mem hg))
  rw [Snapshot.retagsField_eq_false]
  constructor
  · intro h f hf g hg hslot
    rw [← hoctets f hf g hg]
    exact (h f.slot _ _ (get?_fields hold hf) (hslot ▸ get?_fields hnew hg)).symm
  · intro h slot a b ha hb
    obtain ⟨f, hf, -, hslot, rfl⟩ := Snapshot.exists_of_get?_slots ha
    obtain ⟨g, hg, -, hslot', rfl⟩ := Snapshot.exists_of_get?_slots hb
    exact ((hoctets f hf g hg).2 (h f hf g hg (hslot.trans hslot'.symm))).symm

/-- No part of a header changes if it is the same for all methods that stay. -/
theorem changesHeader_eq_false_iff {α : Type} [BEq α] [LawfulBEq α] {part : MethodHeader → α}
    (hold : old.Distinct) (hnew : new.Distinct) :
    (Snapshot.ofClass old crc).changesHeader part (Snapshot.ofClass new crc') = false ↔
      ∀ m ∈ old.methods, ∀ m' ∈ new.methods, m.slot = m'.slot →
        part m.header = part m'.header := by
  rw [Snapshot.changesHeader_eq_false]
  constructor
  · intro h m hm m' hm' hslot
    exact (h m.slot _ _ (get?_methodHeaders hold hm)
      (hslot ▸ get?_methodHeaders hnew hm')).symm
  · intro h slot a b ha hb
    obtain ⟨m, hm, he⟩ := List.mem_map.1 (SortedMap.mem_of_get?_ofList ha)
    obtain ⟨m', hm', he'⟩ := List.mem_map.1 (SortedMap.mem_of_get?_ofList hb)
    obtain ⟨hslot, rfl⟩ := Prod.mk.inj he
    obtain ⟨hslot', rfl⟩ := Prod.mk.inj he'
    exact (h m hm m' hm' (hslot.trans hslot'.symm)).symm

theorem keepsHeaders_iff : old.KeepsHeaders new ↔
    (∀ m ∈ old.methods, ∀ m' ∈ new.methods, m.slot = m'.slot →
        m.header.exceptions = m'.header.exceptions) ∧
      ∀ m ∈ old.methods, ∀ m' ∈ new.methods, m.slot = m'.slot →
        m.header.access = m'.header.access := by
  constructor
  · intro h
    exact ⟨fun m hm m' hm' hslot => congrArg _ (h m hm m' hm' hslot),
      fun m hm m' hm' hslot => congrArg _ (h m hm m' hm' hslot)⟩
  · rintro ⟨hexceptions, haccess⟩ m hm m' hm' hslot
    rw [MethodDecl.header, MethodDecl.header, MethodHeader.mk.injEq]
    exact ⟨haccess m hm m' hm' hslot, hexceptions m hm m' hm' hslot⟩

/-- **The changes are all tolerated if fields that stay keep their text, and methods their
header.** -/
theorem forall_tolerated_iff (hold : old.Distinct) (hnew : new.Distinct)
    (hsha : old.ToldApart new) (h : (Snapshot.ofClass old crc).Keeps (Snapshot.ofClass new crc')) :
    (∀ kind ∈ classify (Snapshot.ofClass old crc) (Snapshot.ofClass new crc'),
      kind ∈ ChangeKind.tolerated) ↔ old.KeepsFields new ∧ old.KeepsHeaders new := by
  rw [h.forall_tolerated_iff, retagsField_eq_false_iff hold hnew hsha,
    changesHeader_eq_false_iff hold hnew, changesHeader_eq_false_iff hold hnew, keepsHeaders_iff]

/-! ### Methods that stay -/

/-- A method that stays has the fingerprint it had. -/
theorem ordered_printed_eq (hold : old.Distinct) (hnew : new.Distinct)
    (h : (Snapshot.ofClass old crc).Keeps (Snapshot.ofClass new crc')) {m m' : MethodDecl}
    (hm : m ∈ old.methods) (hm' : m' ∈ new.methods) (hslot : m.slot = m'.slot) :
    Fingerprint.ordered m.printed = Fingerprint.ordered m'.printed := by
  have hthere : ∀ {keep : MethodDecl → Bool} {fp : MethodDecl → Fingerprint} {f : Fingerprint},
      (Snapshot.slots new.methods keep MethodDecl.slot fp).get? m.slot = some f →
      keep m' = true ∧ fp m' = f := by
    intro keep fp f hf
    rw [hslot, Snapshot.get?_slots hnew.methods hm', Option.ite_none_right_eq_some] at hf
    exact ⟨hf.1, Option.some.inj hf.2⟩
  cases hinit : isInitializerName m.name with
  | true =>
    have hget : (Snapshot.ofClass old crc).constructors.get? m.slot =
        some (.unordered m.lines) :=
      (Snapshot.get?_slots hold.methods hm _ _).trans (if_pos hinit)
    rw [h.constructors] at hget
    obtain ⟨hinit', heq⟩ := hthere hget
    rw [MethodDecl.printed, MethodDecl.printed, if_pos hinit, if_pos hinit']
    exact heq.symm
  | false =>
    have hplain : ∀ {b : Bool}, (!isInitializerName m'.name && b) = true →
        Fingerprint.ordered m'.lines = Fingerprint.ordered m.lines →
        Fingerprint.ordered m.printed = Fingerprint.ordered m'.printed := by
      intro b hkeep heq
      have hinit' : isInitializerName m'.name = false := by
        simpa using (Bool.and_eq_true_iff.1 hkeep).1
      simp [MethodDecl.printed, hinit, hinit', heq]
    cases hstatic : m.access.isStatic with
    | false =>
      have hget : (Snapshot.ofClass old crc).instanceMethods.get? m.slot =
          some (.ordered m.lines) :=
        (Snapshot.get?_slots hold.methods hm _ _).trans (if_pos (by simp [hinit, hstatic]))
      obtain ⟨hkeep, heq⟩ := hthere (MethodDiff.get?_of_onlyAdds h.instanceMethods hget)
      exact hplain hkeep heq
    | true =>
      have hget : (Snapshot.ofClass old crc).staticMethods.get? m.slot =
          some (.ordered m.lines) :=
        (Snapshot.get?_slots hold.methods hm _ _).trans (if_pos (by simp [hinit, hstatic]))
      obtain ⟨hkeep, heq⟩ := hthere (MethodDiff.get?_of_onlyAdds h.staticMethods hget)
      exact hplain hkeep heq

end ClassFile

@[simp] theorem Access.lineKind_line (access : Access) : lineKind access.line = some 'c' := by
  simp [lineKind, line]

@[simp] theorem lineKind_throws (s : String) : lineKind ("throws " ++ s) = some 'r' := by
  simp [lineKind]

namespace MethodDecl

/-- The first two lines are the only ones of their kinds. -/
theorem filter_lines (m : MethodDecl) {k : Char} (hk : k ∉ ['g', 'n', ' ', 't']) :
    m.lines.filter (lineKind · == some k) =
      [m.access.line, "throws " ++ ",".intercalate m.exceptions].filter
        (lineKind · == some k) := by
  simp only [List.mem_cons, List.not_mem_nil, or_false, not_or] at hk
  obtain ⟨hg, hn, hi, ht⟩ := hk
  rw [lines_eq]
  refine (List.filter_append [_, _] _).trans
    ((congrArg _ (List.filter_eq_nil_iff.2 ?_)).trans (List.append_nil _))
  simp [or_imp, forall_and, Ne.symm hg, Ne.symm hn, Ne.symm hi, Ne.symm ht]

/-- A method has nothing that blurs its lines: each is a single line, and the names of exceptions
are neither empty nor hold commas. -/
structure IsReadable (m : MethodDecl) : Prop where
  lines : ∀ line ∈ m.lines, '\n' ∉ line.toList
  exceptions : ∀ name ∈ m.exceptions, name ≠ "" ∧ ',' ∉ name.toList

instance (m : MethodDecl) : Decidable m.IsReadable :=
  decidable_of_iff ((∀ line ∈ m.lines, '\n' ∉ line.toList) ∧
    ∀ name ∈ m.exceptions, name ≠ "" ∧ ',' ∉ name.toList)
    ⟨fun h => ⟨h.1, h.2⟩, fun h => ⟨h.1, h.2⟩⟩

variable {m m' : MethodDecl}

/-- **The lines tell the header in whatever order they are.** -/
theorem header_eq_of_perm (hm : m.IsReadable) (hm' : m'.IsReadable)
    (h : m.lines.Perm m'.lines) : m.header = m'.header := by
  have haccess := h.filter (lineKind · == some 'c')
  have hthrows := h.filter (lineKind · == some 'r')
  rw [filter_lines m (by decide), filter_lines m' (by decide)] at haccess hthrows
  simp only [List.filter_cons, List.filter_nil, Access.lineKind_line, lineKind_throws, beq_iff_eq,
    Option.some.injEq, Char.reduceEq, if_true, if_false, List.singleton_perm_singleton]
    at haccess hthrows
  -- names between commas are read back in the way of lists of tests
  have hjoined : Store.joinTests m.exceptions = Store.joinTests m'.exceptions :=
    (String.append_right_inj _).1 hthrows
  have hexceptions := congrArg Store.splitTests hjoined
  rw [Store.splitTests_joinTests, Store.splitTests_joinTests,
    Store.flatMap_splitTests hm.exceptions, Store.flatMap_splitTests hm'.exceptions] at hexceptions
  rw [header, header, Access.line_injective haccess, hexceptions]

theorem perm_printed (m : MethodDecl) : m.printed.Perm m.lines := by
  rw [printed]
  split
  · exact List.mergeSort_perm _ _
  · exact .refl _

end MethodDecl

namespace ClassFile

variable {old new : ClassFile} {crc crc' : UInt32}

/-- **Readable methods that stay keep their header.** -/
theorem keepsHeaders (hold : old.Distinct) (hnew : new.Distinct) (hsha : old.ToldApart new)
    (h : (Snapshot.ofClass old crc).Keeps (Snapshot.ofClass new crc'))
    (hread : ∀ m ∈ old.methods, m.IsReadable) (hread' : ∀ m ∈ new.methods, m.IsReadable) :
    old.KeepsHeaders new := by
  intro m hm m' hm' hslot
  have hoctets : Fingerprint.octets m.printed = Fingerprint.octets m'.printed :=
    (Fingerprint.ordered_eq_iff_octets <|
      hsha _ (List.mem_append_right _ (List.mem_map_of_mem hm)) _
        (List.mem_append_right _ (List.mem_map_of_mem hm'))).1
      (ordered_printed_eq hold hnew h hm hm' hslot)
  have hsingle : ∀ d : MethodDecl, d.IsReadable → ∀ line ∈ d.printed, '\n' ∉ line.toList :=
    fun d hd line hline => hd.lines line (d.perm_printed.mem_iff.1 hline)
  have hprinted := Fingerprint.octets_injective (hsingle m (hread m hm))
    (hsingle m' (hread' m' hm')) hoctets
  refine MethodDecl.header_eq_of_perm (hread m hm) (hread' m' hm') ?_
  exact m.perm_printed.symm.trans (hprinted ▸ m'.perm_printed)

/-! ### Fields that stay -/

/-- A declaration that a class file has is that of the field with the slot. -/
theorem declaration_eq_of_mem (hnodup : old.Distinct) (hold : old.DeclaresPlainly)
    {f g : FieldDecl} (hf : f ∈ old.fields) (hslot : f.slot = g.slot)
    (hg : ':' ∉ g.name.toList ∧ '=' ∉ g.descriptor.toList)
    (hin : g.declaration ∈ (Snapshot.ofClass old crc).declarations) :
    f.declaration = g.declaration := by
  obtain ⟨e, he, heq⟩ := List.mem_map.1 (SortedSet.mem_ofList.1 hin)
  have hslot' : e.slot = g.slot :=
    FieldDecl.slot_of_declaration heq (hold e he).1 hg.1 (hold e he).2 hg.2
  rwa [List.inj_on_of_nodup_map hnodup.fields he hf (hslot'.trans hslot.symm)] at heq

/-- A field that stays has the declaration it had. -/
theorem declaration_eq (hnodup : old.Distinct) (hnodup' : new.Distinct)
    (hold : old.DeclaresPlainly) (hnew : new.DeclaresPlainly)
    (h : (Snapshot.ofClass old crc).Keeps (Snapshot.ofClass new crc')) {f g : FieldDecl}
    (hf : f ∈ old.fields) (hg : g ∈ new.fields) (hslot : f.slot = g.slot) :
    f.declaration = g.declaration := by
  rcases h.declarations with hempty | hempty
  · exact declaration_eq_of_mem hnodup hold hf hslot (hnew g hg) <|
      Snapshot.extraDeclarations_isEmpty.1 hempty _
        (SortedSet.mem_ofList.2 (List.mem_map_of_mem hg))
  · exact (declaration_eq_of_mem hnodup' hnew hg hslot.symm (hold f hf) <|
      Snapshot.extraDeclarations_isEmpty.1 hempty _
        (SortedSet.mem_ofList.2 (List.mem_map_of_mem hf))).symm

end ClassFile

theorem decorationLines_injective {signature signature' : Option String}
    {annotations annotations' : List String}
    (h : decorationLines signature annotations = decorationLines signature' annotations') :
    signature = signature' ∧ annotations = annotations' := by
  obtain ⟨hsignature, hannotations⟩ :=
    append_inj_of_lineKind 'g' (by simp) (by simp) (by simp) (by simp) h
  have hfront : ∀ s : String, Function.Injective (s ++ ·) :=
    fun s a b hab => (String.append_right_inj s).1 hab
  have hsignature' := congrArg List.head? hsignature
  rw [Option.head?_toList, Option.head?_toList] at hsignature'
  exact ⟨Option.map_injective (hfront _) hsignature',
    List.map_injective_iff.2 (hfront _) hannotations⟩

/-- The lines of two fields with one declaration are the same if the rest is. -/
theorem FieldDecl.lines_eq_iff {f g : FieldDecl} (h : f.declaration = g.declaration) :
    f.lines = g.lines ↔
      f.access = g.access ∧ f.signature = g.signature ∧ f.annotations = g.annotations := by
  constructor
  · intro heq
    obtain ⟨haccess, heq⟩ := List.cons.inj heq
    exact ⟨Access.line_injective haccess, decorationLines_injective (List.cons.inj heq).2⟩
  · rintro ⟨haccess, hsignature, hannotations⟩
    rw [lines, lines, haccess, h, hsignature, hannotations]

namespace ClassFile

/-- **A class file has nothing that blurs its members**: declarations tell its fields, all lines are
single lines, and exceptions can be told. -/
structure IsReadable (file : ClassFile) : Prop where
  declares : file.DeclaresPlainly
  fields : ∀ f ∈ file.fields, ∀ line ∈ f.lines, '\n' ∉ line.toList
  methods : ∀ m ∈ file.methods, m.IsReadable

instance (file : ClassFile) : Decidable file.IsReadable :=
  decidable_of_iff (file.DeclaresPlainly ∧
    (∀ f ∈ file.fields, ∀ line ∈ f.lines, '\n' ∉ line.toList) ∧
    ∀ m ∈ file.methods, m.IsReadable)
    ⟨fun h => ⟨h.1, h.2.1, h.2.2⟩, fun h => ⟨h.declares, h.fields, h.methods⟩⟩

variable {old new : ClassFile} {crc crc' : UInt32}

/-- **Readable fields keep their text if they keep their decoration.** -/
theorem keepsFields_iff (hold : old.Distinct) (hnew : new.Distinct)
    (h : (Snapshot.ofClass old crc).Keeps (Snapshot.ofClass new crc'))
    (hread : old.IsReadable) (hread' : new.IsReadable) :
    old.KeepsFields new ↔ old.KeepsDecorations new := by
  refine forall₂_congr fun f hf => forall₂_congr fun g hg => forall_congr' fun hslot => ?_
  rw [← FieldDecl.lines_eq_iff
    (declaration_eq hold hnew hread.declares hread'.declares h hf hg hslot)]
  exact ⟨Fingerprint.octets_injective (hread.fields f hf) (hread'.fields g hg), congrArg _⟩

/-- **What is tolerated when only whole units are tracked.** Let no two members of a class file
share a slot, and let SHA-256 tell the members of two class files apart. If their snapshots can
stand for one another, the kinds of changes between them are tolerated ones, or changes of fields,
exceptions or modifiers. They are all tolerated if and only if the fields that stay keep their text
and the methods that stay their header. For readable class files, this is the case if and only if
the fields that stay keep access flags, generic signature and annotations. -/
theorem tolerated_iff_of_equivalent (hold : old.Distinct) (hnew : new.Distinct)
    (hsha : old.ToldApart new) {isFixture inHierarchy : Bool}
    (h : equivalent (.ofClass old crc) (.ofClass new crc') isFixture inHierarchy = true) :
    (∀ kind ∈ classify (.ofClass old crc) (.ofClass new crc'), kind ∈ ChangeKind.tolerated ∨
        kind = .fieldChanged ∨ kind = .exceptionsChanged ∨ kind = .modifierChanged) ∧
      ((∀ kind ∈ classify (.ofClass old crc) (.ofClass new crc'), kind ∈ ChangeKind.tolerated) ↔
        old.KeepsFields new ∧ old.KeepsHeaders new) ∧
      (old.IsReadable → new.IsReadable →
        ((∀ kind ∈ classify (.ofClass old crc) (.ofClass new crc'), kind ∈ ChangeKind.tolerated) ↔
          old.KeepsDecorations new)) := by
  have hkeeps := Snapshot.keeps_of_equivalent h
  have hiff := forall_tolerated_iff hold hnew hsha hkeeps
  refine ⟨fun kind => hkeeps.mem_classify, hiff, fun hread hread' => ?_⟩
  have hheaders := keepsHeaders hold hnew hsha hkeeps hread.methods hread'.methods
  rw [hiff, and_iff_left hheaders, keepsFields_iff hold hnew hkeeps hread hread']

/-! ### A class that changes -/

/-- A method that throws exceptions. -/
def sampleThrowing (exceptions : List UnitName) : MethodDecl :=
  { sampleCount 0x04 1 with exceptions := exceptions }

/-- Another method. -/
def sampleTotal : MethodDecl := { sampleCount 0x05 1 with name := "total" }

example : (sampleStock 0x0002 [sampleThrowing ["a", "b"]]).IsReadable ∧
    ¬(sampleStock 0x0002 [sampleThrowing ["a,b"]]).IsReadable := by
  decide +kernel

/-- A method that comes is tolerated. -/
theorem tolerated_sampleStock :
    equivalent (.ofClass (sampleStock 0x0002 []) 1)
        (.ofClass (sampleStock 0x0002 [sampleTotal]) 2) false false = true ∧
      (sampleStock 0x0002 []).KeepsDecorations (sampleStock 0x0002 [sampleTotal]) ∧
      ∀ kind ∈ classify (.ofClass (sampleStock 0x0002 []) 1)
        (.ofClass (sampleStock 0x0002 [sampleTotal]) 2), kind ∈ ChangeKind.tolerated := by
  have hequivalent : equivalent (.ofClass (sampleStock 0x0002 []) 1)
      (.ofClass (sampleStock 0x0002 [sampleTotal]) 2) false false = true := by decide +kernel
  have hkept : (sampleStock 0x0002 []).KeepsDecorations (sampleStock 0x0002 [sampleTotal]) := by
    simp [KeepsDecorations, sampleStock]
  have hiff := @tolerated_iff_of_equivalent (sampleStock 0x0002 [])
    (sampleStock 0x0002 [sampleTotal]) 1 2 (by decide) (by decide) (by decide +kernel) false false
    hequivalent
  exact ⟨hequivalent, hkept, (hiff.2.2 (by decide) (by decide)).2 hkept⟩

/-- The class without its field. -/
def sampleStockless (methods : List MethodDecl) : ClassFile :=
  { sampleStock 0x0002 methods with fields := [] }

/-- A private field of an object becomes a public one of the class, or exceptions are cut into two
while a method comes: in both cases the snapshots can stand for one another. -/
theorem not_tolerated_sampleStock :
    ((sampleStock 0x0002 []).Distinct ∧ (sampleStock 0x0009 []).Distinct ∧
      (sampleStock 0x0002 []).ToldApart (sampleStock 0x0009 []) ∧
      (∀ isFixture inHierarchy, equivalent (.ofClass (sampleStock 0x0002 []) 1)
        (.ofClass (sampleStock 0x0009 []) 2) isFixture inHierarchy = true) ∧
      .fieldChanged ∈ classify (.ofClass (sampleStock 0x0002 []) 1)
        (.ofClass (sampleStock 0x0009 []) 2)) ∧
    ((sampleStockless [sampleThrowing ["a,b"]]).Distinct ∧
      (sampleStockless [sampleThrowing ["a", "b"], sampleTotal]).Distinct ∧
      (sampleStockless [sampleThrowing ["a,b"]]).ToldApart
        (sampleStockless [sampleThrowing ["a", "b"], sampleTotal]) ∧
      equivalent (.ofClass (sampleStockless [sampleThrowing ["a,b"]]) 1)
        (.ofClass (sampleStockless [sampleThrowing ["a", "b"], sampleTotal]) 2) false false = true ∧
      .exceptionsChanged ∈ classify (.ofClass (sampleStockless [sampleThrowing ["a,b"]]) 1)
        (.ofClass (sampleStockless [sampleThrowing ["a", "b"], sampleTotal]) 2)) ∧
    .fieldChanged ∉ ChangeKind.tolerated ∧ .exceptionsChanged ∉ ChangeKind.tolerated := by
  simp only [mem_classify]
  decide +kernel

end ClassFile

end Retest

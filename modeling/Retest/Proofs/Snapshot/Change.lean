import Retest.Proofs.Snapshot.Renaming

/-!
# Changes are noticed

If a member has another fingerprint in a new snapshot of its unit, or none, then
the two snapshots are not taken for equal (`Retest.classify_ne_nil_of_method`,
`Retest.classify_ne_nil_of_field`), and the member is among those that have
changed (`Retest.mem_changedMethods`, `Retest.mem_changedFields`). So is a new
instance method noticed (`Retest.classify_ne_nil_of_added`).

For methods this needs that no slot is used twice, since the two places that look
at methods prefer different kinds. For fields it needs two things of their names
and types. A field that has gone is noticed by its declaration, `name:type=value`,
so no other declaration may read the same; only one with a colon in the name can,
or with an equals sign in the type. And the slot `name:type` is cut at its first
colon, so a field whose own name holds one is taken for another field.
-/

namespace Retest

variable {before after : Snapshot}

/-- A kind of change that took place is listed. -/
theorem classify_ne_nil (kind : ChangeKind) (h : kind.occurs before after = true) :
    classify before after ≠ [] := by
  have hall : kind ∈ ChangeKind.all := by cases kind <;> decide
  exact List.ne_nil_of_mem (List.mem_filter.2 ⟨hall, h⟩)

/-! ### Methods -/

namespace Snapshot

/-- **No slot of a method is used twice.** -/
structure Apart (s : Snapshot) : Prop where
  constructors : ∀ {slot f}, s.constructors.get? slot = some f →
    s.instanceMethods.get? slot = none ∧ s.staticMethods.get? slot = none
  instances : ∀ {slot f}, s.instanceMethods.get? slot = some f → s.staticMethods.get? slot = none

/-- Then it does not matter which kind of method is preferred. -/
theorem Apart.get?_methods {s : Snapshot} (h : s.Apart) (slot : Signature) :
    s.methods.get? slot = s.method? slot := by
  rw [methods, SortedMap.get?_insertMany, SortedMap.get?_insertMany, SortedMap.lastValue?_entries,
    SortedMap.lastValue?_entries, method?]
  cases hc : s.constructors.get? slot with
  | some f =>
    obtain ⟨hi, hs⟩ := h.constructors hc
    simp [hi, hs]
  | none =>
    cases hi : s.instanceMethods.get? slot with
    | some f => simp [h.instances hi]
    | none => simp

theorem Apart.method?_eq_some_iff {s : Snapshot} (h : s.Apart) {slot : Signature}
    {f : Fingerprint} : s.method? slot = some f ↔ s.constructors.get? slot = some f ∨
      s.instanceMethods.get? slot = some f ∨ s.staticMethods.get? slot = some f := by
  refine ⟨get?_of_method?, ?_⟩
  rw [method?]
  cases hc : s.constructors.get? slot with
  | some g => simp [h.constructors hc]
  | none =>
    cases hi : s.instanceMethods.get? slot with
    | some g => simp [h.instances hi]
    | none => simp

theorem exists_method?_iff {s : Snapshot} {slot : Signature} :
    (∃ f, s.method? slot = some f) ↔ (∃ f, s.constructors.get? slot = some f) ∨
      (∃ f, s.instanceMethods.get? slot = some f) ∨ ∃ f, s.staticMethods.get? slot = some f := by
  simp only [method?, ← Option.isSome_iff_exists, Option.orElse_eq_orElse, Option.orElse_eq_or,
    Option.isSome_or, Bool.or_eq_true]

end Snapshot

/-- **A method that has changed or gone is noticed.** -/
theorem classify_ne_nil_of_method (hapart : after.Apart) {slot : Signature} {f : Fingerprint}
    (hbefore : before.method? slot = some f) (hafter : after.method? slot ≠ some f) :
    classify before after ≠ [] := by
  rw [Ne, hapart.method?_eq_some_iff, not_or, not_or] at hafter
  obtain hc | hi | hs := Snapshot.get?_of_method? hbefore
  · have hne : before.constructors ≠ after.constructors := fun he => hafter.1 (he ▸ hc)
    exact classify_ne_nil .constructorUpdated (by simpa [ChangeKind.occurs] using hne)
  · obtain h | h := MethodDiff.ne_nil_of_gone hi hafter.2.1
    · exact classify_ne_nil .instanceMethodRemoved (by
        simpa [ChangeKind.occurs, ChangeKind.occurs.instanceDiff] using h)
    · exact classify_ne_nil .instanceMethodRenamed (by
        simpa [ChangeKind.occurs, ChangeKind.occurs.instanceDiff] using h)
  · obtain h | h := MethodDiff.ne_nil_of_gone hs hafter.2.2
    · exact classify_ne_nil .staticMethodRemoved (by
        simpa [ChangeKind.occurs, ChangeKind.occurs.staticDiff] using h)
    · exact classify_ne_nil .staticMethodRenamed (by
        simpa [ChangeKind.occurs, ChangeKind.occurs.staticDiff] using h)

/-- **A new instance method is noticed.** -/
theorem classify_ne_nil_of_added {slot : Signature}
    (h : slot ∈ addedInstanceMethods before after) : classify before after ≠ [] := by
  obtain ⟨hafter, hbefore⟩ := SortedSet.mem_filter.1 h
  obtain ⟨f, hf⟩ := SortedMap.mem_keys.1 hafter
  have hnew : before.instanceMethods.get? slot ≠ some f := fun hsome => by
    simp [SortedMap.contains, hsome] at hbefore
  obtain h | h := MethodDiff.ne_nil_of_new hnew hf
  · exact classify_ne_nil .instanceMethodAdded (by
      simpa [ChangeKind.occurs, ChangeKind.occurs.instanceDiff] using h)
  · exact classify_ne_nil .instanceMethodRenamed (by
      simpa [ChangeKind.occurs, ChangeKind.occurs.instanceDiff] using h)

/-- **A method that has changed or gone is among the changed methods.** -/
theorem mem_changedMethods (hbefore : before.Apart) (hafter : after.Apart) {slot : Signature}
    {f : Fingerprint} (hold : before.method? slot = some f) (hnew : after.method? slot ≠ some f) :
    .method ⟨before.name, slot⟩ ∈ changedMethods before after := by
  rw [← hbefore.get?_methods] at hold
  rw [← hafter.get?_methods] at hnew
  refine SortedSet.mem_ofList.2 (List.mem_append_left _ (List.mem_map.2 ⟨(slot, f), ?_, rfl⟩))
  exact List.mem_filter.2 ⟨SortedMap.get?_eq_some_iff.1 hold, by simpa using hnew⟩

/-! ### Fields -/

/-- A field that has changed is noticed, and one whose declaration has gone. -/
theorem classify_ne_nil_of_field {slot : String} {f : Fingerprint}
    (hold : before.fields.get? slot = some f) (hnew : after.fields.get? slot ≠ some f)
    (hgone : after.fields.get? slot = none →
      ∃ text ∈ before.declarations, text ∉ after.declarations) :
    classify before after ≠ [] := by
  cases hget : after.fields.get? slot with
  | some g =>
    have hne : g ≠ f := fun he => hnew (by rw [hget, he])
    refine classify_ne_nil .fieldChanged ?_
    have hretags : before.retagsField after = true := by
      rw [Snapshot.retagsField, List.any_eq_true]
      refine ⟨(slot, f), SortedMap.get?_eq_some_iff.1 hold, ?_⟩
      simp [hget, hne]
    simp [ChangeKind.occurs, hretags]
  | none =>
    -- the text of the declaration is gone: a removal, or a change where another one is new
    obtain ⟨text, hbefore, hafter⟩ := hgone hget
    have hextra : before.extraDeclarations after ≠ ∅ := fun he => by
      have : text ∈ before.extraDeclarations after := SortedSet.mem_diff.2 ⟨hbefore, hafter⟩
      rw [he] at this
      exact SortedSet.not_mem_empty text this
    have hextra : (before.extraDeclarations after).isEmpty = false := by
      rwa [← Bool.not_eq_true, SortedSet.isEmpty_eq_true]
    cases hadded : (after.extraDeclarations before).isEmpty with
    | true => exact classify_ne_nil .fieldRemoved (by simp [ChangeKind.occurs, hadded, hextra])
    | false => exact classify_ne_nil .fieldChanged (by simp [ChangeKind.occurs, hadded, hextra])

/-- **A field that has changed or gone is among the changed fields**, unless its name holds a
colon. -/
theorem mem_changedFields {key : FieldKey} (howner : key.owner = after.name)
    (hcolon : ':' ∉ key.name.toList) {f : Fingerprint} (hold : before.fields.get? key.slot = some f)
    (hnew : after.fields.get? key.slot ≠ some f) :
    .field key ∈ changedFields before after := by
  refine SortedSet.mem_ofList.2 (List.mem_filterMap.2 ⟨key.slot, ?_, ?_⟩)
  · refine SortedSet.mem_filter.2
      ⟨SortedSet.mem_union.2 (.inl (SortedMap.mem_keys_of_get? hold)), ?_⟩
    rw [hold]
    simpa using hnew.symm
  · rw [FieldKey.ofSlot?_eq_some_iff.2 ⟨howner, rfl, hcolon⟩]
    rfl

/-! ### Class files -/

namespace ClassFile

/-- The methods and fields that a class file declares. -/
def members (file : ClassFile) : List Dependency :=
  file.methods.map (fun m => .method ⟨file.name, m.slot⟩) ++
    file.fields.map fun f => .field ⟨file.name, f.name, f.descriptor⟩

/-- **A class file whose members can be told apart**: no two methods have the same slot, and no type
of a field holds an equals sign. -/
structure WellDeclared (file : ClassFile) : Prop where
  methods : (file.methods.map MethodDecl.slot).Nodup
  descriptors : ∀ f ∈ file.fields, '=' ∉ f.descriptor.toList

instance (file : ClassFile) : Decidable file.WellDeclared :=
  decidable_of_iff ((file.methods.map MethodDecl.slot).Nodup ∧
    ∀ f ∈ file.fields, '=' ∉ f.descriptor.toList) ⟨fun h => ⟨h.1, h.2⟩, fun h => ⟨h.1, h.2⟩⟩

end ClassFile

theorem Snapshot.exists_get?_slots {α : Type} {members : List α} {keep : α → Bool}
    {slot : α → String} {fingerprint : α → Fingerprint} {m : α} (hm : m ∈ members)
    (hkeep : keep m = true) :
    ∃ f, (slots members keep slot fingerprint).get? (slot m) = some f := by
  have hmem : (slot m, fingerprint m) ∈
      (members.filter keep).map fun m => (slot m, fingerprint m) :=
    List.mem_map_of_mem (List.mem_filter.2 ⟨hm, hkeep⟩)
  rw [slots, SortedMap.get?_ofList]
  exact SortedMap.exists_lastValue?_of_mem hmem

namespace ClassFile

variable {file : ClassFile}

theorem owner_of_mem_members {m : Dependency} (hm : m ∈ file.members) : m.owner = file.name := by
  rcases List.mem_append.1 hm with hm | hm
  all_goals
    obtain ⟨d, -, rfl⟩ := List.mem_map.1 hm
    rfl

theorem isUnit_of_mem_members {m : Dependency} (hm : m ∈ file.members) : m.isUnit = false := by
  rcases List.mem_append.1 hm with hm | hm
  all_goals
    obtain ⟨d, -, rfl⟩ := List.mem_map.1 hm
    rfl

variable (crc : UInt32)

/-- Every member has a fingerprint in the snapshot. -/
theorem exists_fingerprint? {m : Dependency} (hm : m ∈ file.members) :
    ∃ f, (Snapshot.ofClass file crc).fingerprint? m = some f := by
  rcases List.mem_append.1 hm with hm | hm
  · obtain ⟨d, hd, rfl⟩ := List.mem_map.1 hm
    rw [Snapshot.fingerprint?_method rfl, Snapshot.exists_method?_iff]
    cases hinit : isInitializerName d.name with
    | true => exact .inl (Snapshot.exists_get?_slots hd hinit)
    | false =>
      cases hstatic : d.access.isStatic with
      | false => exact .inr (.inl (Snapshot.exists_get?_slots hd (by simp [hinit, hstatic])))
      | true => exact .inr (.inr (Snapshot.exists_get?_slots hd (by simp [hinit, hstatic])))
  · obtain ⟨d, hd, rfl⟩ := List.mem_map.1 hm
    rw [Snapshot.fingerprint?_field rfl]
    exact Snapshot.exists_get?_slots hd rfl

/-- The methods of a class file without repeated slots are of one kind each. -/
theorem WellDeclared.apart (h : file.WellDeclared) : (Snapshot.ofClass file crc).Apart := by
  -- two kinds in which a slot occurs are both the kind of the one method that has it
  have hkinds : ∀ {keep keep' : MethodDecl → Bool} {fp fp' : MethodDecl → Fingerprint} {slot f},
      (∀ m, keep m = true → keep' m = false) →
      (Snapshot.slots file.methods keep MethodDecl.slot fp).get? slot = some f →
      (Snapshot.slots file.methods keep' MethodDecl.slot fp').get? slot = none := by
    intro keep keep' fp fp' slot f hdisjoint hf
    rw [Option.eq_none_iff_forall_ne_some]
    intro g hg
    obtain ⟨d, hd, hkeep, hslot, -⟩ := Snapshot.exists_of_get?_slots hf
    obtain ⟨e, he, hkeep', hslot', -⟩ := Snapshot.exists_of_get?_slots hg
    have hde : d = e := List.inj_on_of_nodup_map h.methods hd he (hslot.trans hslot'.symm)
    rw [hde] at hkeep
    rw [hdisjoint e hkeep] at hkeep'
    cases hkeep'
  constructor
  · intro slot f hf
    exact ⟨hkinds (by simp +contextual) hf, hkinds (by simp +contextual) hf⟩
  · intro slot f hf
    exact hkinds (by simp +contextual) hf

end ClassFile

/-- A declaration tells the slot of its field. -/
theorem FieldDecl.slot_of_declaration {d e : FieldDecl} (h : d.declaration = e.declaration)
    (hd : ':' ∉ d.name.toList) (he : ':' ∉ e.name.toList) (hd' : '=' ∉ d.descriptor.toList)
    (he' : '=' ∉ e.descriptor.toList) : d.slot = e.slot := by
  have hlist : ∀ f : FieldDecl, f.declaration.toList = f.name.toList ++ ':' ::
      (f.descriptor.toList ++ '=' :: (f.constant.elim "" Constant.text).toList) := by
    intro f
    simp [declaration, slot]
  have h := congrArg String.toList h
  rw [hlist, hlist] at h
  -- the name ends at the first colon, and the type at the first equals sign after it
  obtain ⟨hname, hrest⟩ := Text.append_separator_inj hd he h
  obtain ⟨hdescriptor, -⟩ := Text.append_separator_inj hd' he' hrest
  rw [slot, slot, String.toList_inj.1 hname, String.toList_inj.1 hdescriptor]

namespace ClassFile

/-- **A member of a class file can be made out in a later version**, unless it is a field and its
name holds a colon, or a field with a colon in its name has the same declaration there. -/
def Legible (old new : ClassFile) : Dependency → Prop
  | .field key => ':' ∉ key.name.toList ∧ ∀ f ∈ old.fields, f.slot = key.slot →
      ∀ g ∈ new.fields, ':' ∈ g.name.toList → g.declaration ≠ f.declaration
  | _ => True

instance (old new : ClassFile) : (m : Dependency) → Decidable (Legible old new m)
  | .unit _ => inferInstanceAs (Decidable True)
  | .method _ => inferInstanceAs (Decidable True)
  | .field _ => inferInstanceAs (Decidable (_ ∧ _))

variable {old new : ClassFile} (crc crc' : UInt32) {m : Dependency}

/-- A field that is gone takes its declaration with it. -/
theorem exists_declaration_of_gone (hold : old.WellDeclared) (hnew : new.WellDeclared)
    {d : FieldDecl} (hd : d ∈ old.fields) (hcolon : ':' ∉ d.name.toList)
    (hcolons : ∀ g ∈ new.fields, ':' ∈ g.name.toList → g.declaration ≠ d.declaration)
    (hgone : (Snapshot.ofClass new crc').fields.get? d.slot = none) :
    ∃ text ∈ (Snapshot.ofClass old crc).declarations,
      text ∉ (Snapshot.ofClass new crc').declarations := by
  refine ⟨d.declaration, SortedSet.mem_ofList.2 (List.mem_map_of_mem hd), fun h => ?_⟩
  obtain ⟨e, he, htext⟩ := List.mem_map.1 (SortedSet.mem_ofList.1 h)
  have hslot : e.slot = d.slot := FieldDecl.slot_of_declaration htext
    (fun hin => hcolons e he hin htext) hcolon (hnew.descriptors e he) (hold.descriptors d hd)
  have hfound : ∃ f, (Snapshot.ofClass new crc').fields.get? e.slot = some f :=
    Snapshot.exists_get?_slots he rfl
  obtain ⟨f, hf⟩ := hfound
  rw [hslot] at hf
  cases hgone.symm.trans hf

/-- **A member that has changed or gone is noticed, and it is known which it is.** -/
theorem mem_changed (hold : old.WellDeclared) (hnew : new.WellDeclared)
    (hname : new.name = old.name)
    (hm : m ∈ old.members) (hlegible : Legible old new m)
    (hchanged : (Snapshot.ofClass new crc').fingerprint? m ≠
      (Snapshot.ofClass old crc).fingerprint? m) :
    classify (Snapshot.ofClass old crc) (Snapshot.ofClass new crc') ≠ [] ∧
      (m ∈ changedMethods (Snapshot.ofClass old crc) (Snapshot.ofClass new crc') ∨
        m ∈ changedFields (Snapshot.ofClass old crc) (Snapshot.ofClass new crc')) := by
  obtain ⟨f, hf⟩ := exists_fingerprint? crc hm
  rw [hf] at hchanged
  rcases List.mem_append.1 hm with hm | hm
  · obtain ⟨d, hd, rfl⟩ := List.mem_map.1 hm
    rw [Snapshot.fingerprint?_method rfl] at hf
    rw [Snapshot.fingerprint?_method hname.symm] at hchanged
    exact ⟨classify_ne_nil_of_method (hnew.apart crc') hf hchanged,
      .inl (mem_changedMethods (hold.apart crc) (hnew.apart crc') hf hchanged)⟩
  · obtain ⟨d, hd, rfl⟩ := List.mem_map.1 hm
    obtain ⟨hcolon, hcolons⟩ := hlegible
    rw [Snapshot.fingerprint?_field rfl] at hf
    rw [Snapshot.fingerprint?_field hname.symm] at hchanged
    refine ⟨classify_ne_nil_of_field hf hchanged fun hgone => ?_,
      .inr (mem_changedFields hname.symm hcolon hf hchanged)⟩
    exact exists_declaration_of_gone crc crc' hold hnew hd hcolon (hcolons d hd rfl) hgone

end ClassFile

end Retest

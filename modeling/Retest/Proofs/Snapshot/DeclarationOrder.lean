import Retest.Proofs.Snapshot.Tolerated

/-!
# The order of declarations

A compiler may list the members of a class in another order, and a constructor may set fields in
another order, without the class being another one. `Retest.ClassFile.Rearranged` says what may be
moved: methods, fields and interfaces, and within the bodies of constructors and static initializers
instructions and handlers. A class file whose members have distinct slots has the same snapshot
after that (`Retest.ClassFile.ofClass_of_rearranged`), down to the fingerprint of the whole.

Every part of a snapshot is a set or a map. A set does not know the order in which its elements were
put in, and a map that is made from a list with distinct keys does not know the order of the list.
The fingerprint of an initializer is taken of its sorted lines, hence of the multiset of its lines;
for any other method the order of instructions counts, and must not be changed. The summary of which
the fingerprint of the whole is taken is written from these sets and maps.
-/

namespace Retest

/-! ### Sets and maps -/

theorem SortedSet.ofList_eq_of_perm {α : Type} [Ord α] [Std.TransOrd α] [Std.LawfulEqOrd α]
    {l l' : List α} (h : l.Perm l') : ofList l = ofList l' :=
  ext_mem fun a => by rw [mem_ofList, mem_ofList, h.mem_iff]

/-- A map that is made from a list with distinct keys does not know the order of the list. -/
theorem SortedMap.ofList_eq_of_perm {κ β : Type} [Ord κ] [Std.TransOrd κ] [Std.LawfulEqOrd κ]
    [DecidableEq κ] {l l' : List (κ × β)} (hnodup : (l.map Prod.fst).Nodup) (h : l.Perm l') :
    ofList l = ofList l' := by
  have hone : ∀ k v w, (k, v) ∈ l → (k, w) ∈ l → w = v := fun k v w hv hw =>
    congrArg Prod.snd (List.inj_on_of_nodup_map hnodup hw hv rfl)
  refine ext_get? fun k => Option.ext fun v => ?_
  rw [get?_ofList_eq_some_iff (hone k), get?_ofList_eq_some_iff fun v w hv hw =>
    hone k v w (h.mem_iff.2 hv) (h.mem_iff.2 hw), h.mem_iff]

/-! ### Members by slot -/

section Members

variable {α β : Type} {members members' : List α} {keep : α → Bool} {slot : α → String}
  {value : α → β}

/-- Members with distinct slots can be put into a map in any order. -/
theorem ofList_members_eq_of_perm (hnodup : (members.map slot).Nodup)
    (h : members.Perm members') :
    SortedMap.ofList ((members.filter keep).map fun m => (slot m, value m)) =
      SortedMap.ofList ((members'.filter keep).map fun m => (slot m, value m)) := by
  refine SortedMap.ofList_eq_of_perm ?_ ((h.filter keep).map _)
  rw [List.map_map]
  exact hnodup.sublist (List.filter_sublist.map slot)

/-- What is taken of the members that are kept is the same, if it is the same of each. -/
theorem map_filter_eq_of_forall₂ {R : α → α → Prop} (h : List.Forall₂ R members members')
    (hR : ∀ m m', R m m' → keep m = keep m' ∧ (keep m = true → value m = value m')) :
    (members.filter keep).map value = (members'.filter keep).map value := by
  induction h with
  | nil => rfl
  | @cons m m' l l' hhead _ ih =>
    obtain ⟨hkeep, hvalue⟩ := hR m m' hhead
    rw [List.filter_cons, List.filter_cons, ← hkeep]
    split
    · next hm => rw [List.map_cons, List.map_cons, ih, hvalue hm]
    · exact ih

end Members

/-! ### What may be moved -/

/-- **A body is rearranged**: its instructions and its handlers stand in another order. -/
structure Code.Rearranged (code code' : Code) : Prop where
  maxStack : code'.maxStack = code.maxStack
  maxLocals : code'.maxLocals = code.maxLocals
  instructions : code.instructions.Perm code'.instructions
  handlers : code.handlers.Perm code'.handlers

/-- **A method is rearranged**: if it is a constructor or a static initializer, its body may be. -/
inductive MethodDecl.Rearranged : MethodDecl → MethodDecl → Prop where
  | same (m : MethodDecl) : Rearranged m m
  | body {m : MethodDecl} {code code' : Code} (hname : isInitializerName m.name = true)
    (hcode : m.code = some code) (h : code.Rearranged code') :
    Rearranged m { m with code := some code' }

/-- **A class file is rearranged**: its interfaces, fields and methods stand in another order, and
so may what is in the bodies of its constructors and its static initializer. -/
structure ClassFile.Rearranged (file file' : ClassFile) : Prop where
  name : file'.name = file.name
  access : file'.access = file.access
  superName : file'.superName = file.superName
  signature : file'.signature = file.signature
  annotations : file'.annotations = file.annotations
  interfaces : file.interfaces.Perm file'.interfaces
  fields : file.fields.Perm file'.fields
  methods : ∃ methods, List.Forall₂ MethodDecl.Rearranged file.methods methods ∧
    methods.Perm file'.methods

namespace MethodDecl

variable {m m' : MethodDecl}

theorem Rearranged.slot_eq (h : m.Rearranged m') : m.slot = m'.slot := by
  cases h <;> rfl

theorem Rearranged.name_eq (h : m.Rearranged m') : m.name = m'.name := by
  cases h <;> rfl

theorem Rearranged.header_eq (h : m.Rearranged m') : m.header = m'.header := by
  cases h <;> rfl

/-- Only initializers are touched. -/
theorem Rearranged.eq_of_not_isInitializer (h : m.Rearranged m')
    (hname : isInitializerName m.name = false) : m = m' := by
  cases h with
  | same => rfl
  | body hinit => exact absurd (hinit.symm.trans hname) Bool.true_eq_false.mp

/-- A method that is rearranged has the lines that it had. -/
theorem Rearranged.perm_lines (h : m.Rearranged m') : m.lines.Perm m'.lines := by
  cases h with
  | same => exact .refl _
  | @body code code' hname hcode hbody =>
    have hlines : code.lines.Perm code'.lines :=
      (hbody.instructions.map _).append (hbody.handlers.map _)
    rw [lines, lines, hcode]
    exact hlines.append_left _

end MethodDecl

/-! ### Snapshots -/

namespace ClassFile

variable {file file' : ClassFile}

theorem Distinct.method?_ofClass (h : file.Distinct) (crc : UInt32) {m : MethodDecl}
    (hm : m ∈ file.methods) :
    (Snapshot.ofClass file crc).method? m.slot = some (.ordered m.printed) := by
  have hget := fun keep fingerprint => Snapshot.get?_slots h.methods hm keep fingerprint
  rw [Snapshot.method?, Snapshot.ofClass]
  simp only [hget, MethodDecl.printed]
  cases isInitializerName m.name <;> cases m.access.isStatic <;> rfl

theorem map_slot_of_forall₂ {methods methods' : List MethodDecl}
    (h : List.Forall₂ MethodDecl.Rearranged methods methods') :
    methods.map MethodDecl.slot = methods'.map MethodDecl.slot := by
  have hslots := map_filter_eq_of_forall₂ h fun m m' hm =>
    ⟨show (fun _ => true) m = (fun _ => true) m' from rfl, fun _ => hm.slot_eq⟩
  rwa [List.filter_true, List.filter_true] at hslots

theorem Rearranged.distinct (h : file.Rearranged file') (hdistinct : file.Distinct) :
    file'.Distinct := by
  obtain ⟨methods, hall, hperm⟩ := h.methods
  refine ⟨?_, (h.fields.map _).nodup_iff.1 hdistinct.fields⟩
  rw [← (hperm.map _).nodup_iff, ← map_slot_of_forall₂ hall]
  exact hdistinct.methods

/-- A map of methods is the same after a rearrangement, if what is taken of each method is. -/
theorem Rearranged.ofList_eq {β : Type} (h : file.Rearranged file') (hdistinct : file.Distinct)
    {keep : MethodDecl → Bool} {value : MethodDecl → β}
    (hR : ∀ m m' : MethodDecl, m.Rearranged m' → keep m = keep m' ∧
      (keep m = true → value m = value m')) :
    SortedMap.ofList ((file.methods.filter keep).map fun m => (m.slot, value m)) =
      SortedMap.ofList ((file'.methods.filter keep).map fun m => (m.slot, value m)) := by
  obtain ⟨methods, hall, hperm⟩ := h.methods
  have hentries : (file.methods.filter keep).map (fun m => (m.slot, value m)) =
      (methods.filter keep).map fun m => (m.slot, value m) :=
    map_filter_eq_of_forall₂ hall fun m m' hm =>
      ⟨(hR m m' hm).1, fun hkeep => by rw [hm.slot_eq, (hR m m' hm).2 hkeep]⟩
  rw [hentries]
  exact ofList_members_eq_of_perm (map_slot_of_forall₂ hall ▸ hdistinct.methods) hperm

/-- All parts of a snapshot are the same after a rearrangement. -/
theorem Rearranged.ofClass_eq (h : file.Rearranged file') (hdistinct : file.Distinct)
    (crc : UInt32) : Snapshot.ofClass file crc = Snapshot.ofClass file' crc := by
  have hconstructors : Snapshot.slots file.methods (fun m => isInitializerName m.name)
      MethodDecl.slot (fun m => .unordered m.lines) =
      Snapshot.slots file'.methods (fun m => isInitializerName m.name) MethodDecl.slot
        fun m => .unordered m.lines :=
    h.ofList_eq hdistinct fun m m' hm =>
      ⟨by rw [hm.name_eq], fun _ => Fingerprint.unordered_eq_of_perm hm.perm_lines⟩
  have hothers : ∀ kept : MethodDecl → Bool, Snapshot.slots file.methods
      (fun m => !isInitializerName m.name && kept m) MethodDecl.slot (fun m => .ordered m.lines) =
      Snapshot.slots file'.methods (fun m => !isInitializerName m.name && kept m) MethodDecl.slot
        fun m => .ordered m.lines := by
    refine fun kept => h.ofList_eq hdistinct fun m m' hm => ?_
    cases hname : isInitializerName m.name with
    | true =>
      rw [← hm.name_eq, hname]
      exact ⟨rfl, fun hkept => absurd hkept Bool.false_ne_true⟩
    | false =>
      obtain rfl := hm.eq_of_not_isInitializer hname
      exact ⟨by rw [hname], fun _ => rfl⟩
  have hfields : Snapshot.slots file.fields (fun _ => true) FieldDecl.slot
      (fun f => .ordered f.lines) =
      Snapshot.slots file'.fields (fun _ => true) FieldDecl.slot fun f => .ordered f.lines :=
    ofList_members_eq_of_perm hdistinct.fields h.fields
  have hdeclarations : SortedSet.ofList (file.fields.map FieldDecl.declaration) =
      SortedSet.ofList (file'.fields.map FieldDecl.declaration) :=
    SortedSet.ofList_eq_of_perm (h.fields.map _)
  have hheader : file.headerLines = file'.headerLines := by
    rw [headerLines, headerLines, h.access, h.signature, h.annotations]
  have hheaders : SortedMap.ofList (file.methods.map fun m => (m.slot, m.header)) =
      SortedMap.ofList (file'.methods.map fun m => (m.slot, m.header)) := by
    have hall := h.ofList_eq hdistinct fun m m' hm =>
      ⟨show (fun _ => true) m = (fun _ => true) m' from rfl, fun _ => hm.header_eq⟩
    rwa [List.filter_true, List.filter_true] at hall
  simp only [MethodDecl.header] at hheaders
  simp only [Snapshot.ofClass, h.name, h.superName, hheader, hconstructors, hothers, hfields,
    hdeclarations, SortedSet.ofList_eq_of_perm h.interfaces, hheaders]

/-- **The order of declarations does not reach the snapshot.** If no two members of a class file
share a slot, the class file has the same snapshot after a rearrangement; and that snapshot knows
every member of the rearranged class file, by the fingerprint of its lines. -/
theorem ofClass_of_rearranged (hdistinct : file.Distinct) (h : file.Rearranged file')
    (crc : UInt32) :
    Snapshot.ofClass file' crc = Snapshot.ofClass file crc ∧
      (∀ f ∈ file'.fields,
        (Snapshot.ofClass file crc).fields.get? f.slot = some (.ordered f.lines)) ∧
      ∀ m ∈ file'.methods,
        (Snapshot.ofClass file crc).method? m.slot = some (.ordered m.printed) := by
  have hsame := h.ofClass_eq hdistinct crc
  have hdistinct' := h.distinct hdistinct
  rw [hsame]
  exact ⟨rfl, fun f hf => get?_fields hdistinct' hf, fun m hm => hdistinct'.method?_ofClass crc hm⟩

/-- A constructor that does two things, and then returns. -/
def sampleConstructor (first second : UInt8) : MethodDecl where
  access := 0x0001
  name := "<init>"
  descriptor := "()V"
  exceptions := []
  signature := none
  annotations := []
  code := some ⟨1, 1, [⟨first, .none⟩, ⟨second, .none⟩, ⟨0xb1, .none⟩], []⟩

/-- A class with two fields, a constructor and a method. -/
def sampleShelf : ClassFile :=
  { sampleStock 0x0002 [sampleConstructor 0x03 0x04, sampleCount 0x04 1] with
    interfaces := ["shop.Priced", "shop.Sized", "shop.Priced"]
    fields := [⟨0x0002, "left", "I", none, none, []⟩, ⟨0x0002, "right", "I", none, none, []⟩] }

/-- The same class with everything in another order. -/
def sampleShelfTurned : ClassFile :=
  { sampleStock 0x0002 [sampleCount 0x04 1, sampleConstructor 0x04 0x03] with
    interfaces := ["shop.Sized", "shop.Priced", "shop.Priced"]
    fields := [⟨0x0002, "right", "I", none, none, []⟩, ⟨0x0002, "left", "I", none, none, []⟩] }

theorem rearranged_sampleShelf : sampleShelf.Rearranged sampleShelfTurned := by
  have hconstructor : (sampleConstructor 0x03 0x04).Rearranged (sampleConstructor 0x04 0x03) :=
    .body rfl rfl ⟨rfl, rfl, .swap _ _ _, .refl _⟩
  exact ⟨rfl, rfl, rfl, rfl, rfl, .swap _ _ _, .swap _ _ _,
    [sampleConstructor 0x04 0x03, sampleCount 0x04 1],
    .cons hconstructor (.cons (.same _) .nil), .swap _ _ _⟩

/-- Two class files that are not the same and have the same snapshot. -/
theorem ofClass_sampleShelf : sampleShelf.Distinct ∧ sampleShelf.Rearranged sampleShelfTurned ∧
    sampleShelf ≠ sampleShelfTurned ∧
    Snapshot.ofClass sampleShelfTurned 7 = Snapshot.ofClass sampleShelf 7 := by
  have hdistinct : sampleShelf.Distinct := by decide +kernel
  exact ⟨hdistinct, rearranged_sampleShelf, by decide +kernel,
    (ofClass_of_rearranged hdistinct rearranged_sampleShelf 7).1⟩

end ClassFile

end Retest

import Mathlib.Data.List.Forall2
import Retest.Assembly.Basic
import Retest.ClassFile.Fact
import Retest.Proofs.ClassFile.Layout
import Retest.Snapshot.Basic

/-!
# Attributes that are passed over

Six attributes of a class file are looked into. All others are passed over, and so
are the attributes that the body of a method has itself, which serve debugging for
the most part.

Two layouts are *alike* (`Retest.ClassFile.Layout.Alike`) if they have the same head
and differ, below it, only in attributes that are passed over: such attributes may be
put in, left out and exchanged anywhere. The octets of such layouts differ in their
length, and in the lengths and numbers that enclose a change. Nevertheless they are
decoded to the same class file, so that they state the same facts and have the same
fingerprints (`Retest.ClassFile.decode_of_alike`).
-/

namespace Retest

open Assembly (two four)
open Reader

/-! ### Attributes -/

namespace Attributes

/-- The names of the attributes that are looked into. -/
def knownNames : List String :=
  ["Signature", "RuntimeVisibleAnnotations", "ConstantValue", "Exceptions", "Code",
    "BootstrapMethods"]

/-- An attribute of any other name says nothing. -/
theorem add_of_not_mem {pool : Pool} {attributes : Attributes} {name : String}
    {body : List UInt8} (hname : name ∉ knownNames) :
    attributes.add pool name body = .ok attributes := by
  rw [add]
  · rfl
  all_goals
    rintro rfl
    exact hname (by decide)

/-- The body of a method is taken up without the attributes it has itself, and without what follows
them. -/
theorem add_body (pool : Pool) (attributes : Attributes) (inner : CodeLayout)
    (tail : List UInt8) : attributes.add pool "Code" (inner.octets ++ tail) =
      .ok { attributes with code := some inner.code } := by
  rw [add, (Bytecode.yields_read inner).within tail]
  rfl

end Attributes

namespace AttributeLayout

/-- An attribute is passed over: it has a name, and it is not one of the six. -/
def IsPassedOver (pool : Pool) (layout : AttributeLayout) : Prop :=
  ∃ name, pool.text layout.name = .ok name ∧ name ∉ Attributes.knownNames

/-- **Lists of attributes are alike** if they differ in attributes that are passed over, and in
attributes within the bodies of methods. -/
inductive Alike (pool : Pool) : List AttributeLayout → List AttributeLayout → Prop
  | nil : Alike pool [] []
  /-- Both lists go on with the same attribute. -/
  | both {l l' : List AttributeLayout} (layout : AttributeLayout) :
      Alike pool l l' → Alike pool (layout :: l) (layout :: l')
  /-- An attribute is only on the left. -/
  | left {l l' : List AttributeLayout} {layout : AttributeLayout} :
      layout.IsPassedOver pool → Alike pool l l' → Alike pool (layout :: l) l'
  /-- An attribute is only on the right. -/
  | right {l l' : List AttributeLayout} {layout : AttributeLayout} :
      layout.IsPassedOver pool → Alike pool l l' → Alike pool l (layout :: l')
  /-- Both lists go on with the body of a method, with other attributes and another end. -/
  | body {l l' : List AttributeLayout} {layout layout' : AttributeLayout}
      (inner inner' : CodeLayout) (tail tail' : List UInt8) :
      pool.text layout.name = .ok "Code" → layout'.name = layout.name →
      layout.body = inner.octets ++ tail → layout'.body = inner'.octets ++ tail' →
      inner'.code = inner.code → Alike pool l l' → Alike pool (layout :: l) (layout' :: l')

variable {pool : Pool} {layout layout' : AttributeLayout}

theorem addTo_of_isPassedOver (h : layout.IsPassedOver pool) (attributes : Attributes) :
    addTo pool attributes layout = .ok attributes := by
  obtain ⟨name, htext, hname⟩ := h
  rw [addTo, htext]
  exact Attributes.add_of_not_mem hname

theorem addTo_body {inner : CodeLayout} {tail : List UInt8}
    (hname : pool.text layout.name = .ok "Code") (hbody : layout.body = inner.octets ++ tail)
    (attributes : Attributes) :
    addTo pool attributes layout = .ok { attributes with code := some inner.code } := by
  rw [addTo, hname, hbody]
  exact Attributes.add_body pool attributes inner tail

/-- Lists of attributes that are alike say the same. -/
theorem Alike.foldlM_eq {l l' : List AttributeLayout} (h : Alike pool l l')
    (attributes : Attributes) :
    l'.foldlM (addTo pool) attributes = l.foldlM (addTo pool) attributes := by
  induction h generalizing attributes with
  | nil => rfl
  | both layout _ ih =>
    rw [List.foldlM_cons, List.foldlM_cons]
    exact congrArg _ (funext ih)
  | left hover _ ih =>
    rw [List.foldlM_cons, addTo_of_isPassedOver hover]
    exact ih attributes
  | right hover _ ih =>
    rw [List.foldlM_cons, addTo_of_isPassedOver hover]
    exact ih attributes
  | body inner inner' tail tail' hcode hname hbody hbody' hinner _ ih =>
    rw [List.foldlM_cons, List.foldlM_cons, addTo_body hcode hbody,
      addTo_body (hname ▸ hcode) hbody', hinner]
    exact ih _

theorem Alike.resolve_eq {l l' : List AttributeLayout} (h : Alike pool l l') :
    resolve pool l' = resolve pool l := h.foldlM_eq {}

end AttributeLayout

/-! ### Members -/

/-- Fields or methods are alike: they differ in their attributes at most, and these are alike. -/
structure MemberLayout.Alike (pool : Pool) (layout layout' : MemberLayout) : Prop where
  access : layout'.access = layout.access
  name : layout'.name = layout.name
  descriptor : layout'.descriptor = layout.descriptor
  attributes : AttributeLayout.Alike pool layout.attributes layout'.attributes

namespace MemberLayout

variable {pool : Pool}

theorem Alike.resolve_eq {layout layout' : MemberLayout} (h : layout.Alike pool layout') :
    layout'.resolve pool = layout.resolve pool := by
  rw [resolve, resolve, h.name, h.descriptor, h.attributes.resolve_eq, h.access]

theorem mapM_resolve_of_alike {l l' : List MemberLayout} (h : List.Forall₂ (Alike pool) l l') :
    l'.mapM (resolve pool) = l.mapM (resolve pool) := by
  induction h with
  | nil => rfl
  | cons hhead _ ih => rw [List.mapM_cons, List.mapM_cons, hhead.resolve_eq, ih]

end MemberLayout

/-! ### Class files -/

namespace ClassFile

/-- **Layouts of class files are alike**: below a common head, they differ in attributes of the
class, of its fields and of its methods, and these are alike. -/
structure Layout.Alike (layout layout' : Layout) : Prop where
  head : layout'.head = layout.head
  access : layout'.access = layout.access
  name : layout'.name = layout.name
  superName : layout'.superName = layout.superName
  interfaces : layout'.interfaces = layout.interfaces
  fields : List.Forall₂ (MemberLayout.Alike layout.pool) layout.fields layout'.fields
  methods : List.Forall₂ (MemberLayout.Alike layout.pool) layout.methods layout'.methods
  attributes : AttributeLayout.Alike layout.pool layout.attributes layout'.attributes

namespace Layout

variable {layout layout' : Layout}

/-- The head determines the constant pool. -/
theorem pool_eq_of_head_eq (h : layout'.head = layout.head) : layout'.pool = layout.pool := by
  have hruns := layout'.reads 0 []
  rw [h, layout.reads 0 []] at hruns
  exact (congrArg Prod.fst (Except.ok.inj hruns)).symm

theorem Alike.resolve_eq (h : layout.Alike layout') : layout'.resolve = layout.resolve := by
  have hframe : layout'.frame = layout.frame := by
    rw [frame, frame, pool_eq_of_head_eq h.head, h.access, h.name, h.superName, h.interfaces,
      MemberLayout.mapM_resolve_of_alike h.fields, MemberLayout.mapM_resolve_of_alike h.methods,
      h.attributes.resolve_eq]
  rw [resolve, resolve, hframe]

end Layout

/-- **Attributes that are passed over do not matter.** What is decoded without a fault has a
layout, and whatever is laid out alike is decoded to the same class file. So it states the same
facts, and its snapshot differs in the checksum of the octets at most. -/
theorem decode_of_alike {bytes : List UInt8} {file : ClassFile} (h : decode bytes = .ok file) :
    (∃ layout : Layout, layout.octets = bytes) ∧
      ∀ layout layout' : Layout, layout.octets = bytes → layout.Alike layout' →
        decode layout'.octets = .ok file ∧
        (decode layout'.octets).map facts = .ok file.facts ∧
        Snapshot.decode layout'.octets = .ok (file,
          { Snapshot.ofClass file (Digest.Crc32.check bytes) with
            crc := Digest.Crc32.check layout'.octets }) := by
  refine ⟨exists_layout h, ?_⟩
  intro layout layout' hoctets halike
  have hdecode : decode layout'.octets = .ok file := by
    rw [decode_octets, halike.resolve_eq, ← decode_octets, hoctets, h]
  refine ⟨hdecode, by rw [hdecode]; rfl, ?_⟩
  rw [Snapshot.decode, hdecode]
  rfl

/-! ### A class with line numbers and without -/

/-- A class with a method that has line numbers and names of local variables. -/
def sampleTraced : ClassSpec :=
  ClassSpec.addMethod { name := "shop.Cart", firstLine := some 12 }
    { access := 0x0001, name := "total", descriptor := "()V", code := some [.ret] }

/-- The octets of the class up to the end of its constant pool. -/
@[irreducible] def sampleHead : List UInt8 := sampleTraced.assemble.take 128

/-- The constant pool of the class. -/
@[irreducible] def samplePool : Pool :=
  ((Frame.readHead.run ⟨0, sampleHead⟩).toOption.map (·.1)).getD ⟨#[]⟩

theorem yields_sampleHead : Yields Frame.readHead sampleHead (.ok samplePool) := by
  have hread : (Frame.readHead.run ⟨0, sampleHead⟩).toOption.any (·.2.rest.isEmpty) := by
    decide +kernel
  rw [samplePool]
  cases hrun : Frame.readHead.run ⟨0, sampleHead⟩ with
  | error fault =>
    rw [hrun] at hread
    cases hread
  | ok p =>
    rw [hrun] at hread
    -- nothing is left over, so what was read is all of it
    obtain ⟨octets, hoctets, hyields⟩ := Frame.isLocal_readHead _ _ _ hrun
    rw [List.isEmpty_iff.1 hread, List.append_nil] at hoctets
    obtain rfl : sampleHead = octets := hoctets
    exact hyields

/-- The body of the method, with its line number and its local variable. -/
def sampleTracedBody : CodeLayout where
  code := ⟨8, 8, [0xb1], []⟩
  attributes := [⟨7, two 1 ++ two 0 ++ two 12, by decide⟩,
    ⟨10, two 1 ++ two 0 ++ two 1 ++ two 8 ++ two 9 ++ two 0, by decide⟩]
  octets_fit := by decide
  handlers_fit := by decide
  attributes_fit := by decide

/-- The body of the method alone. -/
def sampleBareBody : CodeLayout :=
  { sampleTracedBody with attributes := [], attributes_fit := by decide }

/-- The layout of the class. -/
def sampleTracedLayout : Layout where
  head := sampleHead
  pool := samplePool
  reads := yields_sampleHead
  access := 0x0021
  name := 2
  superName := 4
  interfaces := []
  fields := []
  methods := [⟨0x0001, 5, 6, [⟨11, sampleTracedBody.octets, by decide⟩], by decide⟩]
  attributes := []
  interfaces_fit := by decide
  fields_fit := by decide
  methods_fit := by decide
  attributes_fit := by decide

/-- The layout without line numbers in the method, and with something of that name in the class. -/
def sampleBareLayout : Layout :=
  { sampleTracedLayout with
    methods := [⟨0x0001, 5, 6, [⟨11, sampleBareBody.octets, by decide⟩], by decide⟩]
    attributes := [⟨7, [1, 2, 3], by decide⟩]
    methods_fit := by decide
    attributes_fit := by decide }

theorem alike_sampleTracedLayout : sampleTracedLayout.Alike sampleBareLayout := by
  have hlines : samplePool.text 7 = .ok "LineNumberTable" := eq_ok_of_toOption (by decide +kernel)
  have hcode : samplePool.text 11 = .ok "Code" := eq_ok_of_toOption (by decide +kernel)
  have hmethod : AttributeLayout.Alike samplePool [⟨11, sampleTracedBody.octets, by decide⟩]
      [⟨11, sampleBareBody.octets, by decide⟩] :=
    .body sampleTracedBody sampleBareBody [] [] hcode rfl (List.append_nil _).symm
      (List.append_nil _).symm rfl .nil
  have hclass : AttributeLayout.Alike samplePool [] [⟨7, [1, 2, 3], by decide⟩] :=
    .right ⟨_, hlines, by decide⟩ .nil
  exact ⟨rfl, rfl, rfl, rfl, rfl, .nil, .cons ⟨rfl, rfl, rfl, hmethod⟩ .nil, hclass⟩

theorem octets_sampleTracedLayout : sampleTracedLayout.octets = sampleTraced.assemble := by
  decide +kernel

/-- The line numbers can be taken from the method, and put on the class. -/
theorem decode_of_alike_sampleTraced : ∃ file : ClassFile,
    decode sampleTraced.assemble = .ok file ∧ sampleTracedLayout.octets = sampleTraced.assemble ∧
      sampleTracedLayout.Alike sampleBareLayout ∧
      sampleBareLayout.octets ≠ sampleTraced.assemble ∧
      decode sampleBareLayout.octets = .ok file := by
  have hsome : (decode sampleTraced.assemble).toOption.isSome := by decide +kernel
  obtain ⟨file, hfile⟩ := Option.isSome_iff_exists.1 hsome
  have hdecode : decode sampleTraced.assemble = .ok file := eq_ok_of_toOption hfile
  exact ⟨file, hdecode, octets_sampleTracedLayout, alike_sampleTracedLayout, by decide +kernel,
    ((decode_of_alike hdecode).2 _ _ octets_sampleTracedLayout alike_sampleTracedLayout).1⟩

end ClassFile

end Retest

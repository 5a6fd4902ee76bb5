import Retest.ClassFile.Decode
import Retest.Proofs.ClassFile.Readers

/-!
# The layout of class files

A class file consists of its head, which ends with the constant pool, and of
parts that are counted: interfaces, fields, methods and attributes, with
attributes again in fields and methods. A `Retest.ClassFile.Layout` holds these
parts as they stand in the octets, with indices that are not followed and bodies
of attributes that are not looked into. Decoding the octets of a layout is
resolving the layout (`Retest.ClassFile.decode_octets`), faults included, and
every octet string that is decoded without a fault has a layout
(`Retest.ClassFile.exists_layout`).

So what decoding does with changed octets can be said in terms of the parts: the
change moves all octets after it, but in the layout it is only where it is.
-/

namespace Retest

open Assembly (two four)
open Reader

/-! ### Attributes -/

/-- An attribute as it is laid out: the index of its name, and its body. -/
structure AttributeLayout where
  name : UInt16
  body : List UInt8
  /-- The length of the body is written in four octets. -/
  fits : body.length < UInt32.size

namespace AttributeLayout

/-- The octets of an attribute. -/
def octets (layout : AttributeLayout) : List UInt8 :=
  two layout.name ++ four (.ofNat layout.body.length) ++ layout.body

/-- The octets of attributes and their number. -/
def listOctets (layouts : List AttributeLayout) : List UInt8 :=
  Assembly.counted (layouts.map octets)

/-- Take up an attribute as it is laid out. -/
def addTo (pool : Pool) (attributes : Attributes) (layout : AttributeLayout) :
    Except Fault Attributes := do
  attributes.add pool (← pool.text layout.name) layout.body

/-- What attributes say, given their layouts. -/
def resolve (pool : Pool) (layouts : List AttributeLayout) : Except Fault Attributes :=
  layouts.foldlM (addTo pool) {}

end AttributeLayout

namespace Attributes

theorem yields_readMore (pool : Pool) (layouts : List AttributeLayout) (attributes : Attributes) :
    Yields (readMore pool layouts.length attributes) (layouts.flatMap AttributeLayout.octets)
      (layouts.foldlM (AttributeLayout.addTo pool) attributes) := by
  induction layouts generalizing attributes with
  | nil => exact .pure attributes
  | cons layout layouts ih =>
    have hlength : (UInt32.ofNat layout.body.length).toNat = layout.body.length :=
      UInt32.toNat_ofNat_of_lt' layout.fits
    rw [List.flatMap_cons, AttributeLayout.octets, List.append_assoc, List.append_assoc,
      List.foldlM_cons, AttributeLayout.addTo, bind_assoc]
    refine (Yields.u2 _).bind_ok (Yields.lift_bind fun name _ => (Yields.u4 _).bind_ok ?_)
    rw [hlength]
    exact (Yields.take _).bind_ok (Yields.lift_bind fun attributes' _ => ih attributes')

theorem yields_read (pool : Pool) {layouts : List AttributeLayout}
    (hlength : layouts.length < UInt16.size) :
    Yields (read pool) (AttributeLayout.listOctets layouts)
      (AttributeLayout.resolve pool layouts) := by
  have hcount : (UInt16.ofNat (layouts.map AttributeLayout.octets).length).toNat =
      layouts.length := by
    rw [List.length_map, UInt16.toNat_ofNat_of_lt' hlength]
  rw [AttributeLayout.listOctets, Assembly.counted, ← List.flatMap_def]
  refine (Yields.u2 _).bind_ok ?_
  rw [hcount]
  exact yields_readMore pool layouts {}

/-- Attributes that are read were laid out. -/
theorem of_run_readMore {pool : Pool} {n : Nat} {attributes attributes' : Attributes}
    {c c' : Cursor} (h : (readMore pool n attributes).run c = .ok (attributes', c')) :
    ∃ layouts : List AttributeLayout, layouts.length = n ∧
      c.rest = layouts.flatMap AttributeLayout.octets ++ c'.rest := by
  induction n generalizing attributes c with
  | zero =>
    cases h
    exact ⟨[], rfl, rfl⟩
  | succ n ih =>
    obtain ⟨index, c₁, hindex, h⟩ := of_run_bind h
    obtain ⟨name, -, h⟩ := of_run_lift_bind h
    obtain ⟨size, c₂, hsize, h⟩ := of_run_bind h
    obtain ⟨body, c₃, hbody, h⟩ := of_run_bind h
    obtain ⟨added, -, h⟩ := of_run_lift_bind h
    obtain ⟨layouts, hlength, hlayouts⟩ := ih h
    obtain ⟨fits, hrest⟩ := of_run_block hsize hbody
    refine ⟨⟨index, body, fits⟩ :: layouts, by rw [List.length_cons, hlength], ?_⟩
    rw [of_run_u2 hindex, hrest, hlayouts, List.flatMap_cons, AttributeLayout.octets]
    simp only [List.append_assoc]

theorem of_run_read {pool : Pool} {attributes : Attributes} {c c' : Cursor}
    (h : (read pool).run c = .ok (attributes, c')) :
    ∃ layouts : List AttributeLayout, layouts.length < UInt16.size ∧
      c.rest = AttributeLayout.listOctets layouts ++ c'.rest := by
  obtain ⟨n, c₁, hn, h⟩ := of_run_bind h
  obtain ⟨layouts, hlength, hlayouts⟩ := of_run_readMore h
  refine ⟨layouts, hlength ▸ n.toNat_lt, ?_⟩
  rw [of_run_u2 hn, hlayouts, AttributeLayout.listOctets, Assembly.counted, ← List.flatMap_def,
    List.length_map, hlength, UInt16.ofNat_toNat, List.append_assoc]

end Attributes

/-! ### The body of a method -/

/-- The octets of an entry of an exception table. -/
def HandlerRange.octets (range : HandlerRange) : List UInt8 :=
  two range.start ++ two range.stop ++ two range.target ++ two range.catchType

/-- The body of a method as it is laid out, with the attributes it has itself. -/
structure CodeLayout where
  code : Bytecode
  attributes : List AttributeLayout
  /-- The number of octets is written in four octets, each number of parts in two. -/
  octets_fit : code.octets.length < UInt32.size
  handlers_fit : code.handlers.length < UInt16.size
  attributes_fit : attributes.length < UInt16.size

/-- The octets of the body of a method. -/
def CodeLayout.octets (layout : CodeLayout) : List UInt8 :=
  two layout.code.maxStack ++ two layout.code.maxLocals ++
    four (.ofNat layout.code.octets.length) ++ layout.code.octets ++
    Assembly.counted (layout.code.handlers.map HandlerRange.octets) ++
    AttributeLayout.listOctets layout.attributes

/-- The attributes that the body of a method has itself are passed over. -/
theorem Bytecode.yields_read (layout : CodeLayout) :
    Yields read layout.octets (.ok layout.code) := by
  have handler : ∀ range ∈ layout.code.handlers,
      Yields (do return (⟨← u2, ← u2, ← u2, ← u2⟩ : HandlerRange)) range.octets (.ok range) := by
    intro range _
    rw [HandlerRange.octets, List.append_assoc, List.append_assoc]
    exact (Yields.u2 _).bind_ok ((Yields.u2 _).bind_ok ((Yields.u2 _).bind_ok
      (Yields.u2 _).map_ok))
  have nested : ∀ inner ∈ layout.attributes,
      Yields (do let _ ← u2; take (← u4).toNat) inner.octets (.ok inner.body) := by
    intro inner _
    have hlength : (UInt32.ofNat inner.body.length).toNat = inner.body.length :=
      UInt32.toNat_ofNat_of_lt' inner.fits
    rw [AttributeLayout.octets, List.append_assoc]
    refine (Yields.u2 _).bind_ok ((Yields.u4 _).bind_ok ?_)
    rw [hlength]
    exact Yields.take _
  have hlength : (UInt32.ofNat layout.code.octets.length).toNat = layout.code.octets.length :=
    UInt32.toNat_ofNat_of_lt' layout.octets_fit
  rw [CodeLayout.octets]
  simp only [List.append_assoc]
  refine (Yields.u2 _).bind_ok ((Yields.u2 _).bind_ok ((Yields.u4 _).bind_ok ?_))
  rw [hlength]
  have handlers := Yields.counted_ok layout.handlers_fit handler
  have attributes := Yields.counted_ok layout.attributes_fit nested
  rw [List.map_id'] at handlers
  exact (Yields.take _).bind_ok (handlers.bind_ok attributes.map_ok)

/-! ### Fields and methods -/

/-- A field or method as it is laid out. -/
structure MemberLayout where
  access : Access
  name : UInt16
  descriptor : UInt16
  attributes : List AttributeLayout
  /-- The number of attributes is written in two octets. -/
  fits : attributes.length < UInt16.size

namespace MemberLayout

/-- The octets of a field or method. -/
def octets (layout : MemberLayout) : List UInt8 :=
  two layout.access ++ two layout.name ++ two layout.descriptor ++
    AttributeLayout.listOctets layout.attributes

/-- The field or method, with its indices followed and its attributes looked into. -/
def resolve (pool : Pool) (layout : MemberLayout) : Except Fault MemberEntry := do
  let name ← pool.text layout.name
  let descriptor ← pool.text layout.descriptor
  let attributes ← AttributeLayout.resolve pool layout.attributes
  return ⟨layout.access, name, descriptor, attributes⟩

end MemberLayout

namespace MemberEntry

theorem yields_read (pool : Pool) (layout : MemberLayout) :
    Yields (read pool) layout.octets (layout.resolve pool) := by
  rw [MemberLayout.octets, List.append_assoc, List.append_assoc]
  refine (Yields.u2 _).bind_ok ((Yields.u2 _).bind_ok (Yields.lift_bind fun name _ => ?_))
  refine (Yields.u2 _).bind_ok (Yields.lift_bind fun descriptor _ => ?_)
  rw [← List.append_nil (AttributeLayout.listOctets _)]
  exact (Attributes.yields_read pool layout.fits).bind fun attributes _ => .pure _

theorem of_run_read {pool : Pool} {entry : MemberEntry} {c c' : Cursor}
    (h : (read pool).run c = .ok (entry, c')) :
    ∃ layout : MemberLayout, c.rest = layout.octets ++ c'.rest := by
  obtain ⟨access, c₁, haccess, h⟩ := of_run_bind h
  obtain ⟨index, c₂, hindex, h⟩ := of_run_bind h
  obtain ⟨name, -, h⟩ := of_run_lift_bind h
  obtain ⟨index', c₃, hindex', h⟩ := of_run_bind h
  obtain ⟨descriptor, -, h⟩ := of_run_lift_bind h
  obtain ⟨attributes, c₄, hattributes, h⟩ := of_run_bind h
  cases h
  obtain ⟨layouts, hlength, hlayouts⟩ := Attributes.of_run_read hattributes
  refine ⟨⟨access, index, index', layouts, hlength⟩, ?_⟩
  rw [of_run_u2 haccess, of_run_u2 hindex, of_run_u2 hindex', hlayouts, MemberLayout.octets]
  simp only [List.append_assoc]

end MemberEntry

/-! ### The head -/

namespace Pool

variable {P : {α : Type} → Reader α → Prop}

theorem of_carriesOver_readEntry (h : CarriesOver P) (index : Nat) : P (readEntry index) := by
  have eight : P Reader.u8 := h.bind h.u4 fun _ => h.bind h.u4 fun _ => h.pure _
  have one : ∀ f : UInt16 → Entry, P (do return f (← u2) : Reader Entry) := fun f =>
    h.bind h.u2 fun _ => h.pure _
  have pair : ∀ f : UInt16 → UInt16 → Entry, P (do return f (← u2) (← u2) : Reader Entry) :=
    fun f => h.bind h.u2 fun _ => h.bind h.u2 fun _ => h.pure _
  refine h.bind h.u1 fun tag => ?_
  split
  · exact h.bind h.u2 fun n => h.bind (h.take _) fun _ => h.pure _
  · exact h.bind (h.bind h.u4 fun _ => h.pure _) fun _ => h.pure _
  · exact h.bind h.u4 fun _ => h.pure _
  · exact h.bind eight fun _ => h.pure _
  · exact h.bind eight fun _ => h.pure _
  · exact one _
  · exact one _
  · exact pair _
  · exact pair _
  · exact pair _
  · exact pair _
  · exact h.bind h.u1 fun _ => h.bind h.u2 fun _ => h.pure _
  · exact one _
  · exact pair _
  · exact pair _
  · exact one _
  · exact one _
  · exact h.fail _

theorem of_carriesOver_readEntries (h : CarriesOver P) (room index : Nat) :
    P (readEntries room index) := by
  fun_induction readEntries room index with
  | case1 => exact h.pure _
  | case2 room index hwide hnext =>
    refine h.bind (of_carriesOver_readEntry h _) fun entry => ?_
    split
    · split
      · exact h.fail _
      · exact h.bind hwide fun _ => h.pure _
    · exact h.bind hnext fun _ => h.pure _

/-- What carries over holds of reading a constant pool. -/
theorem of_carriesOver_read (h : CarriesOver P) : P read := by
  refine h.bind h.u2 fun count => ?_
  split
  · exact h.fail _
  · exact h.bind (of_carriesOver_readEntries h _ _) fun _ => h.pure _

end Pool

namespace ClassFile

namespace Frame

/-- Read a class file up to the end of its constant pool. -/
def readHead : Reader Pool := do
  if (← u4) ≠ magic then fail .badMagic
  let _minor ← u2
  let _major ← u2
  Pool.read

/-- Read what follows the constant pool. -/
def readBelow (pool : Pool) : Reader Frame := do
  let access ← u2
  let name ← pool.unit (← u2)
  let superName ← pool.unit? (← u2)
  let interfaces ← Reader.counted do pool.unit (← u2)
  let fields ← Reader.counted (MemberEntry.read pool)
  let methods ← Reader.counted (MemberEntry.read pool)
  let attributes ← Attributes.read pool
  return { pool, access, name, superName, interfaces, fields, methods, attributes }

/-- Make sure that nothing follows. -/
def close (frame : Frame) : Reader Frame := do
  let left ← remaining
  if left ≠ 0 then fail (.trailing left)
  return frame

theorem read_eq : read = (readHead >>= readBelow) >>= close := by
  rw [read, readHead]
  simp only [bind_assoc]
  congr 1
  funext word
  split
  · rfl
  · simp only [bind_assoc, readBelow, pure_bind, close]

/-- What carries over holds of reading the head of a class file. -/
theorem of_carriesOver_readHead {P : {α : Type} → Reader α → Prop} (h : CarriesOver P) :
    P readHead := by
  refine h.bind h.u4 fun word => ?_
  have hversion : P (do
      let _minor ← u2
      let _major ← u2
      Pool.read) := h.bind h.u2 fun _ => h.bind h.u2 fun _ => Pool.of_carriesOver_read h
  split
  · exact h.bind (h.fail _) fun _ => hversion
  · exact hversion

theorem isLocal_readHead : IsLocal readHead := of_carriesOver_readHead IsLocal.carriesOver

end Frame

/-! ### The whole -/

/-- **A class file as it is laid out**: its head, and what follows the constant pool. -/
structure Layout where
  /-- The octets up to the end of the constant pool. -/
  head : List UInt8
  pool : Pool
  /-- The constant pool is what the head holds. -/
  reads : Yields Frame.readHead head (.ok pool)
  access : Access
  name : UInt16
  superName : UInt16
  interfaces : List UInt16
  fields : List MemberLayout
  methods : List MemberLayout
  attributes : List AttributeLayout
  /-- Each number of parts is written in two octets. -/
  interfaces_fit : interfaces.length < UInt16.size
  fields_fit : fields.length < UInt16.size
  methods_fit : methods.length < UInt16.size
  attributes_fit : attributes.length < UInt16.size

namespace Layout

/-- The octets after the constant pool. -/
def below (layout : Layout) : List UInt8 :=
  two layout.access ++ two layout.name ++ two layout.superName ++
    Assembly.counted (layout.interfaces.map two) ++
    Assembly.counted (layout.fields.map MemberLayout.octets) ++
    Assembly.counted (layout.methods.map MemberLayout.octets) ++
    AttributeLayout.listOctets layout.attributes

/-- The octets of a class file. -/
def octets (layout : Layout) : List UInt8 := layout.head ++ layout.below

/-- The class file with its indices followed and its attributes looked into. -/
def frame (layout : Layout) : Except Fault Frame := do
  let name ← layout.pool.unit layout.name
  let superName ← layout.pool.unit? layout.superName
  let interfaces ← layout.interfaces.mapM layout.pool.unit
  let fields ← layout.fields.mapM (MemberLayout.resolve layout.pool)
  let methods ← layout.methods.mapM (MemberLayout.resolve layout.pool)
  let attributes ← AttributeLayout.resolve layout.pool layout.attributes
  return { pool := layout.pool, access := layout.access, name, superName, interfaces, fields,
           methods, attributes }

/-- The class file that a layout stands for. -/
def resolve (layout : Layout) : Except Fault ClassFile := do (← layout.frame).resolve

theorem yields_readBelow (layout : Layout) :
    Yields (Frame.readBelow layout.pool) layout.below layout.frame := by
  rw [below]
  simp only [List.append_assoc]
  refine (Yields.u2 _).bind_ok ((Yields.u2 _).bind_ok (.lift_bind fun name _ => ?_))
  refine (Yields.u2 _).bind_ok (.lift_bind fun superName _ => ?_)
  refine (Yields.counted layout.interfaces_fit fun index _ =>
    Yields.lookup layout.pool.unit index).bind fun interfaces _ => ?_
  refine (Yields.counted layout.fields_fit fun field _ =>
    MemberEntry.yields_read layout.pool field).bind fun fields _ => ?_
  refine (Yields.counted layout.methods_fit fun method _ =>
    MemberEntry.yields_read layout.pool method).bind fun methods _ => ?_
  rw [← List.append_nil (AttributeLayout.listOctets _)]
  exact (Attributes.yields_read layout.pool layout.attributes_fit).bind fun attributes _ => .pure _

end Layout

/-- **Decoding the octets of a layout is resolving the layout.** -/
theorem decode_octets (layout : Layout) : decode layout.octets = layout.resolve := by
  have hread : within layout.octets Frame.read = layout.frame := by
    have hyields : Yields (Frame.readHead >>= Frame.readBelow) layout.octets layout.frame :=
      layout.reads.bind_ok layout.yields_readBelow
    rw [Frame.read_eq, within, StateT.run_bind, ← List.append_nil layout.octets, hyields 0 []]
    cases layout.frame <;> rfl
  rw [decode, hread]
  rfl

namespace Frame

/-- Nothing follows a class file that was read to its end. -/
theorem of_run_close {frame frame' : Frame} {c c' : Cursor}
    (h : frame.close.run c = .ok (frame', c')) : c.rest = [] := by
  obtain ⟨position, rest⟩ := c
  cases rest with
  | nil => rfl
  | cons => cases h

theorem of_run_readBelow {pool : Pool} {frame : Frame} {c c' : Cursor}
    (h : (readBelow pool).run c = .ok (frame, c')) {head : List UInt8}
    (hhead : Yields readHead head (.ok pool)) :
    ∃ layout : Layout, layout.octets ++ c'.rest = head ++ c.rest := by
  obtain ⟨access, c₁, haccess, h⟩ := of_run_bind h
  obtain ⟨name, c₂, hname, h⟩ := of_run_bind h
  obtain ⟨_, -, h⟩ := of_run_lift_bind h
  obtain ⟨superName, c₃, hsuperName, h⟩ := of_run_bind h
  obtain ⟨_, -, h⟩ := of_run_lift_bind h
  obtain ⟨_, c₄, hinterfaces, h⟩ := of_run_bind h
  obtain ⟨_, c₅, hfields, h⟩ := of_run_bind h
  obtain ⟨_, c₆, hmethods, h⟩ := of_run_bind h
  obtain ⟨_, c₇, hattributes, h⟩ := of_run_bind h
  cases h
  have unit : ∀ c (a : UnitName) c', (do pool.unit (← u2) : Reader UnitName).run c = .ok (a, c') →
      ∃ index, c.rest = two index ++ c'.rest := by
    intro c a c' hunit
    obtain ⟨index, c₁, hindex, hunit⟩ := of_run_bind hunit
    exact ⟨index, by rw [of_run_u2 hindex, of_run_lift hunit]⟩
  obtain ⟨interfaces, interfaces_fit, hinterfaces⟩ := of_run_counted unit hinterfaces
  obtain ⟨fields, fields_fit, hfields⟩ :=
    of_run_counted (fun _ _ _ => MemberEntry.of_run_read) hfields
  obtain ⟨methods, methods_fit, hmethods⟩ :=
    of_run_counted (fun _ _ _ => MemberEntry.of_run_read) hmethods
  obtain ⟨attributes, attributes_fit, hattributes⟩ := Attributes.of_run_read hattributes
  refine ⟨⟨head, pool, hhead, access, name, superName, interfaces, fields, methods, attributes,
    interfaces_fit, fields_fit, methods_fit, attributes_fit⟩, ?_⟩
  rw [of_run_u2 haccess, of_run_u2 hname, of_run_u2 hsuperName, hinterfaces, hfields, hmethods,
    hattributes, Layout.octets, Layout.below]
  simp only [List.append_assoc]

end Frame

/-- **What is decoded without a fault has a layout.** -/
theorem exists_layout {bytes : List UInt8} {file : ClassFile} (h : decode bytes = .ok file) :
    ∃ layout : Layout, layout.octets = bytes := by
  have hread : ∃ frame, within bytes Frame.read = .ok frame := by
    rw [decode] at h
    cases hw : within bytes Frame.read with
    | error fault =>
      rw [hw] at h
      cases h
    | ok frame => exact ⟨frame, rfl⟩
  obtain ⟨frame, hread⟩ := hread
  obtain ⟨c, hrun⟩ := of_within hread
  rw [Frame.read_eq] at hrun
  obtain ⟨frame', c₂, hparts, hclose⟩ := of_run_bind hrun
  obtain ⟨pool, c₁, hhead, hbelow⟩ := of_run_bind hparts
  obtain ⟨head, hbytes, hyields⟩ := Frame.isLocal_readHead _ _ _ hhead
  obtain ⟨layout, hlayout⟩ := Frame.of_run_readBelow hbelow hyields
  refine ⟨layout, ?_⟩
  rw [Frame.of_run_close hclose, List.append_nil] at hlayout
  exact hlayout.trans hbytes.symm

end ClassFile

end Retest

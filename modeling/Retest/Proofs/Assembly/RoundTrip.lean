import Retest.Assembly.Basic
import Retest.Proofs.Assembly.Code
import Retest.Proofs.ClassFile.PassedOver

/-!
# What an assembled class file is decoded to

A description of a class says what the class file is to be decoded to
(`Retest.ClassSpec.content`): names are dotted, jumps lead to ordinals, and the name of
the source file, the line numbers and the padding of the constant pool do not occur.

The result is `Retest.ClassSpec.decode_assemble_iff`: within the limits of the format,
the assembled octets are decoded to the content of the description exactly if no jump
leads across a call of an interface's method. What serves debugging and what pads the
pool plays no part on the right-hand side either. A jump that does lead across such a
call is assembled wrongly (`Retest.ClassSpec.not_decode_sampleAcross`).
-/

namespace Retest

open Assembly
open Reader (Yields within)

/-! ### What is described -/

/-- The declaration of a field that is described. -/
def FieldSpec.content (field : FieldSpec) : FieldDecl where
  access := field.access
  name := field.name
  descriptor := field.descriptor
  constant := field.constant.map .int
  signature := none
  annotations := []

/-- The declaration of a method that is described. -/
def MethodSpec.content (method : MethodSpec) : MethodDecl where
  access := method.access
  name := method.name
  descriptor := method.descriptor
  exceptions := method.exceptions.map .ofSlashed
  signature := none
  annotations := method.annotations.map (· ++ "()")
  code := method.code.map fun ops =>
    ⟨ClassSpec.room, ClassSpec.room, ops.map AsmOp.instruction, []⟩

/-- No jump of a method leads across a call of an interface's method. -/
def MethodSpec.JumpsClear (method : MethodSpec) : Prop :=
  ∀ ops ∈ method.code, AsmOp.JumpsClear ops

/-- **A method is within the limits** of the format. -/
structure MethodSpec.WithinLimits (draft : Draft) (method : MethodSpec) : Prop where
  exceptions : method.exceptions.length < UInt16.size
  annotations : method.annotations.length < UInt16.size
  regular : ∀ ops ∈ method.code, ∀ op ∈ ops, op.IsRegular ops.length
  /-- Every distance in the body can be written in two octets. -/
  code : ∀ ops ∈ method.code, AsmOp.octetCount draft ops < 32768

instance (draft : Draft) (method : MethodSpec) : Decidable (method.WithinLimits draft) :=
  decidable_of_iff (method.exceptions.length < UInt16.size ∧
      method.annotations.length < UInt16.size ∧
      (∀ ops ∈ method.code, ∀ op ∈ ops, op.IsRegular ops.length) ∧
      ∀ ops ∈ method.code, AsmOp.octetCount draft ops < 32768)
    ⟨fun ⟨h₁, h₂, h₃, h₄⟩ => ⟨h₁, h₂, h₃, h₄⟩,
      fun h => ⟨h.exceptions, h.annotations, h.regular, h.code⟩⟩

instance (method : MethodSpec) : Decidable method.JumpsClear :=
  inferInstanceAs (Decidable (∀ ops ∈ method.code, _))

namespace ClassSpec

/-- The same class with other data for debugging, and with another constant pool. -/
def dressed (spec : ClassSpec) (sourceFile : Option String) (firstLine : Option UInt16)
    (padding : List String) : ClassSpec :=
  { spec with sourceFile, firstLine, padding }

/-- **The class file that is described.** -/
def content (spec : ClassSpec) : ClassFile where
  name := .ofSlashed spec.name
  access := spec.access
  superName := spec.superName.map .ofSlashed
  interfaces := spec.interfaces.map .ofSlashed
  signature := none
  annotations := []
  fields := spec.fields.map FieldSpec.content
  methods := spec.methods.map MethodSpec.content

/-- The finished constant pool and the bootstrap methods. -/
def draft (spec : ClassSpec) : Draft := (spec.assembleBelowPool.run {}).2

/-- **A class is within the limits** of the format. -/
structure WithinLimits (spec : ClassSpec) : Prop where
  draft : spec.draft.Fits
  interfaces : spec.interfaces.length < UInt16.size
  fields : spec.fields.length < UInt16.size
  methods : spec.methods.length < UInt16.size
  method : ∀ method ∈ spec.methods, method.WithinLimits spec.draft

instance (spec : ClassSpec) : Decidable spec.WithinLimits :=
  decidable_of_iff (spec.draft.Fits ∧ spec.interfaces.length < UInt16.size ∧
      spec.fields.length < UInt16.size ∧ spec.methods.length < UInt16.size ∧
      ∀ method ∈ spec.methods, method.WithinLimits spec.draft)
    ⟨fun ⟨h₁, h₂, h₃, h₄, h₅⟩ => ⟨h₁, h₂, h₃, h₄, h₅⟩,
      fun h => ⟨h.draft, h.interfaces, h.fields, h.methods, h.method⟩⟩

end ClassSpec

/-! ### Attributes -/

theorem Assembly.length_counted_le {n : Nat} {parts : List (List UInt8)}
    (h : ∀ part ∈ parts, part.length ≤ n) : (counted parts).length ≤ 2 + n * parts.length := by
  have hflatten : parts.flatten.length ≤ parts.length * n := by
    rw [List.length_flatten, ← List.length_map]
    refine List.sum_le_card_nsmul _ _ fun length hlength => ?_
    obtain ⟨part, hpart, rfl⟩ := List.mem_map.1 hlength
    exact h part hpart
  rw [counted, List.length_append, length_two, Nat.mul_comm]
  omega

/-- Octets are those of one attribute or of none, which makes a change to what attributes say. -/
def Effect (final : Draft) (change : Attributes → Attributes) (parts : List (List UInt8)) : Prop :=
  ∃ layouts : List AttributeLayout, layouts.length ≤ 1 ∧
    layouts.map AttributeLayout.octets = parts ∧
    ∀ attributes, layouts.foldlM (AttributeLayout.addTo final.pool) attributes =
      .ok (change attributes)

namespace Effect

variable {final : Draft}

theorem none : Effect final id [] := ⟨[], Nat.zero_le 1, rfl, fun _ => rfl⟩

theorem one {change : Attributes → Attributes} {i : UInt16} {name : String} {body : List UInt8}
    (hname : final.pool.text i = .ok name) (hbody : body.length < UInt32.size)
    (hadd : ∀ attributes : Attributes, attributes.add final.pool name body =
      .ok (change attributes)) :
    Effect final change [two i ++ four (.ofNat body.length) ++ body] := by
  refine ⟨[⟨i, body, hbody⟩], Nat.le_refl 1, rfl, fun attributes => ?_⟩
  have hadded : AttributeLayout.addTo final.pool attributes ⟨i, body, hbody⟩ =
      .ok (change attributes) := by
    rw [AttributeLayout.addTo, hname]
    exact hadd attributes
  rw [List.foldlM_cons, hadded]
  rfl

/-- The changes of attributes add up. -/
theorem resolve {first second third : Attributes → Attributes}
    {parts parts' parts'' : List (List UInt8)} (h : Effect final first parts)
    (h' : Effect final second parts') (h'' : Effect final third parts'') :
    ∃ layouts : List AttributeLayout, layouts.length < UInt16.size ∧
      layouts.map AttributeLayout.octets = parts ++ parts' ++ parts'' ∧
      AttributeLayout.resolve final.pool layouts = .ok (third (second (first {}))) := by
  obtain ⟨layouts, hlength, rfl, hfold⟩ := h
  obtain ⟨layouts', hlength', rfl, hfold'⟩ := h'
  obtain ⟨layouts'', hlength'', rfl, hfold''⟩ := h''
  refine ⟨layouts ++ layouts' ++ layouts'', ?_, by simp only [List.map_append], ?_⟩
  · rw [List.length_append, List.length_append]
    show _ < 65536
    omega
  · rw [AttributeLayout.resolve, List.foldlM_append, List.foldlM_append, hfold]
    show (layouts'.foldlM _ _ >>= _) = _
    rw [hfold']
    exact hfold'' _

end Effect

/-! ### Fields -/

/-- Octets are those of a field or method, which is read as an entry with a property. -/
def IsMember (final : Draft) (P : MemberEntry → Prop) (octets : List UInt8) : Prop :=
  ∃ (layout : MemberLayout) (entry : MemberEntry), layout.octets = octets ∧
    layout.resolve final.pool = .ok entry ∧ P entry

variable {final : Draft} {given : Prop}

/-- The octets of a member, put together from its parts. -/
theorem IsMember.of_parts {access : Access} {name descriptor : UInt16} {s t : String}
    {parts : List (List UInt8)} {layouts : List AttributeLayout} {attributes : Attributes}
    {P : MemberEntry → Prop} (hname : final.pool.text name = .ok s)
    (hdescriptor : final.pool.text descriptor = .ok t) (hlength : layouts.length < UInt16.size)
    (hoctets : layouts.map AttributeLayout.octets = parts)
    (hresolve : AttributeLayout.resolve final.pool layouts = .ok attributes)
    (hP : P ⟨access, s, t, attributes⟩) :
    IsMember final P (two access ++ two name ++ two descriptor ++ counted parts) := by
  refine ⟨⟨access, name, descriptor, layouts, hlength⟩, _, ?_, ?_, hP⟩
  · rw [MemberLayout.octets, AttributeLayout.listOctets, hoctets]
  · rw [MemberLayout.resolve, hname, hdescriptor, hresolve]
    rfl

/-- Members in a row. -/
theorem IsMember.exists_layouts {α : Type} {P : α → MemberEntry → Prop} {l : List α}
    {parts : List (List UInt8)} (h : List.Forall₂ (fun a => IsMember final (P a)) l parts) :
    ∃ (layouts : List MemberLayout) (entries : List MemberEntry),
      layouts.length = l.length ∧ layouts.map MemberLayout.octets = parts ∧
      layouts.mapM (MemberLayout.resolve final.pool) = .ok entries ∧ List.Forall₂ P l entries := by
  induction h with
  | nil => exact ⟨[], [], rfl, rfl, rfl, .nil⟩
  | cons hhead _ ih =>
    obtain ⟨layout, entry, rfl, hresolve, hP⟩ := hhead
    obtain ⟨layouts, entries, hlength, rfl, hresolves, hall⟩ := ih
    refine ⟨layout :: layouts, entry :: entries, congrArg (· + 1) hlength, rfl, ?_, .cons hP hall⟩
    rw [List.mapM_cons, hresolve, hresolves]
    rfl

namespace FieldSpec

/-- Assemble the attribute of a field that has a constant. -/
def constantAttribute (field : FieldSpec) : Assembler (List (List UInt8)) :=
  match field.constant with
  | none => pure []
  | some value => do
    let label ← text "ConstantValue"
    let index ← integer value
    pure [two label ++ four 2 ++ two index]

theorem assemble_eq (field : FieldSpec) : field.assemble = do
    let name ← text field.name
    let descriptor ← text field.descriptor
    return two field.access ++ two name ++ two descriptor ++
      counted (← field.constantAttribute) := by
  rw [assemble, constantAttribute]
  cases field.constant <;> rfl

theorem ensures_constantAttribute (hfits : final.Fits) (field : FieldSpec) :
    Ensures final given field.constantAttribute (Effect final fun attributes =>
      { attributes with constant := (field.constant.map .int).or attributes.constant }) := by
  rw [constantAttribute]
  cases field.constant with
  | none => exact .pure fun _ => .none
  | some value =>
    refine (ensures_text hfits "ConstantValue").bind fun label =>
      (ensures_integer hfits value).bind fun index => .pure fun ⟨⟨_, hlabel, _⟩, hindex⟩ => ?_
    have hsize : (two index).length < UInt32.size := by
      rw [length_two]
      decide
    have hfour : four 2 = four (.ofNat (two index).length) := rfl
    rw [hfour]
    refine Effect.one hlabel hsize fun attributes => ?_
    have hread := (Yields.lookup final.pool.constant index).within []
    rw [List.append_nil, hindex] at hread
    rw [Attributes.add, hread]
    rfl

theorem ensures_assemble (hfits : final.Fits) (field : FieldSpec) :
    Ensures final given field.assemble
      (IsMember final fun entry => entry.field = field.content) := by
  rw [assemble_eq]
  refine (ensures_text hfits field.name).bind fun name =>
    (ensures_text hfits field.descriptor).bind fun descriptor =>
      (ensures_constantAttribute hfits field).map
        fun ⟨⟨_, hname, _⟩, hdescriptor, _⟩ parts heffect => ?_
  obtain ⟨layouts, hlength, hoctets, hresolve⟩ := heffect.resolve .none .none
  rw [List.append_nil, List.append_nil] at hoctets
  refine .of_parts hname hdescriptor hlength hoctets hresolve ?_
  rw [MemberEntry.field, FieldSpec.content]
  simp

end FieldSpec

/-! ### Methods -/

namespace ClassSpec

/-- What only serves debugging is laid out as attributes. -/
theorem ensures_debugAttributes (hfits : final.Fits) (spec : ClassSpec) (length : Nat) :
    Ensures final given (spec.debugAttributes length) fun debug =>
      ∃ layouts : List AttributeLayout, layouts.length ≤ 2 ∧
        layouts.map AttributeLayout.octets = debug ∧ ∀ part ∈ debug, part.length ≤ 18 := by
  rw [debugAttributes]
  cases spec.firstLine with
  | none => exact .pure fun _ => ⟨[], Nat.zero_le 2, rfl, by simp⟩
  | some line =>
    refine (ensures_attributeNamed hfits _ _).bind fun lines => ?_
    refine (ensures_text hfits "this").bind fun this => ?_
    refine (ensures_text hfits _).bind fun type => ?_
    refine (ensures_attributeNamed hfits _ _).map fun ⟨⟨⟨_, i, _, hlines⟩, _⟩, _⟩ locals => ?_
    rintro ⟨j, _, hlocals⟩
    refine ⟨[⟨i, two 1 ++ two 0 ++ two line, show 6 < 4294967296 by decide⟩,
      ⟨j, two 1 ++ two 0 ++ two (.ofNat length) ++ two this ++ two type ++ two 0,
        show 12 < 4294967296 by decide⟩], Nat.le_refl 2, ?_, ?_⟩
    · rw [hlines, hlocals]
      rfl
    · intro part hpart
      rcases List.mem_pair.1 hpart with rfl | rfl
      · rw [hlines]
        simp
      · rw [hlocals]
        simp

theorem ensures_assembleBody (hfits : final.Fits) (spec : ClassSpec) {ops : List AsmOp}
    (hregular : ∀ op ∈ ops, op.IsRegular ops.length) (hcount : AsmOp.octetCount final ops < 32768) :
    Ensures final given (spec.assembleBody ops) fun octets => ∃ code : Bytecode,
      Effect final (fun attributes => { attributes with code := some code }) [octets] ∧
      ∀ bootstraps, final.Resolves bootstraps →
        (Bytecode.decode final.pool bootstraps code =
          .ok ⟨room, room, ops.map AsmOp.instruction, []⟩ ↔ AsmOp.JumpsClear ops) := by
  refine (AsmOp.ensures_assemble hfits hregular hcount).bind fun octets => ?_
  refine (ensures_debugAttributes hfits spec octets.length).bind fun debug => ?_
  refine (ensures_attributeNamed hfits "Code" _).mono fun ⟨⟨_, hlength, hdecode⟩, hdebug⟩ part => ?_
  rintro ⟨i, hi, rfl⟩
  obtain ⟨layouts, hlayouts, hoctets, hparts⟩ := hdebug
  have hcounted := length_counted_le hparts
  have hcount' : debug.length = layouts.length := by rw [← hoctets, List.length_map]
  -- what serves debugging is two short attributes at most, so all of it fits
  let inner : CodeLayout := ⟨⟨room, room, octets, []⟩, layouts,
    show octets.length < 4294967296 by omega, show 0 < 65536 by decide,
    show layouts.length < 65536 by omega⟩
  have hinner : two room ++ two room ++ four (.ofNat octets.length) ++ octets ++ two 0 ++
      counted debug = inner.octets := by
    rw [← hoctets]
    rfl
  have hsize : (two room ++ two room ++ four (.ofNat octets.length) ++ octets ++ two 0 ++
      counted debug).length < UInt32.size := by
    simp only [List.length_append, length_two, length_four]
    show _ < 4294967296
    omega
  refine ⟨inner.code, .one hi hsize fun attributes => ?_, fun bootstraps hresolves =>
    hdecode bootstraps hresolves room room⟩
  rw [hinner, ← List.append_nil inner.octets]
  exact Attributes.add_body final.pool attributes inner []

end ClassSpec

namespace MethodSpec

/-- Assemble the attribute of a method that throws exceptions. -/
def exceptionAttribute (method : MethodSpec) : Assembler (List (List UInt8)) :=
  if method.exceptions.isEmpty then pure [] else do
    let units ← method.exceptions.mapM unit
    pure [← attributeNamed "Exceptions" (counted (units.map two))]

/-- Assemble the attribute of a method that is annotated. -/
def annotationAttribute (method : MethodSpec) : Assembler (List (List UInt8)) :=
  if method.annotations.isEmpty then pure [] else do
    let types ← method.annotations.mapM text
    pure [← attributeNamed "RuntimeVisibleAnnotations"
      (counted (types.map fun t => two t ++ two 0))]

theorem ensures_exceptionAttribute (hfits : final.Fits) {method : MethodSpec}
    (hlength : method.exceptions.length < UInt16.size) :
    Ensures final given method.exceptionAttribute (Effect final fun attributes =>
      { attributes with
        exceptions := attributes.exceptions ++ method.exceptions.map .ofSlashed }) := by
  rw [exceptionAttribute]
  split
  · next hempty =>
    refine .pure fun _ => ?_
    rw [List.isEmpty_iff.1 hempty]
    simp only [List.map_nil, List.append_nil]
    exact .none
  · refine (Ensures.mapM fun name _ _ => ensures_unit hfits name).bind fun units => ?_
    refine (ensures_attributeNamed hfits "Exceptions" _).map fun ⟨_, hunits⟩ part => ?_
    rintro ⟨i, hi, rfl⟩
    have hcount : units.length < 65536 := hunits.length_eq ▸ hlength
    have hresolved : units.mapM final.pool.unit = .ok (method.exceptions.map .ofSlashed) :=
      mapM_eq_ok_iff.2 (List.forall₂_map_right_iff.2 hunits.flip)
    have hsize : (counted (units.map two)).length < UInt32.size := by
      have hle : (counted (units.map two)).length ≤ 2 + 2 * (units.map two).length :=
        length_counted_le (by simp)
      rw [List.length_map] at hle
      show _ < 4294967296
      omega
    refine .one hi hsize fun attributes => ?_
    have hread := (Yields.counted hcount fun index _ =>
      Yields.lookup final.pool.unit index).within []
    rw [List.append_nil, hresolved] at hread
    rw [Attributes.add, hread]
    rfl

/-- An annotation without elements is read as its type and two parentheses. -/
theorem yields_annotation (pool : Pool) (i : UInt16) :
    Yields (AnnotationText.read pool) (two i ++ two 0) ((pool.text i).map (· ++ "()")) := by
  refine (Yields.u2 i).bind_ok ?_
  cases pool.text i with
  | error fault => exact fun _ _ => rfl
  | ok type =>
    have hempty : type ++ "(" ++ ",".intercalate [] ++ ")" = type ++ "()" := by
      rw [String.append_assoc, String.append_assoc]
      rfl
    have helements : Yields (Reader.counted do
        let name ← pool.text (← Reader.u2)
        return name ++ "=" ++ (← AnnotationText.readValue pool Fault.annotationDepth)) (two 0)
        (.ok []) := (Yields.u2 0).bind_ok (.pure [])
    have hread := helements.map_ok (f := fun elements =>
      type ++ "(" ++ ",".intercalate elements ++ ")")
    rwa [hempty] at hread

theorem ensures_annotationAttribute (hfits : final.Fits) {method : MethodSpec}
    (hlength : method.annotations.length < UInt16.size) :
    Ensures final given method.annotationAttribute (Effect final fun attributes =>
      { attributes with annotations := if method.annotations.isEmpty then attributes.annotations
          else method.annotations.map (· ++ "()") }) := by
  rw [annotationAttribute]
  split
  · exact .pure fun _ => .none
  · refine (Ensures.mapM fun type _ _ => ensures_text hfits type).bind fun types => ?_
    refine (ensures_attributeNamed hfits "RuntimeVisibleAnnotations" _).map
      fun ⟨_, htypes⟩ part => ?_
    rintro ⟨i, hi, rfl⟩
    have hcount : types.length < 65536 := htypes.length_eq ▸ hlength
    have hresolved : types.mapM (fun t => (final.pool.text t).map (· ++ "()")) =
        .ok (method.annotations.map (· ++ "()")) := by
      refine mapM_eq_ok_iff.2 (List.forall₂_map_right_iff.2 (htypes.flip.imp fun t type ht => ?_))
      rw [ht.1]
      rfl
    have hsize : (counted (types.map fun t => two t ++ two 0)).length < UInt32.size := by
      have hle : (counted (types.map fun t => two t ++ two 0)).length ≤
          2 + 4 * (types.map fun t => two t ++ two 0).length := length_counted_le (by simp)
      rw [List.length_map] at hle
      show _ < 4294967296
      omega
    refine .one hi hsize fun attributes => ?_
    have hread := (Yields.counted hcount fun t _ => yields_annotation final.pool t).within []
    rw [List.append_nil, hresolved] at hread
    rw [Attributes.add, hread]
    rfl

end MethodSpec

namespace ClassSpec

theorem assembleMethod_eq (spec : ClassSpec) (method : MethodSpec) : spec.assembleMethod method = do
    let name ← text method.name
    let descriptor ← text method.descriptor
    let code ← method.code.mapM spec.assembleBody
    let exceptions ← method.exceptionAttribute
    let annotations ← method.annotationAttribute
    return two method.access ++ two name ++ two descriptor ++
      counted (code.toList ++ exceptions ++ annotations) := by
  rw [assembleMethod, MethodSpec.exceptionAttribute, MethodSpec.annotationAttribute]
  cases method.exceptions.isEmpty <;> cases method.annotations.isEmpty <;> simp

/-- The body of a method, if it has one. -/
theorem ensures_mapM_assembleBody (hfits : final.Fits) (spec : ClassSpec) {method : MethodSpec}
    (hlimits : method.WithinLimits final) :
    Ensures final given (method.code.mapM spec.assembleBody) fun parts =>
      ∃ code : Option Bytecode,
        Effect final (fun attributes => { attributes with code := code.or attributes.code })
          parts.toList ∧
        ∀ bootstraps, final.Resolves bootstraps →
          (code.mapM (Bytecode.decode final.pool bootstraps) = .ok method.content.code ↔
            method.JumpsClear) := by
  cases hcode : method.code with
  | none =>
    refine .pure fun _ => ⟨none, .none, fun _ _ => ?_⟩
    rw [MethodSpec.content, MethodSpec.JumpsClear, hcode]
    exact ⟨fun _ _ hops => absurd hops (Option.not_mem_none _), fun _ => rfl⟩
  | some ops =>
    rw [Option.mapM_some]
    refine (ensures_assembleBody hfits spec (hlimits.regular ops hcode)
      (hlimits.code ops hcode)).map
      fun _ octets ⟨code, heffect, hdecode⟩ => ⟨some code, heffect, ?_⟩
    intro bootstraps hresolves
    have hclear : method.JumpsClear ↔ AsmOp.JumpsClear ops := by
      rw [MethodSpec.JumpsClear, hcode]
      exact ⟨fun h => h ops rfl, fun h ops' hops' => Option.some.inj hops' ▸ h⟩
    rw [hclear, ← hdecode bootstraps hresolves, Option.mapM_some, MethodSpec.content, hcode]
    cases Bytecode.decode final.pool bootstraps code with
    | error fault => exact ⟨(by intro h; cases h), (by intro h; cases h)⟩
    | ok decoded =>
      refine ⟨fun h => ?_, fun h => ?_⟩
      · cases h
        rfl
      · cases h
        rfl

/-- A method is read as what was described exactly if its jumps are clear. -/
theorem ensures_assembleMethod (hfits : final.Fits) (spec : ClassSpec) {method : MethodSpec}
    (hlimits : method.WithinLimits final) :
    Ensures final given (spec.assembleMethod method) (IsMember final fun entry =>
      ∀ bootstraps, final.Resolves bootstraps →
        (entry.method final.pool bootstraps = .ok method.content ↔ method.JumpsClear)) := by
  rw [assembleMethod_eq]
  refine (ensures_text hfits method.name).bind fun name =>
    (ensures_text hfits method.descriptor).bind fun descriptor =>
      (ensures_mapM_assembleBody hfits spec hlimits).bind fun body =>
        (MethodSpec.ensures_exceptionAttribute hfits hlimits.exceptions).bind fun exceptions =>
          (MethodSpec.ensures_annotationAttribute hfits hlimits.annotations).map
            fun ⟨⟨⟨⟨_, hname, _⟩, hdescriptor, _⟩, hbody⟩, hexceptions⟩ annotations
              hannotations => ?_
  obtain ⟨code, hcode, hclear⟩ := hbody
  obtain ⟨layouts, hlength, hoctets, hresolve⟩ := hcode.resolve hexceptions hannotations
  refine .of_parts hname hdescriptor hlength hoctets hresolve fun bootstraps hresolves => ?_
  have hannotated : (if method.annotations.isEmpty then [] else
      method.annotations.map (· ++ "()")) = method.annotations.map (· ++ "()") := by
    split
    · next hempty => rw [List.isEmpty_iff.1 hempty, List.map_nil]
    · rfl
  rw [← hclear bootstraps hresolves, MemberEntry.method]
  simp only [List.nil_append, Option.or_none, hannotated]
  cases code.mapM (Bytecode.decode final.pool bootstraps) with
  | error fault => exact ⟨(by intro h; cases h), (by intro h; cases h)⟩
  | ok decoded =>
    refine ⟨fun h => ?_, fun h => ?_⟩
    · rw [← Except.ok.inj h]
    · rw [Except.ok.inj h]
      rfl

/-! ### The attributes of the class -/

/-- Assemble the attribute of a class that has bootstrap methods. -/
def bootstrapAttribute (bootstraps : List BootstrapDraft) : Assembler (List (List UInt8)) :=
  if bootstraps.isEmpty then pure [] else do
    pure [← attributeNamed "BootstrapMethods" (counted (bootstraps.map fun b =>
      two b.handle ++ counted (b.arguments.map two)))]

/-- Assemble the attribute of a class that names its source file. -/
def sourceAttribute (spec : ClassSpec) : Assembler (Option (List UInt8)) :=
  spec.sourceFile.mapM fun name => do
    let index ← text name
    attributeNamed "SourceFile" (two index)

theorem bootstraps_text (value : String) (draft : Draft) :
    ((text value).run draft).2.bootstraps = draft.bootstraps := by
  show (intern _ draft).2.bootstraps = _
  rw [intern]
  split <;> rfl

theorem bootstraps_sourceAttribute (spec : ClassSpec) (draft : Draft) :
    (spec.sourceAttribute.run draft).2.bootstraps = draft.bootstraps := by
  rw [sourceAttribute]
  cases spec.sourceFile with
  | none => rfl
  | some name =>
    exact (bootstraps_text "SourceFile" ((text name).run draft).2).trans
      (bootstraps_text name draft)

theorem bootstraps_bootstrapAttribute (bootstraps : List BootstrapDraft) (draft : Draft) :
    ((bootstrapAttribute bootstraps).run draft).2.bootstraps = draft.bootstraps := by
  rw [bootstrapAttribute]
  split
  · rfl
  · exact bootstraps_text "BootstrapMethods" draft

/-- Assemble the attributes of a class that has bootstrap methods. -/
def attributesWith (spec : ClassSpec) (bootstraps : List BootstrapDraft) :
    Assembler (List (List UInt8)) := do
  let source ← spec.sourceAttribute
  return source.toList ++ (← bootstrapAttribute bootstraps)

/-- The bootstrap methods that are written are those that were there when the members had been
assembled. -/
theorem run_assembleAttributes (spec : ClassSpec) (draft : Draft) :
    spec.assembleAttributes.run draft = (spec.attributesWith draft.bootstraps).run draft := by
  have hget : spec.assembleAttributes = (do
      let source ← spec.sourceAttribute
      let draft ← get
      return source.toList ++ (← bootstrapAttribute draft.bootstraps)) := by
    rw [assembleAttributes, sourceAttribute]
    congr 1
    funext source
    congr 1
    funext draft
    rw [bootstrapAttribute]
    by_cases hempty : draft.bootstraps.isEmpty
    · rw [if_pos hempty, if_pos hempty]
    · rw [if_neg hempty, if_neg hempty]
      rfl
  rw [hget, attributesWith, StateT.run_bind, StateT.run_bind,
    ← bootstraps_sourceAttribute spec draft]
  rfl

theorem bootstraps_attributesWith (spec : ClassSpec) (bootstraps : List BootstrapDraft)
    (draft : Draft) :
    ((spec.attributesWith bootstraps).run draft).2.bootstraps = draft.bootstraps :=
  (bootstraps_bootstrapAttribute bootstraps _).trans (bootstraps_sourceAttribute spec draft)

theorem ensures_sourceAttribute (hfits : final.Fits) (spec : ClassSpec) :
    Ensures final given spec.sourceAttribute fun parts => Effect final id parts.toList := by
  rw [sourceAttribute]
  cases spec.sourceFile with
  | none => exact .pure fun _ => .none
  | some name =>
    have hnamed : Ensures final given (do
        let index ← text name
        attributeNamed "SourceFile" (two index)) fun part => Effect final id [part] := by
      refine (ensures_text hfits name).bind fun index =>
        (ensures_attributeNamed hfits "SourceFile" (two index)).mono fun _ part => ?_
      rintro ⟨i, hi, rfl⟩
      have hsize : (two index).length < UInt32.size := by
        rw [length_two]
        decide
      exact .one hi hsize fun attributes => Attributes.add_of_not_mem (by decide)
    rw [Option.mapM_some]
    exact hnamed.map fun _ part heffect => heffect

/-- Small bootstrap methods fit into one attribute. -/
theorem length_counted_bootstraps_lt {bootstraps : List BootstrapDraft}
    (hcount : bootstraps.length < UInt16.size)
    (harguments : ∀ b ∈ bootstraps, b.arguments.length ≤ 3) :
    (counted (bootstraps.map fun b =>
      two b.handle ++ counted (b.arguments.map two))).length < UInt32.size := by
  have hpart : ∀ part ∈ bootstraps.map fun b => two b.handle ++ counted (b.arguments.map two),
      part.length ≤ 10 := by
    intro part hpart
    obtain ⟨b, hb, rfl⟩ := List.mem_map.1 hpart
    have hle : (counted (b.arguments.map two)).length ≤ 2 + 2 * (b.arguments.map two).length :=
      length_counted_le (by simp)
    have hthree := harguments b hb
    rw [List.length_map] at hle
    rw [List.length_append, length_two]
    omega
  have hle := length_counted_le hpart
  rw [List.length_map] at hle
  have hcount' : bootstraps.length < 65536 := hcount
  show _ < 4294967296
  omega

theorem yields_bootstrap {b : BootstrapDraft} (harguments : b.arguments.length ≤ 3) :
    Yields BootstrapEntry.read (two b.handle ++ counted (b.arguments.map two)) (.ok b.entry) := by
  have hlength : b.arguments.length < 65536 := Nat.lt_of_le_of_lt harguments (by decide)
  have hread := Yields.counted_ok hlength fun i _ => Yields.u2 i
  rw [List.map_id'] at hread
  exact (Yields.u2 b.handle).bind_ok hread.map_ok

theorem ensures_bootstrapAttribute (hfits : final.Fits) {bootstraps : List BootstrapDraft}
    (hsmall : given → bootstraps.length < UInt16.size ∧
      ∀ b ∈ bootstraps, b.arguments.length ≤ 3) :
    Ensures final given (bootstrapAttribute bootstraps) (Effect final fun attributes =>
      { attributes with
        bootstraps := attributes.bootstraps ++ bootstraps.map BootstrapDraft.entry }) := by
  rw [bootstrapAttribute]
  split
  · next hempty =>
    refine .pure fun _ => ?_
    rw [List.isEmpty_iff.1 hempty]
    simp only [List.map_nil, List.append_nil]
    exact .none
  · refine (ensures_attributeNamed hfits "BootstrapMethods" _).map fun hgiven part => ?_
    rintro ⟨i, hi, rfl⟩
    obtain ⟨hcount, harguments⟩ := hsmall hgiven
    refine .one hi (length_counted_bootstraps_lt hcount harguments) fun attributes => ?_
    have hread := (Yields.counted_ok hcount fun b hb =>
      yields_bootstrap (harguments b hb)).within []
    rw [List.append_nil] at hread
    rw [Attributes.add, hread]
    rfl

theorem ensures_attributesWith (hfits : final.Fits) (spec : ClassSpec)
    {bootstraps : List BootstrapDraft}
    (hsmall : given → bootstraps.length < UInt16.size ∧
      ∀ b ∈ bootstraps, b.arguments.length ≤ 3) :
    Ensures final given (spec.attributesWith bootstraps) fun parts =>
      ∃ layouts : List AttributeLayout, layouts.length < UInt16.size ∧
        layouts.map AttributeLayout.octets = parts ∧
        AttributeLayout.resolve final.pool layouts =
          .ok { bootstraps := bootstraps.map BootstrapDraft.entry } := by
  refine (ensures_sourceAttribute hfits spec).bind fun source =>
    (ensures_bootstrapAttribute hfits fun hgiven => hsmall hgiven.1).map
      fun ⟨_, hsource⟩ methods hmethods => ?_
  obtain ⟨layouts, hlength, hoctets, hresolve⟩ := hsource.resolve hmethods .none
  rw [List.append_nil] at hoctets
  exact ⟨layouts, hlength, hoctets, hresolve⟩

/-! ### The whole -/

/-- The members of a class as they are assembled: its name, what it descends from, and the octets
of its fields and methods. -/
structure Members where
  name : UInt16
  superName : UInt16
  interfaces : List UInt16
  fields : List (List UInt8)
  methods : List (List UInt8)

/-- Assemble the members of a class. -/
def assembleMembers (spec : ClassSpec) : Assembler Members := do
  let _ ← spec.padding.mapM text
  let name ← unit spec.name
  let superName ← spec.superName.mapM unit
  let interfaces ← spec.interfaces.mapM unit
  let fields ← spec.fields.mapM FieldSpec.assemble
  let methods ← spec.methods.mapM spec.assembleMethod
  return ⟨name, superName.getD 0, interfaces, fields, methods⟩

/-- The octets of members and attributes. -/
def Members.octets (members : Members) (spec : ClassSpec) (attributes : List (List UInt8)) :
    List UInt8 :=
  two spec.access ++ two members.name ++ two members.superName ++
    counted (members.interfaces.map two) ++ counted members.fields ++ counted members.methods ++
    counted attributes

theorem assembleBelowPool_eq (spec : ClassSpec) : spec.assembleBelowPool = (do
    let members ← spec.assembleMembers
    let attributes ← spec.assembleAttributes
    return members.octets spec attributes) := by
  rw [assembleBelowPool, assembleMembers]
  simp only [bind_assoc, pure_bind, Members.octets]

/-- What is found of the members of a class. -/
structure Members.Describe (members : Members) (final : Draft) (spec : ClassSpec) : Prop where
  name : final.pool.unit members.name = .ok (.ofSlashed spec.name)
  superName : final.pool.unit? members.superName = .ok (spec.superName.map .ofSlashed)
  interfaces : List.Forall₂ (fun name i => final.pool.unit i = .ok (.ofSlashed name))
    spec.interfaces members.interfaces
  fields : List.Forall₂ (fun field => IsMember final fun entry => entry.field = field.content)
    spec.fields members.fields
  methods : List.Forall₂ (fun method => IsMember final fun entry => ∀ bootstraps,
      final.Resolves bootstraps →
        (entry.method final.pool bootstraps = .ok method.content ↔ method.JumpsClear))
    spec.methods members.methods

/-- The index 0 is that of no unit. -/
theorem unit?_of_unit {draft : Draft} {i : UInt16} {name : UnitName}
    (h : draft.pool.unit i = .ok name) : draft.pool.unit? i = .ok (some name) := by
  have hne : i ≠ 0 := by
    rintro rfl
    cases h
  rw [Pool.unit?, if_neg hne, h]
  rfl

theorem ensures_assembleMembers (hfits : final.Fits) (spec : ClassSpec)
    (hmethods : ∀ method ∈ spec.methods, method.WithinLimits final) :
    Ensures final given spec.assembleMembers fun members => members.Describe final spec := by
  have hparent : ∀ given, Ensures final given (spec.superName.mapM unit) fun parent =>
      final.pool.unit? (parent.getD 0) = .ok (spec.superName.map .ofSlashed) := by
    intro given
    cases spec.superName with
    | none => exact .pure fun _ => rfl
    | some name =>
      rw [Option.mapM_some]
      exact (ensures_unit hfits name).map fun _ i hi => unit?_of_unit hi
  refine (Ensures.mapM fun value _ _ => ensures_text hfits value).bind fun _ => ?_
  refine (ensures_unit hfits spec.name).bind fun this => (hparent _).bind fun parent => ?_
  refine (Ensures.mapM fun name _ _ => ensures_unit hfits name).bind fun interfaces => ?_
  refine (Ensures.mapM fun field _ _ => field.ensures_assemble hfits).bind fun fields => ?_
  refine (Ensures.mapM fun method hmethod _ =>
    ensures_assembleMethod hfits spec (hmethods method hmethod)).map
      fun ⟨⟨⟨⟨_, hname⟩, hsuper⟩, hinterfaces⟩, hfields⟩ methods hmethods => ?_
  exact ⟨hname, hsuper, hinterfaces, hfields, hmethods⟩

/-- The head of an assembled class file. -/
theorem yields_readHead (hfits : final.Fits) (hsound : final.Sound final) :
    Yields ClassFile.Frame.readHead (four ClassFile.magic ++ two 0 ++ two formatVersion ++
      two (.ofNat (final.entries.length + 1)) ++ final.entries.flatten) (.ok final.pool) := by
  simp only [List.append_assoc]
  refine (Yields.u4 _).bind_ok ?_
  rw [if_neg (not_not.2 rfl)]
  exact (Yields.u2 _).bind_ok ((Yields.u2 _).bind_ok (Draft.yields_read hfits hsound))

/-- The octets of an assembled class file, and what is found of their parts. -/
theorem exists_parts {spec : ClassSpec} (hlimits : spec.WithinLimits) :
    ∃ (members : Members) (attributes : List AttributeLayout),
      members.Describe spec.draft spec ∧ spec.draft.Sound spec.draft ∧
      attributes.length < UInt16.size ∧
      AttributeLayout.resolve spec.draft.pool attributes =
        .ok { bootstraps := spec.draft.bootstraps.map BootstrapDraft.entry } ∧
      spec.assemble = four ClassFile.magic ++ two 0 ++ two formatVersion ++
        two (.ofNat (spec.draft.entries.length + 1)) ++ spec.draft.entries.flatten ++
        members.octets spec (attributes.map AttributeLayout.octets) := by
  have hfits := hlimits.draft
  obtain ⟨members, draft, hmembers⟩ :
      ∃ members draft, spec.assembleMembers.run {} = (members, draft) := ⟨_, _, rfl⟩
  obtain ⟨parts, final, hattributes⟩ :
      ∃ parts final, spec.assembleAttributes.run draft = (parts, final) := ⟨_, _, rfl⟩
  have hrun : spec.assembleBelowPool.run {} = (members.octets spec parts, final) := by
    rw [assembleBelowPool_eq, StateT.run_bind, hmembers]
    show (do
      let attributes ← spec.assembleAttributes
      return members.octets spec attributes : Assembler (List UInt8)).run draft = _
    rw [StateT.run_bind, hattributes]
    rfl
  have hfinal : spec.draft = final := by rw [ClassSpec.draft, hrun]
  have hassemble : spec.assemble = four ClassFile.magic ++ two 0 ++ two formatVersion ++
      two (.ofNat (final.entries.length + 1)) ++ final.entries.flatten ++
      (spec.assembleBelowPool.run {}).1 := by
    rw [assemble, hrun]
  have hmethods := hlimits.method
  rw [hfinal] at hfits hmethods ⊢
  rw [run_assembleAttributes] at hattributes
  have hbootstraps := bootstraps_attributesWith spec draft.bootstraps draft
  -- what comes of the members leads to the end, so that they are known in the end
  have hensures := (ensures_attributesWith hfits spec id : Ensures final
    (draft.bootstraps.length < UInt16.size ∧ ∀ b ∈ draft.bootstraps, b.arguments.length ≤ 3) _ _)
    draft
  have hmembers' := (ensures_assembleMembers hfits spec hmethods : Ensures final True _ _) {}
  rw [hattributes] at hensures hbootstraps
  rw [hmembers] at hmembers'
  obtain ⟨hle, hensures⟩ := hensures
  obtain ⟨hsound, hmembers'⟩ := hmembers'.2 hle trivial
  have hdraft := hsound (Draft.sound_empty final)
  have hsmall : draft.bootstraps.length < UInt16.size ∧
      ∀ b ∈ draft.bootstraps, b.arguments.length ≤ 3 :=
    ⟨hbootstraps ▸ hfits.bootstraps, fun b hb => (hdraft.resolves b hb).1⟩
  obtain ⟨hsound', attributes, hlength, hoctets, hresolve⟩ := hensures (le_refl final) hsmall
  refine ⟨members, attributes, hmembers', hsound' hdraft, hlength, hbootstraps ▸ hresolve, ?_⟩
  rw [hassemble, hrun, hoctets]

/-- An assembled class file is decoded to what was described, up to what its methods are decoded
to. -/
theorem exists_decode_assemble_eq {spec : ClassSpec} (hlimits : spec.WithinLimits) :
    ∃ (entries : List MemberEntry) (bootstraps : List Bootstrap),
      List.Forall₂ (fun method entry => entry.method spec.draft.pool bootstraps =
        .ok method.content ↔ method.JumpsClear) spec.methods entries ∧
      ClassFile.decode spec.assemble =
        (entries.mapM (MemberEntry.method spec.draft.pool bootstraps)).map
          fun methods => { spec.content with methods } := by
  obtain ⟨⟨name, superName, interfaces, fields, methods⟩, attributes, hmembers, hsound, hlength,
    hresolve, hassemble⟩ := exists_parts hlimits
  obtain ⟨fieldLayouts, fieldEntries, hfieldLength, rfl, hfieldResolve, hfields⟩ :=
    IsMember.exists_layouts hmembers.fields
  obtain ⟨methodLayouts, methodEntries, hmethodLength, rfl, hmethodResolve, hmethods⟩ :=
    IsMember.exists_layouts hmembers.methods
  obtain ⟨bootstraps, hbootstraps⟩ := hsound.exists_resolves
  have hinterfaces : interfaces.mapM spec.draft.pool.unit =
      .ok (spec.interfaces.map .ofSlashed) :=
    mapM_eq_ok_iff.2 (List.forall₂_map_right_iff.2 hmembers.interfaces.flip)
  have hfieldContent : fieldEntries.map MemberEntry.field = spec.fields.map FieldSpec.content := by
    have hmap := List.forall₂_map_left_iff.2 (List.forall₂_map_right_iff.2 hfields.flip)
    rwa [List.forall₂_eq_eq_eq] at hmap
  -- the parts make up the layout of a class file, and so what decoding comes to is known
  let layout : ClassFile.Layout := {
    head := _
    pool := spec.draft.pool
    reads := yields_readHead hlimits.draft hsound
    access := spec.access
    name := name
    superName := superName
    interfaces := interfaces
    fields := fieldLayouts
    methods := methodLayouts
    attributes := attributes
    interfaces_fit := hmembers.interfaces.length_eq ▸ hlimits.interfaces
    fields_fit := hfieldLength ▸ hlimits.fields
    methods_fit := hmethodLength ▸ hlimits.methods
    attributes_fit := hlength }
  have hlayout : spec.assemble = layout.octets := hassemble
  have hframe : layout.frame = .ok {
      pool := spec.draft.pool, access := spec.access, name := .ofSlashed spec.name
      superName := spec.superName.map .ofSlashed, interfaces := spec.interfaces.map .ofSlashed
      fields := fieldEntries, methods := methodEntries
      attributes := { bootstraps := spec.draft.bootstraps.map BootstrapDraft.entry } } := by
    rw [ClassFile.Layout.frame, hmembers.name, hmembers.superName, hinterfaces, hfieldResolve,
      hmethodResolve, hresolve]
    rfl
  refine ⟨methodEntries, bootstraps,
    hmethods.imp fun method entry h => h bootstraps hbootstraps, ?_⟩
  rw [Draft.Resolves] at hbootstraps
  rw [hlayout, ClassFile.decode_octets, ClassFile.Layout.resolve, hframe]
  show (do
    let bootstraps ← (spec.draft.bootstraps.map BootstrapDraft.entry).mapM
      (BootstrapEntry.resolve spec.draft.pool)
    return ({ spec.content with
      fields := fieldEntries.map MemberEntry.field
      methods := ← methodEntries.mapM (MemberEntry.method spec.draft.pool bootstraps) } :
        ClassFile)) = _
  rw [hbootstraps, hfieldContent]
  rfl

/-- **Assembling and decoding.** A class within the limits of the format, with any name of its
source file, with or without line numbers, and with any padding of its constant pool, is decoded to
the class file that was described exactly if no jump leads across a call of an interface's
method. -/
theorem decode_assemble_iff {spec : ClassSpec} {sourceFile : Option String}
    {firstLine : Option UInt16} {padding : List String}
    (hlimits : (spec.dressed sourceFile firstLine padding).WithinLimits) :
    ClassFile.decode (spec.dressed sourceFile firstLine padding).assemble = .ok spec.content ↔
      ∀ method ∈ spec.methods, method.JumpsClear := by
  obtain ⟨entries, bootstraps, hmethods, hdecode⟩ := exists_decode_assemble_eq hlimits
  have hclear := mapM_eq_ok_map_iff_forall hmethods
  rw [hdecode]
  refine Iff.trans ?_ hclear
  cases entries.mapM (MemberEntry.method _ bootstraps) with
  | error fault => exact ⟨(by intro h; cases h), (by intro h; cases h)⟩
  | ok methods =>
    refine ⟨fun h => ?_, fun h => ?_⟩
    · exact congrArg Except.ok (congrArg ClassFile.methods (Except.ok.inj h))
    · rw [Except.ok.inj h]
      rfl

/-! ### A jump across a call -/

/-- A class that waits for a task: a constant, a call of an interface's method, and a loop around
another call. -/
def sampleWaiting : ClassSpec :=
  (ClassSpec.addConstant { name := "shop.Waiting" } "limit" 5).addMethod {
    access := 0x0009, name := "await", descriptor := "(Lshop/Task;)V"
    exceptions := ["java.io.IOException"], annotations := ["Ljava/lang/Deprecated;"]
    code := some [
      .aload 0,
      .invokeinterface "shop.Task" "start" "()V",
      .string "waiting",
      .pop,
      .invokestatic "shop.Waiting" "ready" "()Z",
      .ifeq 2,
      .ret] }

/-- The loop of the sample does not go back to the call. -/
theorem decode_assemble_sampleWaiting :
    (sampleWaiting.dressed (some "Waiting.java") (some 7) ["pad", "pool"]).WithinLimits ∧
      ClassFile.decode
          (sampleWaiting.dressed (some "Waiting.java") (some 7) ["pad", "pool"]).assemble =
        .ok sampleWaiting.content := by
  have hlimits :
      (sampleWaiting.dressed (some "Waiting.java") (some 7) ["pad", "pool"]).WithinLimits := by
    decide +kernel
  exact ⟨hlimits, (decode_assemble_iff hlimits).2 (by decide +kernel)⟩

/-- A class with a jump across a call of an interface's method. -/
def sampleAcross : ClassSpec :=
  ClassSpec.addMethod { name := "shop.Waiting" } {
    access := 0x0009, name := "run", descriptor := "(ILshop/Task;)V"
    code := some [.iload 0, .ifeq 4, .aload 1, .invokeinterface "shop.Task" "start" "()V", .ret] }

/-- Such a class is within the limits, and its octets are not those of a class file. -/
theorem not_decode_sampleAcross : sampleAcross.WithinLimits ∧
    (ClassFile.decode sampleAcross.assemble).toOption = none := by
  decide +kernel

end ClassSpec

end Retest

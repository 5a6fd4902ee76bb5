import Retest.Proofs.ClassFile.Names
import Retest.Proofs.ClassFile.Operands
import Retest.Snapshot.Lines

/-!
# What the texts of operands tell

The text of an operand is all that a fingerprint sees of it. Between operands of one kind
whose names and descriptors are well-formed, it leaves two things open: whether a reference is
to a method of an interface, and where in a reference the name ends and the descriptor
begins. `Retest.MemberRef.joined` is a reference without these two, and the main
statement is that operands with the same text are equal up to it
(`Retest.Operand.text_eq_iff`).
-/

namespace Retest

open Text

/-! ### Views of references -/

namespace MemberRef

/-- A reference in which name and descriptor run together, of either kind of owner. -/
def joined (ref : MemberRef) : MemberRef := ⟨ref.owner, ref.signature, "", false⟩

/-- A reference to a member of either kind of owner. -/
def bare (ref : MemberRef) : MemberRef := { ref with interface := false }

end MemberRef

section Views

variable (view : MemberRef → MemberRef)

/-- Change the member that a handle is on. -/
def Handle.mapMember (handle : Handle) : Handle := ⟨handle.kind, view handle.member⟩

/-- Change the member that a constant is a handle on. -/
def Constant.mapMember : Constant → Constant
  | .handle h => .handle (h.mapMember view)
  | constant => constant

/-- Change all members in a bootstrap method. -/
def Bootstrap.mapMember (bootstrap : Bootstrap) : Bootstrap :=
  ⟨bootstrap.handle.mapMember view, bootstrap.arguments.map (Constant.mapMember view)⟩

/-- Change all members in an operand. A call site counts as a member without an owner. -/
def Operand.mapMember : Operand → Operand
  | .field target => .field (view target)
  | .method target => .method (view target)
  | .constant value => .constant (value.mapMember view)
  | .dynamic name descriptor bootstrap =>
    .dynamic (view ⟨"", name, descriptor, false⟩).name
      (view ⟨"", name, descriptor, false⟩).descriptor (bootstrap.map (Bootstrap.mapMember view))
  | operand => operand

end Views

/-! ### Well-formed names -/

/-- A reference whose names are made of identifiers and whose descriptor is one. -/
structure MemberRef.WellNamed (ref : MemberRef) : Prop where
  owner : IsUnitName ref.owner
  name : IsMemberName ref.name
  descriptor : IsDescriptor ref.descriptor

/-- A constant in which all names and descriptors are well-formed. -/
def Constant.WellNamed : Constant → Prop
  | .unit name => IsUnitName name
  | .methodType descriptor => IsDescriptor descriptor
  | .handle h => h.member.WellNamed
  | .dynamic _ name descriptor => IsMemberName name ∧ IsDescriptor descriptor
  | _ => True

/-- A bootstrap method in which all names and descriptors are well-formed. -/
structure Bootstrap.WellNamed (bootstrap : Bootstrap) : Prop where
  handle : bootstrap.handle.member.WellNamed
  arguments : ∀ argument ∈ bootstrap.arguments, argument.WellNamed

/-- An operand in which all names and descriptors are well-formed. -/
def Operand.WellNamed : Operand → Prop
  | .constant value => value.WellNamed
  | .field target | .method target => target.WellNamed
  | .type name => IsUnitName name
  | .multiArray element _ => IsUnitName element
  | .dynamic name descriptor bootstrap =>
    IsMemberName name ∧ IsDescriptor descriptor ∧ ∀ b ∈ bootstrap, b.WellNamed
  | _ => True

/-! ### References and handles -/

theorem MemberRef.WellNamed.isSignature {ref : MemberRef} (h : ref.WellNamed) :
    IsSignature ref.signature.toList := by
  rw [signature, String.toList_append]
  exact h.name.isSignature.append h.descriptor.isSignature

/-- **A reference tells its owner and its signature**, and where it ends. -/
theorem MemberRef.text_append_inj {ref ref' : MemberRef} {x y : List Char} (hr : ref.WellNamed)
    (hr' : ref'.WellNamed) (hx : EndsSignature x) (hy : EndsSignature y)
    (h : ref.text.toList ++ x = ref'.text.toList ++ y) : ref.joined = ref'.joined ∧ x = y := by
  have hparts : ∀ (r : MemberRef) z,
      r.text.toList ++ z = r.owner.toList ++ '#' :: (r.signature.toList ++ z) := by
    intro r z
    simp [text]
  rw [hparts, hparts] at h
  obtain ⟨howner, hrest⟩ := append_separator_inj (hr.owner.notMem rfl) (hr'.owner.notMem rfl) h
  obtain ⟨hsignature, hxy⟩ := hr.isSignature.append_inj hr'.isSignature hx hy hrest
  refine ⟨?_, hxy⟩
  rw [joined, joined, String.toList_inj.1 howner, String.toList_inj.1 hsignature]

theorem Handle.text_append_inj {handle handle' : Handle} {x y : List Char}
    (hh : handle.member.WellNamed) (hh' : handle'.member.WellNamed) (hx : EndsSignature x)
    (hy : EndsSignature y) (h : handle.text.toList ++ x = handle'.text.toList ++ y) :
    handle.mapMember .joined = handle'.mapMember .joined ∧ x = y := by
  have hparts : ∀ (k : Handle) z, k.text.toList ++ z = 'm' :: 'h' :: ':' ::
      ((toString k.kind.toNat).toList ++ ':' :: (k.member.text.toList ++ z)) := by
    intro k z
    simp [text, toString_string, toString_uint8]
  rw [hparts, hparts] at h
  obtain ⟨hkind, hrest⟩ :=
    toString_nat_separator_inj rfl (List.cons.inj (List.cons.inj (List.cons.inj h).2).2).2
  obtain ⟨hmember, hxy⟩ := MemberRef.text_append_inj hh hh' hx hy hrest
  exact ⟨by rw [mapMember, mapMember, UInt8.toNat_inj.1 hkind, hmember], hxy⟩

/-! ### Constants -/

namespace Constant

/-- What the text of a constant begins with, up to the first colon. -/
def tag : Constant → List Char
  | int _ => ['i', 'n', 't']
  | float _ => ['f', 'l', 'o', 'a', 't']
  | long _ => ['l', 'o', 'n', 'g']
  | double _ => ['d', 'o', 'u', 'b', 'l', 'e']
  | string _ => ['s', 't', 'r']
  | unit _ => ['c', 'l', 'a', 's', 's']
  | methodType _ => ['m', 't', 'y', 'p', 'e']
  | handle _ => ['m', 'h']
  | dynamic _ _ _ => ['d', 'y', 'n']

/-- The text of a constant after the first colon. -/
def payload : Constant → List Char
  | int value => (toString value.toInt).toList
  | float bits => (hexPadded 8 bits.toNat).toList
  | long value => (toString value.toInt).toList
  | double bits => (hexPadded 16 bits.toNat).toList
  | string value => (quoted value).toList
  | unit name => name.toList
  | methodType descriptor => descriptor.toList
  | handle h => (toString h.kind.toNat).toList ++ ':' :: h.member.text.toList
  | dynamic bootstrap name descriptor =>
    (toString bootstrap.toNat).toList ++ ':' :: (name.toList ++ ':' :: descriptor.toList)

theorem toList_text (constant : Constant) :
    constant.text.toList = constant.tag ++ ':' :: constant.payload := by
  cases constant <;>
    simp [text, tag, payload, Handle.text, toString_string, toString_uint8, toString_uint16]

theorem colon_notMem_tag (constant : Constant) : ':' ∉ constant.tag := by
  cases constant <;> simp [tag]

theorem exists_tag_eq_cons (constant : Constant) :
    ∃ c t, constant.tag = c :: t ∧ c ≠ ']' ∧ isTypeStart c = false := by
  cases constant <;> exact ⟨_, _, rfl, by decide, by decide⟩

/-- Constants of one kind are told by what follows their tag. -/
theorem payload_append_inj {constant constant' : Constant} {x y : List Char}
    (hc : constant.WellNamed) (hc' : constant'.WellNamed) (hx : EndsElement x) (hy : EndsElement y)
    (htag : constant.tag = constant'.tag)
    (h : constant.payload ++ x = constant'.payload ++ y) :
    constant.mapMember .joined = constant'.mapMember .joined ∧ x = y := by
  cases constant with
  | int value =>
    cases constant' with
    | int value' =>
      obtain ⟨hvalue, hxy⟩ :=
        toString_int_append_inj (hx.not_of_head? rfl rfl) (hy.not_of_head? rfl rfl) h
      exact ⟨by rw [Int32.toInt_inj.1 hvalue], hxy⟩
    | _ => simp [tag] at htag
  | float bits =>
    cases constant' with
    | float bits' =>
      obtain ⟨hbits, hxy⟩ :=
        hexPadded_append_inj (hx.not_of_head? rfl rfl) (hy.not_of_head? rfl rfl) h
      exact ⟨by rw [UInt32.toNat_inj.1 hbits], hxy⟩
    | _ => simp [tag] at htag
  | long value =>
    cases constant' with
    | long value' =>
      obtain ⟨hvalue, hxy⟩ :=
        toString_int_append_inj (hx.not_of_head? rfl rfl) (hy.not_of_head? rfl rfl) h
      exact ⟨by rw [Int64.toInt_inj.1 hvalue], hxy⟩
    | _ => simp [tag] at htag
  | double bits =>
    cases constant' with
    | double bits' =>
      obtain ⟨hbits, hxy⟩ :=
        hexPadded_append_inj (hx.not_of_head? rfl rfl) (hy.not_of_head? rfl rfl) h
      exact ⟨by rw [UInt64.toNat_inj.1 hbits], hxy⟩
    | _ => simp [tag] at htag
  | string value =>
    cases constant' with
    | string value' =>
      obtain ⟨hvalue, hxy⟩ := quoted_append_inj h
      exact ⟨by rw [hvalue], hxy⟩
    | _ => simp [tag] at htag
  | unit name =>
    cases constant' with
    | unit name' =>
      obtain ⟨hname, hxy⟩ := append_inj_of_run hc.2 hc'.2 (hx.not_of_head? rfl rfl)
        (hy.not_of_head? rfl rfl) h
      exact ⟨by rw [String.toList_inj.1 hname], hxy⟩
    | _ => simp [tag] at htag
  | methodType descriptor =>
    cases constant' with
    | methodType descriptor' =>
      obtain ⟨hdescriptor, hxy⟩ := hc.isSignature.append_inj hc'.isSignature
        (endsSignature_of_endsElement hx) (endsSignature_of_endsElement hy) h
      exact ⟨by rw [String.toList_inj.1 hdescriptor], hxy⟩
    | _ => simp [tag] at htag
  | handle k =>
    cases constant' with
    | handle k' =>
      -- the tag is put back, as a handle is told by its whole text
      have htext : k.text.toList ++ x = k'.text.toList ++ y := by
        have hk : ∀ j : Handle, j.text.toList = (handle j).tag ++ ':' :: (handle j).payload :=
          fun j => toList_text (handle j)
        rw [hk, hk, List.append_assoc, List.append_assoc, List.cons_append, List.cons_append, h]
        rfl
      obtain ⟨hk, hxy⟩ := Handle.text_append_inj hc hc' (endsSignature_of_endsElement hx)
        (endsSignature_of_endsElement hy) htext
      exact ⟨by rw [mapMember, mapMember, hk], hxy⟩
    | _ => simp [tag] at htag
  | dynamic bootstrap name descriptor =>
    cases constant' with
    | dynamic bootstrap' name' descriptor' =>
      simp only [payload, List.append_assoc, List.cons_append] at h
      obtain ⟨hbootstrap, h⟩ := toString_nat_separator_inj rfl h
      obtain ⟨hname, h⟩ := append_separator_inj (hc.1.notMem rfl) (hc'.1.notMem rfl) h
      obtain ⟨hdescriptor, hxy⟩ := hc.2.isSignature.append_inj hc'.2.isSignature
        (endsSignature_of_endsElement hx) (endsSignature_of_endsElement hy) h
      rw [UInt16.toNat_inj.1 hbootstrap, String.toList_inj.1 hname,
        String.toList_inj.1 hdescriptor]
      exact ⟨rfl, hxy⟩
    | _ => simp [tag] at htag

/-- **A constant tells what it is**, in a list or alone, and where it ends. -/
theorem text_append_inj {constant constant' : Constant} {x y : List Char}
    (hc : constant.WellNamed) (hc' : constant'.WellNamed) (hx : EndsElement x) (hy : EndsElement y)
    (h : constant.text.toList ++ x = constant'.text.toList ++ y) :
    constant.mapMember .joined = constant'.mapMember .joined ∧ x = y := by
  rw [toList_text, toList_text, List.append_assoc, List.append_assoc, List.cons_append,
    List.cons_append] at h
  obtain ⟨htag, hrest⟩ := append_separator_inj (colon_notMem_tag _) (colon_notMem_tag _) h
  exact payload_append_inj hc hc' hx hy htag hrest

end Constant

/-! ### Bootstrap methods -/

theorem Bootstrap.text_injective {bootstrap bootstrap' : Bootstrap} (hb : bootstrap.WellNamed)
    (hb' : bootstrap'.WellNamed) (h : bootstrap.text = bootstrap'.text) :
    bootstrap.mapMember .joined = bootstrap'.mapMember .joined := by
  have hparts : ∀ b : Bootstrap, b.text.toList = b.handle.text.toList ++ '[' ::
      ([','].intercalate (b.arguments.map fun a => a.text.toList) ++ [']']) := by
    intro b
    simp [text, Function.comp_def]
  -- after the opening bracket comes a tag or the closing bracket, and so no type
  have hends : ∀ arguments : List Constant, EndsSignature ('[' ::
      ([','].intercalate (arguments.map fun a => a.text.toList) ++ [']'])) := by
    intro arguments
    refine endsSignature_bracket ?_
    rcases arguments with _ | ⟨argument, arguments⟩
    · exact ⟨']', rfl, rfl⟩
    · obtain ⟨c, t, htag, -, hstart⟩ := argument.exists_tag_eq_cons
      rw [List.map_cons, intercalate_cons, Constant.toList_text, htag]
      exact ⟨c, rfl, hstart⟩
  have hlist := congrArg String.toList h
  rw [hparts, hparts] at hlist
  obtain ⟨hhandle, hrest⟩ := Handle.text_append_inj hb.handle hb'.handle
    (hends bootstrap.arguments) (hends bootstrap'.arguments) hlist
  obtain ⟨harguments, -⟩ := intercalate_append_inj (Constant.mapMember .joined) Constant.WellNamed
    (fun ha hb hx hy => Constant.text_append_inj ha hb hx hy)
    (fun {a} x y _ hclose => by
      obtain ⟨c, t, htag, hne, -⟩ := a.exists_tag_eq_cons
      rw [Constant.toList_text, htag] at hclose
      exact hne (List.cons.inj hclose).1)
    hb.arguments hb'.arguments (List.cons.inj hrest).2
  rw [mapMember, mapMember, hhandle, harguments]

/-! ### Operands -/

namespace Operand

/-- What stands for one case of a switch. -/
def caseText (p : Int32 × Nat) : List Char :=
  (toString p.1.toInt).toList ++ ':' :: '@' :: (toString p.2).toList

theorem caseText_append_inj {p q : Int32 × Nat} {x y : List Char} (hx : EndsElement x)
    (hy : EndsElement y) (h : caseText p ++ x = caseText q ++ y) : p = q ∧ x = y := by
  simp only [caseText, List.append_assoc, List.cons_append] at h
  obtain ⟨hkey, h⟩ := toString_int_separator_inj rfl h
  obtain ⟨htarget, hxy⟩ := toString_nat_append_inj (hx.not_of_head? rfl rfl)
    (hy.not_of_head? rfl rfl) (List.cons.inj h).2
  exact ⟨Prod.ext (Int32.toInt_inj.1 hkey) htarget, hxy⟩

theorem caseText_append_ne {p : Int32 × Nat} {x y : List Char} :
    caseText p ++ x ≠ ']' :: y := by
  intro h
  rw [caseText, List.append_assoc, List.cons_append] at h
  cases hkey : (toString p.1.toInt).toList with
  | nil =>
    rw [hkey] at h
    exact absurd (List.cons.inj h).1 (by decide)
  | cons c t =>
    rw [hkey] at h
    have hc : c ∈ (toString p.1.toInt).toList := hkey ▸ List.mem_cons_self
    rw [(List.cons.inj h).1] at hc
    exact notMem_toString_int rfl _ hc

theorem toList_text_switch (default : Nat) (cases : List (Int32 × Nat)) :
    (switch default cases).text.toList = "default:@".toList ++ ((toString default).toList ++
      ' ' :: '[' :: ([','].intercalate (cases.map caseText) ++ [']'])) := by
  have hcase : caseText =
      fun p => (toString p.1.toInt).toList ++ ':' :: '@' :: (toString p.2).toList := rfl
  simp [text, hcase, toString_string, Function.comp_def]

theorem switch_text_injective {default default' : Nat} {cases cases' : List (Int32 × Nat)}
    (h : (switch default cases).text = (switch default' cases').text) :
    default = default' ∧ cases = cases' := by
  have hlist := congrArg String.toList h
  rw [toList_text_switch, toList_text_switch] at hlist
  obtain ⟨hdefault, hrest⟩ := toString_nat_separator_inj rfl (List.append_cancel_left hlist)
  obtain ⟨hcases, -⟩ := intercalate_append_inj id (fun _ => True)
    (fun _ _ hx hy => caseText_append_inj hx hy) (fun _ => caseText_append_ne)
    (fun _ _ => trivial) (fun _ _ => trivial) (List.cons.inj hrest).2
  rw [List.map_id, List.map_id] at hcases
  exact ⟨hdefault, hcases⟩

theorem increment_text_injective {index index' : UInt16} {delta delta' : Int16}
    (h : (increment index delta).text = (increment index' delta').text) :
    index = index' ∧ delta = delta' := by
  have hparts : ∀ i d, (increment i d).text.toList = "local:".toList ++
      ((toString i.toNat).toList ++ ' ' :: (signed d.toInt).toList) := by
    intro i d
    simp [text, toString_string, toString_uint16]
  have hlist := congrArg String.toList h
  rw [hparts, hparts] at hlist
  obtain ⟨hindex, hdelta⟩ := toString_nat_separator_inj rfl (List.append_cancel_left hlist)
  exact ⟨UInt16.toNat_inj.1 hindex,
    Int16.toInt_inj.1 (signed_injective (String.toList_inj.1 hdelta))⟩

theorem multiArray_text_injective {element element' : UnitName} {dimensions dimensions' : UInt8}
    (he : IsUnitName element) (he' : IsUnitName element')
    (h : (multiArray element dimensions).text = (multiArray element' dimensions').text) :
    element = element' ∧ dimensions = dimensions' := by
  have hparts : ∀ e d, (multiArray e d).text.toList = "type:".toList ++
      (e.toList ++ ' ' :: ("dims:".toList ++ (toString d.toNat).toList)) := by
    intro e d
    simp [text, toString_string, toString_uint8]
  have hlist := congrArg String.toList h
  rw [hparts, hparts] at hlist
  obtain ⟨helement, hdimensions⟩ := append_separator_inj (he.notMem rfl) (he'.notMem rfl)
    (List.append_cancel_left hlist)
  exact ⟨String.toList_inj.1 helement, UInt8.toNat_inj.1 (toString_nat_injective
    (String.toList_inj.1 (List.append_cancel_left hdimensions)))⟩

theorem toList_text_dynamic (name descriptor : String) (bootstrap : Option Bootstrap) :
    (dynamic name descriptor bootstrap).text.toList = "indy:".toList ++
      ((name ++ descriptor).toList ++ (bootstrap.elim [] fun b => ' ' :: b.text.toList)) := by
  cases bootstrap <;> simp [text]

theorem dynamic_text_injective {name name' descriptor descriptor' : String}
    {bootstrap bootstrap' : Option Bootstrap} (hd : (dynamic name descriptor bootstrap).WellNamed)
    (hd' : (dynamic name' descriptor' bootstrap').WellNamed)
    (h : (dynamic name descriptor bootstrap).text = (dynamic name' descriptor' bootstrap').text) :
    name ++ descriptor = name' ++ descriptor' ∧
      bootstrap.map (Bootstrap.mapMember .joined) =
        bootstrap'.map (Bootstrap.mapMember .joined) := by
  obtain ⟨hname, hdescriptor, hb⟩ := hd
  obtain ⟨hname', hdescriptor', hb'⟩ := hd'
  have hlist := congrArg String.toList h
  rw [toList_text_dynamic, toList_text_dynamic] at hlist
  have hends : ∀ b : Option Bootstrap, EndsSignature (b.elim [] fun b => ' ' :: b.text.toList) := by
    intro b
    cases b with
    | none => exact endsSignature_nil
    | some b => exact endsSignature_cons rfl _
  obtain ⟨hsignature, hrest⟩ := IsSignature.append_inj
    (by rw [String.toList_append]; exact hname.isSignature.append hdescriptor.isSignature)
    (by rw [String.toList_append]; exact hname'.isSignature.append hdescriptor'.isSignature)
    (hends bootstrap) (hends bootstrap') (List.append_cancel_left hlist)
  refine ⟨String.toList_inj.1 hsignature, ?_⟩
  rcases bootstrap with _ | b <;> rcases bootstrap' with _ | b'
  · rfl
  · cases hrest
  · cases hrest
  · exact congrArg some (Bootstrap.text_injective (hb b rfl) (hb' b' rfl)
      (String.toList_inj.1 (List.cons.inj hrest).2))

/-- **An operand of a known kind tells what it is.** -/
theorem text_injective {operand operand' : Operand} {layout : Layout}
    (hl : layout ∈ operand.layouts) (hl' : layout ∈ operand'.layouts) (ho : operand.WellNamed)
    (ho' : operand'.WellNamed) (h : operand.text = operand'.text) :
    operand.mapMember .joined = operand'.mapMember .joined := by
  have hkind : (operand.layouts.any fun l => operand'.layouts.contains l) = true :=
    List.any_eq_true.2 ⟨layout, hl, List.contains_iff_mem.2 hl'⟩
  have hlist := congrArg String.toList h
  -- operands of two kinds have no layout in common, which `hkind` computes
  cases operand with
  | none =>
    cases operand' with
    | none => rfl
    | _ => exact absurd hkind Bool.false_ne_true
  | int value =>
    cases operand' with
    | int value' => rw [Int32.toInt_inj.1 (toString_int_injective h)]
    | _ => exact absurd hkind Bool.false_ne_true
  | localVar index =>
    cases operand' with
    | localVar index' =>
      rw [UInt16.toNat_inj.1 (toString_nat_injective ((String.append_right_inj _).1 h))]
    | _ => exact absurd hkind Bool.false_ne_true
  | increment index delta =>
    cases operand' with
    | increment index' delta' =>
      obtain ⟨hindex, hdelta⟩ := increment_text_injective h
      rw [hindex, hdelta]
    | _ => exact absurd hkind Bool.false_ne_true
  | constant value =>
    cases operand' with
    | constant value' =>
      have hnil : EndsElement [] := by simp [EndsElement]
      obtain ⟨hvalue, -⟩ := Constant.text_append_inj ho ho' hnil hnil (congrArg (· ++ []) hlist)
      rw [mapMember, mapMember, hvalue]
    | _ => exact absurd hkind Bool.false_ne_true
  | field target =>
    cases operand' with
    | field target' =>
      obtain ⟨htarget, -⟩ := MemberRef.text_append_inj ho ho' endsSignature_nil endsSignature_nil
        (congrArg (· ++ []) hlist)
      rw [mapMember, mapMember, htarget]
    | _ => exact absurd hkind Bool.false_ne_true
  | method target =>
    cases operand' with
    | method target' =>
      obtain ⟨htarget, -⟩ := MemberRef.text_append_inj ho ho' endsSignature_nil endsSignature_nil
        (congrArg (· ++ []) hlist)
      rw [mapMember, mapMember, htarget]
    | _ => exact absurd hkind Bool.false_ne_true
  | type name =>
    cases operand' with
    | type name' => rw [(String.append_right_inj _).1 h]
    | _ => exact absurd hkind Bool.false_ne_true
  | branch target =>
    cases operand' with
    | branch target' => rw [toString_nat_injective ((String.append_right_inj _).1 h)]
    | _ => exact absurd hkind Bool.false_ne_true
  | switch default cases =>
    cases operand' with
    | switch default' cases' =>
      obtain ⟨hdefault, hcases⟩ := switch_text_injective h
      rw [hdefault, hcases]
    | _ => exact absurd hkind Bool.false_ne_true
  | multiArray element dimensions =>
    cases operand' with
    | multiArray element' dimensions' =>
      obtain ⟨helement, hdimensions⟩ := multiArray_text_injective ho ho' h
      rw [helement, hdimensions]
    | _ => exact absurd hkind Bool.false_ne_true
  | dynamic name descriptor bootstrap =>
    cases operand' with
    | dynamic name' descriptor' bootstrap' =>
      obtain ⟨hsignature, hbootstrap⟩ := dynamic_text_injective ho ho' h
      rw [mapMember, mapMember, hbootstrap]
      exact congrArg (dynamic · "" _) hsignature
    | _ => exact absurd hkind Bool.false_ne_true

end Operand

/-! ### Texts of views -/

theorem MemberRef.text_joined (ref : MemberRef) : ref.joined.text = ref.text := by
  simp [joined, text, signature]

theorem Handle.text_mapMember_joined (handle : Handle) :
    (handle.mapMember .joined).text = handle.text := by
  rw [text, mapMember, MemberRef.text_joined, text]

theorem Constant.text_mapMember_joined (constant : Constant) :
    (constant.mapMember .joined).text = constant.text := by
  cases constant with
  | handle h => exact h.text_mapMember_joined
  | _ => rfl

theorem Bootstrap.text_mapMember_joined (bootstrap : Bootstrap) :
    (bootstrap.mapMember .joined).text = bootstrap.text := by
  have harguments : ∀ c ∈ bootstrap.arguments,
      (Constant.text ∘ Constant.mapMember .joined) c = c.text :=
    fun c _ => c.text_mapMember_joined
  rw [text, mapMember, Handle.text_mapMember_joined, List.map_map, List.map_congr_left harguments,
    text]

theorem Operand.text_mapMember_joined (operand : Operand) :
    (operand.mapMember .joined).text = operand.text := by
  cases operand with
  | field target => exact target.text_joined
  | method target => exact target.text_joined
  | constant value => exact value.text_mapMember_joined
  | dynamic name descriptor bootstrap =>
    cases bootstrap with
    | none => simp [mapMember, MemberRef.joined, MemberRef.signature, text, String.append_assoc]
    | some b =>
      simp [mapMember, MemberRef.joined, MemberRef.signature, text, String.append_assoc,
        b.text_mapMember_joined]
  | _ => rfl

/-- **The text of an operand of a known kind is the operand**, but for kinds of owners and for
borders between names and descriptors. -/
theorem Operand.text_eq_iff {operand operand' : Operand} {layout : Layout}
    (hl : layout ∈ operand.layouts) (hl' : layout ∈ operand'.layouts) (ho : operand.WellNamed)
    (ho' : operand'.WellNamed) :
    operand.text = operand'.text ↔ operand.mapMember .joined = operand'.mapMember .joined := by
  refine ⟨text_injective hl hl' ho ho', fun h => ?_⟩
  rw [← operand.text_mapMember_joined, h, text_mapMember_joined]

/-! ### Legible operands -/

/-- The member that a constant is a handle on. -/
def Constant.members : Constant → List MemberRef
  | .handle h => [h.member]
  | _ => []

/-- The members in a bootstrap method. -/
def Bootstrap.members (bootstrap : Bootstrap) : List MemberRef :=
  bootstrap.handle.member :: bootstrap.arguments.flatMap Constant.members

/-- The members in an operand, a call site among them. -/
def Operand.members : Operand → List MemberRef
  | .field target | .method target => [target]
  | .constant value => value.members
  | .dynamic name descriptor bootstrap =>
    ⟨"", name, descriptor, false⟩ :: bootstrap.elim [] Bootstrap.members
  | _ => []

/-- **A reference that can be read back**: its name and descriptor are well-formed, and the border
between them shows. -/
structure MemberRef.IsClear (ref : MemberRef) : Prop where
  name : IsMemberName ref.name
  descriptor : IsDescriptor ref.descriptor
  legible : IsLegible ref.name ref.descriptor

theorem MemberRef.IsClear.eq_of_signature_eq {ref ref' : MemberRef} (hr : ref.IsClear)
    (hr' : ref'.IsClear) (h : ref.signature = ref'.signature) :
    ref.name = ref'.name ∧ ref.descriptor = ref'.descriptor :=
  eq_of_append_eq hr.name hr'.name hr.descriptor hr'.descriptor hr.legible hr'.legible h

theorem MemberRef.IsClear.bare_eq {ref ref' : MemberRef} (hr : ref.IsClear) (hr' : ref'.IsClear)
    (h : ref.joined = ref'.joined) : ref.bare = ref'.bare := by
  obtain ⟨howner, hsignature, -, -⟩ := MemberRef.mk.inj h
  obtain ⟨hname, hdescriptor⟩ := hr.eq_of_signature_eq hr' hsignature
  rw [bare, bare, howner, hname, hdescriptor]

/-- The members in a well-named operand have well-formed names and descriptors. -/
theorem Operand.WellNamed.of_mem_members {operand : Operand} (h : operand.WellNamed)
    {ref : MemberRef} (hr : ref ∈ operand.members) :
    IsMemberName ref.name ∧ IsDescriptor ref.descriptor := by
  have hconstant : ∀ c : Constant, c.WellNamed → ref ∈ c.members →
      IsMemberName ref.name ∧ IsDescriptor ref.descriptor := by
    intro c hc hmem
    cases c with
    | handle k =>
      obtain rfl := List.mem_singleton.1 hmem
      exact ⟨hc.name, hc.descriptor⟩
    | _ => cases hmem
  cases operand with
  | field target | method target =>
    obtain rfl := List.mem_singleton.1 hr
    exact ⟨h.name, h.descriptor⟩
  | constant value => exact hconstant value h hr
  | dynamic name descriptor bootstrap =>
    rcases List.mem_cons.1 hr with rfl | hr
    · exact ⟨h.1, h.2.1⟩
    · cases bootstrap with
      | none => cases hr
      | some b =>
        have hb := h.2.2 b rfl
        rcases List.mem_cons.1 hr with rfl | hr
        · exact ⟨hb.handle.name, hb.handle.descriptor⟩
        · obtain ⟨c, hc, hmem⟩ := List.mem_flatMap.1 hr
          exact hconstant c (hb.arguments c hc) hmem
  | _ => cases hr

theorem Constant.mapMember_bare_eq {constant constant' : Constant}
    (hc : ∀ ref ∈ constant.members, ref.IsClear) (hc' : ∀ ref ∈ constant'.members, ref.IsClear)
    (h : constant.mapMember .joined = constant'.mapMember .joined) :
    constant.mapMember .bare = constant'.mapMember .bare := by
  cases constant with
  | handle k =>
    cases constant' with
    | handle k' =>
      obtain ⟨hkind, hmember⟩ := Handle.mk.inj (Constant.handle.inj h)
      have hbare := (hc _ List.mem_cons_self).bare_eq (hc' _ List.mem_cons_self) hmember
      rw [mapMember, mapMember, Handle.mapMember, Handle.mapMember, hkind, hbare]
    | _ => cases h
  | _ =>
    cases constant' with
    | handle k' => cases h
    | _ => exact h

/-- Lists that agree in one view agree in another one, if their elements do. -/
theorem map_eq_map_of_map_eq {α β γ : Type} {f : α → β} {g : α → γ} {l l' : List α}
    (hfg : ∀ a ∈ l, ∀ b ∈ l', f a = f b → g a = g b) (h : l.map f = l'.map f) :
    l.map g = l'.map g := by
  induction l generalizing l' with
  | nil =>
    rw [List.map_nil] at h
    rw [List.map_eq_nil_iff.1 h.symm]
  | cons a l ih =>
    rcases l' with _ | ⟨b, l'⟩
    · cases h
    · obtain ⟨hab, h⟩ := List.cons.inj h
      rw [List.map_cons, List.map_cons, hfg a List.mem_cons_self b List.mem_cons_self hab,
        ih (fun c hc d hd => hfg c (List.mem_cons_of_mem _ hc) d (List.mem_cons_of_mem _ hd)) h]

theorem Bootstrap.mapMember_bare_eq {bootstrap bootstrap' : Bootstrap}
    (hb : ∀ ref ∈ bootstrap.members, ref.IsClear) (hb' : ∀ ref ∈ bootstrap'.members, ref.IsClear)
    (h : bootstrap.mapMember .joined = bootstrap'.mapMember .joined) :
    bootstrap.mapMember .bare = bootstrap'.mapMember .bare := by
  obtain ⟨hhandle, harguments⟩ := Bootstrap.mk.inj h
  obtain ⟨hkind, hmember⟩ := Handle.mk.inj hhandle
  have hbare := (hb _ List.mem_cons_self).bare_eq (hb' _ List.mem_cons_self) hmember
  have hrest := map_eq_map_of_map_eq (fun c hc c' hc' => Constant.mapMember_bare_eq
    (fun ref hr => hb ref (List.mem_cons_of_mem _ (List.mem_flatMap.2 ⟨c, hc, hr⟩)))
    (fun ref hr => hb' ref (List.mem_cons_of_mem _ (List.mem_flatMap.2 ⟨c', hc', hr⟩)))) harguments
  rw [mapMember, mapMember, Handle.mapMember, Handle.mapMember, hkind, hbare, hrest]

theorem Operand.mapMember_bare_eq {operand operand' : Operand}
    (ho : ∀ ref ∈ operand.members, ref.IsClear) (ho' : ∀ ref ∈ operand'.members, ref.IsClear)
    (h : operand.mapMember .joined = operand'.mapMember .joined) :
    operand.mapMember .bare = operand'.mapMember .bare := by
  cases operand with
  | field target =>
    cases operand' with
    | field target' =>
      have hbare := (ho _ List.mem_cons_self).bare_eq (ho' _ List.mem_cons_self) (field.inj h)
      rw [mapMember, mapMember, hbare]
    | _ => cases h
  | method target =>
    cases operand' with
    | method target' =>
      have hbare := (ho _ List.mem_cons_self).bare_eq (ho' _ List.mem_cons_self) (method.inj h)
      rw [mapMember, mapMember, hbare]
    | _ => cases h
  | constant value =>
    cases operand' with
    | constant value' =>
      rw [mapMember, mapMember, Constant.mapMember_bare_eq ho ho' (constant.inj h)]
    | _ => cases h
  | dynamic name descriptor bootstrap =>
    cases operand' with
    | dynamic name' descriptor' bootstrap' =>
      obtain ⟨hsignature, -, hbootstrap⟩ := dynamic.inj h
      obtain ⟨hname, hdescriptor⟩ :=
        (ho _ List.mem_cons_self).eq_of_signature_eq (ho' _ List.mem_cons_self) hsignature
      have hbare : bootstrap.map (Bootstrap.mapMember .bare) =
          bootstrap'.map (Bootstrap.mapMember .bare) := by
        rcases bootstrap with _ | b <;> rcases bootstrap' with _ | b'
        · rfl
        · cases hbootstrap
        · cases hbootstrap
        · exact congrArg some (Bootstrap.mapMember_bare_eq
            (fun ref hr => ho ref (List.mem_cons_of_mem _ hr))
            (fun ref hr => ho' ref (List.mem_cons_of_mem _ hr)) (Option.some.inj hbootstrap))
      rw [mapMember, mapMember, hbare]
      exact congrArg₂ (dynamic · · _) hname hdescriptor
    | _ => cases h
  | _ =>
    cases operand' with
    | field | method | constant | dynamic => cases h
    | _ => exact h

/-! ### From the one view to the other -/

theorem Constant.mapMember_joined_bare (constant : Constant) :
    (constant.mapMember .bare).mapMember .joined = constant.mapMember .joined := by
  cases constant <;> rfl

theorem Bootstrap.mapMember_joined_bare (bootstrap : Bootstrap) :
    (bootstrap.mapMember .bare).mapMember .joined = bootstrap.mapMember .joined := by
  have harguments : ∀ c ∈ bootstrap.arguments,
      (Constant.mapMember .joined ∘ Constant.mapMember .bare) c = c.mapMember .joined :=
    fun c _ => c.mapMember_joined_bare
  rw [mapMember, mapMember, List.map_map, List.map_congr_left harguments]
  rfl

theorem Operand.mapMember_joined_bare (operand : Operand) :
    (operand.mapMember .bare).mapMember .joined = operand.mapMember .joined := by
  cases operand with
  | constant value => exact congrArg constant value.mapMember_joined_bare
  | dynamic name descriptor bootstrap =>
    cases bootstrap with
    | none => rfl
    | some b => exact congrArg (fun b => dynamic _ _ (some b)) b.mapMember_joined_bare
  | _ => rfl

/-- **Legible operands are told up to kinds of owners.** -/
theorem Operand.mapMember_joined_eq_iff {operand operand' : Operand}
    (ho : ∀ ref ∈ operand.members, ref.IsClear) (ho' : ∀ ref ∈ operand'.members, ref.IsClear) :
    operand.mapMember .joined = operand'.mapMember .joined ↔
      operand.mapMember .bare = operand'.mapMember .bare := by
  refine ⟨mapMember_bare_eq ho ho', fun h => ?_⟩
  rw [← operand.mapMember_joined_bare, h, mapMember_joined_bare]

end Retest

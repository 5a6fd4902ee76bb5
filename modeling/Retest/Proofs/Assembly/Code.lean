import Mathlib.Algebra.GroupWithZero.Nat
import Mathlib.Algebra.Order.BigOperators.Group.List
import Mathlib.Algebra.Order.Group.Nat
import Retest.Assembly.Code
import Retest.Proofs.Assembly.Pool

/-!
# What assembled code is decoded to

Assembling and decoding know a method's body in the same form: as a list of
instructions in which a jump names the ordinal of the instruction it leads to. In
between there are octets, and distances. The assembler counts five octets of a call of
an interface's method as three (`Retest.AsmOp.size`), so each of them makes it take all
that follows for two octets nearer than it is. A distance is the difference of two
offsets, so this does no harm unless there is such a call between the jump and the
instruction it leads to.

That is what is shown here: the octets of a body are decoded to its instructions
exactly if no jump leads across a call of an interface's method
(`Retest.AsmOp.decode_code_iff`).
-/

namespace Retest

open Assembly (two four Draft)
open Reader (Yields)

namespace AsmOp

/-! ### Instructions as they are described -/

/-- The bootstrap method of a function object that is made from a static method. -/
def functionBootstrap (owner : UnitName) (target targetDescriptor : String) : Bootstrap where
  handle := ⟨6, .ofSlashed factoryOwner, "metafactory", factoryDescriptor, false⟩
  arguments := [.methodType targetDescriptor,
    .handle ⟨6, .ofSlashed owner, target, targetDescriptor, false⟩, .methodType targetDescriptor]

/-- **The instruction that is described.** -/
def instruction : AsmOp → Instruction
  | plain opcode => ⟨opcode, .none⟩
  | localVar opcode index => ⟨opcode, .localVar index.toUInt16⟩
  | increment index delta => ⟨0x84, .increment index.toUInt16 delta.toInt16⟩
  | push value => ⟨0x10, .int value.toInt32⟩
  | string value => ⟨0x12, .constant (.string value)⟩
  | member opcode owner name descriptor =>
    let ref : MemberRef := ⟨.ofSlashed owner, name, descriptor, opcode == 0xb9⟩
    ⟨opcode, if opcode < 0xb6 then .field ref else .method ref⟩
  | type opcode name => ⟨opcode, .type (.ofSlashed name)⟩
  | branch opcode target => ⟨opcode, .branch target⟩
  | lambda name descriptor owner target targetDescriptor =>
    ⟨0xba, .dynamic name descriptor (some (functionBootstrap owner target targetDescriptor))⟩

/-- An instruction of a body is regular: its opcode is one that its operand belongs to, and a
jump leads to an instruction of the body. -/
def IsRegular (count : Nat) : AsmOp → Prop
  | plain opcode => Layout.ofOpcode? opcode = some .plain
  | localVar opcode _ => Layout.ofOpcode? opcode = some .localVar
  | member opcode _ _ _ => opcode ∈ [0xb2, 0xb3, 0xb4, 0xb5, 0xb6, 0xb7, 0xb8, 0xb9]
  | type opcode _ => Layout.ofOpcode? opcode = some .type
  | branch opcode target => Layout.ofOpcode? opcode = some .branch ∧ target < count
  | increment _ _ | push _ | string _ | lambda _ _ _ _ _ => True

/-- Whether an instruction calls a method of an interface. -/
def isInterfaceCall : AsmOp → Bool
  | member opcode _ _ _ => opcode == 0xb9
  | _ => false

/-- How many of the first `n` instructions call methods of interfaces. -/
def interfaceCalls (ops : List AsmOp) (n : Nat) : Nat := (ops.take n).countP isInterfaceCall

/-- **No jump leads across a call of an interface's method**: there are as many before the jump as
before the instruction it leads to. -/
def JumpsClear (ops : List AsmOp) : Prop :=
  ∀ i opcode target, ops[i]? = some (branch opcode target) →
    interfaceCalls ops i = interfaceCalls ops target

instance (count : Nat) : (op : AsmOp) → Decidable (op.IsRegular count)
  | plain _ | localVar _ _ | type _ _ => inferInstanceAs (Decidable (_ = _))
  | member _ _ _ _ => inferInstanceAs (Decidable (_ ∈ _))
  | branch _ _ => inferInstanceAs (Decidable (_ ∧ _))
  | increment _ _ | push _ | string _ | lambda _ _ _ _ _ => inferInstanceAs (Decidable True)

/-- The ordinal that an instruction jumps to. -/
def target? : AsmOp → Option Nat
  | branch _ target => some target
  | _ => none

theorem jumpsClear_iff {ops : List AsmOp} : JumpsClear ops ↔
    ∀ i < ops.length, ∀ op ∈ ops[i]?, ∀ target ∈ op.target?,
      interfaceCalls ops i = interfaceCalls ops target := by
  constructor
  · intro h i _ op hop target htarget
    cases op with
    | branch opcode t =>
      cases htarget
      exact h i opcode _ hop
    | _ => cases htarget
  · intro h i opcode target hi
    exact h i (List.getElem?_eq_some_iff.1 hi).1 _ hi target rfl

instance (ops : List AsmOp) : Decidable (JumpsClear ops) := decidable_of_iff' _ jumpsClear_iff

/-! ### Sizes -/

/-- How many octets an instruction takes up. -/
def width (index : UInt16) (op : AsmOp) : Nat := op.size index + if op.isInterfaceCall then 2 else 0

theorem length_octets (place : Nat → Nat) (offset : Nat) (index : UInt16) (op : AsmOp) :
    (op.octets place offset index).length = op.width index := by
  cases op with
  | string value =>
    by_cases hindex : index ≤ 0xff
    · simp [octets, width, size, isInterfaceCall, hindex]
    · simp [octets, width, size, isInterfaceCall, hindex]
  | member opcode owner name descriptor =>
    by_cases hopcode : opcode = 0xb9
    · simp [octets, width, size, isInterfaceCall, hopcode]
    · simp [octets, width, size, isInterfaceCall, hopcode]
  | _ => rfl

theorem width_pos (index : UInt16) (op : AsmOp) : 0 < op.width index := by
  have hsize : 0 < op.size index := by
    unfold size
    repeat' split
    all_goals omega
  exact Nat.lt_of_lt_of_le hsize (Nat.le_add_right _ _)

/-! ### References -/

/-- An index leads to what an instruction refers to. -/
def Refers (context : Bytecode.Context) (index : UInt16) : AsmOp → Prop
  | string value => context.pool.constant index = .ok (.string value)
  | member opcode owner name descriptor =>
    context.pool.member index = .ok ⟨.ofSlashed owner, name, descriptor, opcode == 0xb9⟩
  | type _ name => context.pool.unit index = .ok (.ofSlashed name)
  | lambda name descriptor owner target targetDescriptor =>
    ∃ b : UInt16, context.pool.callSite index = .ok (b, name, descriptor) ∧
      context.bootstraps[b.toNat]? = some (functionBootstrap owner target targetDescriptor)
  | plain _ | localVar _ _ | increment _ _ | push _ | branch _ _ => True

/-- The tag of a member says whether it is one of an interface. -/
theorem memberTag_eq (opcode : UInt8) :
    memberTag opcode ∈ [9, 10, 11] ∧ (memberTag opcode == 11) = (opcode == 0xb9) := by
  rw [memberTag]
  split
  · next h => simp [h]
  · next h => split <;> simp [h]

theorem resolve_functionBootstrap {pool : Pool} {factory erased implementation : UInt16}
    {owner : UnitName} {target targetDescriptor : String}
    (hfactory : pool.handle factory =
      .ok ⟨6, .ofSlashed factoryOwner, "metafactory", factoryDescriptor, false⟩)
    (herased : pool.constant erased = .ok (.methodType targetDescriptor))
    (himplementation : pool.constant implementation =
      .ok (.handle ⟨6, .ofSlashed owner, target, targetDescriptor, false⟩)) :
    BootstrapEntry.resolve pool ⟨factory, [erased, implementation, erased]⟩ =
      .ok (functionBootstrap owner target targetDescriptor) := by
  have harguments : [erased, implementation, erased].mapM pool.constant =
      .ok (functionBootstrap owner target targetDescriptor).arguments :=
    mapM_eq_ok_iff.2 (.cons herased (.cons himplementation (.cons herased .nil)))
  rw [BootstrapEntry.resolve, harguments, hfactory]
  rfl

/-- The index of what an instruction refers to leads to it, and decides about the width of the
instruction as it would in the end. -/
theorem ensures_poolIndex {final : Draft} {given : Prop} (hfits : final.Fits) (op : AsmOp) :
    Assembly.Ensures final given op.poolIndex fun i =>
      (∀ bootstraps, final.Resolves bootstraps →
        ∀ size, op.Refers ⟨final.pool, bootstraps, size⟩ i) ∧
      op.width i = op.width (op.poolIndex.run final).1 := by
  cases op with
  | string value =>
    -- the one width that depends on the index, which is the same when asked for again
    refine (Assembly.ensures_string hfits value).mono fun _ i ⟨hi, hrun⟩ => ⟨fun _ _ _ => hi, ?_⟩
    rw [poolIndex, hrun]
  | member opcode owner name descriptor =>
    obtain ⟨hmem, htag⟩ := memberTag_eq opcode
    refine (Assembly.ensures_member hfits hmem owner name descriptor).mono fun _ i hi =>
      ⟨fun _ _ _ => ?_, by simp only [width, size]⟩
    rwa [htag] at hi
  | type opcode name =>
    exact (Assembly.ensures_unit hfits name).mono fun _ i hi =>
      ⟨fun _ _ _ => hi, by simp only [width, size]⟩
  | lambda name descriptor owner target targetDescriptor =>
    -- what the first three steps ensure is what resolves the bootstrap method of the fourth
    refine (Assembly.ensures_staticHandle hfits _ _ _).bind fun factory => ?_
    refine (Assembly.ensures_methodType hfits targetDescriptor).bind fun erased => ?_
    refine (Assembly.ensures_staticHandle hfits owner target targetDescriptor).bind
      fun implementation => ?_
    refine (Assembly.ensures_bootstrap hfits (by rfl)
      fun ⟨⟨⟨_, hfactory, _⟩, herased⟩, _, himplementation⟩ =>
        resolve_functionBootstrap hfactory herased himplementation).bind fun b => ?_
    refine (Assembly.ensures_callSite hfits b name descriptor).mono
      fun ⟨⟨⟨⟨_, hfactory, _⟩, herased⟩, _, himplementation⟩, hb⟩ i hi =>
        ⟨?_, by simp only [width, size]⟩
    exact fun bootstraps hresolves size => ⟨b, hi, hresolves.getElem? hb
      (resolve_functionBootstrap hfactory herased himplementation)⟩
  | _ => exact .pure fun _ => ⟨fun _ _ _ => trivial, by simp only [width, size]⟩

end AsmOp

/-! ### Reading an instruction back -/

namespace Bytecode

/-- Read the instruction at an offset. -/
def readAt (context : Context) (offset : Nat) : Reader Instruction := do
  let opcode ← Reader.u1
  match Layout.ofOpcode? opcode with
  | some layout => readOperand context offset opcode layout
  | none => Reader.fail (.unknownOpcode opcode offset)

theorem readInstruction_eq (context : Context) : readInstruction context = do
    let offset ← Reader.position
    return (offset, ← readAt context offset) := by
  rw [readInstruction]
  congr 1
  funext offset
  rw [readAt, bind_assoc]
  congr 1
  funext opcode
  cases Layout.ofOpcode? opcode <;> rfl

/-- An instruction is read together with its offset. -/
theorem run_readInstruction {context : Context} {octets : List UInt8} {position : Nat}
    {outcome : Except Fault Instruction} (h : Yields (readAt context position) octets outcome)
    (rest : List UInt8) : (readInstruction context).run ⟨position, octets ++ rest⟩ =
      (outcome.map (position, ·)).map fun a => (a, ⟨position + octets.length, rest⟩) := by
  have hread : Yields (do return (position, ← readAt context position)) octets
      (outcome.map (position, ·)) := by
    intro position' rest'
    rw [StateT.run_bind, h]
    cases outcome <;> rfl
  rw [readInstruction_eq]
  exact hread position rest

variable {context : Context} {offset : Nat}

theorem yields_readAt {opcode : UInt8} {layout : Layout} {octets : List UInt8}
    {outcome : Except Fault Instruction} (hlayout : Layout.ofOpcode? opcode = some layout)
    (h : Yields (readOperand context offset opcode layout) octets outcome) :
    Yields (readAt context offset) (opcode :: octets) outcome := by
  refine (Yields.u1 opcode).bind_ok ?_
  rw [hlayout]
  exact h

/-- A distance of two octets is read as it was written. -/
theorem yields_branch {distance : Int} (hlow : -32768 ≤ distance) (hhigh : distance < 32768)
    (opcode : UInt8) : Yields (readOperand context offset opcode .branch)
      (two (Int16.ofInt distance).toUInt16)
      (if 0 ≤ offset + distance ∧ offset + distance < context.size then
        .ok ⟨opcode, .branch (offset + distance).toNat⟩ else .error (.wildBranch offset)) := by
  have hdistance : (Int16.ofInt distance).toUInt16.toInt16.toInt32.toInt = distance := by
    show (Int16.ofInt distance).toInt32.toInt = distance
    rw [Int16.toInt_toInt32, Int16.toInt_ofInt_of_le hlow hhigh]
  have htarget : target context offset (Int16.ofInt distance).toUInt16.toInt16.toInt32 =
      liftM (if 0 ≤ offset + distance ∧ offset + distance < context.size then
        .ok (offset + distance).toNat else .error (.wildBranch offset) : Except Fault Nat) := by
    rw [target, hdistance]
    split <;> rfl
  have hread : Yields Reader.i2 (two (Int16.ofInt distance).toUInt16)
      (.ok (Int16.ofInt distance).toUInt16.toInt16) := (Yields.u2 _).map_ok
  rw [← List.append_nil (two _)]
  refine hread.bind_ok ?_
  rw [htarget]
  split
  · exact .pure _
  · exact fun _ _ => rfl

/-- An index of two octets is followed. -/
theorem yields_lookup {α : Type} {find : UInt16 → Except Fault α} {f : α → Instruction}
    {index : UInt16} {a : α} (h : find index = .ok a) :
    Yields (do return f (← find (← Reader.u2))) (two index) (.ok (f a)) := by
  rw [← bind_assoc]
  exact (h ▸ Yields.lookup find index).map_ok

end Bytecode

namespace AsmOp

/-- What an instruction is read as at an offset, as long as a jump leads to an offset and not to an
ordinal, if the assembler counted another offset. -/
def outcome (place : Nat → Nat) (size offset counted : Nat) : AsmOp → Except Fault Instruction
  | branch opcode target =>
    let found : Int := offset + (place target - counted)
    if 0 ≤ found ∧ found < size then .ok ⟨opcode, .branch found.toNat⟩
    else .error (.wildBranch offset)
  | op => .ok op.instruction

/-- The opcodes that are applied to members, except that of calls of interfaces' methods. -/
theorem ofOpcode?_member : ∀ opcode ∈ [0xb2, 0xb3, 0xb4, 0xb5, 0xb6, 0xb7, 0xb8, 0xb9],
    opcode ≠ 0xb9 →
      Layout.ofOpcode? opcode = some (if opcode < 0xb6 then Layout.field else .method) := by
  intro opcode hmem hne
  simp only [List.mem_cons, List.not_mem_nil, or_false] at hmem
  rcases hmem with rfl | rfl | rfl | rfl | rfl | rfl | rfl | rfl
  on_goal 8 => exact absurd rfl hne
  all_goals rfl

/-- An instruction on a member is read back. -/
theorem yields_member {context : Bytecode.Context} {place : Nat → Nat} {offset counted : Nat}
    {index : UInt16} {opcode : UInt8} {owner : UnitName} {name descriptor : String}
    (hopcode : opcode ∈ [0xb2, 0xb3, 0xb4, 0xb5, 0xb6, 0xb7, 0xb8, 0xb9])
    (hrefers : (member opcode owner name descriptor).Refers context index) :
    Yields (Bytecode.readAt context offset)
      ((member opcode owner name descriptor).octets place counted index)
      (.ok (member opcode owner name descriptor).instruction) := by
  by_cases hinterface : opcode = 0xb9
  · subst hinterface
    have hlayout : Layout.ofOpcode? 0xb9 = some .interfaceMethod := by decide
    rw [octets, if_pos rfl]
    refine Bytecode.yields_readAt hlayout ((Yields.u2 index).bind_ok ?_)
    rw [hrefers]
    show Yields (do
      let _ ← Reader.u1
      let _ ← Reader.u1
      return (⟨0xb9, .method ⟨.ofSlashed owner, name, descriptor, true⟩⟩ : Instruction)) _ _
    refine (Yields.u1 1).bind_ok ?_
    exact (Yields.u1 0).map_ok
  · have hlayout := ofOpcode?_member opcode hopcode hinterface
    rw [octets, if_neg hinterface, List.append_nil, instruction]
    by_cases hfield : opcode < 0xb6
    · rw [if_pos hfield] at hlayout ⊢
      exact Bytecode.yields_readAt hlayout (Bytecode.yields_lookup hrefers)
    · rw [if_neg hfield] at hlayout ⊢
      exact Bytecode.yields_readAt hlayout (Bytecode.yields_lookup hrefers)

/-- A string is loaded under an index of one octet or of two. -/
theorem yields_string {context : Bytecode.Context} {place : Nat → Nat} {offset counted : Nat}
    {index : UInt16} {value : String} (hrefers : (string value).Refers context index) :
    Yields (Bytecode.readAt context offset) ((string value).octets place counted index)
      (.ok (string value).instruction) := by
  by_cases hindex : index ≤ 0xff
  · have hlayout : Layout.ofOpcode? 0x12 = some .constant := by decide
    have hshort : index.toUInt8.toUInt16 = index := by
      have hle : index.toNat ≤ 255 := UInt16.le_iff_toNat_le.1 hindex
      rw [← UInt16.toNat_inj, UInt8.toNat_toUInt16, UInt16.toNat_toUInt8]
      omega
    rw [octets, if_pos hindex, ← List.append_nil [_, _]]
    refine Bytecode.yields_readAt hlayout ((Yields.u1 index.toUInt8).bind_ok ?_)
    rw [hshort, hrefers]
    exact .pure _
  · have hlayout : Layout.ofOpcode? 0x13 = some .wideConstant := by decide
    rw [octets, if_neg hindex]
    exact Bytecode.yields_readAt hlayout (Bytecode.yields_lookup hrefers)

/-- The octets of a regular instruction are read back. -/
theorem yields_octets {context : Bytecode.Context} {place : Nat → Nat} {offset counted count : Nat}
    {index : UInt16} {op : AsmOp} (hregular : op.IsRegular count)
    (hrefers : op.Refers context index) (hplace : ∀ target, place target < 32768)
    (hcounted : counted < 32768) :
    Yields (Bytecode.readAt context offset) (op.octets place counted index)
      (op.outcome place context.size offset counted) := by
  cases op with
  | plain opcode => exact Bytecode.yields_readAt hregular (.pure _)
  | localVar opcode slot => exact Bytecode.yields_readAt hregular (Yields.u1 slot).map_ok
  | increment slot delta =>
    have hlayout : Layout.ofOpcode? 0x84 = some .increment := by decide
    exact Bytecode.yields_readAt hlayout
      ((Yields.u1 slot).bind_ok (Yields.u1 delta.toUInt8).map_ok.map_ok)
  | push value =>
    have hlayout : Layout.ofOpcode? 0x10 = some .byte := by decide
    exact Bytecode.yields_readAt hlayout (Yields.u1 value.toUInt8).map_ok.map_ok
  | string value => exact yields_string hrefers
  | member opcode owner name descriptor => exact yields_member hregular hrefers
  | type opcode name => exact Bytecode.yields_readAt hregular (Bytecode.yields_lookup hrefers)
  | branch opcode target =>
    have hnear := hplace target
    exact Bytecode.yields_readAt hregular.1 (Bytecode.yields_branch (by omega) (by omega) opcode)
  | lambda name descriptor owner target targetDescriptor =>
    obtain ⟨b, hcall, hbootstrap⟩ := hrefers
    have hlayout : Layout.ofOpcode? 0xba = some .callSite := by decide
    refine Bytecode.yields_readAt hlayout ((Yields.u2 index).bind_ok ?_)
    rw [hcall]
    show Yields (do
      let _ ← Reader.u2
      return (⟨0xba, .dynamic name descriptor context.bootstraps[b.toNat]?⟩ : Instruction)) _ _
    rw [hbootstrap]
    exact (Yields.u2 0).map_ok

/-! ### Offsets -/

theorem length_offsetsFrom (offset : Nat) (sizes : List Nat) :
    (offsetsFrom offset sizes).length = sizes.length := by
  induction sizes generalizing offset with
  | nil => rfl
  | cons size sizes ih => rw [offsetsFrom, List.length_cons, ih, List.length_cons]

theorem getElem?_offsetsFrom (offset : Nat) (sizes : List Nat) {k : Nat} (hk : k < sizes.length) :
    (offsetsFrom offset sizes)[k]? = some (offset + (sizes.take k).sum) := by
  induction sizes generalizing offset k with
  | nil => cases hk
  | cons size sizes ih =>
    rcases k with _ | k
    · simp [offsetsFrom]
    · rw [offsetsFrom, List.getElem?_cons_succ, ih _ (Nat.lt_of_succ_lt_succ hk),
        List.take_succ_cons, List.sum_cons, Nat.add_assoc]

/-- Instructions that take up octets start one after another, before the end. -/
theorem pairwise_offsetsFrom {sizes : List Nat} (hpos : ∀ size ∈ sizes, 0 < size) (offset : Nat) :
    (offsetsFrom offset sizes).Pairwise (· < ·) ∧
      ∀ start ∈ offsetsFrom offset sizes, offset ≤ start ∧ start < offset + sizes.sum := by
  induction sizes generalizing offset with
  | nil => exact ⟨.nil, by simp [offsetsFrom]⟩
  | cons size sizes ih =>
    have hsize := hpos size List.mem_cons_self
    obtain ⟨hpairwise, hbounds⟩ :=
      ih (fun s hs => hpos s (List.mem_cons_of_mem _ hs)) (offset + size)
    rw [offsetsFrom, List.pairwise_cons, List.sum_cons]
    refine ⟨⟨fun start hstart => ?_, hpairwise⟩, fun start hstart => ?_⟩
    · have := hbounds start hstart
      omega
    · rcases List.mem_cons.1 hstart with rfl | hstart
      · omega
      · have := hbounds start hstart
        omega

end AsmOp

/-- An offset has the ordinal of the instruction that starts there. -/
theorem Bytecode.ordinal_eq_ok_iff {starts : List Nat} {size offset k : Nat}
    (hpairwise : starts.Pairwise (· < ·)) (hbelow : ∀ start ∈ starts, start < size)
    (hk : k < starts.length) :
    ordinal starts size offset = .ok k ↔ starts[k]? = some offset := by
  rw [ordinal]
  split
  · next hsize =>
    -- the end of the code has the ordinal after the last, and no instruction starts there
    constructor
    · intro h
      cases h
      omega
    · intro h
      have := hbelow offset (List.mem_of_getElem? h)
      omega
  · cases hindex : starts.idxOf? offset with
    | none =>
      refine ⟨(by intro h; cases h), fun h => ?_⟩
      exact absurd (List.mem_of_getElem? h) (List.idxOf?_eq_none_iff.1 hindex)
    | some j =>
      obtain ⟨hj, hget, -⟩ := List.idxOf?_eq_some_iff.1 hindex
      constructor
      · intro h
        cases h
        rw [List.getElem?_eq_getElem hk, hget]
      · intro h
        have hnodup : starts.Nodup := hpairwise.imp fun hlt => Nat.ne_of_lt hlt
        have hjk : starts[j]? = starts[k]? := by rw [h, List.getElem?_eq_getElem hj, hget]
        exact congrArg Except.ok ((List.getElem?_inj hj hnodup).1 hjk)

/-- Reading on while there are octets left. -/
theorem Reader.run_untilEnd_succ {α : Type} (reader : Reader α) (fuel position : Nat)
    {octets : List UInt8} (h : 0 < octets.length) :
    (untilEnd reader (fuel + 1)).run ⟨position, octets⟩ = (do
      let p ← reader.run ⟨position, octets⟩
      let q ← (untilEnd reader fuel).run p.2
      return (p.1 :: q.1, q.2)) := by
  obtain ⟨b, octets, rfl⟩ := List.exists_cons_of_length_pos h
  show (do
    let a ← reader
    let as ← untilEnd reader fuel
    return a :: as : Reader (List α)).run _ = _
  rw [StateT.run_bind]
  rfl

/-- Reading until no octet is left, where one part follows another. -/
theorem Reader.run_untilEnd {α γ : Type} {reader : Reader α} {octets : γ → List UInt8}
    {outcome : Nat → γ → Except Fault α} {parts : List γ}
    (h : ∀ part ∈ parts, ∀ position rest, reader.run ⟨position, octets part ++ rest⟩ =
      (outcome position part).map fun a => (a, ⟨position + (octets part).length, rest⟩))
    (hpos : ∀ part ∈ parts, 0 < (octets part).length) {fuel : Nat} (hfuel : parts.length ≤ fuel)
    (position : Nat) : (untilEnd reader fuel).run ⟨position, parts.flatMap octets⟩ =
      (((AsmOp.offsetsFrom position (parts.map fun part => (octets part).length)).zip parts).mapM
        fun p => outcome p.1 p.2).map
          fun as => (as, ⟨position + (parts.flatMap octets).length, []⟩) := by
  -- the fuel is generalized, as one unit of it is used up by each part
  induction parts generalizing fuel position with
  | nil => cases fuel <;> rfl
  | cons part parts ih =>
    rcases fuel with _ | fuel
    · cases hfuel
    have hpart := h part List.mem_cons_self position (parts.flatMap octets)
    have hrest := ih (fun p hp => h p (List.mem_cons_of_mem _ hp))
      (fun p hp => hpos p (List.mem_cons_of_mem _ hp)) (Nat.le_of_succ_le_succ hfuel)
      (position + (octets part).length)
    rw [List.flatMap_cons, List.map_cons, AsmOp.offsetsFrom, List.zip_cons_cons, List.mapM_cons,
      List.length_append, ← Nat.add_assoc, run_untilEnd_succ, hpart]
    · cases outcome position part with
      | error fault => rfl
      | ok a =>
        show (do
          let q ← (untilEnd reader fuel).run ⟨_, parts.flatMap octets⟩
          return (a :: q.1, q.2)) = _
        rw [hrest]
        cases (((AsmOp.offsetsFrom (position + (octets part).length)
          (parts.map fun part => (octets part).length)).zip parts).mapM
            fun p => outcome p.1 p.2) <;> rfl
    · rw [List.length_append]
      exact Nat.lt_add_right _ (hpos part List.mem_cons_self)

namespace AsmOp

/-! ### From offsets to ordinals -/

/-- Put ordinals in the place of offsets. -/
def settle (starts : List Nat) (size : Nat) (p : Nat × Instruction) : Except Fault Instruction := do
  return ⟨p.2.opcode, ← p.2.operand.mapTargets (Bytecode.ordinal starts size)⟩

theorem mapTargets_instruction {op : AsmOp} (h : ∀ opcode target, op ≠ branch opcode target)
    (f : Nat → Except Fault Nat) :
    op.instruction.operand.mapTargets f = .ok op.instruction.operand := by
  cases op with
  | branch opcode target => exact absurd rfl (h opcode target)
  | member opcode owner name descriptor =>
    rw [instruction]
    split <;> rfl
  | _ => rfl

theorem settle_branch_eq_ok_iff {starts : List Nat} {size offset found target : Nat}
    {opcode : UInt8} : settle starts size (offset, ⟨opcode, .branch found⟩) =
      .ok ⟨opcode, .branch target⟩ ↔ Bytecode.ordinal starts size found = .ok target := by
  show (do return (⟨opcode, ← (do return Operand.branch (← Bytecode.ordinal starts size found))⟩ :
    Instruction)) = _ ↔ _
  cases Bytecode.ordinal starts size found with
  | error fault => exact ⟨(by intro h; cases h), (by intro h; cases h)⟩
  | ok k =>
    refine ⟨fun h => ?_, fun h => ?_⟩
    · cases h
      rfl
    · cases h
      rfl

/-- An instruction becomes what was described, unless it is a jump that does not find the start of
the instruction it leads to. -/
theorem outcome_bind_settle_iff {starts : List Nat} {place : Nat → Nat} {size offset counted : Nat}
    {op : AsmOp} (hpairwise : starts.Pairwise (· < ·)) (hbelow : ∀ start ∈ starts, start < size)
    (hregular : op.IsRegular starts.length) :
    ((op.outcome place size offset counted).map (offset, ·) >>= settle starts size) =
        .ok op.instruction ↔
      ∀ opcode target, op = branch opcode target → ∀ start, starts[target]? = some start →
        (offset : Int) + (place target - counted) = start := by
  -- only a jump may fail or lead elsewhere
  by_cases hbranch : ∃ opcode target, op = branch opcode target
  · obtain ⟨opcode, target, rfl⟩ := hbranch
    obtain ⟨start, hstart⟩ : ∃ start, starts[target]? = some start :=
      ⟨_, List.getElem?_eq_getElem hregular.2⟩
    have hsize := hbelow start (List.mem_of_getElem? hstart)
    have hright : (∀ opcode' target', branch opcode target = branch opcode' target' →
        ∀ start, starts[target']? = some start →
          (offset : Int) + (place target' - counted) = start) ↔
        (offset : Int) + (place target - counted) = start := by
      refine ⟨fun h => h _ _ rfl _ hstart, ?_⟩
      rintro h _ _ ⟨⟩ start' hstart'
      rwa [← Option.some.inj (hstart.symm.trans hstart')]
    rw [hright, outcome]
    split
    · show settle starts size (offset, ⟨opcode, .branch _⟩) = .ok ⟨opcode, .branch target⟩ ↔ _
      rw [settle_branch_eq_ok_iff, Bytecode.ordinal_eq_ok_iff hpairwise hbelow hregular.2, hstart,
        Option.some.injEq]
      omega
    · refine ⟨(by intro h; cases h), fun h => ?_⟩
      omega
  · have hother : ∀ opcode target, op ≠ branch opcode target :=
      fun opcode target h => hbranch ⟨opcode, target, h⟩
    have houtcome : op.outcome place size offset counted = .ok op.instruction := by
      cases op with
      | branch opcode target => exact absurd rfl (hother opcode target)
      | _ => rfl
    refine ⟨fun _ opcode target h => absurd h (hother opcode target), fun _ => ?_⟩
    rw [houtcome]
    show (do return (⟨_, ← op.instruction.operand.mapTargets _⟩ : Instruction)) = _
    rw [mapTargets_instruction hother]
    rfl

/-! ### Whole bodies -/

/-- The sizes that instructions count for. -/
def sizes (ops : List AsmOp) (indices : List UInt16) : List Nat :=
  List.zipWith (fun op index => op.size index) ops indices

/-- The numbers of octets that instructions take up. -/
def widths (ops : List AsmOp) (indices : List UInt16) : List Nat :=
  List.zipWith (fun op index => op.width index) ops indices

/-- Where an instruction starts, as far as the assembler knows. -/
def place (ops : List AsmOp) (indices : List UInt16) (target : Nat) : Nat :=
  (offsetsFrom 0 (sizes ops indices))[target]?.getD ((sizes ops indices).foldr (· + ·) 0)

/-- Instructions with the offsets that are counted for them, and with their indices. -/
def rows (ops : List AsmOp) (indices : List UInt16) : List (AsmOp × Nat × UInt16) :=
  ops.zip ((offsetsFrom 0 (sizes ops indices)).zip indices)

/-- The octets of a body, given the indices of what the instructions refer to. -/
def code (ops : List AsmOp) (indices : List UInt16) : List UInt8 :=
  (rows ops indices).flatMap fun (op, offset, index) => op.octets (place ops indices) offset index

theorem assemble_eq (ops : List AsmOp) :
    assemble ops = do return code ops (← ops.mapM poolIndex) := rfl

variable {ops : List AsmOp} {indices : List UInt16}

theorem getElem?_rows {k : Nat} {row : AsmOp × Nat × UInt16} :
    (rows ops indices)[k]? = some row ↔ ops[k]? = some row.1 ∧
      (offsetsFrom 0 (sizes ops indices))[k]? = some row.2.1 ∧ indices[k]? = some row.2.2 := by
  rw [rows, List.getElem?_zip_eq_some, List.getElem?_zip_eq_some]

theorem sum_widths (hlength : ops.length = indices.length) :
    (widths ops indices).sum = (sizes ops indices).sum + 2 * ops.countP isInterfaceCall := by
  induction ops generalizing indices with
  | nil => rfl
  | cons op ops ih =>
    rcases indices with _ | ⟨index, indices⟩
    · cases hlength
    have hrest := ih (Nat.succ.inj hlength)
    rw [widths, sizes] at hrest ⊢
    rw [List.zipWith_cons_cons, List.zipWith_cons_cons, List.sum_cons, List.sum_cons, hrest,
      List.countP_cons, width]
    split <;> omega

/-- The assembler is behind by two octets for each call of an interface's method. -/
theorem sum_take_widths (hlength : ops.length = indices.length) (k : Nat) :
    ((widths ops indices).take k).sum =
      ((sizes ops indices).take k).sum + 2 * interfaceCalls ops k := by
  have htake : (ops.take k).length = (indices.take k).length := by
    rw [List.length_take, List.length_take, hlength]
  rw [widths, sizes, List.take_zipWith, List.take_zipWith]
  exact sum_widths htake

theorem map_width_rows : (rows ops indices).map (fun row => row.1.width row.2.2) =
    widths ops indices := by
  have hfrom : ∀ offset, (ops.zip ((offsetsFrom offset (sizes ops indices)).zip indices)).map
      (fun row => row.1.width row.2.2) = widths ops indices := by
    induction ops generalizing indices with
    | nil => exact fun _ => rfl
    | cons op ops ih =>
      intro offset
      rcases indices with _ | ⟨index, indices⟩
      · rfl
      exact congrArg (op.width index :: ·) (ih (offset + op.size index))
  exact hfrom 0

theorem length_code : (code ops indices).length = (widths ops indices).sum := by
  rw [code, List.length_flatMap, ← map_width_rows]
  exact congrArg List.sum (List.map_congr_left fun row _ => length_octets _ _ _ _)

theorem length_widths (hlength : ops.length = indices.length) :
    (widths ops indices).length = ops.length := by
  rw [widths, List.length_zipWith, hlength, Nat.min_self]

theorem length_sizes (hlength : ops.length = indices.length) :
    (sizes ops indices).length = ops.length := by
  rw [sizes, List.length_zipWith, hlength, Nat.min_self]

theorem widths_pos : ∀ width ∈ widths ops indices, 0 < width := by
  intro w hw
  rw [← map_width_rows] at hw
  obtain ⟨row, -, rfl⟩ := List.mem_map.1 hw
  exact width_pos _ _

theorem place_of_lt (hlength : ops.length = indices.length) {target : Nat}
    (htarget : target < ops.length) :
    place ops indices target = ((sizes ops indices).take target).sum := by
  rw [place, getElem?_offsetsFrom _ _ (by rwa [length_sizes hlength]), Option.getD_some,
    Nat.zero_add]

theorem place_le (hlength : ops.length = indices.length) (target : Nat) :
    place ops indices target ≤ (sizes ops indices).sum := by
  by_cases htarget : target < ops.length
  · rw [place_of_lt hlength htarget]
    exact (List.take_sublist _ _).sum_le_sum fun _ _ => Nat.zero_le _
  · have hnone : (offsetsFrom 0 (sizes ops indices))[target]? = none := by
      rw [List.getElem?_eq_none_iff, length_offsetsFrom, length_sizes hlength]
      omega
    rw [place, hnone, Option.getD_none, ← List.sum_eq_foldr]

/-- The octets of a row are read as its instruction, wherever they stand. -/
theorem run_readInstruction_row {context : Bytecode.Context}
    (hregular : ∀ op ∈ ops, op.IsRegular ops.length)
    (hrefers : List.Forall₂ (fun op i => op.Refers context i) ops indices)
    (hsum : (widths ops indices).sum < 32768) {row : AsmOp × Nat × UInt16}
    (hrow : row ∈ rows ops indices) (position : Nat) (rest : List UInt8) :
    (Bytecode.readInstruction context).run
        ⟨position, row.1.octets (place ops indices) row.2.1 row.2.2 ++ rest⟩ =
      ((row.1.outcome (place ops indices) context.size position row.2.1).map (position, ·)).map
        fun a => (a, ⟨position + (row.1.octets (place ops indices) row.2.1 row.2.2).length,
          rest⟩) := by
  have hlength := hrefers.length_eq
  have hsizes := sum_widths hlength
  obtain ⟨k, hk⟩ := List.mem_iff_getElem?.1 hrow
  obtain ⟨hop, hoffset, hindex⟩ := getElem?_rows.1 hk
  have hk' : k < ops.length := (List.getElem?_eq_some_iff.1 hop).1
  have hrefer : row.1.Refers context row.2.2 :=
    (List.forall₂_iff_zip.1 hrefers).2
      (List.mem_of_getElem? (List.getElem?_zip_eq_some.2 ⟨hop, hindex⟩))
  -- a distance fits into two octets, because both of its ends lie within the code
  have hcounted : row.2.1 < 32768 := by
    rw [getElem?_offsetsFrom _ _ (by rwa [length_sizes hlength])] at hoffset
    have hle : ((sizes ops indices).take k).sum ≤ (sizes ops indices).sum :=
      (List.take_sublist _ _).sum_le_sum fun _ _ => Nat.zero_le _
    have heq := Option.some.inj hoffset
    omega
  refine Bytecode.run_readInstruction (yields_octets (hregular _ (List.mem_of_getElem? hop))
    hrefer (fun target => ?_) hcounted) rest
  have hle := place_le hlength target
  omega

/-- The octets of a body are read as its instructions, each at the offset where it starts. -/
theorem within_code {context : Bytecode.Context} (hregular : ∀ op ∈ ops, op.IsRegular ops.length)
    (hrefers : List.Forall₂ (fun op i => op.Refers context i) ops indices)
    (hsum : (widths ops indices).sum < 32768) :
    Reader.within (code ops indices) (Reader.untilEnd (Bytecode.readInstruction context)
      (code ops indices).length) =
      ((offsetsFrom 0 (widths ops indices)).zip (rows ops indices)).mapM fun p =>
        (p.2.1.outcome (place ops indices) context.size p.1 p.2.2.1).map (p.1, ·) := by
  have hpos : ∀ row ∈ rows ops indices,
      0 < (row.1.octets (place ops indices) row.2.1 row.2.2).length := by
    intro row _
    rw [length_octets]
    exact width_pos _ _
  have hfuel : (rows ops indices).length ≤ (code ops indices).length := by
    rw [length_code, ← List.length_map, map_width_rows]
    exact List.length_le_sum_of_one_le _ widths_pos
  have hwidths : (rows ops indices).map (fun row =>
      (row.1.octets (place ops indices) row.2.1 row.2.2).length) = widths ops indices := by
    rw [← map_width_rows]
    exact List.map_congr_left fun row _ => length_octets _ _ _ _
  have hrun := Reader.run_untilEnd
    (fun row hrow => run_readInstruction_row hregular hrefers hsum hrow) hpos hfuel 0
  rw [hwidths] at hrun
  rw [Reader.within]
  refine (congrArg (Except.map _) hrun).trans ?_
  cases ((offsetsFrom 0 (widths ops indices)).zip (rows ops indices)).mapM fun p =>
    (p.2.1.outcome (place ops indices) context.size p.1 p.2.2.1).map (p.1, ·) <;> rfl

/-- What is read starts at the offsets that the widths add up to. -/
theorem map_fst_of_mapM_outcome {size : Nat} {read : List (Nat × Instruction)}
    (h : (((offsetsFrom 0 (widths ops indices)).zip (rows ops indices)).mapM fun p =>
      (p.2.1.outcome (place ops indices) size p.1 p.2.2.1).map (p.1, ·)) = .ok read) :
    read.map Prod.fst = offsetsFrom 0 (widths ops indices) := by
  have hfst : List.Forall₂ (fun p b => p.1 = b.1)
      ((offsetsFrom 0 (widths ops indices)).zip (rows ops indices)) read := by
    refine (mapM_eq_ok_iff.1 h).imp fun p b hb => ?_
    cases houtcome : p.2.1.outcome (place ops indices) size p.1 p.2.2.1 with
    | error fault =>
      rw [houtcome] at hb
      cases hb
    | ok instruction =>
      rw [houtcome] at hb
      cases hb
      rfl
  have hmap := List.forall₂_map_left_iff.2 (List.forall₂_map_right_iff.2 hfst)
  rw [List.forall₂_eq_eq_eq, List.map_fst_zip] at hmap
  · exact hmap.symm
  · rw [length_offsetsFrom, ← map_width_rows, List.length_map]

/-- Decoding a body succeeds if reading it and replacing offsets by ordinals both do. -/
theorem decode_code_eq_ok_iff {pool : Pool} {bootstraps : List Bootstrap}
    {maxStack maxLocals : UInt16} {instructions : List Instruction}
    (hregular : ∀ op ∈ ops, op.IsRegular ops.length)
    (hrefers : ∀ size, List.Forall₂ (fun op i => op.Refers ⟨pool, bootstraps, size⟩ i) ops indices)
    (hsum : (widths ops indices).sum < 32768) :
    Bytecode.decode pool bootstraps ⟨maxStack, maxLocals, code ops indices, []⟩ =
        .ok ⟨maxStack, maxLocals, instructions, []⟩ ↔
      (((offsetsFrom 0 (widths ops indices)).zip (rows ops indices)).mapM fun p =>
        (p.2.1.outcome (place ops indices) (widths ops indices).sum p.1 p.2.2.1).map (p.1, ·) >>=
          settle (offsetsFrom 0 (widths ops indices)) (widths ops indices).sum) =
        .ok instructions := by
  rw [← mapM_bind_eq_ok_iff, Bytecode.decode]
  show (do
    let read ← Reader.within (code ops indices) (Reader.untilEnd (Bytecode.readInstruction
      ⟨pool, bootstraps, (code ops indices).length⟩) (code ops indices).length)
    let settled ← read.mapM (settle (read.map Prod.fst) (code ops indices).length)
    return (⟨maxStack, maxLocals, settled, []⟩ : Code)) = _ ↔ _
  rw [within_code hregular (hrefers _) hsum, length_code, bind_eq_ok_iff]
  refine exists_congr fun read => and_congr_right fun hread => ?_
  rw [map_fst_of_mapM_outcome hread, bind_eq_ok_iff]
  constructor
  · rintro ⟨settled, hsettled, h⟩
    cases h
    exact hsettled
  · intro h
    exact ⟨instructions, h, rfl⟩

theorem exists_getElem?_zip_rows (hlength : ops.length = indices.length) {k : Nat} {op : AsmOp}
    (hop : ops[k]? = some op) :
    ∃ index, ((offsetsFrom 0 (widths ops indices)).zip (rows ops indices))[k]? =
      some (((widths ops indices).take k).sum, op, ((sizes ops indices).take k).sum, index) := by
  have hk : k < ops.length := (List.getElem?_eq_some_iff.1 hop).1
  refine ⟨indices.get ⟨k, hlength ▸ hk⟩, ?_⟩
  rw [List.getElem?_zip_eq_some, getElem?_rows,
    getElem?_offsetsFrom _ _ (by rwa [length_widths hlength]),
    getElem?_offsetsFrom _ _ (by rwa [length_sizes hlength]), Nat.zero_add, Nat.zero_add]
  exact ⟨rfl, hop, rfl, List.getElem?_eq_getElem (hlength ▸ hk)⟩

/-- A jump finds the start of the instruction it leads to if it is clear. -/
theorem lands_iff (hlength : ops.length = indices.length) (k : Nat) {target : Nat}
    (htarget : target < ops.length) :
    (((widths ops indices).take k).sum : Int) +
        (place ops indices target - ((sizes ops indices).take k).sum) =
        ((widths ops indices).take target).sum ↔
      interfaceCalls ops k = interfaceCalls ops target := by
  rw [place_of_lt hlength htarget, sum_take_widths hlength, sum_take_widths hlength]
  omega

/-- The rows of a body hold its instructions in order. -/
theorem map_instruction_zip_rows (hlength : ops.length = indices.length) :
    (((offsetsFrom 0 (widths ops indices)).zip (rows ops indices)).map fun p =>
      p.2.1.instruction) = ops.map instruction := by
  have hrows : (rows ops indices).map Prod.fst = ops := by
    rw [rows, List.map_fst_zip]
    rw [List.length_zip, length_offsetsFrom, length_sizes hlength, ← hlength, Nat.min_self]
  have hsnd : ((offsetsFrom 0 (widths ops indices)).zip (rows ops indices)).map Prod.snd =
      rows ops indices := by
    rw [List.map_snd_zip]
    rw [length_offsetsFrom, ← map_width_rows, List.length_map]
  conv_rhs => rw [← hrows, ← hsnd, List.map_map, List.map_map]
  rfl

/-- **A body is decoded to the instructions that were described exactly if its jumps are clear.** -/
theorem decode_code_iff {pool : Pool} {bootstraps : List Bootstrap} {maxStack maxLocals : UInt16}
    (hregular : ∀ op ∈ ops, op.IsRegular ops.length)
    (hrefers : ∀ size, List.Forall₂ (fun op i => op.Refers ⟨pool, bootstraps, size⟩ i) ops indices)
    (hsum : (widths ops indices).sum < 32768) :
    Bytecode.decode pool bootstraps ⟨maxStack, maxLocals, code ops indices, []⟩ =
      .ok ⟨maxStack, maxLocals, ops.map instruction, []⟩ ↔ JumpsClear ops := by
  have hlength := (hrefers 0).length_eq
  have hpos : ∀ width ∈ widths ops indices, 0 < width := widths_pos
  obtain ⟨hpairwise, hbounds⟩ := pairwise_offsetsFrom hpos 0
  have hbelow : ∀ start ∈ offsetsFrom 0 (widths ops indices), start < (widths ops indices).sum := by
    intro start hstart
    have := hbounds start hstart
    omega
  have hcount : (offsetsFrom 0 (widths ops indices)).length = ops.length := by
    rw [length_offsetsFrom, length_widths hlength]
  have hstart : ∀ {target}, target < ops.length → (offsetsFrom 0 (widths ops indices))[target]? =
      some ((widths ops indices).take target).sum := by
    intro target htarget
    rw [getElem?_offsetsFrom _ _ (by rwa [length_widths hlength]), Nat.zero_add]
  rw [decode_code_eq_ok_iff hregular hrefers hsum, ← map_instruction_zip_rows hlength,
    mapM_eq_ok_map_iff]
  constructor
  · intro h k opcode target hk
    have hbranch := hregular _ (List.mem_of_getElem? hk)
    obtain ⟨index, hrow⟩ := exists_getElem?_zip_rows hlength hk
    have hlands := (outcome_bind_settle_iff hpairwise hbelow (hcount ▸ hbranch)).1
      (h _ (List.mem_of_getElem? hrow)) opcode target rfl _ (hstart hbranch.2)
    exact (lands_iff hlength k hbranch.2).1 hlands
  · rintro h ⟨start, op, counted, index⟩ hp
    obtain ⟨k, hk⟩ := List.mem_iff_getElem?.1 hp
    have hop : ops[k]? = some op := (getElem?_rows.1 (List.getElem?_zip_eq_some.1 hk).2).1
    have hregular' := hregular op (List.mem_of_getElem? hop)
    obtain ⟨index', hrow⟩ := exists_getElem?_zip_rows hlength hop
    cases hk.symm.trans hrow
    refine (outcome_bind_settle_iff hpairwise hbelow (hcount ▸ hregular')).2 ?_
    rintro opcode target rfl start hfound
    cases (hstart hregular'.2).symm.trans hfound
    exact (lands_iff hlength k hregular'.2).2 (h k opcode target hop)

/-- How many octets a body takes up in a class file with a finished constant pool. -/
def octetCount (draft : Draft) (ops : List AsmOp) : Nat :=
  (ops.map fun op => op.width (op.poolIndex.run draft).1).sum

/-- Assembled octets are decoded to the instructions that were described exactly if the jumps are
clear. -/
theorem ensures_assemble {final : Draft} {given : Prop} (hfits : final.Fits)
    (hregular : ∀ op ∈ ops, op.IsRegular ops.length) (hcount : octetCount final ops < 32768) :
    Assembly.Ensures final given (assemble ops) fun octets => octets.length < 32768 ∧
      ∀ bootstraps, final.Resolves bootstraps → ∀ maxStack maxLocals,
        Bytecode.decode final.pool bootstraps ⟨maxStack, maxLocals, octets, []⟩ =
          .ok ⟨maxStack, maxLocals, ops.map instruction, []⟩ ↔ JumpsClear ops := by
  rw [assemble_eq]
  refine (Assembly.Ensures.mapM fun op _ _ => ensures_poolIndex hfits op).map
    fun _ indices hindices => ?_
  have hwidths : widths ops indices = ops.map fun op => op.width (op.poolIndex.run final).1 := by
    clear hcount hregular
    induction hindices with
    | nil => rfl
    | cons hop _ ih => exact congrArg₂ List.cons hop.2 ih
  have hsum : (widths ops indices).sum < 32768 := by rwa [hwidths]
  refine ⟨length_code ▸ hsum, fun bootstraps hresolves maxStack maxLocals => ?_⟩
  exact decode_code_iff hregular
    (fun size => hindices.imp fun op i h => h.1 bootstraps hresolves size) hsum

end AsmOp

end Retest

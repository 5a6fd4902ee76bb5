import Mathlib.Data.List.Chain
import Retest.Proofs.ClassFile.Encoding
import Retest.Proofs.ClassFile.Operands
import Retest.Proofs.ClassFile.PassedOver

/-!
# Where jumps lead

In a class file a jump is given by its distance in octets; in decoded code it is given by the
ordinal of an instruction. That the second is what the first stands for is said here in terms of the
octets alone. The length of an instruction can be seen from the octets at its start
(`Retest.Bytecode.lengthAt`), and so can its distances (`Retest.Bytecode.distancesAt`): they are
signed numbers at places that its opcode determines.

`Retest.Bytecode.Placed` relates decoded code to starts of instructions. They follow one another
without a gap from the first octet to the last, and each target is the instruction that starts at
the distance found in the octets. This holds of the code of every method in a class file that can
be decoded (`Retest.ClassFile.hasCode_of_decode`), where the octets are those of the last body among
the attributes of the method (`Retest.AttributeLayout.LastBody`).
-/

namespace Retest

open Assembly (two four)
open Reader

/-- The ordinals that an instruction may continue with, other than the next. -/
def Operand.targets : Operand → List Nat
  | branch target => [target]
  | switch default cases => default :: cases.map Prod.snd
  | _ => []

namespace Bytecode

/-! ### Numbers in the code -/

/-- The number that octets stand for, the most significant first, in two's complement. -/
def signed (octets : List UInt8) : Int :=
  Int.bmod (octets.foldl (fun n octet => n * 256 + octet.toNat) 0 : Nat) (256 ^ octets.length)

/-- The signed number of some octets from a place on. -/
def signedAt (octets : List UInt8) (width place : Nat) : Int :=
  signed ((octets.drop place).take width)

/-- Signed numbers of four octets, at places a step apart. -/
def entriesAt (octets : List UInt8) (place step count : Nat) : List Int :=
  (List.range count).map fun i => signedAt octets 4 (place + step * i)

theorem signed_two (n : Int16) : signed (two n.toUInt16) = n.toInt := by
  have hlt := n.toUInt16.toNat_lt
  have hsum : (two n.toUInt16).foldl (fun n octet => n * 256 + octet.toNat) 0 =
      n.toUInt16.toNat := by
    simp only [two, List.foldl_cons, List.foldl_nil, UInt8.toNat_ofNat']
    omega
  rw [signed, hsum, Assembly.length_two, show 256 ^ 2 = 2 ^ 16 by decide, Int16.toInt,
    BitVec.toInt_eq_toNat_bmod]
  rfl

theorem signed_four (n : Int32) : signed (four n.toUInt32) = n.toInt := by
  have hlt := n.toUInt32.toNat_lt
  have hsum : (four n.toUInt32).foldl (fun n octet => n * 256 + octet.toNat) 0 =
      n.toUInt32.toNat := by
    simp only [four, List.foldl_cons, List.foldl_nil, UInt8.toNat_ofNat']
    omega
  rw [signed, hsum, Assembly.length_four, show 256 ^ 4 = 2 ^ 32 by decide, Int32.toInt,
    BitVec.toInt_eq_toNat_bmod]
  rfl

section Places

variable {octets front rest : List UInt8} {place : Nat}

theorem drop_add_length (h : octets.drop place = front ++ rest) :
    octets.drop (place + front.length) = rest := by
  rw [← List.drop_drop, h, List.drop_left]

theorem signedAt_two {n : Int16} (h : octets.drop place = two n.toUInt16 ++ rest) :
    signedAt octets 2 place = n.toInt := by
  rw [signedAt, h, List.take_left' (Assembly.length_two _), signed_two]

theorem signedAt_four {n : Int32} (h : octets.drop place = four n.toUInt32 ++ rest) :
    signedAt octets 4 place = n.toInt := by
  rw [signedAt, h, List.take_left' (Assembly.length_four _), signed_four]

/-- The numbers in records of the same size, which follow one another. -/
theorem entriesAt_flatMap {γ : Type} {record : γ → List UInt8} {value : γ → Int} {step skip : Nat}
    (hstep : ∀ part, (record part).length = step)
    (hvalue : ∀ {place part rest}, octets.drop place = record part ++ rest →
      signedAt octets 4 (place + skip) = value part)
    {parts : List γ} (h : octets.drop place = parts.flatMap record ++ rest) :
    entriesAt octets (place + skip) step parts.length = parts.map value := by
  induction parts generalizing place with
  | nil => rfl
  | cons part parts ih =>
    rw [List.flatMap_cons, List.append_assoc] at h
    have hnext := ih (drop_add_length h)
    rw [hstep, entriesAt] at hnext
    rw [entriesAt, List.length_cons, List.range_succ_eq_map, List.map_cons, List.map_map,
      List.map_cons, Nat.mul_zero, Nat.add_zero, hvalue h, ← hnext]
    refine congrArg _ (List.map_congr_left fun i _ => ?_)
    show signedAt octets 4 (place + skip + step * (i + 1)) = _
    rw [Nat.mul_succ]
    congr 1
    omega

end Places

/-! ### Instructions in the code -/

/-- The opcodes that do not stand for themselves: they announce a longer form. -/
def longForms : List UInt8 := [0x13, 0xc4, 0xc8, 0xc9]

/-- The opcode of the instruction at an offset, which may be behind the one that makes it wide. -/
def opcodeAt (octets : List UInt8) (offset : Nat) : Option UInt8 :=
  if octets[offset]? = some 0xc4 then octets[offset + 1]? else octets[offset]?.map shortOpcode

/-- Where the table of a switch at an offset begins: at the next multiple of four. -/
def tableAt (offset : Nat) : Nat := (offset + 4) / 4 * 4

/-- The number of cases between the least and the greatest key of a table. -/
def rangeAt (octets : List UInt8) (table : Nat) : Nat :=
  (signedAt octets 4 (table + 8) - signedAt octets 4 (table + 4) + 1).toNat

/-- The number of cases that a table gives. -/
def countAt (octets : List UInt8) (table : Nat) : Nat := (signedAt octets 4 (table + 4)).toNat

section Layouts

variable (octets : List UInt8) (offset : Nat)

/-- The length of an instruction that is laid out in a given way at an offset. -/
def layoutLength : Layout → Nat
  | .plain => 1
  | .byte | .constant | .localVar | .arrayType => 2
  | .short | .wideConstant | .increment | .branch | .field | .method | .type => 3
  | .multiArray => 4
  | .wideBranch | .interfaceMethod | .callSite => 5
  | .wide => if octets[offset + 1]? = some 0x84 then 6 else 4
  | .tableSwitch => tableAt offset + 12 + 4 * rangeAt octets (tableAt offset) - offset
  | .lookupSwitch => tableAt offset + 8 + 8 * countAt octets (tableAt offset) - offset

/-- The distances of an instruction that is laid out in a given way at an offset: those of a switch
begin with the one that is taken by default. -/
def layoutDistances : Layout → List Int
  | .branch => [signedAt octets 2 (offset + 1)]
  | .wideBranch => [signedAt octets 4 (offset + 1)]
  | .tableSwitch => signedAt octets 4 (tableAt offset) ::
    entriesAt octets (tableAt offset + 12) 4 (rangeAt octets (tableAt offset))
  | .lookupSwitch => signedAt octets 4 (tableAt offset) ::
    entriesAt octets (tableAt offset + 12) 8 (countAt octets (tableAt offset))
  | _ => []

/-- **The length of the instruction at an offset**, by its octets. -/
def lengthAt : Nat :=
  ((octets[offset]?.bind Layout.ofOpcode?).map (layoutLength octets offset)).getD 0

/-- **The distances of the instruction at an offset**, by its octets. -/
def distancesAt : List Int :=
  ((octets[offset]?.bind Layout.ofOpcode?).map (layoutDistances octets offset)).getD []

end Layouts

/-- **Decoded code agrees with the octets of a body**, given where its instructions start. -/
structure Placed (pool : Pool) (body : Bytecode) (code : Code) (starts : List Nat) : Prop where
  /-- The first instruction starts at the first octet. -/
  first : (starts ++ [body.octets.length]).head? = some 0
  /-- Every instruction ends where the next one starts, and the last where the code ends. -/
  next : (starts ++ [body.octets.length]).IsChain fun start stop =>
    start < stop ∧ stop = start + lengthAt body.octets start
  opcodes : starts.map (opcodeAt body.octets) = code.instructions.map (some ·.opcode)
  /-- Every target starts at the distance that the octets give, from the start of the jump. -/
  targets : List.Forall₂ (fun start instruction => List.Forall₂ (Leads starts start)
    (distancesAt body.octets start) instruction.operand.targets) starts code.instructions
  targets_lt : ∀ instruction ∈ code.instructions, ∀ target ∈ instruction.operand.targets,
    target < code.instructions.length
  /-- The ordinals of a handler are those of its offsets; the end of the code has one too. -/
  handlers : List.Forall₂ (fun range handler => EncodesHandler pool
    (starts ++ [body.octets.length]) handler range) body.handlers code.handlers
  handlers_le : ∀ handler ∈ code.handlers, handler.start ≤ code.instructions.length ∧
    handler.stop ≤ code.instructions.length ∧ handler.target ≤ code.instructions.length

/-! ### Spellings in the code -/

variable {pool : Pool} {bootstraps : List Bootstrap} {octets rest : List UInt8} {offset : Nat}

/-- An instruction of a given length is found in the octets at an offset. -/
structure FoundAt (octets : List UInt8) (leads : Int → Nat → Prop) (offset length : Nat)
    (instruction : Instruction) : Prop where
  length : lengthAt octets offset = length
  opcode : opcodeAt octets offset = some instruction.opcode
  targets : List.Forall₂ leads (distancesAt octets offset) instruction.operand.targets

theorem getElem?_of_drop {octet : UInt8} (h : octets.drop offset = octet :: rest) :
    octets[offset]? = some octet := by
  rw [← Nat.add_zero offset, ← List.getElem?_drop, h, List.getElem?_cons_zero]

section Forms

variable {opcode : UInt8} {layout : Layout}

theorem opcodeAt_eq (h : octets.drop offset = opcode :: rest) (hopcode : opcode ≠ 0xc4) :
    opcodeAt octets offset = some (shortOpcode opcode) := by
  rw [opcodeAt, getElem?_of_drop h, if_neg (by rwa [Option.some_inj]), Option.map_some]

theorem opcodeAt_wide (h : octets.drop offset = 0xc4 :: opcode :: rest) :
    opcodeAt octets offset = some opcode := by
  rw [opcodeAt, getElem?_of_drop h, if_pos rfl]
  exact getElem?_of_drop (@drop_add_length octets [0xc4] _ _ h)

/-- Opcodes of a kind that no long form belongs to stand for themselves. -/
theorem opcodeAt_of_kind {is : UInt8 → Bool} (his : longForms.any is = false)
    (hopcode : is opcode = true) (h : octets.drop offset = opcode :: rest) :
    opcodeAt octets offset = some opcode := by
  have hne : ∀ form ∈ longForms, opcode ≠ form := by
    rintro form hform rfl
    exact List.any_eq_false.1 his opcode hform hopcode
  rw [opcodeAt_eq h (hne _ (by decide)), shortOpcode]
  · exact hne _ (by decide)
  · exact hne _ (by decide)
  · exact hne _ (by decide)

theorem lengthAt_eq (h : octets.drop offset = opcode :: rest)
    (hlayout : layout.hasOpcode opcode = true) :
    lengthAt octets offset = layoutLength octets offset layout := by
  rw [lengthAt, getElem?_of_drop h, Option.bind_some, Layout.ofOpcode?_eq_some_iff.2 hlayout]
  rfl

theorem distancesAt_eq (h : octets.drop offset = opcode :: rest)
    (hlayout : layout.hasOpcode opcode = true) :
    distancesAt octets offset = layoutDistances octets offset layout := by
  rw [distancesAt, getElem?_of_drop h, Option.bind_some, Layout.ofOpcode?_eq_some_iff.2 hlayout]
  rfl

/-- An instruction is found if it is laid out as its first octet demands. -/
theorem FoundAt.of_layout {leads : Int → Nat → Prop} {length : Nat} {instruction : Instruction}
    (layout : Layout) (h : octets.drop offset = opcode :: rest)
    (hlayout : layout.hasOpcode opcode = true)
    (hlength : layoutLength octets offset layout = length)
    (hopcode : opcodeAt octets offset = some instruction.opcode)
    (htargets : List.Forall₂ leads (layoutDistances octets offset layout)
      instruction.operand.targets) :
    FoundAt octets leads offset length instruction where
  length := (lengthAt_eq h hlayout).trans hlength
  opcode := hopcode
  targets := distancesAt_eq h hlayout ▸ htargets

end Forms

section Switches

variable {padding : List UInt8}

/-- The table of a switch begins after its padding. -/
theorem tableAt_eq (hpadding : padding.length < 4 ∧ (offset + 1 + padding.length) % 4 = 0) :
    tableAt offset = offset + 1 + padding.length := by
  rw [tableAt]
  omega

theorem drop_tableAt {opcode : UInt8}
    (hpadding : padding.length < 4 ∧ (offset + 1 + padding.length) % 4 = 0)
    (h : octets.drop offset = opcode :: (padding ++ rest)) :
    octets.drop (tableAt offset) = rest := by
  rw [tableAt_eq hpadding]
  exact drop_add_length (@drop_add_length octets [opcode] _ _ h)

theorem map_snd_numbered (low : Int32) (targets : List Nat) :
    (numbered low targets).map Prod.snd = targets := by
  induction targets generalizing low with
  | nil => rfl
  | cons target targets ih => rw [numbered, List.map_cons, ih]

theorem foundAt_tableSwitch {leads : Int → Nat → Prop} {distance low high : Int32} {default : Nat}
    {distances : List Int32} {targets : List Nat}
    (hpadding : padding.length < 4 ∧ (offset + 1 + padding.length) % 4 = 0)
    (hdefault : leads distance.toInt default)
    (hhigh : high.toInt - low.toInt + 1 = targets.length)
    (htargets : List.Forall₂ (fun d target => leads d.toInt target) distances targets)
    (h : octets.drop offset = 0xaa :: (padding ++ (four distance.toUInt32 ++
      (four low.toUInt32 ++ (four high.toUInt32 ++
        ((distances.flatMap fun d => four d.toUInt32) ++ rest)))))) :
    FoundAt octets leads offset (1 + padding.length + 12 + 4 * distances.length)
      ⟨0xaa, .switch default (numbered low targets)⟩ := by
  -- the numbers of the table are read one after another
  have htable := drop_tableAt hpadding h
  have hlow : octets.drop (tableAt offset + 4) = _ := drop_add_length htable
  have hup : octets.drop (tableAt offset + 8) = _ := drop_add_length hlow
  have hentries : octets.drop (tableAt offset + 12) = _ := drop_add_length hup
  have hrange : rangeAt octets (tableAt offset) = distances.length := by
    rw [rangeAt, signedAt_four hup, signedAt_four hlow, hhigh, Int.toNat_natCast,
      htargets.length_eq]
  have hlength := tableAt_eq hpadding
  refine .of_layout .tableSwitch h rfl ?_ (opcodeAt_eq h (by decide)) ?_
  · rw [layoutLength, hrange]
    omega
  · rw [layoutDistances, signedAt_four htable, hrange]
    refine .cons hdefault ?_
    have hvalues := @entriesAt_flatMap octets rest (tableAt offset + 12) Int32
      (fun d => four d.toUInt32) Int32.toInt 4 0 (fun _ => rfl) signedAt_four distances hentries
    rw [Nat.add_zero] at hvalues
    rw [hvalues, map_snd_numbered, List.forall₂_map_left_iff]
    exact htargets

theorem foundAt_lookupSwitch {leads : Int → Nat → Prop} {distance count : Int32} {default : Nat}
    {pairs : List (Int32 × Int32)} {cases : List (Int32 × Nat)}
    (hpadding : padding.length < 4 ∧ (offset + 1 + padding.length) % 4 = 0)
    (hdefault : leads distance.toInt default) (hcount : count.toInt = pairs.length)
    (hcases : List.Forall₂ (fun p c => p.1 = c.1 ∧ leads p.2.toInt c.2) pairs cases)
    (h : octets.drop offset = 0xab :: (padding ++ (four distance.toUInt32 ++
      (four count.toUInt32 ++
        ((pairs.flatMap fun p => four p.1.toUInt32 ++ four p.2.toUInt32) ++ rest))))) :
    FoundAt octets leads offset (1 + padding.length + 8 + 8 * pairs.length)
      ⟨0xab, .switch default cases⟩ := by
  have htable := drop_tableAt hpadding h
  have hnumber : octets.drop (tableAt offset + 4) = _ := drop_add_length htable
  have hentries : octets.drop (tableAt offset + 8) = _ := drop_add_length hnumber
  have hpairs : countAt octets (tableAt offset) = pairs.length := by
    rw [countAt, signedAt_four hnumber, hcount, Int.toNat_natCast]
  have hlength := tableAt_eq hpadding
  refine .of_layout .lookupSwitch h rfl ?_ (opcodeAt_eq h (by decide)) ?_
  · rw [layoutLength, hpairs]
    omega
  · rw [layoutDistances, signedAt_four htable, hpairs]
    refine .cons hdefault ?_
    -- the distance of a pair stands behind its key
    have hvalue : ∀ {place : Nat} {p : Int32 × Int32} {rest : List UInt8},
        octets.drop place = four p.1.toUInt32 ++ four p.2.toUInt32 ++ rest →
          signedAt octets 4 (place + 4) = p.2.toInt := by
      intro place p rest hp
      rw [List.append_assoc] at hp
      exact signedAt_four (drop_add_length hp)
    have hvalues := @entriesAt_flatMap octets rest (tableAt offset + 8) (Int32 × Int32)
      (fun p => four p.1.toUInt32 ++ four p.2.toUInt32) (fun p => p.2.toInt) 8 4 (fun _ => rfl)
      hvalue pairs hentries
    rw [hvalues, List.forall₂_map_left_iff, List.forall₂_map_right_iff]
    exact hcases.imp fun _ _ hcase => hcase.2

end Switches

/-- **A spelling is found where it stands.** -/
theorem Spells.foundAt {leads : Int → Nat → Prop} {instruction : Instruction} {piece : List UInt8}
    (hspells : Spells pool bootstraps leads offset instruction piece)
    (h : octets.drop offset = piece ++ rest) :
    FoundAt octets leads offset piece.length instruction := by
  have hnext : ∀ {opcode : UInt8} {rest : List UInt8}, octets.drop offset = opcode :: rest →
      octets.drop (offset + 1) = rest := fun {opcode} _ h => @drop_add_length octets [opcode] _ _ h
  cases hspells with
  | plain hopcode =>
    exact .of_layout .plain h hopcode rfl (opcodeAt_of_kind rfl hopcode h) .nil
  | byte value => exact .of_layout .byte h rfl rfl (opcodeAt_eq h (by decide)) .nil
  | short value => exact .of_layout .short h rfl rfl (opcodeAt_eq h (by decide)) .nil
  | arrayType type => exact .of_layout .arrayType h rfl rfl (opcodeAt_eq h (by decide)) .nil
  | constant hvalue => exact .of_layout .constant h rfl rfl (opcodeAt_eq h (by decide)) .nil
  | wideConstant hvalue => exact .of_layout .wideConstant h rfl rfl (opcodeAt_eq h (by decide)) .nil
  | longConstant hvalue => exact .of_layout .wideConstant h rfl rfl (opcodeAt_eq h (by decide)) .nil
  | localVar hopcode index =>
    exact .of_layout .localVar h hopcode rfl (opcodeAt_of_kind rfl hopcode h) .nil
  | @wideLocalVar opcode hopcode index =>
    have hne : octets[offset + 1]? ≠ some 0x84 := by
      rw [getElem?_of_drop (hnext h), Ne, Option.some_inj]
      rintro rfl
      cases hopcode
    exact .of_layout .wide h rfl (if_neg hne) (opcodeAt_wide h) .nil
  | increment index delta => exact .of_layout .increment h rfl rfl (opcodeAt_eq h (by decide)) .nil
  | wideIncrement index delta =>
    exact .of_layout .wide h rfl (if_pos (getElem?_of_drop (hnext h))) (opcodeAt_wide h) .nil
  | branch hopcode htarget =>
    refine .of_layout .branch h hopcode rfl (opcodeAt_of_kind rfl hopcode h) ?_
    rw [layoutDistances, signedAt_two (hnext h)]
    exact .cons htarget .nil
  | wideGoto htarget =>
    refine .of_layout .wideBranch h rfl rfl (opcodeAt_eq h (by decide)) ?_
    rw [layoutDistances, signedAt_four (hnext h)]
    exact .cons htarget .nil
  | wideCall htarget =>
    refine .of_layout .wideBranch h rfl rfl (opcodeAt_eq h (by decide)) ?_
    rw [layoutDistances, signedAt_four (hnext h)]
    exact .cons htarget .nil
  | tableSwitch hpadding hdefault hlow hhigh htargets =>
    simp only [List.cons_append, List.append_assoc] at h
    convert foundAt_tableSwitch hpadding hdefault hhigh htargets h using 1
    simp only [List.length_cons, List.length_append, Assembly.length_four, List.length_flatMap,
      List.map_const', List.sum_replicate, Nat.nsmul_eq_mul]
    omega
  | lookupSwitch hpadding hdefault hcount hcases =>
    simp only [List.cons_append, List.append_assoc] at h
    convert foundAt_lookupSwitch hpadding hdefault hcount hcases h using 1
    simp only [List.length_cons, List.length_append, Assembly.length_four, List.length_flatMap,
      Nat.reduceAdd, List.map_const', List.sum_replicate, Nat.nsmul_eq_mul]
    omega
  | field hopcode href =>
    exact .of_layout .field h (List.contains_iff_mem.2 hopcode) rfl
      (opcodeAt_of_kind rfl (List.contains_iff_mem.2 hopcode) h) .nil
  | method hopcode href =>
    exact .of_layout .method h (List.contains_iff_mem.2 hopcode) rfl
      (opcodeAt_of_kind rfl (List.contains_iff_mem.2 hopcode) h) .nil
  | interfaceMethod href count zero =>
    exact .of_layout .interfaceMethod h rfl rfl (opcodeAt_eq h (by decide)) .nil
  | callSite hsite zero => exact .of_layout .callSite h rfl rfl (opcodeAt_eq h (by decide)) .nil
  | type hopcode hname =>
    exact .of_layout .type h (List.contains_iff_mem.2 hopcode) rfl
      (opcodeAt_of_kind rfl (List.contains_iff_mem.2 hopcode) h) .nil
  | multiArray helement dimensions =>
    exact .of_layout .multiArray h rfl rfl (opcodeAt_eq h (by decide)) .nil

/-! ### Code in its octets -/

/-- Pieces start at an offset, which is the end if there are none. -/
theorem head?_startsFrom {pieces : List (List UInt8)} {size : Nat}
    (hsize : offset + pieces.flatten.length = size) :
    (startsFrom offset pieces ++ [size]).head? = some offset := by
  cases pieces with
  | nil => exact congrArg some hsize.symm
  | cons piece pieces => rfl

section Pieces

variable {leads : Nat → Int → Nat → Prop} {instructions : List Instruction}
  {pieces : List (List UInt8)}

/-- **Pieces follow one another as their octets say.** -/
theorem SpellsFrom.isChain (hspells : SpellsFrom pool bootstraps leads offset instructions pieces)
    (h : octets.drop offset = pieces.flatten)
    (hsize : offset + pieces.flatten.length = octets.length) :
    (startsFrom offset pieces ++ [octets.length]).IsChain fun start stop =>
      start < stop ∧ stop = start + lengthAt octets start := by
  induction hspells with
  | nil => exact .singleton _
  | @cons offset instruction instructions piece pieces hpiece _ ih =>
    rw [List.flatten_cons] at h
    rw [List.flatten_cons, List.length_append, ← Nat.add_assoc] at hsize
    rw [startsFrom_cons, List.cons_append, List.isChain_cons, head?_startsFrom hsize]
    refine ⟨fun stop hstop => ?_, ih (drop_add_length h) hsize⟩
    obtain rfl : offset + piece.length = stop := Option.some_inj.1 hstop
    have hpos := hpiece.length_pos
    rw [(hpiece.foundAt h).length]
    omega

/-- **Instructions are found where their pieces start.** -/
theorem SpellsFrom.forall₂ (hspells : SpellsFrom pool bootstraps leads offset instructions pieces)
    (h : octets.drop offset = pieces.flatten) :
    List.Forall₂ (fun start instruction => opcodeAt octets start = some instruction.opcode ∧
      List.Forall₂ (leads start) (distancesAt octets start) instruction.operand.targets)
        (startsFrom offset pieces) instructions := by
  induction hspells with
  | nil => exact .nil
  | @cons offset instruction instructions piece pieces hpiece _ ih =>
    rw [List.flatten_cons] at h
    have hfound := hpiece.foundAt h
    exact .cons ⟨hfound.opcode, hfound.targets⟩ (ih (drop_add_length h))

end Pieces

/-- What follows from a relation holds all along the second list. -/
theorem forall_of_forall₂ {α β : Type} {R : α → β → Prop} {P : β → Prop} {l : List α} {l' : List β}
    (h : List.Forall₂ R l l') (hP : ∀ a b, R a b → P b) : ∀ b ∈ l', P b := by
  induction h with
  | nil => exact fun _ hb => absurd hb List.not_mem_nil
  | cons hab _ ih => exact List.forall_mem_cons.2 ⟨hP _ _ hab, ih⟩

/-- **Code that is decoded agrees with its octets.** -/
theorem exists_placed {body : Bytecode} {code : Code}
    (h : decode pool bootstraps body = .ok code) : ∃ starts, Placed pool body code starts := by
  obtain ⟨pieces, hencodes⟩ := exists_encodes h
  have hfound := hencodes.instructions.forall₂ hencodes.octets
  have hlength : (startsFrom 0 pieces).length = code.instructions.length := hfound.length_eq
  have hsize : 0 + pieces.flatten.length = body.octets.length := by
    rw [Nat.zero_add, hencodes.octets]
  have hplace : ∀ {k offset : Nat}, (startsFrom 0 pieces ++ [body.octets.length])[k]? =
      some offset → k ≤ code.instructions.length := by
    intro k offset hk
    have hlt := (List.getElem?_eq_some_iff.1 hk).1
    rw [List.length_append, List.length_singleton, hlength] at hlt
    exact Nat.le_of_lt_succ hlt
  refine ⟨startsFrom 0 pieces, head?_startsFrom hsize,
    hencodes.instructions.isChain hencodes.octets hsize, ?_, hfound.imp fun _ _ hk => hk.2, ?_,
    hencodes.handlers, ?_⟩
  · rw [← List.forall₂_eq_eq_eq, List.forall₂_map_left_iff, List.forall₂_map_right_iff]
    exact hfound.imp fun _ _ hk => hk.1
  · rw [← hlength]
    refine forall_of_forall₂ hfound fun start instruction hk => forall_of_forall₂ hk.2 ?_
    rintro distance target ⟨place, hplace, -⟩
    exact (List.getElem?_eq_some_iff.1 hplace).1
  · exact forall_of_forall₂ hencodes.handlers fun range handler hrange =>
      ⟨hplace hrange.start, hplace hrange.stop, hplace hrange.target⟩

/-! ### Bodies among attributes -/

theorem of_run_handlerRange {range : HandlerRange} {c c' : Cursor}
    (h : (do return (⟨← u2, ← u2, ← u2, ← u2⟩ : HandlerRange) : Reader HandlerRange).run c =
      .ok (range, c')) : c.rest = range.octets ++ c'.rest := by
  obtain ⟨start, c₁, hstart, h⟩ := of_run_bind h
  obtain ⟨stop, c₂, hstop, h⟩ := of_run_bind h
  obtain ⟨target, c₃, htarget, h⟩ := of_run_bind h
  obtain ⟨catchType, c₄, hcatchType, h⟩ := of_run_bind h
  cases h
  rw [of_run_u2 hstart, of_run_u2 hstop, of_run_u2 htarget, of_run_u2 hcatchType,
    HandlerRange.octets]
  simp only [List.append_assoc]

theorem of_run_innerAttribute {inner : List UInt8} {c c' : Cursor}
    (h : (do let _ ← u2; take (← u4).toNat : Reader (List UInt8)).run c = .ok (inner, c')) :
    ∃ layout : AttributeLayout, c.rest = layout.octets ++ c'.rest := by
  obtain ⟨name, c₁, hname, h⟩ := of_run_bind h
  obtain ⟨size, c₂, hsize, h⟩ := of_run_bind h
  obtain ⟨fits, hrest⟩ := of_run_block hsize h
  refine ⟨⟨name, inner, fits⟩, ?_⟩
  rw [of_run_u2 hname, hrest, AttributeLayout.octets]
  simp only [List.append_assoc]

/-- **A body that is read was laid out.** -/
theorem of_run_read {body : Bytecode} {c c' : Cursor} (h : read.run c = .ok (body, c')) :
    ∃ layout : CodeLayout, c.rest = layout.octets ++ c'.rest ∧ layout.code = body := by
  obtain ⟨maxStack, c₁, hstack, h⟩ := of_run_bind h
  obtain ⟨maxLocals, c₂, hlocals, h⟩ := of_run_bind h
  obtain ⟨size, c₃, hsize, h⟩ := of_run_bind h
  obtain ⟨octets, c₄, hoctets, h⟩ := of_run_bind h
  obtain ⟨handlers, c₅, hhandlers, h⟩ := of_run_bind h
  obtain ⟨_, c₆, hattributes, h⟩ := of_run_bind h
  cases h
  obtain ⟨octets_fit, hrest⟩ := of_run_block hsize hoctets
  obtain ⟨n, c₇, hn, hhandlers⟩ := of_run_bind hhandlers
  obtain ⟨ranges, hlength, hranges, hall⟩ :=
    forall₂_of_run_times (fun c range c' h => ⟨range, of_run_handlerRange h, rfl⟩) hhandlers
  obtain rfl : ranges = handlers := by rwa [List.forall₂_eq_eq_eq] at hall
  obtain ⟨attributes, attributes_fit, hattributes⟩ :=
    of_run_counted (fun _ _ _ => of_run_innerAttribute) hattributes
  refine ⟨⟨⟨maxStack, maxLocals, octets, ranges⟩, attributes, octets_fit, hlength ▸ n.toNat_lt,
    attributes_fit⟩, ?_, rfl⟩
  have hcounted : Assembly.counted (ranges.map HandlerRange.octets) =
      two n ++ ranges.flatMap HandlerRange.octets := by
    rw [Assembly.counted, ← List.flatMap_def, List.length_map, hlength, UInt16.ofNat_toNat]
  rw [of_run_u2 hstack, of_run_u2 hlocals, hrest, of_run_u2 hn, hranges, hattributes,
    CodeLayout.octets, hcounted, AttributeLayout.listOctets]
  simp only [List.append_assoc]

end Bytecode

namespace Attributes

variable {pool : Pool} {attributes attributes' : Attributes}

/-- The body of a method is only in attributes of one name. -/
theorem code_of_add {name : String} {octets : List UInt8} (hname : name ≠ "Code")
    (h : attributes.add pool name octets = .ok attributes') :
    attributes'.code = attributes.code := by
  unfold add at h
  split at h
  case h_5 => exact absurd rfl hname
  case h_7 =>
    cases h
    rfl
  all_goals
    obtain ⟨_, -, h⟩ := bind_eq_ok_iff.1 h
    cases h
    rfl

end Attributes

namespace AttributeLayout

/-- An attribute holds the body of a method, and possibly more behind it. -/
def IsBody (pool : Pool) (body : Bytecode) (layout : AttributeLayout) : Prop :=
  pool.text layout.name = .ok "Code" ∧
    ∃ (inner : CodeLayout) (tail : List UInt8), layout.body = inner.octets ++ tail ∧
      inner.code = body

/-- **The last body among attributes.** -/
def LastBody (pool : Pool) (layouts : List AttributeLayout) (body : Bytecode) : Prop :=
  ∃ before layout after, layouts = before ++ layout :: after ∧ IsBody pool body layout ∧
    ∀ other ∈ after, pool.text other.name ≠ .ok "Code"

variable {pool : Pool} {attributes attributes' : Attributes} {layout : AttributeLayout}

/-- An attribute that is taken up replaces the body, or leaves it alone. -/
theorem code_of_addTo (h : addTo pool attributes layout = .ok attributes') :
    (∃ body, IsBody pool body layout ∧ attributes'.code = some body) ∨
      pool.text layout.name ≠ .ok "Code" ∧ attributes'.code = attributes.code := by
  obtain ⟨name, hname, h⟩ := bind_eq_ok_iff.1 h
  rcases eq_or_ne name "Code" with rfl | hne
  · obtain ⟨body, hbody, h⟩ := bind_eq_ok_iff.1 h
    cases h
    obtain ⟨c, hrun⟩ := of_within hbody
    obtain ⟨inner, hinner, hcode⟩ := Bytecode.of_run_read hrun
    exact .inl ⟨body, ⟨hname, inner, c.rest, hinner, hcode⟩, rfl⟩
  · refine .inr ⟨?_, Attributes.code_of_add hne h⟩
    rw [hname]
    exact fun hcode => hne (Except.ok.inj hcode)

/-- **The last body counts**, or the one that was there before. -/
theorem lastBody_of_foldlM {layouts : List AttributeLayout} {body : Bytecode}
    (h : layouts.foldlM (addTo pool) attributes = .ok attributes')
    (hcode : attributes'.code = some body) :
    LastBody pool layouts body ∨
      attributes.code = some body ∧ ∀ other ∈ layouts, pool.text other.name ≠ .ok "Code" := by
  induction layouts generalizing attributes with
  | nil =>
    cases h
    exact .inr ⟨hcode, fun _ hother => absurd hother List.not_mem_nil⟩
  | cons layout layouts ih =>
    obtain ⟨added, hadd, h⟩ := bind_eq_ok_iff.1 h
    rcases ih h with ⟨before, last, after, hlayouts, hlast⟩ | ⟨hadded, hafter⟩
    · exact .inl ⟨layout :: before, last, after, by rw [hlayouts, List.cons_append], hlast⟩
    · rcases code_of_addTo hadd with ⟨body', hbody, hcode'⟩ | ⟨hname, hcode'⟩
      · obtain rfl : body' = body := by rwa [hcode', Option.some_inj] at hadded
        exact .inl ⟨[], layout, layouts, rfl, hbody, hafter⟩
      · exact .inr ⟨hcode' ▸ hadded, List.forall_mem_cons.2 ⟨hname, hafter⟩⟩

theorem lastBody_of_resolve {layouts : List AttributeLayout} {body : Bytecode}
    (h : resolve pool layouts = .ok attributes) (hcode : attributes.code = some body) :
    LastBody pool layouts body := by
  rcases lastBody_of_foldlM h hcode with hlast | ⟨hnone, -⟩
  · exact hlast
  · cases hnone

end AttributeLayout

/-! ### Class files -/

/-- The code of a method agrees with the octets of its body. -/
def MemberLayout.HasCode (pool : Pool) (layout : MemberLayout) (code : Code) : Prop :=
  ∃ body, AttributeLayout.LastBody pool layout.attributes body ∧
    ∃ starts, Bytecode.Placed pool body code starts

/-- A method that is resolved has its code from its last body. -/
theorem MemberLayout.hasCode_of_resolve {pool : Pool} {bootstraps : List Bootstrap}
    {layout : MemberLayout} {entry : MemberEntry} {method : MethodDecl}
    (hentry : layout.resolve pool = .ok entry) (h : entry.method pool bootstraps = .ok method) :
    ∀ code ∈ method.code, layout.HasCode pool code := by
  intro code hcode
  obtain ⟨body, hbody, hdecode⟩ := MemberEntry.exists_decode_of_method h code hcode
  obtain ⟨name, -, hentry⟩ := bind_eq_ok_iff.1 hentry
  obtain ⟨descriptor, -, hentry⟩ := bind_eq_ok_iff.1 hentry
  obtain ⟨attributes, hattributes, hentry⟩ := bind_eq_ok_iff.1 hentry
  cases hentry
  exact ⟨body, AttributeLayout.lastBody_of_resolve hattributes hbody,
    Bytecode.exists_placed hdecode⟩

namespace ClassFile

/-- **Jumps lead where their octets say**, in all code of a class file that can be decoded. -/
theorem hasCode_of_decode {bytes : List UInt8} {file : ClassFile} (h : decode bytes = .ok file) :
    (∃ layout : Layout, layout.octets = bytes) ∧ ∀ layout : Layout, layout.octets = bytes →
      List.Forall₂ (fun member method => ∀ code ∈ method.code, member.HasCode layout.pool code)
        layout.methods file.methods := by
  refine ⟨exists_layout h, ?_⟩
  rintro layout rfl
  rw [decode_octets] at h
  obtain ⟨frame, hframe, h⟩ := bind_eq_ok_iff.1 h
  obtain ⟨_, -, hframe⟩ := bind_eq_ok_iff.1 hframe
  obtain ⟨_, -, hframe⟩ := bind_eq_ok_iff.1 hframe
  obtain ⟨_, -, hframe⟩ := bind_eq_ok_iff.1 hframe
  obtain ⟨_, -, hframe⟩ := bind_eq_ok_iff.1 hframe
  obtain ⟨entries, hentries, hframe⟩ := bind_eq_ok_iff.1 hframe
  obtain ⟨_, -, hframe⟩ := bind_eq_ok_iff.1 hframe
  cases hframe
  obtain ⟨bootstraps, -, h⟩ := bind_eq_ok_iff.1 h
  obtain ⟨methods, hmethods, h⟩ := bind_eq_ok_iff.1 h
  cases h
  refine ((Bytecode.forall₂_iff_exists fun member method => Iff.rfl).2
    ⟨entries, mapM_eq_ok_iff.1 hentries, mapM_eq_ok_iff.1 hmethods⟩).imp ?_
  rintro member method ⟨entry, hentry, hmethod⟩
  exact MemberLayout.hasCode_of_resolve hentry hmethod

/-- A body with an attribute of its own, which is followed by another body. -/
def sampleShortBody : CodeLayout where
  code := ⟨0, 1, [0xb1], []⟩
  attributes := [⟨4, [7], by decide⟩]
  octets_fit := by decide
  handlers_fit := by decide
  attributes_fit := by decide

/-- The body that counts, with jumps in wide forms and switches. -/
def sampleWideBody : CodeLayout :=
  { sampleShortBody with
    code := ⟨2, 3, Bytecode.sampleWide.flatten, [⟨0, 61, 5, 0⟩]⟩
    octets_fit := by decide
    handlers_fit := by decide }

/-- A method with both, and with an octet behind the second. -/
def sampleJumping : MemberLayout where
  access := 9
  name := 4
  descriptor := 5
  attributes :=
    [⟨6, sampleShortBody.octets, by decide⟩, ⟨6, sampleWideBody.octets ++ [0], by decide⟩]
  fits := by decide

/-- A class file with this method alone. -/
def sampleJumpingOctets : List UInt8 :=
  four 0xcafebabe ++ two 0 ++ two 52 ++ two 7 ++
    (1 :: two 1 ++ [0x41]) ++ (3 :: four 5) ++ (7 :: two 1) ++ (1 :: two 1 ++ [0x6d]) ++
    (1 :: two 3 ++ [0x28, 0x29, 0x56]) ++ (1 :: two 4 ++ [0x43, 0x6f, 0x64, 0x65]) ++
    two 0x21 ++ two 3 ++ two 0 ++ two 0 ++ two 0 ++
    Assembly.counted [sampleJumping.octets] ++ two 0

theorem hasCode_of_decode_sampleJumping : ∃ file : ClassFile,
    decode sampleJumpingOctets = .ok file ∧
    file.methods.map (·.code) = [some Bytecode.sampleJumps] ∧
    (∃ layout : Layout, layout.octets = sampleJumpingOctets) ∧
    ∀ layout : Layout, layout.octets = sampleJumpingOctets →
      List.Forall₂ (fun member method => ∀ code ∈ method.code, member.HasCode layout.pool code)
        layout.methods file.methods := by
  have hcode : (decode sampleJumpingOctets).toOption.map (fun file => file.methods.map (·.code)) =
      some [some Bytecode.sampleJumps] := by decide +kernel
  obtain ⟨file, hfile, hcode⟩ := Option.map_eq_some_iff.1 hcode
  have hdecode := eq_ok_of_toOption hfile
  exact ⟨file, hdecode, hcode, hasCode_of_decode hdecode⟩

end ClassFile

end Retest

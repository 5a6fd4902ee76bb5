import Retest.Proofs.Assembly.Code

/-!
# How instructions are spelled

An instruction can be written in several ways: a constant under any index that leads to it, the
index of a local variable or of a constant in a short or in a wide form, some jumps with a
distance of two octets or of four, and a switch with arbitrary octets up to the next multiple of
four. `Retest.Bytecode.Spells` lists all spellings, one rule for each form. Opcodes are given by
number; how jumps are given is left open, as a spelling has a distance where an instruction has
the ordinal of its target.

Reading an instruction accepts its spellings and nothing else. A spelling is read as its
instruction, whatever follows it (`Retest.Bytecode.takes_of_spells`), and whatever is read was
spelled so (`Retest.Bytecode.exists_spells`). At this point a jump still leads to an offset
(`Retest.Bytecode.InCode`).
-/

namespace Retest

open Assembly (two four)
open Reader (Yields)

/-! ### Opcodes -/

namespace Opcode

/-- Instructions without operand. -/
def isPlain (opcode : UInt8) : Bool :=
  -- small constants; loads from and stores to the first variables and arrays; stack, arithmetic
  opcode ≤ 0x0f || 0x1a ≤ opcode && opcode ≤ 0x35 || 0x3b ≤ opcode && opcode ≤ 0x83 ||
  -- conversions and comparisons; returns; the rest, with three that are reserved
  0x85 ≤ opcode && opcode ≤ 0x98 || 0xac ≤ opcode && opcode ≤ 0xb1 ||
  [0xbe, 0xbf, 0xc2, 0xc3, 0xca, 0xfe, 0xff].contains opcode

/-- Loads from and stores to any local variable, and the return through one. -/
def isLocal (opcode : UInt8) : Bool :=
  0x15 ≤ opcode && opcode ≤ 0x19 || 0x36 ≤ opcode && opcode ≤ 0x3a || opcode == 0xa9

/-- Jumps with a distance of two octets. -/
def isJump (opcode : UInt8) : Bool :=
  0x99 ≤ opcode && opcode ≤ 0xa8 || opcode == 0xc6 || opcode == 0xc7

end Opcode

/-- The opcodes of a layout. -/
def Layout.hasOpcode (opcode : UInt8) : Layout → Bool
  | plain => Opcode.isPlain opcode
  | byte => opcode == 0x10
  | short => opcode == 0x11
  | constant => opcode == 0x12
  | wideConstant => opcode == 0x13 || opcode == 0x14
  | localVar => Opcode.isLocal opcode
  | increment => opcode == 0x84
  | branch => Opcode.isJump opcode
  | wideBranch => opcode == 0xc8 || opcode == 0xc9
  | tableSwitch => opcode == 0xaa
  | lookupSwitch => opcode == 0xab
  | field => [0xb2, 0xb3, 0xb4, 0xb5].contains opcode
  | method => [0xb6, 0xb7, 0xb8].contains opcode
  | interfaceMethod => opcode == 0xb9
  | callSite => opcode == 0xba
  | type => [0xbb, 0xbd, 0xc0, 0xc1].contains opcode
  | arrayType => opcode == 0xbc
  | wide => opcode == 0xc4
  | multiArray => opcode == 0xc5

/-- All layouts. -/
def Layout.all : List Layout :=
  [plain, byte, short, constant, wideConstant, localVar, increment, branch, wideBranch, tableSwitch,
    lookupSwitch, field, method, interfaceMethod, callSite, type, arrayType, wide, multiArray]

/-- An opcode belongs to the layout that the table has for it, and to no other. -/
theorem Layout.ofOpcode?_eq_some_iff {opcode : UInt8} {layout : Layout} :
    ofOpcode? opcode = some layout ↔ layout.hasOpcode opcode = true := by
  have htable : ∀ n < 256, (ofOpcode? (.ofNat n)).toList = all.filter (hasOpcode (.ofNat n)) := by
    decide +kernel
  have hopcode := htable opcode.toNat opcode.toNat_lt
  have hall : layout ∈ all := by cases layout <;> decide
  rw [UInt8.ofNat_toNat] at hopcode
  rw [← Option.mem_toList, hopcode, List.mem_filter, and_iff_right hall]

/-! ### Readers -/

namespace Reader

variable {α β γ : Type}

/-- **A reader takes octets at a position**, whatever follows them, and returns a value. -/
def Takes (reader : Reader α) (position : Nat) (octets : List UInt8) (a : α) : Prop :=
  ∀ rest, reader.run ⟨position, octets ++ rest⟩ = .ok (a, ⟨position + octets.length, rest⟩)

theorem Yields.takes {reader : Reader α} {octets : List UInt8} {a : α}
    (h : Yields reader octets (.ok a)) (position : Nat) : Takes reader position octets a :=
  h position

theorem Takes.bind {reader : Reader α} {next : α → Reader β} {position : Nat}
    {octets octets' : List UInt8} {a : α} {b : β} (h : Takes reader position octets a)
    (h' : Takes (next a) (position + octets.length) octets' b) :
    Takes (reader >>= next) position (octets ++ octets') b := by
  intro rest
  rw [StateT.run_bind, List.append_assoc, h]
  refine (h' rest).trans ?_
  rw [List.length_append, Nat.add_assoc]

/-- Something is looked up and found, and then something else is read. -/
theorem Yields.find_bind {outcome : Except Fault α} {next : α → Reader β} {octets : List UInt8}
    {a : α} {outcome' : Except Fault β} (h : outcome = .ok a)
    (h' : Yields (next a) octets outcome') : Yields (liftM outcome >>= next) octets outcome' := by
  subst h
  exact h'

/-- A reader that first looks how much is left may count on the octets it will take. -/
theorem Yields.remaining_bind {next : Nat → Reader β} {octets : List UInt8}
    {outcome : Except Fault β}
    (h : ∀ left, octets.length ≤ left → Yields (next left) octets outcome) :
    Yields (remaining >>= next) octets outcome := by
  intro position rest
  refine h (octets ++ rest).length ?_ position rest
  rw [List.length_append]
  exact Nat.le_add_right _ _

/-- Reading one part after another, each with a value of its own. -/
theorem Yields.times_ok {reader : Reader α} {octets : γ → List UInt8} {parts : List γ} {as : List α}
    (h : List.Forall₂ (fun part a => Yields reader (octets part) (.ok a)) parts as) :
    Yields (Reader.times reader parts.length) (parts.flatMap octets) (.ok as) := by
  induction h with
  | nil => exact .pure []
  | cons hpart _ ih =>
    rw [List.flatMap_cons]
    exact hpart.bind_ok ih.map_ok

end Reader

namespace Bytecode

open Reader

/-! ### Spellings -/

/-- A distance leads from an offset to another one inside the code. -/
def InCode (size offset : Nat) (distance : Int) (place : Nat) : Prop :=
  (place : Int) = offset + distance ∧ place < size

/-- Targets under keys that count up. -/
def numbered : (key : Int32) → List Nat → List (Int32 × Nat)
  | _, [] => []
  | key, target :: targets => (key, target) :: numbered (key + 1) targets

section Spellings

variable (pool : Pool) (bootstraps : List Bootstrap) (leads : Int → Nat → Prop) (offset : Nat)

/-- **The spellings of an instruction at an offset.** What target a distance leads to is given by a
relation. -/
inductive Spells : Instruction → List UInt8 → Prop where
  | plain {opcode : UInt8} (h : Opcode.isPlain opcode = true) : Spells ⟨opcode, .none⟩ [opcode]
  | byte (value : Int8) : Spells ⟨0x10, .int value.toInt32⟩ [0x10, value.toUInt8]
  | short (value : Int16) : Spells ⟨0x11, .int value.toInt32⟩ (0x11 :: two value.toUInt16)
  | arrayType (type : UInt8) : Spells ⟨0xbc, .int (.ofInt type.toNat)⟩ [0xbc, type]
  | constant {index : UInt8} {value : Constant} (h : pool.constant index.toUInt16 = .ok value) :
    Spells ⟨0x12, .constant value⟩ [0x12, index]
  | wideConstant {index : UInt16} {value : Constant} (h : pool.constant index = .ok value) :
    Spells ⟨0x12, .constant value⟩ (0x13 :: two index)
  | longConstant {index : UInt16} {value : Constant} (h : pool.constant index = .ok value) :
    Spells ⟨0x14, .constant value⟩ (0x14 :: two index)
  | localVar {opcode : UInt8} (h : Opcode.isLocal opcode = true) (index : UInt8) :
    Spells ⟨opcode, .localVar index.toUInt16⟩ [opcode, index]
  | wideLocalVar {opcode : UInt8} (h : Opcode.isLocal opcode = true) (index : UInt16) :
    Spells ⟨opcode, .localVar index⟩ (0xc4 :: opcode :: two index)
  | increment (index : UInt8) (delta : Int8) :
    Spells ⟨0x84, .increment index.toUInt16 delta.toInt16⟩ [0x84, index, delta.toUInt8]
  | wideIncrement (index : UInt16) (delta : Int16) :
    Spells ⟨0x84, .increment index delta⟩ (0xc4 :: 0x84 :: (two index ++ two delta.toUInt16))
  | branch {opcode : UInt8} (h : Opcode.isJump opcode = true) {distance : Int16} {target : Nat}
    (htarget : leads distance.toInt target) :
    Spells ⟨opcode, .branch target⟩ (opcode :: two distance.toUInt16)
  | wideGoto {distance : Int32} {target : Nat} (htarget : leads distance.toInt target) :
    Spells ⟨0xa7, .branch target⟩ (0xc8 :: four distance.toUInt32)
  | wideCall {distance : Int32} {target : Nat} (htarget : leads distance.toInt target) :
    Spells ⟨0xa8, .branch target⟩ (0xc9 :: four distance.toUInt32)
  | tableSwitch {padding : List UInt8} {distance low high : Int32} {default : Nat}
    {distances : List Int32} {targets : List Nat}
    (hpadding : padding.length < 4 ∧ (offset + 1 + padding.length) % 4 = 0)
    (hdefault : leads distance.toInt default) (hlow : low ≤ high)
    (hhigh : high.toInt - low.toInt + 1 = targets.length)
    (htargets : List.Forall₂ (fun d target => leads d.toInt target) distances targets) :
    Spells ⟨0xaa, .switch default (numbered low targets)⟩
      (0xaa :: (padding ++ (four distance.toUInt32 ++ (four low.toUInt32 ++ (four high.toUInt32 ++
        distances.flatMap fun d => four d.toUInt32)))))
  | lookupSwitch {padding : List UInt8} {distance count : Int32} {default : Nat}
    {pairs : List (Int32 × Int32)} {cases : List (Int32 × Nat)}
    (hpadding : padding.length < 4 ∧ (offset + 1 + padding.length) % 4 = 0)
    (hdefault : leads distance.toInt default) (hcount : count.toInt = pairs.length)
    (hcases : List.Forall₂ (fun p c => p.1 = c.1 ∧ leads p.2.toInt c.2) pairs cases) :
    Spells ⟨0xab, .switch default cases⟩
      (0xab :: (padding ++ (four distance.toUInt32 ++ (four count.toUInt32 ++
        pairs.flatMap fun p => four p.1.toUInt32 ++ four p.2.toUInt32))))
  | field {opcode : UInt8} (h : opcode ∈ [0xb2, 0xb3, 0xb4, 0xb5]) {index : UInt16}
    {ref : MemberRef} (href : pool.member index = .ok ref) :
    Spells ⟨opcode, .field ref⟩ (opcode :: two index)
  | method {opcode : UInt8} (h : opcode ∈ [0xb6, 0xb7, 0xb8]) {index : UInt16}
    {ref : MemberRef} (href : pool.member index = .ok ref) :
    Spells ⟨opcode, .method ref⟩ (opcode :: two index)
  | interfaceMethod {index : UInt16} {ref : MemberRef} (href : pool.member index = .ok ref)
    (count zero : UInt8) : Spells ⟨0xb9, .method ref⟩ (0xb9 :: (two index ++ [count, zero]))
  | callSite {index bootstrap : UInt16} {name descriptor : String}
    (h : pool.callSite index = .ok (bootstrap, name, descriptor)) (zero : UInt16) :
    Spells ⟨0xba, .dynamic name descriptor bootstraps[bootstrap.toNat]?⟩
      (0xba :: (two index ++ two zero))
  | type {opcode : UInt8} (h : opcode ∈ [0xbb, 0xbd, 0xc0, 0xc1]) {index : UInt16}
    {name : UnitName} (hname : pool.unit index = .ok name) :
    Spells ⟨opcode, .type name⟩ (opcode :: two index)
  | multiArray {index : UInt16} {element : UnitName} (h : pool.unit index = .ok element)
    (dimensions : UInt8) :
    Spells ⟨0xc5, .multiArray element dimensions⟩ (0xc5 :: (two index ++ [dimensions]))

end Spellings

/-! ### Reading spellings -/

variable {context : Context} {offset : Nat}

theorem target_of_inCode {distance : Int32} {place : Nat}
    (h : InCode context.size offset distance.toInt place) :
    target context offset distance = Pure.pure place := by
  obtain ⟨hplace, hsize⟩ := h
  rw [target, ← hplace, if_pos ⟨Int.natCast_nonneg _, Int.ofNat_lt.2 hsize⟩, Int.toNat_natCast]

theorem inCode_of_run_target {distance : Int32} {place : Nat} {c c' : Cursor}
    (h : (target context offset distance).run c = .ok (place, c')) :
    c' = c ∧ InCode context.size offset distance.toInt place := by
  rw [target] at h
  split at h
  · next hplace =>
    cases h
    exact ⟨rfl, by omega, by omega⟩
  · cases h

/-- A distance of four octets is followed. -/
theorem yields_target {distance : Int32} {place : Nat}
    (h : InCode context.size offset distance.toInt place) :
    Yields (do target context offset (← i4)) (four distance.toUInt32) (.ok place) := by
  rw [← List.append_nil (four _)]
  refine (Yields.u4 distance.toUInt32).map_ok.bind_ok ?_
  show Yields (target context offset distance) _ _
  rw [target_of_inCode h]
  exact .pure place

/-- Octets up to the next multiple of four are passed over. -/
theorem takes_align {position : Nat} {padding : List UInt8}
    (h : padding.length < 4 ∧ (position + padding.length) % 4 = 0) :
    Takes align position padding () := by
  have hpadding : Yields (times u1 padding.length) (padding.flatMap fun b => [b]) (.ok padding) :=
    .times_ok (List.forall₂_same.2 fun b _ => .u1 b)
  rw [List.flatMap_singleton'] at hpadding
  have hlength : (4 - position % 4) % 4 = padding.length := by omega
  intro rest
  show (do
    let _ ← times u1 ((4 - position % 4) % 4)
    return ()).run ⟨position, padding ++ rest⟩ = _
  rw [hlength]
  exact hpadding.map_ok position rest

/-- Targets are read under keys that count up. -/
theorem yields_readTable {distances : List Int32} {targets : List Nat}
    (h : List.Forall₂ (fun d place => InCode context.size offset d.toInt place) distances targets)
    (key : Int32) : Yields (readTable context offset key targets.length)
      (distances.flatMap fun d => four d.toUInt32) (.ok (numbered key targets)) := by
  induction h generalizing key with
  | nil => exact .pure []
  | cons hplace _ ih =>
    rw [List.flatMap_cons, List.length_cons, readTable, ← bind_assoc]
    exact (yields_target hplace).bind_ok (ih (key + 1)).map_ok

theorem yields_readTableSwitch {low high : Int32} {distances : List Int32} {targets : List Nat}
    (hlow : low ≤ high) (hhigh : high.toInt - low.toInt + 1 = targets.length)
    (h : List.Forall₂ (fun d place => InCode context.size offset d.toInt place)
      distances targets) :
    Yields (readTableSwitch context offset) (four low.toUInt32 ++ (four high.toUInt32 ++
      distances.flatMap fun d => four d.toUInt32)) (.ok (numbered low targets)) := by
  have hcount : (high.toInt - low.toInt + 1).toNat = targets.length := by omega
  have hlength : (distances.flatMap fun d => four d.toUInt32).length = targets.length * 4 := by
    simp [h.length_eq, List.length_flatMap]
  refine (Yields.u4 low.toUInt32).map_ok.bind_ok ((Yields.u4 high.toUInt32).map_ok.bind_ok ?_)
  refine Yields.remaining_bind fun left hleft => ?_
  show Yields (if high < low ∨ left < (high.toInt - low.toInt + 1).toNat * 4 then
    fail (.badTableSwitch offset) else
      readTable context offset low (high.toInt - low.toInt + 1).toNat) _ _
  rw [hcount, if_neg]
  · exact yields_readTable h low
  · rintro (hlt | hlt)
    · exact absurd hlow (Int32.not_le.2 hlt)
    · omega

theorem yields_readLookupSwitch {count : Int32} {pairs : List (Int32 × Int32)}
    {cases : List (Int32 × Nat)} (hcount : count.toInt = pairs.length)
    (h : List.Forall₂ (fun p c => p.1 = c.1 ∧ InCode context.size offset p.2.toInt c.2)
      pairs cases) :
    Yields (readLookupSwitch context offset) (four count.toUInt32 ++
      pairs.flatMap fun p => four p.1.toUInt32 ++ four p.2.toUInt32) (.ok cases) := by
  have hlength : (pairs.flatMap fun p => four p.1.toUInt32 ++ four p.2.toUInt32).length =
      pairs.length * 8 := by
    simp [List.length_flatMap]
  have hread : List.Forall₂ (fun p c => Yields (do
      let key ← i4
      return (key, ← target context offset (← i4)))
        (four p.1.toUInt32 ++ four p.2.toUInt32) (.ok c)) pairs cases := by
    refine h.imp fun p c hpc => ?_
    obtain ⟨key, place⟩ := c
    obtain ⟨rfl, hplace⟩ := hpc
    refine (Yields.u4 p.1.toUInt32).map_ok.bind_ok ?_
    rw [← bind_assoc]
    exact (yields_target hplace).map_ok
  refine (Yields.u4 count.toUInt32).map_ok.bind_ok (Yields.remaining_bind fun left hleft => ?_)
  show Yields (if count < 0 ∨ left < count.toInt.toNat * 8 then fail (.badLookupSwitch offset)
    else times _ count.toInt.toNat) _ _
  rw [hcount, Int.toNat_natCast, if_neg]
  · exact .times_ok hread
  · rintro (hlt | hlt)
    · have hnegative := Int32.lt_iff_toInt_lt.1 hlt
      rw [hcount, Int32.toInt_zero] at hnegative
      omega
    · omega

theorem yields_readWide_localVar {opcode : UInt8} (h : Opcode.isLocal opcode = true)
    (index : UInt16) : Yields readWide (opcode :: two index) (.ok ⟨opcode, .localVar index⟩) := by
  have hlayout : Layout.ofOpcode? opcode = some .localVar := Layout.ofOpcode?_eq_some_iff.2 h
  refine (Yields.u1 opcode).bind_ok ?_
  rw [hlayout]
  exact (Yields.u2 index).map_ok

theorem yields_readWide_increment (index : UInt16) (delta : Int16) :
    Yields readWide (0x84 :: (two index ++ two delta.toUInt16))
      (.ok ⟨0x84, .increment index delta⟩) := by
  have hlayout : Layout.ofOpcode? 0x84 = some .increment := Layout.ofOpcode?_eq_some_iff.2 rfl
  refine (Yields.u1 0x84).bind_ok ?_
  rw [hlayout]
  exact (Yields.u2 index).bind_ok (Yields.u2 delta.toUInt16).map_ok.map_ok

/-- The operand is read after the opcode. -/
theorem takes_readAt (layout : Layout) {opcode : UInt8} {octets : List UInt8} {raw : Instruction}
    (hopcode : layout.hasOpcode opcode = true)
    (h : Takes (readOperand context offset opcode layout) (offset + 1) octets raw) :
    Takes (readAt context offset) offset (opcode :: octets) raw := by
  refine ((Yields.u1 opcode).takes offset).bind ?_
  rw [Layout.ofOpcode?_eq_some_iff.2 hopcode]
  exact h

/-- **A spelling of an instruction is read as the instruction.** -/
theorem takes_of_spells {raw : Instruction} {octets : List UInt8}
    (h : Spells context.pool context.bootstraps (InCode context.size offset) offset raw octets) :
    Takes (readAt context offset) offset octets raw := by
  -- where a switch has to be aligned, its position matters; all else is read alike anywhere
  have hread : ∀ (layout : Layout) {opcode : UInt8} {octets : List UInt8} {raw : Instruction},
      layout.hasOpcode opcode = true →
      Yields (readOperand context offset opcode layout) octets (.ok raw) →
      Takes (readAt context offset) offset (opcode :: octets) raw :=
    fun layout _ _ _ hopcode h => takes_readAt layout hopcode (h.takes _)
  cases h with
  | plain h => exact hread .plain h (.pure _)
  | byte value => exact hread .byte rfl (Yields.u1 value.toUInt8).map_ok.map_ok
  | short value => exact hread .short rfl (Yields.u2 value.toUInt16).map_ok.map_ok
  | arrayType type => exact hread .arrayType rfl (Yields.u1 type).map_ok
  | @constant index value h =>
    refine hread .constant rfl ?_
    rw [← List.append_nil [index]]
    exact (Yields.u1 index).bind_ok (.find_bind h (.pure _))
  | wideConstant h => exact hread .wideConstant rfl (yields_lookup h)
  | longConstant h => exact hread .wideConstant rfl (yields_lookup h)
  | localVar h index => exact hread .localVar h (Yields.u1 index).map_ok
  | wideLocalVar h index => exact hread .wide rfl (yields_readWide_localVar h index)
  | increment index delta =>
    exact hread .increment rfl
      ((Yields.u1 index).bind_ok (Yields.u1 delta.toUInt8).map_ok.map_ok)
  | wideIncrement index delta => exact hread .wide rfl (yields_readWide_increment index delta)
  | @branch opcode h distance target htarget =>
    refine hread .branch h ?_
    rw [← List.append_nil (two _)]
    refine (Yields.u2 distance.toUInt16).map_ok.bind_ok ?_
    have hplace : InCode context.size offset distance.toInt32.toInt target := by
      rwa [Int16.toInt_toInt32]
    show Yields (do
      return (⟨opcode, .branch (← Bytecode.target context offset distance.toInt32)⟩ : Instruction))
      _ _
    rw [target_of_inCode hplace]
    exact .pure _
  | wideGoto htarget | wideCall htarget =>
    refine hread .wideBranch rfl ?_
    rw [readOperand, ← bind_assoc]
    exact (yields_target htarget).map_ok
  | tableSwitch hpadding hdefault hlow hhigh htargets =>
    refine takes_readAt .tableSwitch rfl ((takes_align hpadding).bind (Yields.takes ?_ _))
    rw [← bind_assoc]
    exact (yields_target hdefault).bind_ok (yields_readTableSwitch hlow hhigh htargets).map_ok
  | lookupSwitch hpadding hdefault hcount hcases =>
    refine takes_readAt .lookupSwitch rfl ((takes_align hpadding).bind (Yields.takes ?_ _))
    rw [← bind_assoc]
    exact (yields_target hdefault).bind_ok (yields_readLookupSwitch hcount hcases).map_ok
  | field h href => exact hread .field (by simpa [Layout.hasOpcode] using h) (yields_lookup href)
  | method h href => exact hread .method (by simpa [Layout.hasOpcode] using h) (yields_lookup href)
  | type h hname => exact hread .type (by simpa [Layout.hasOpcode] using h) (yields_lookup hname)
  | @interfaceMethod index ref href count zero =>
    refine hread .interfaceMethod rfl ((Yields.u2 index).bind_ok ?_)
    exact .find_bind href ((Yields.u1 count).bind_ok (Yields.u1 zero).map_ok)
  | @callSite index bootstrap name descriptor h zero =>
    refine hread .callSite rfl ((Yields.u2 index).bind_ok ?_)
    exact .find_bind h (Yields.u2 zero).map_ok
  | @multiArray index element h dimensions =>
    refine hread .multiArray rfl ((Yields.u2 index).bind_ok ?_)
    exact .find_bind h (Yields.u1 dimensions).map_ok

/-! ### Only spellings are read -/

theorem of_run_i1 {c c' : Cursor} {n : Int8} (h : i1.run c = .ok (n, c')) :
    c.rest = [n.toUInt8] ++ c'.rest := by
  obtain ⟨m, c₁, hm, h⟩ := of_run_bind h
  cases h
  exact of_run_u1 hm

theorem of_run_i2 {c c' : Cursor} {n : Int16} (h : i2.run c = .ok (n, c')) :
    c.rest = two n.toUInt16 ++ c'.rest := by
  obtain ⟨m, c₁, hm, h⟩ := of_run_bind h
  cases h
  exact of_run_u2 hm

theorem of_run_i4 {c c' : Cursor} {n : Int32} (h : i4.run c = .ok (n, c')) :
    c.rest = four n.toUInt32 ++ c'.rest := by
  obtain ⟨m, c₁, hm, h⟩ := of_run_bind h
  cases h
  exact of_run_u4 hm

theorem of_run_align {c c' : Cursor} (h : align.run c = .ok ((), c')) :
    ∃ padding, c.rest = padding ++ c'.rest ∧ padding.length < 4 ∧
      (c.position + padding.length) % 4 = 0 := by
  obtain ⟨here, c₁, hhere, h⟩ := of_run_bind h
  cases hhere
  obtain ⟨octets, c₂, hoctets, h⟩ := of_run_bind h
  cases h
  have hu1 : ∀ (c : Cursor) (b : UInt8) (c' : Cursor), u1.run c = .ok (b, c') →
      ∃ b, c.rest = [b] ++ c'.rest := fun _ b _ hb => ⟨b, of_run_u1 hb⟩
  obtain ⟨padding, hlength, hrest⟩ := of_run_times hu1 hoctets
  rw [List.flatMap_singleton'] at hrest
  exact ⟨padding, hrest, by omega, by omega⟩

theorem of_run_readTable {key : Int32} {count : Nat} {cases : List (Int32 × Nat)} {c c' : Cursor}
    (h : (readTable context offset key count).run c = .ok (cases, c')) :
    ∃ (distances : List Int32) (targets : List Nat),
      c.rest = (distances.flatMap fun d => four d.toUInt32) ++ c'.rest ∧
      cases = numbered key targets ∧ targets.length = count ∧
      List.Forall₂ (fun d place => InCode context.size offset d.toInt place) distances targets := by
  induction count generalizing key cases c with
  | zero =>
    cases h
    exact ⟨[], [], rfl, rfl, rfl, .nil⟩
  | succ count ih =>
    obtain ⟨distance, c₁, hdistance, h⟩ := of_run_bind h
    obtain ⟨place, c₂, hplace, h⟩ := of_run_bind h
    obtain ⟨more, c₃, hmore, h⟩ := of_run_bind h
    cases h
    obtain ⟨rfl, hinside⟩ := inCode_of_run_target hplace
    obtain ⟨distances, targets, hrest, rfl, rfl, hall⟩ := ih hmore
    refine ⟨distance :: distances, place :: targets, ?_, rfl, rfl, .cons hinside hall⟩
    rw [of_run_i4 hdistance, hrest, List.flatMap_cons, List.append_assoc]

theorem of_run_readTableSwitch {cases : List (Int32 × Nat)} {c c' : Cursor}
    (h : (readTableSwitch context offset).run c = .ok (cases, c')) :
    ∃ (low high : Int32) (distances : List Int32) (targets : List Nat),
      c.rest = four low.toUInt32 ++ (four high.toUInt32 ++
        ((distances.flatMap fun d => four d.toUInt32) ++ c'.rest)) ∧
      cases = numbered low targets ∧ low ≤ high ∧
      high.toInt - low.toInt + 1 = targets.length ∧
      List.Forall₂ (fun d place => InCode context.size offset d.toInt place) distances targets := by
  obtain ⟨low, c₁, hlow, h⟩ := of_run_bind h
  obtain ⟨high, c₂, hhigh, h⟩ := of_run_bind h
  obtain ⟨left, c₃, hleft, h⟩ := of_run_bind h
  cases hleft
  dsimp only at h
  split at h
  · cases h
  · next hbounds =>
    obtain ⟨distances, targets, hrest, rfl, hlength, hall⟩ := of_run_readTable h
    have hle : low ≤ high := Int32.not_lt.1 fun hlt => hbounds (.inl hlt)
    have hint := Int32.le_iff_toInt_le.1 hle
    refine ⟨low, high, distances, targets, ?_, rfl, hle, by omega, hall⟩
    rw [of_run_i4 hlow, of_run_i4 hhigh, hrest]

theorem of_run_readCase {case : Int32 × Nat} {c c' : Cursor}
    (h : (do
      let key ← i4
      return (key, ← target context offset (← i4)) : Reader (Int32 × Nat)).run c = .ok (case, c')) :
    ∃ pair : Int32 × Int32, c.rest = (four pair.1.toUInt32 ++ four pair.2.toUInt32) ++ c'.rest ∧
      pair.1 = case.1 ∧ InCode context.size offset pair.2.toInt case.2 := by
  obtain ⟨key, c₁, hkey, h⟩ := of_run_bind h
  obtain ⟨distance, c₂, hdistance, h⟩ := of_run_bind h
  obtain ⟨place, c₃, hplace, h⟩ := of_run_bind h
  cases h
  obtain ⟨rfl, hinside⟩ := inCode_of_run_target hplace
  refine ⟨(key, distance), ?_, rfl, hinside⟩
  rw [of_run_i4 hkey, of_run_i4 hdistance, List.append_assoc]

theorem of_run_readLookupSwitch {cases : List (Int32 × Nat)} {c c' : Cursor}
    (h : (readLookupSwitch context offset).run c = .ok (cases, c')) :
    ∃ (count : Int32) (pairs : List (Int32 × Int32)),
      c.rest = four count.toUInt32 ++
        ((pairs.flatMap fun p => four p.1.toUInt32 ++ four p.2.toUInt32) ++ c'.rest) ∧
      count.toInt = pairs.length ∧
      List.Forall₂ (fun p c => p.1 = c.1 ∧ InCode context.size offset p.2.toInt c.2)
        pairs cases := by
  obtain ⟨count, c₁, hcount, h⟩ := of_run_bind h
  obtain ⟨left, c₂, hleft, h⟩ := of_run_bind h
  cases hleft
  split at h
  · cases h
  · next hbounds =>
    have hle := Int32.le_iff_toInt_le.1 (Int32.not_lt.1 fun hlt => hbounds (.inl hlt))
    rw [Int32.toInt_zero] at hle
    obtain ⟨pairs, hlength, hrest, hall⟩ := forall₂_of_run_times (fun c a c' => of_run_readCase) h
    refine ⟨count, pairs, ?_, by omega, hall⟩
    rw [of_run_i4 hcount, hrest]

/-- Both switches begin alike: padding, then where to go by default. -/
theorem of_run_switch {readCases : Reader (List (Int32 × Nat))} {opcode : UInt8}
    {raw : Instruction} {c c' : Cursor}
    (h : (do
      align
      let default ← target context offset (← i4)
      return ⟨opcode, .switch default (← readCases)⟩ : Reader Instruction).run c = .ok (raw, c')) :
    ∃ (padding : List UInt8) (distance : Int32) (default : Nat) (cases : List (Int32 × Nat))
      (c₁ : Cursor), c.rest = padding ++ (four distance.toUInt32 ++ c₁.rest) ∧
      (padding.length < 4 ∧ (c.position + padding.length) % 4 = 0) ∧
      InCode context.size offset distance.toInt default ∧
      readCases.run c₁ = .ok (cases, c') ∧ raw = ⟨opcode, .switch default cases⟩ := by
  obtain ⟨⟨⟩, c₁, halign, h⟩ := of_run_bind h
  obtain ⟨distance, c₂, hdistance, h⟩ := of_run_bind h
  obtain ⟨default, c₃, hdefault, h⟩ := of_run_bind h
  obtain ⟨cases, c₄, hcases, h⟩ := of_run_bind h
  cases h
  obtain ⟨padding, hpadding, hlength⟩ := of_run_align halign
  obtain ⟨rfl, hinside⟩ := inCode_of_run_target hdefault
  rw [of_run_i4 hdistance] at hpadding
  exact ⟨padding, distance, default, cases, c₃, hpadding, hlength, hinside, hcases, rfl⟩

theorem of_run_readWide {raw : Instruction} {c c' : Cursor}
    (h : readWide.run c = .ok (raw, c')) :
    ∃ octets, c.rest = octets ++ c'.rest ∧ ∀ pool bootstraps leads,
      Spells pool bootstraps leads offset raw (0xc4 :: octets) := by
  obtain ⟨opcode, c₁, hopcode, h⟩ := of_run_bind h
  rw [of_run_u1 hopcode]
  split at h
  · next hlayout =>
    obtain ⟨index, c₂, hindex, h⟩ := of_run_bind h
    cases h
    refine ⟨opcode :: two index, by rw [of_run_u2 hindex]; rfl, fun _ _ _ => ?_⟩
    exact .wideLocalVar (Layout.ofOpcode?_eq_some_iff.1 hlayout) index
  · next hlayout =>
    obtain ⟨index, c₂, hindex, h⟩ := of_run_bind h
    obtain ⟨delta, c₃, hdelta, h⟩ := of_run_bind h
    cases h
    obtain rfl : opcode = 0x84 := eq_of_beq (Layout.ofOpcode?_eq_some_iff.1 hlayout)
    refine ⟨0x84 :: (two index ++ two delta.toUInt16), ?_, fun _ _ _ => .wideIncrement index delta⟩
    rw [of_run_u2 hindex, of_run_i2 hdelta]
    simp
  · cases h

theorem of_run_lookup {α : Type} {find : UInt16 → Except Fault α} {f : α → Instruction}
    {raw : Instruction} {c c' : Cursor}
    (h : (do return f (← find (← u2)) : Reader Instruction).run c = .ok (raw, c')) :
    ∃ index a, c.rest = two index ++ c'.rest ∧ find index = .ok a ∧ raw = f a := by
  obtain ⟨index, c₁, hindex, h⟩ := of_run_bind h
  obtain ⟨a, ha, h⟩ := of_run_lift_bind h
  cases h
  exact ⟨index, a, of_run_u2 hindex, ha, rfl⟩

/-- What is read after an opcode was spelled so. -/
theorem exists_spells_cons {layout : Layout} {opcode : UInt8} {raw : Instruction}
    {bytes : List UInt8} {c' : Cursor} (hopcode : layout.hasOpcode opcode = true)
    (h : (readOperand context offset opcode layout).run ⟨offset + 1, bytes⟩ = .ok (raw, c')) :
    ∃ octets, bytes = octets ++ c'.rest ∧ Spells context.pool context.bootstraps
      (InCode context.size offset) offset raw (opcode :: octets) := by
  cases layout with
  | plain =>
    cases h
    exact ⟨[], rfl, .plain hopcode⟩
  | byte =>
    obtain ⟨value, c₁, hvalue, h⟩ := of_run_bind h
    cases h
    obtain rfl : opcode = 0x10 := eq_of_beq hopcode
    exact ⟨_, of_run_i1 hvalue, .byte value⟩
  | short =>
    obtain ⟨value, c₁, hvalue, h⟩ := of_run_bind h
    cases h
    obtain rfl : opcode = 0x11 := eq_of_beq hopcode
    exact ⟨_, of_run_i2 hvalue, .short value⟩
  | arrayType =>
    obtain ⟨type, c₁, htype, h⟩ := of_run_bind h
    cases h
    obtain rfl : opcode = 0xbc := eq_of_beq hopcode
    exact ⟨_, of_run_u1 htype, .arrayType type⟩
  | constant =>
    obtain ⟨index, c₁, hindex, h⟩ := of_run_bind h
    obtain ⟨value, hvalue, h⟩ := of_run_lift_bind h
    cases h
    obtain rfl : opcode = 0x12 := eq_of_beq hopcode
    exact ⟨_, of_run_u1 hindex, .constant hvalue⟩
  | wideConstant =>
    obtain ⟨index, value, hrest, hvalue, rfl⟩ := of_run_lookup h
    rcases Bool.or_eq_true_iff.1 hopcode with hopcode | hopcode <;>
      obtain rfl := eq_of_beq hopcode
    · exact ⟨_, hrest, .wideConstant hvalue⟩
    · exact ⟨_, hrest, .longConstant hvalue⟩
  | localVar =>
    obtain ⟨index, c₁, hindex, h⟩ := of_run_bind h
    cases h
    exact ⟨_, of_run_u1 hindex, .localVar hopcode index⟩
  | increment =>
    obtain ⟨index, c₁, hindex, h⟩ := of_run_bind h
    obtain ⟨delta, c₂, hdelta, h⟩ := of_run_bind h
    cases h
    obtain rfl : opcode = 0x84 := eq_of_beq hopcode
    refine ⟨[index, delta.toUInt8], ?_, .increment index delta⟩
    exact (of_run_u1 hindex).trans (congrArg _ (of_run_i1 hdelta))
  | branch =>
    obtain ⟨distance, c₁, hdistance, h⟩ := of_run_bind h
    obtain ⟨place, c₂, hplace, h⟩ := of_run_bind h
    cases h
    obtain ⟨rfl, hinside⟩ := inCode_of_run_target hplace
    rw [Int16.toInt_toInt32] at hinside
    exact ⟨_, of_run_i2 hdistance, .branch hopcode hinside⟩
  | wideBranch =>
    obtain ⟨distance, c₁, hdistance, h⟩ := of_run_bind h
    obtain ⟨place, c₂, hplace, h⟩ := of_run_bind h
    cases h
    obtain ⟨rfl, hinside⟩ := inCode_of_run_target hplace
    rcases Bool.or_eq_true_iff.1 hopcode with hopcode | hopcode <;>
      obtain rfl := eq_of_beq hopcode
    · exact ⟨_, of_run_i4 hdistance, .wideGoto hinside⟩
    · exact ⟨_, of_run_i4 hdistance, .wideCall hinside⟩
  | tableSwitch =>
    obtain ⟨padding, distance, default, cases, c₁, hrest, hpadding, hdefault, hcases, rfl⟩ :=
      of_run_switch h
    obtain ⟨low, high, distances, targets, hmore, rfl, hlow, hhigh, hall⟩ :=
      of_run_readTableSwitch hcases
    obtain rfl : opcode = 0xaa := eq_of_beq hopcode
    refine ⟨_, ?_, .tableSwitch hpadding hdefault hlow hhigh hall⟩
    simpa only [hmore, List.append_assoc] using hrest
  | lookupSwitch =>
    obtain ⟨padding, distance, default, cases, c₁, hrest, hpadding, hdefault, hcases, rfl⟩ :=
      of_run_switch h
    obtain ⟨count, pairs, hmore, hcount, hall⟩ := of_run_readLookupSwitch hcases
    obtain rfl : opcode = 0xab := eq_of_beq hopcode
    refine ⟨_, ?_, .lookupSwitch hpadding hdefault hcount hall⟩
    simpa only [hmore, List.append_assoc] using hrest
  | field =>
    obtain ⟨index, ref, hrest, href, rfl⟩ := of_run_lookup h
    exact ⟨_, hrest, .field (List.contains_iff_mem.1 hopcode) href⟩
  | method =>
    obtain ⟨index, ref, hrest, href, rfl⟩ := of_run_lookup h
    exact ⟨_, hrest, .method (List.contains_iff_mem.1 hopcode) href⟩
  | type =>
    obtain ⟨index, name, hrest, hname, rfl⟩ := of_run_lookup h
    exact ⟨_, hrest, .type (List.contains_iff_mem.1 hopcode) hname⟩
  | interfaceMethod =>
    obtain ⟨index, c₁, hindex, h⟩ := of_run_bind h
    obtain ⟨ref, href, h⟩ := of_run_lift_bind h
    obtain ⟨count, c₂, hcount, h⟩ := of_run_bind h
    obtain ⟨zero, c₃, hzero, h⟩ := of_run_bind h
    cases h
    obtain rfl : opcode = 0xb9 := eq_of_beq hopcode
    refine ⟨_, ?_, .interfaceMethod href count zero⟩
    have hrest := of_run_u2 hindex
    rw [of_run_u1 hcount, of_run_u1 hzero] at hrest
    simpa using hrest
  | callSite =>
    obtain ⟨index, c₁, hindex, h⟩ := of_run_bind h
    obtain ⟨⟨bootstrap, name, descriptor⟩, hsite, h⟩ := of_run_lift_bind h
    obtain ⟨zero, c₂, hzero, h⟩ := of_run_bind h
    cases h
    obtain rfl : opcode = 0xba := eq_of_beq hopcode
    refine ⟨_, ?_, .callSite hsite zero⟩
    rw [List.append_assoc, ← of_run_u2 hzero]
    exact of_run_u2 hindex
  | multiArray =>
    obtain ⟨index, c₁, hindex, h⟩ := of_run_bind h
    obtain ⟨element, helement, h⟩ := of_run_lift_bind h
    obtain ⟨dimensions, c₂, hdimensions, h⟩ := of_run_bind h
    cases h
    obtain rfl : opcode = 0xc5 := eq_of_beq hopcode
    refine ⟨_, ?_, .multiArray helement dimensions⟩
    rw [List.append_assoc, ← of_run_u1 hdimensions]
    exact of_run_u2 hindex
  | wide =>
    obtain ⟨octets, hrest, hspells⟩ := of_run_readWide h
    obtain rfl : opcode = 0xc4 := eq_of_beq hopcode
    exact ⟨octets, hrest, hspells _ _ _⟩

/-- **Only spellings are read.** -/
theorem exists_spells {raw : Instruction} {bytes : List UInt8} {c' : Cursor}
    (h : (readAt context offset).run ⟨offset, bytes⟩ = .ok (raw, c')) :
    ∃ octets, bytes = octets ++ c'.rest ∧ Spells context.pool context.bootstraps
      (InCode context.size offset) offset raw octets := by
  rcases bytes with _ | ⟨opcode, bytes⟩
  · cases h
  obtain ⟨opcode', c₁, hopcode, h⟩ := of_run_bind h
  cases hopcode
  split at h
  · next layout hlayout =>
    obtain ⟨octets, rfl, hspells⟩ :=
      exists_spells_cons (Layout.ofOpcode?_eq_some_iff.1 hlayout) h
    exact ⟨opcode :: octets, rfl, hspells⟩
  · cases h

end Bytecode

end Retest

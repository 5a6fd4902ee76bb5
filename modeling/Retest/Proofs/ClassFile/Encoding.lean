import Retest.Proofs.ClassFile.Spelling

/-!
# How the bodies of methods are encoded

The octets of a body are spellings of its instructions, one after another. A jump is given by a
distance, which depends on how long everything between it and its target was made; where padding is
needed depends on all that stands before. `Retest.Bytecode.Encodes` describes the encodings of a
body without saying how any of this is chosen.

All of them are decoded to the same instructions
(`Retest.Bytecode.decode_of_encodes`), and whatever can be decoded is an encoding
(`Retest.Bytecode.exists_encodes`). The argument has the two steps that decoding has. First jumps
lead to offsets, and pieces are read one by one; then every offset that is the start of a piece is
replaced by its ordinal, which is possible as no two pieces start at the same place.
-/

namespace Retest

open Assembly (two four)

namespace Bytecode

open Reader

/-! ### Encodings -/

/-- Instructions spelled one after another, the first of them at an offset. -/
inductive SpellsFrom (pool : Pool) (bootstraps : List Bootstrap)
    (leads : (offset : Nat) → Int → Nat → Prop) :
    (offset : Nat) → List Instruction → List (List UInt8) → Prop where
  | nil {offset : Nat} : SpellsFrom pool bootstraps leads offset [] []
  | cons {offset : Nat} {instruction : Instruction} {instructions : List Instruction}
    {piece : List UInt8} {pieces : List (List UInt8)}
    (h : Spells pool bootstraps (leads offset) offset instruction piece)
    (hmore : SpellsFrom pool bootstraps leads (offset + piece.length) instructions pieces) :
    SpellsFrom pool bootstraps leads offset (instruction :: instructions) (piece :: pieces)

/-- The offsets at which pieces start, the first of them at a given one. -/
def startsFrom (offset : Nat) (pieces : List (List UInt8)) : List Nat :=
  AsmOp.offsetsFrom offset (pieces.map List.length)

/-- A distance leads from an offset to the start of an instruction, given by its ordinal. -/
def Leads (starts : List Nat) (offset : Nat) (distance : Int) (target : Nat) : Prop :=
  ∃ start, starts[target]? = some start ∧ (start : Int) = offset + distance

/-- A handler is encoded by offsets that stand for its ordinals. -/
structure EncodesHandler (pool : Pool) (places : List Nat) (handler : Handler)
    (range : HandlerRange) : Prop where
  start : places[handler.start]? = some range.start.toNat
  stop : places[handler.stop]? = some range.stop.toNat
  target : places[handler.target]? = some range.target.toNat
  catchType : pool.unit? range.catchType = .ok handler.catchType

/-- **The encodings of a body.** Its octets come in pieces, which spell one instruction each; the
targets of jumps are starts of pieces. Handlers may lead to the end of the code as well. -/
structure Encodes (pool : Pool) (bootstraps : List Bootstrap) (code : Code)
    (pieces : List (List UInt8)) (body : Bytecode) : Prop where
  maxStack : body.maxStack = code.maxStack
  maxLocals : body.maxLocals = code.maxLocals
  octets : body.octets = pieces.flatten
  instructions :
    SpellsFrom pool bootstraps (Leads (startsFrom 0 pieces)) 0 code.instructions pieces
  handlers : List.Forall₂ (fun range handler => EncodesHandler pool
    (startsFrom 0 pieces ++ [body.octets.length]) handler range) body.handlers code.handlers

variable {pool : Pool} {bootstraps : List Bootstrap} {offset : Nat}

/-! ### Starts -/

theorem Spells.length_pos {leads : Int → Nat → Prop} {instruction : Instruction}
    {octets : List UInt8} (h : Spells pool bootstraps leads offset instruction octets) :
    0 < octets.length := by
  cases h <;> exact Nat.zero_lt_succ _

theorem SpellsFrom.length_pos {leads : Nat → Int → Nat → Prop} {instructions : List Instruction}
    {pieces : List (List UInt8)} (h : SpellsFrom pool bootstraps leads offset instructions pieces) :
    ∀ piece ∈ pieces, 0 < piece.length := by
  induction h with
  | nil => exact fun _ hpiece => absurd hpiece List.not_mem_nil
  | cons h _ ih => exact List.forall_mem_cons.2 ⟨h.length_pos, ih⟩

theorem SpellsFrom.length_eq {leads : Nat → Int → Nat → Prop} {instructions : List Instruction}
    {pieces : List (List UInt8)} (h : SpellsFrom pool bootstraps leads offset instructions pieces) :
    instructions.length = pieces.length := by
  induction h with
  | nil => rfl
  | cons _ _ ih => rw [List.length_cons, ih, List.length_cons]

theorem length_startsFrom (pieces : List (List UInt8)) :
    (startsFrom offset pieces).length = pieces.length := by
  rw [startsFrom, AsmOp.length_offsetsFrom, List.length_map]

/-- Pieces start one after another, and all before the end. -/
theorem pairwise_startsFrom {pieces : List (List UInt8)}
    (hpos : ∀ piece ∈ pieces, 0 < piece.length) :
    (startsFrom 0 pieces).Pairwise (· < ·) ∧
      ∀ start ∈ startsFrom 0 pieces, start < pieces.flatten.length := by
  have hlengths : ∀ size ∈ pieces.map List.length, 0 < size := by
    rintro size hsize
    obtain ⟨piece, hpiece, rfl⟩ := List.mem_map.1 hsize
    exact hpos piece hpiece
  obtain ⟨hpairwise, hbounds⟩ := AsmOp.pairwise_offsetsFrom hlengths 0
  refine ⟨hpairwise, fun start hstart => ?_⟩
  rw [List.length_flatten, ← Nat.zero_add (List.sum _)]
  exact (hbounds start hstart).2

/-- Offsets have ordinals as places of one list, which ends with the end of the code. -/
theorem ordinal_eq_ok_iff_getElem? {starts : List Nat} {size offset k : Nat}
    (hpairwise : starts.Pairwise (· < ·)) (hbelow : ∀ start ∈ starts, start < size) :
    ordinal starts size offset = .ok k ↔ (starts ++ [size])[k]? = some offset := by
  rcases Nat.lt_or_ge k starts.length with hk | hk
  · rw [ordinal_eq_ok_iff hpairwise hbelow hk, List.getElem?_append_left hk]
  · -- only the end of the code is left
    constructor
    · intro h
      rw [ordinal] at h
      split at h
      · next hsize =>
        cases h
        rw [List.getElem?_concat_length, hsize]
      · split at h
        · next j hj =>
          cases h
          exact absurd (List.idxOf?_eq_some_iff.1 hj).1 (Nat.not_lt.2 hk)
        · cases h
    · intro h
      have hlt := (List.getElem?_eq_some_iff.1 h).1
      rw [List.length_append, List.length_singleton] at hlt
      obtain rfl : k = starts.length := by omega
      rw [List.getElem?_concat_length, Option.some_inj] at h
      rw [ordinal, if_pos h.symm]

/-- A distance leads to an instruction if it leads to an offset with the ordinal of it. -/
theorem leads_iff {starts : List Nat} {size : Nat} (hpairwise : starts.Pairwise (· < ·))
    (hbelow : ∀ start ∈ starts, start < size) (offset : Nat) (distance : Int) (target : Nat) :
    Leads starts offset distance target ↔
      ∃ place, InCode size offset distance place ∧ ordinal starts size place = .ok target := by
  simp only [ordinal_eq_ok_iff_getElem? hpairwise hbelow, InCode]
  constructor
  · rintro ⟨start, hstart, hdistance⟩
    have hlt := (List.getElem?_eq_some_iff.1 hstart).1
    refine ⟨start, ⟨hdistance, hbelow start (List.mem_of_getElem? hstart)⟩, ?_⟩
    rwa [List.getElem?_append_left hlt]
  · rintro ⟨place, ⟨hdistance, hlt⟩, hplace⟩
    refine ⟨place, ?_, hdistance⟩
    obtain ⟨htarget, -⟩ := List.getElem?_eq_some_iff.1 hplace
    rw [List.length_append, List.length_singleton] at htarget
    rcases Nat.lt_succ_iff_lt_or_eq.1 htarget with htarget | rfl
    · rwa [List.getElem?_append_left htarget] at hplace
    · -- the end of the code is not inside it
      rw [List.getElem?_concat_length, Option.some_inj] at hplace
      omega

/-! ### From offsets to ordinals -/

/-- Something is related in two steps, all along a list. -/
theorem forall₂_iff_exists {α β γ : Type} {R : α → γ → Prop} {S : α → β → Prop} {T : β → γ → Prop}
    (h : ∀ a c, R a c ↔ ∃ b, S a b ∧ T b c) {l : List α} {n : List γ} :
    List.Forall₂ R l n ↔ ∃ m, List.Forall₂ S l m ∧ List.Forall₂ T m n := by
  constructor
  · intro hall
    induction hall with
    | nil => exact ⟨[], .nil, .nil⟩
    | cons hac _ ih =>
      obtain ⟨b, hab, hbc⟩ := (h _ _).1 hac
      obtain ⟨m, hm, hn⟩ := ih
      exact ⟨b :: m, .cons hab hm, .cons hbc hn⟩
  · rintro ⟨m, hm, hn⟩
    induction hm generalizing n with
    | nil =>
      cases hn
      exact .nil
    | cons hab _ ih =>
      cases hn with
      | cons hbc hn => exact .cons ((h _ _).2 ⟨_, hab, hbc⟩) (ih hn)

section Settles

variable {f : Nat → Except Fault Nat}

/-- Other places are put into an instruction. -/
def Settles (f : Nat → Except Fault Nat) (raw instruction : Instruction) : Prop :=
  raw.opcode = instruction.opcode ∧ raw.operand.mapTargets f = .ok instruction.operand

/-- The cases of a switch keep their keys. -/
def SettlesCase (f : Nat → Except Fault Nat) (raw case : Int32 × Nat) : Prop :=
  raw.1 = case.1 ∧ f raw.2 = .ok case.2

/-- Without targets an instruction stays what it is. -/
theorem settles_iff_eq {raw instruction : Instruction}
    (h : raw.operand.mapTargets f = .ok raw.operand) :
    Settles f raw instruction ↔ raw = instruction := by
  constructor
  · rintro ⟨hopcode, hoperand⟩
    rw [h] at hoperand
    obtain ⟨opcode, operand⟩ := instruction
    cases hopcode
    cases hoperand
    rfl
  · rintro rfl
    exact ⟨rfl, h⟩

theorem settles_branch_iff {opcode : UInt8} {place : Nat} {instruction : Instruction} :
    Settles f ⟨opcode, .branch place⟩ instruction ↔
      ∃ target, f place = .ok target ∧ instruction = ⟨opcode, .branch target⟩ := by
  constructor
  · rintro ⟨hopcode, hoperand⟩
    obtain ⟨target, htarget, h⟩ := bind_eq_ok_iff.1 hoperand
    obtain ⟨opcode', operand⟩ := instruction
    cases hopcode
    cases h
    exact ⟨target, htarget, rfl⟩
  · rintro ⟨target, htarget, rfl⟩
    exact ⟨rfl, bind_eq_ok_iff.2 ⟨target, htarget, rfl⟩⟩

theorem settles_switch_iff {opcode : UInt8} {default : Nat} {cases : List (Int32 × Nat)}
    {instruction : Instruction} : Settles f ⟨opcode, .switch default cases⟩ instruction ↔
      ∃ default' cases', f default = .ok default' ∧
        List.Forall₂ (SettlesCase f) cases cases' ∧
          instruction = ⟨opcode, .switch default' cases'⟩ := by
  have hcase : ∀ p p' : Int32 × Nat,
      (do return (p.1, ← f p.2) : Except Fault (Int32 × Nat)) = .ok p' ↔ SettlesCase f p p' := by
    intro p p'
    rw [bind_eq_ok_iff]
    constructor
    · rintro ⟨target, htarget, h⟩
      cases h
      exact ⟨rfl, htarget⟩
    · rintro ⟨hkey, htarget⟩
      exact ⟨p'.2, htarget, by rw [hkey]; rfl⟩
  constructor
  · rintro ⟨hopcode, hoperand⟩
    obtain ⟨default', hdefault, h⟩ := bind_eq_ok_iff.1 hoperand
    obtain ⟨cases', hcases, h⟩ := bind_eq_ok_iff.1 h
    obtain ⟨opcode', operand⟩ := instruction
    cases hopcode
    cases h
    refine ⟨default', cases', hdefault, ?_, rfl⟩
    exact (mapM_eq_ok_iff.1 hcases).imp fun p p' => (hcase p p').1
  · rintro ⟨default', cases', hdefault, hcases, rfl⟩
    have hmapM := mapM_eq_ok_iff.2 (hcases.imp fun p p' => (hcase p p').2)
    exact ⟨rfl, bind_eq_ok_iff.2 ⟨default', hdefault, bind_eq_ok_iff.2 ⟨cases', hmapM, rfl⟩⟩⟩

theorem forall₂_settlesCase_numbered_iff {key : Int32} {places : List Nat}
    {cases : List (Int32 × Nat)} : List.Forall₂ (SettlesCase f) (numbered key places) cases ↔
      ∃ targets, List.Forall₂ (fun place target => f place = .ok target) places targets ∧
        cases = numbered key targets := by
  induction places generalizing key cases with
  | nil =>
    rw [numbered, List.forall₂_nil_left_iff]
    constructor
    · rintro rfl
      exact ⟨[], .nil, rfl⟩
    · rintro ⟨targets, htargets, rfl⟩
      cases htargets
      rfl
  | cons place places ih =>
    rw [numbered, List.forall₂_cons_left_iff]
    constructor
    · rintro ⟨⟨key', target⟩, cases, ⟨hkey, htarget⟩, hcases, rfl⟩
      cases hkey
      obtain ⟨targets, htargets, rfl⟩ := ih.1 hcases
      exact ⟨target :: targets, .cons htarget htargets, rfl⟩
    · rintro ⟨targets, htargets, rfl⟩
      obtain ⟨target, targets, htarget, hmore, rfl⟩ := List.forall₂_cons_left_iff.1 htargets
      exact ⟨(key, target), _, ⟨rfl, htarget⟩, ih.2 ⟨targets, hmore, rfl⟩, rfl⟩

variable {leads leads' : Int → Nat → Prop}

/-- **The same octets spell an instruction before and after other places are put into it.** -/
theorem spells_iff_exists (h : ∀ distance target, leads' distance target ↔
      ∃ place, leads distance place ∧ f place = .ok target)
    {instruction : Instruction} {octets : List UInt8} :
    Spells pool bootstraps leads' offset instruction octets ↔
      ∃ raw, Spells pool bootstraps leads offset raw octets ∧ Settles f raw instruction := by
  have htable := fun d : Int32 => h d.toInt
  have hlookup : ∀ (pair : Int32 × Int32) (case : Int32 × Nat),
      pair.1 = case.1 ∧ leads' pair.2.toInt case.2 ↔ ∃ raw : Int32 × Nat,
        (pair.1 = raw.1 ∧ leads pair.2.toInt raw.2) ∧ SettlesCase f raw case := by
    intro pair case
    rw [h]
    constructor
    · rintro ⟨hkey, place, hplace, htarget⟩
      exact ⟨(pair.1, place), ⟨rfl, hplace⟩, hkey, htarget⟩
    · rintro ⟨raw, ⟨hkey, hplace⟩, hkey', htarget⟩
      exact ⟨hkey.trans hkey', raw.2, hplace, htarget⟩
  constructor
  · intro hspells
    cases hspells with
    | branch hopcode htarget =>
      obtain ⟨place, hplace, htarget⟩ := (h _ _).1 htarget
      exact ⟨_, .branch hopcode hplace, settles_branch_iff.2 ⟨_, htarget, rfl⟩⟩
    | wideGoto htarget =>
      obtain ⟨place, hplace, htarget⟩ := (h _ _).1 htarget
      exact ⟨_, .wideGoto hplace, settles_branch_iff.2 ⟨_, htarget, rfl⟩⟩
    | wideCall htarget =>
      obtain ⟨place, hplace, htarget⟩ := (h _ _).1 htarget
      exact ⟨_, .wideCall hplace, settles_branch_iff.2 ⟨_, htarget, rfl⟩⟩
    | tableSwitch hpadding hdefault hlow hhigh htargets =>
      obtain ⟨default, hplace, hdefault⟩ := (h _ _).1 hdefault
      obtain ⟨places, hplaces, htargets⟩ := (forall₂_iff_exists htable).1 htargets
      rw [← htargets.length_eq] at hhigh
      refine ⟨_, .tableSwitch hpadding hplace hlow hhigh hplaces,
        settles_switch_iff.2 ⟨_, _, hdefault, ?_, rfl⟩⟩
      exact forall₂_settlesCase_numbered_iff.2 ⟨_, htargets, rfl⟩
    | lookupSwitch hpadding hdefault hcount hcases =>
      obtain ⟨default, hplace, hdefault⟩ := (h _ _).1 hdefault
      obtain ⟨raws, hraws, hcases⟩ := (forall₂_iff_exists hlookup).1 hcases
      exact ⟨_, .lookupSwitch hpadding hplace hcount hraws,
        settles_switch_iff.2 ⟨_, _, hdefault, hcases, rfl⟩⟩
    | _ =>
      refine ⟨_, ?_, (settles_iff_eq rfl).2 rfl⟩
      constructor <;> assumption
  · rintro ⟨raw, hspells, hsettles⟩
    cases hspells with
    | branch hopcode hplace =>
      obtain ⟨target, htarget, rfl⟩ := settles_branch_iff.1 hsettles
      exact .branch hopcode ((h _ _).2 ⟨_, hplace, htarget⟩)
    | wideGoto hplace =>
      obtain ⟨target, htarget, rfl⟩ := settles_branch_iff.1 hsettles
      exact .wideGoto ((h _ _).2 ⟨_, hplace, htarget⟩)
    | wideCall hplace =>
      obtain ⟨target, htarget, rfl⟩ := settles_branch_iff.1 hsettles
      exact .wideCall ((h _ _).2 ⟨_, hplace, htarget⟩)
    | tableSwitch hpadding hplace hlow hhigh hplaces =>
      obtain ⟨default, cases, hdefault, hcases, rfl⟩ := settles_switch_iff.1 hsettles
      obtain ⟨targets, htargets, rfl⟩ := forall₂_settlesCase_numbered_iff.1 hcases
      rw [htargets.length_eq] at hhigh
      exact .tableSwitch hpadding ((h _ _).2 ⟨_, hplace, hdefault⟩) hlow hhigh
        ((forall₂_iff_exists htable).2 ⟨_, hplaces, htargets⟩)
    | lookupSwitch hpadding hplace hcount hraws =>
      obtain ⟨default, cases, hdefault, hcases, rfl⟩ := settles_switch_iff.1 hsettles
      exact .lookupSwitch hpadding ((h _ _).2 ⟨_, hplace, hdefault⟩) hcount
        ((forall₂_iff_exists hlookup).2 ⟨_, hraws, hcases⟩)
    | _ =>
      obtain rfl := (settles_iff_eq rfl).1 hsettles
      constructor <;> assumption

end Settles

/-- The same pieces spell instructions with offsets and with ordinals. -/
theorem spellsFrom_iff_exists {f : Nat → Except Fault Nat} {leads leads' : Nat → Int → Nat → Prop}
    (h : ∀ offset distance target, leads' offset distance target ↔
      ∃ place, leads offset distance place ∧ f place = .ok target)
    {instructions : List Instruction} {pieces : List (List UInt8)} :
    SpellsFrom pool bootstraps leads' offset instructions pieces ↔
      ∃ raws, SpellsFrom pool bootstraps leads offset raws pieces ∧
        List.Forall₂ (Settles f) raws instructions := by
  constructor
  · intro hspells
    induction hspells with
    | nil => exact ⟨[], .nil, .nil⟩
    | cons hspells _ ih =>
      obtain ⟨raw, hraw, hsettles⟩ := (spells_iff_exists (h _)).1 hspells
      obtain ⟨raws, hraws, hall⟩ := ih
      exact ⟨raw :: raws, .cons hraw hraws, .cons hsettles hall⟩
  · rintro ⟨raws, hspells, hall⟩
    induction hspells generalizing instructions with
    | nil =>
      cases hall
      exact .nil
    | cons hspells _ ih =>
      cases hall with
      | cons hsettles hall =>
        exact .cons ((spells_iff_exists (h _)).2 ⟨_, hspells, hsettles⟩) (ih hall)

/-! ### Reading pieces -/

theorem startsFrom_cons (piece : List UInt8) (pieces : List (List UInt8)) :
    startsFrom offset (piece :: pieces) = offset :: startsFrom (offset + piece.length) pieces := rfl

/-- A piece is read together with the offset at which it starts. -/
theorem run_readInstruction_of_spells {context : Context} {raw : Instruction}
    {piece rest : List UInt8}
    (h : Spells context.pool context.bootstraps (InCode context.size offset) offset raw piece) :
    (readInstruction context).run ⟨offset, piece ++ rest⟩ =
      .ok ((offset, raw), ⟨offset + piece.length, rest⟩) := by
  have hread : Takes (do return (offset, ← readAt context offset)) offset piece (offset, raw) := by
    intro rest
    rw [StateT.run_bind, takes_of_spells h]
    rfl
  rw [readInstruction_eq]
  exact hread rest

/-- **Pieces are read as the instructions they spell.** -/
theorem run_untilEnd_of_spellsFrom {size : Nat} {raws : List Instruction}
    {pieces : List (List UInt8)}
    (h : SpellsFrom pool bootstraps (InCode size) offset raws pieces) {fuel : Nat}
    (hfuel : pieces.flatten.length ≤ fuel) :
    (untilEnd (readInstruction ⟨pool, bootstraps, size⟩) fuel).run ⟨offset, pieces.flatten⟩ =
      .ok ((startsFrom offset pieces).zip raws, ⟨offset + pieces.flatten.length, []⟩) := by
  induction h generalizing fuel with
  | nil => cases fuel <;> rfl
  | @cons offset raw raws piece pieces hspells _ ih =>
    have hpos := hspells.length_pos
    rw [List.flatten_cons, List.length_append] at hfuel ⊢
    -- every piece takes up an octet, so one unit of fuel for each octet is enough
    obtain ⟨fuel, rfl⟩ : ∃ n, fuel = n + 1 := ⟨fuel - 1, by omega⟩
    rw [run_untilEnd_succ _ _ _ (by rw [List.length_append]; omega),
      run_readInstruction_of_spells hspells]
    show (do
      let q ← (untilEnd (readInstruction ⟨pool, bootstraps, size⟩) fuel).run
        ⟨offset + piece.length, pieces.flatten⟩
      return ((offset, raw) :: q.1, q.2)) = _
    rw [ih (by omega), startsFrom_cons, Nat.add_assoc]
    rfl

/-- An instruction that is read was a piece of what was there. -/
theorem exists_piece {context : Context} {bytes : List UInt8} {p : Nat × Instruction} {c' : Cursor}
    (h : (readInstruction context).run ⟨offset, bytes⟩ = .ok (p, c')) :
    ∃ raw piece rest, bytes = piece ++ rest ∧
      Spells context.pool context.bootstraps (InCode context.size offset) offset raw piece ∧
        p = (offset, raw) ∧ c' = ⟨offset + piece.length, rest⟩ := by
  rw [readInstruction_eq] at h
  obtain ⟨here, c₁, hhere, h⟩ := of_run_bind h
  cases hhere
  obtain ⟨raw, c₂, hraw, h⟩ := of_run_bind h
  cases h
  obtain ⟨piece, hbytes, hspells⟩ := exists_spells hraw
  -- where the cursor stands is known from reading the spelling once more
  have htakes := takes_of_spells hspells c'.rest
  rw [← hbytes, hraw] at htakes
  exact ⟨raw, piece, c'.rest, hbytes, hspells, rfl, (Prod.mk.inj (Except.ok.inj htakes)).2⟩

/-- **Whatever is read comes in pieces.** -/
theorem exists_spellsFrom {size fuel : Nat} {bytes : List UInt8} {read : List (Nat × Instruction)}
    {c' : Cursor} (hfuel : bytes.length ≤ fuel)
    (h : (untilEnd (readInstruction ⟨pool, bootstraps, size⟩) fuel).run ⟨offset, bytes⟩ =
      .ok (read, c')) :
    ∃ raws pieces, bytes = pieces.flatten ∧
      SpellsFrom pool bootstraps (InCode size) offset raws pieces ∧
        read = (startsFrom offset pieces).zip raws := by
  induction fuel generalizing offset bytes read with
  | zero =>
    obtain rfl := List.length_eq_zero_iff.1 (Nat.le_zero.1 hfuel)
    cases h
    exact ⟨[], [], rfl, .nil, rfl⟩
  | succ fuel ih =>
    rcases Nat.eq_zero_or_pos bytes.length with hempty | hpos
    · obtain rfl := List.length_eq_zero_iff.1 hempty
      cases h
      exact ⟨[], [], rfl, .nil, rfl⟩
    · rw [run_untilEnd_succ _ _ _ hpos] at h
      obtain ⟨⟨p, c₁⟩, hread, h⟩ := bind_eq_ok_iff.1 h
      obtain ⟨⟨more, c₂⟩, hmore, h⟩ := bind_eq_ok_iff.1 h
      cases h
      obtain ⟨raw, piece, rest, rfl, hspells, rfl, rfl⟩ := exists_piece hread
      have hpiece := hspells.length_pos
      rw [List.length_append] at hfuel
      obtain ⟨raws, pieces, rfl, hpieces, rfl⟩ := ih (by omega) hmore
      exact ⟨raw :: raws, piece :: pieces, rfl, .cons hspells hpieces, rfl⟩

/-- Octets can be read to the end if they come in pieces. -/
theorem within_untilEnd_eq_ok_iff {size : Nat} {bytes : List UInt8}
    {read : List (Nat × Instruction)} :
    within bytes (untilEnd (readInstruction ⟨pool, bootstraps, size⟩) bytes.length) = .ok read ↔
      ∃ raws pieces, bytes = pieces.flatten ∧
        SpellsFrom pool bootstraps (InCode size) 0 raws pieces ∧
          read = (startsFrom 0 pieces).zip raws := by
  constructor
  · intro h
    obtain ⟨c, hrun⟩ := of_within h
    exact exists_spellsFrom le_rfl hrun
  · rintro ⟨raws, pieces, rfl, hspells, rfl⟩
    rw [within, run_untilEnd_of_spellsFrom hspells le_rfl]
    rfl

/-! ### Decoding -/

theorem settle_eq_ok_iff {starts : List Nat} {size : Nat} {p : Nat × Instruction}
    {instruction : Instruction} :
    AsmOp.settle starts size p = .ok instruction ↔
      Settles (ordinal starts size) p.2 instruction := by
  rw [AsmOp.settle, bind_eq_ok_iff]
  constructor
  · rintro ⟨operand, hoperand, h⟩
    cases h
    exact ⟨rfl, hoperand⟩
  · rintro ⟨hopcode, hoperand⟩
    exact ⟨instruction.operand, hoperand, by rw [hopcode]; rfl⟩

theorem decodeHandler_eq_ok_iff {starts : List Nat} {size : Nat} {range : HandlerRange}
    {handler : Handler} (hpairwise : starts.Pairwise (· < ·))
    (hbelow : ∀ start ∈ starts, start < size) :
    decodeHandler pool (ordinal starts size) range = .ok handler ↔
      EncodesHandler pool (starts ++ [size]) handler range := by
  constructor
  · intro h
    obtain ⟨start, hstart, h⟩ := bind_eq_ok_iff.1 h
    obtain ⟨stop, hstop, h⟩ := bind_eq_ok_iff.1 h
    obtain ⟨target, htarget, h⟩ := bind_eq_ok_iff.1 h
    obtain ⟨catchType, hcatchType, h⟩ := bind_eq_ok_iff.1 h
    cases h
    simp only [ordinal_eq_ok_iff_getElem? hpairwise hbelow] at hstart hstop htarget
    exact ⟨hstart, hstop, htarget, hcatchType⟩
  · rintro ⟨hstart, hstop, htarget, hcatchType⟩
    simp only [← ordinal_eq_ok_iff_getElem? hpairwise hbelow] at hstart hstop htarget
    rw [decodeHandler, hstart, hstop, htarget, hcatchType]
    rfl

/-- Decoding succeeds with all its parts. -/
theorem decode_eq_ok_iff_exists {body : Bytecode} {code : Code} :
    decode pool bootstraps body = .ok code ↔ ∃ read,
      within body.octets (untilEnd (readInstruction ⟨pool, bootstraps, body.octets.length⟩)
        body.octets.length) = .ok read ∧
      body.maxStack = code.maxStack ∧ body.maxLocals = code.maxLocals ∧
      read.mapM (AsmOp.settle (read.map Prod.fst) body.octets.length) = .ok code.instructions ∧
      body.handlers.mapM (decodeHandler pool (ordinal (read.map Prod.fst) body.octets.length)) =
        .ok code.handlers := by
  constructor
  · intro h
    obtain ⟨read, hread, h⟩ := bind_eq_ok_iff.1 h
    obtain ⟨instructions, hinstructions, h⟩ := bind_eq_ok_iff.1 h
    obtain ⟨handlers, hhandlers, h⟩ := bind_eq_ok_iff.1 h
    cases h
    exact ⟨read, hread, rfl, rfl, hinstructions, hhandlers⟩
  · rintro ⟨read, hread, hstack, hlocals, hinstructions, hhandlers⟩
    refine bind_eq_ok_iff.2 ⟨read, hread, bind_eq_ok_iff.2 ⟨_, hinstructions,
      bind_eq_ok_iff.2 ⟨_, hhandlers, ?_⟩⟩⟩
    rw [hstack, hlocals]
    rfl

/-- Instructions are settled one by one; where they start is known already. -/
theorem mapM_settle_eq_ok_iff {starts : List Nat} {size : Nat} {pieces : List (List UInt8)}
    {raws instructions : List Instruction} (hlength : raws.length = pieces.length) :
    ((startsFrom 0 pieces).zip raws).mapM (AsmOp.settle starts size) = .ok instructions ↔
      List.Forall₂ (Settles (ordinal starts size)) raws instructions := by
  have hsnd : ((startsFrom 0 pieces).zip raws).map Prod.snd = raws :=
    List.map_snd_zip (by rw [length_startsFrom, hlength])
  rw [mapM_eq_ok_iff]
  simp only [settle_eq_ok_iff]
  rw [← List.forall₂_map_left_iff, hsnd]

theorem map_fst_zip_startsFrom {pieces : List (List UInt8)} {raws : List Instruction}
    (hlength : raws.length = pieces.length) :
    ((startsFrom 0 pieces).zip raws).map Prod.fst = startsFrom 0 pieces :=
  List.map_fst_zip (by rw [length_startsFrom, hlength])

variable {body : Bytecode} {code : Code} {pieces : List (List UInt8)}

/-- **Every encoding of a body is decoded to the body.** -/
theorem decode_of_encodes (h : Encodes pool bootstraps code pieces body) :
    decode pool bootstraps body = .ok code := by
  obtain ⟨hpairwise, hbelow⟩ := pairwise_startsFrom h.instructions.length_pos
  rw [← h.octets] at hbelow
  obtain ⟨raws, hraws, hsettles⟩ :=
    (spellsFrom_iff_exists (leads_iff hpairwise hbelow)).1 h.instructions
  have hlength := hraws.length_eq
  refine decode_eq_ok_iff_exists.2 ⟨(startsFrom 0 pieces).zip raws,
    within_untilEnd_eq_ok_iff.2 ⟨raws, pieces, h.octets, hraws, rfl⟩, h.maxStack, h.maxLocals, ?_⟩
  rw [map_fst_zip_startsFrom hlength]
  refine ⟨(mapM_settle_eq_ok_iff hlength).2 hsettles, mapM_eq_ok_iff.2 ?_⟩
  exact h.handlers.imp fun _ _ => (decodeHandler_eq_ok_iff hpairwise hbelow).2

/-- **Whatever can be decoded is an encoding of what comes out.** -/
theorem exists_encodes (h : decode pool bootstraps body = .ok code) :
    ∃ pieces, Encodes pool bootstraps code pieces body := by
  obtain ⟨read, hread, hstack, hlocals, hinstructions, hhandlers⟩ := decode_eq_ok_iff_exists.1 h
  obtain ⟨raws, pieces, hoctets, hraws, rfl⟩ := within_untilEnd_eq_ok_iff.1 hread
  have hlength := hraws.length_eq
  obtain ⟨hpairwise, hbelow⟩ := pairwise_startsFrom hraws.length_pos
  rw [← hoctets] at hbelow
  rw [map_fst_zip_startsFrom hlength] at hinstructions hhandlers
  refine ⟨pieces, hstack, hlocals, hoctets, ?_, ?_⟩
  · refine (spellsFrom_iff_exists (leads_iff hpairwise hbelow)).2 ⟨raws, hraws, ?_⟩
    exact (mapM_settle_eq_ok_iff hlength).1 hinstructions
  · exact (mapM_eq_ok_iff.1 hhandlers).imp fun _ _ =>
      (decodeHandler_eq_ok_iff hpairwise hbelow).1

/-- **Decoding inverts encoding.** A body decodes if and only if it is an encoding, and then to what
it encodes: no choice of spellings can be told from another, and nothing else is accepted. -/
theorem decode_eq_ok_iff (pool : Pool) (bootstraps : List Bootstrap) (body : Bytecode)
    (code : Code) : decode pool bootstraps body = .ok code ↔
      ∃ pieces, Encodes pool bootstraps code pieces body := by
  constructor
  · exact exists_encodes
  · rintro ⟨pieces, h⟩
    exact decode_of_encodes h

/-! ### A body with wide forms -/

/-- A constant that comes twice. -/
def sampleTwice : Pool := ⟨#[.unusable, .int 5, .int 5]⟩

/-- Jumps forward and backward, in branches and switches. -/
def sampleJumps : Code where
  maxStack := 2
  maxLocals := 3
  instructions := [⟨0xa7, .branch 4⟩, ⟨0x12, .constant (.int 5)⟩, ⟨0x15, .localVar 1⟩,
    ⟨0x84, .increment 1 (-2)⟩, ⟨0xaa, .switch 0 (numbered (-1) [1, 6])⟩,
    ⟨0xab, .switch 6 [(7, 3)]⟩, ⟨0xb1, .none⟩]
  handlers := [⟨0, 7, 1, none⟩]

/-- All of it in wide forms, with padding that is not zero. -/
def sampleWide : List (List UInt8) :=
  [0xc8 :: four (18 : Int32).toUInt32, 0x13 :: two 2, 0xc4 :: 0x15 :: two 1,
    0xc4 :: 0x84 :: (two 1 ++ two (-2 : Int16).toUInt16),
    0xaa :: ([0xff] ++ (four (-18 : Int32).toUInt32 ++ (four (-1 : Int32).toUInt32 ++
      (four (0 : Int32).toUInt32 ++ [-13, 42].flatMap fun d : Int32 => four d.toUInt32)))),
    0xab :: ([1, 2, 3] ++ (four (20 : Int32).toUInt32 ++ (four (1 : Int32).toUInt32 ++
      [(7, -28)].flatMap fun p : Int32 × Int32 => four p.1.toUInt32 ++ four p.2.toUInt32))),
    [0xb1]]

theorem decode_sampleWide : decode sampleTwice [] ⟨2, 3, sampleWide.flatten, [⟨0, 61, 5, 0⟩]⟩ =
    .ok sampleJumps := by
  refine (decode_eq_ok_iff _ _ _ _).2 ⟨sampleWide, rfl, rfl, rfl, ?_, ?_⟩
  · refine .cons (.wideGoto ⟨18, rfl, rfl⟩) (.cons (.wideConstant rfl)
      (.cons (.wideLocalVar rfl 1) (.cons (.wideIncrement 1 (-2)) (.cons ?_ (.cons ?_
        (.cons (.plain rfl) .nil))))))
    · exact .tableSwitch (by decide) ⟨0, rfl, rfl⟩ (by decide) rfl
        (.cons ⟨5, rfl, rfl⟩ (.cons ⟨60, rfl, rfl⟩ .nil))
    · exact .lookupSwitch (by decide) ⟨60, rfl, rfl⟩ rfl (.cons ⟨rfl, 12, rfl, rfl⟩ .nil)
  · exact .cons ⟨rfl, rfl, rfl, rfl⟩ .nil

end Bytecode

end Retest

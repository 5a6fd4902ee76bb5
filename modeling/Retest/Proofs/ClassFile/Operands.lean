import Retest.ClassFile.Decode
import Retest.Proofs.ClassFile.Readers

/-!
# Opcodes and their operands

The text of a reference to a field is that of a reference to a method, and a number is a
number whether an instruction pushes it or takes it for a type. What tells them apart is
the opcode: it fixes the kind of operand that decoding puts after it
(`Retest.ClassFile.isRead_of_decode`), also for the instructions that are kept under the
opcode of a shorter form.
-/

namespace Retest

/-- The layouts from which an operand of a kind is read. -/
def Operand.layouts : Operand → List Layout
  | none => [.plain]
  | int _ => [.byte, .short, .arrayType]
  | localVar _ => [.localVar]
  | increment _ _ => [.increment]
  | constant _ => [.constant, .wideConstant]
  | field _ => [.field]
  | method _ => [.method, .interfaceMethod]
  | type _ => [.type]
  | branch _ => [.branch, .wideBranch]
  | switch _ _ => [.tableSwitch, .lookupSwitch]
  | multiArray _ _ => [.multiArray]
  | dynamic _ _ _ => [.callSite]

/-- **An instruction that can be read**: its operand is of the kind that its opcode asks for. -/
def Instruction.IsRead (instruction : Instruction) : Prop :=
  ∃ layout ∈ instruction.operand.layouts, Layout.ofOpcode? instruction.opcode = some layout

namespace Reader

variable {α β : Type} {P : α → Prop} {Q : β → Prop}

/-- **A reader returns only values with a property.** -/
def Returns (reader : Reader α) (P : α → Prop) : Prop :=
  ∀ c a c', reader.run c = .ok (a, c') → P a

namespace Returns

theorem pure {a : α} (h : P a) : Returns (Pure.pure a) P := by
  intro c b c' hb
  cases hb
  exact h

theorem fail (fault : Fault) : Returns (Reader.fail fault) P := by
  intro c b c' hb
  cases hb

theorem bind {reader : Reader α} {next : α → Reader β} (h : ∀ a, Returns (next a) Q) :
    Returns (reader >>= next) Q := by
  intro c b c' hb
  obtain ⟨a, c₁, -, hnext⟩ := of_run_bind hb
  exact h a c₁ b c' hnext

theorem map {reader : Reader α} {f : α → β} (h : Returns reader P) (hf : ∀ a, P a → Q (f a)) :
    Returns (reader >>= fun a => Pure.pure (f a)) Q := by
  intro c b c' hb
  obtain ⟨a, c₁, ha, hnext⟩ := of_run_bind hb
  cases hnext
  exact hf a (h c a _ ha)

theorem untilEnd {reader : Reader α} (h : Returns reader P) (fuel : Nat) :
    Returns (untilEnd reader fuel) fun l => ∀ a ∈ l, P a := by
  induction fuel with
  | zero => exact pure (by simp)
  | succ fuel ih =>
    refine bind fun done => ?_
    cases done with
    | true => exact pure (by simp)
    | false =>
      intro c l c' hl
      obtain ⟨a, c₁, ha, hl⟩ := of_run_bind hl
      obtain ⟨as, c₂, has, hl⟩ := of_run_bind hl
      cases hl
      exact List.forall_mem_cons.2 ⟨h c a c₁ ha, ih c₁ as _ has⟩

end Returns

end Reader

namespace Bytecode

open Reader

theorem returns_readWide : Returns readWide Instruction.IsRead := by
  refine .bind fun opcode => ?_
  split
  · next hlayout => exact .bind fun _ => .pure ⟨.localVar, by simp [Operand.layouts], hlayout⟩
  · next hlayout =>
    exact .bind fun _ => .bind fun _ => .pure ⟨.increment, by simp [Operand.layouts], hlayout⟩
  · exact .fail _

/-- The short form of an instruction that loads a constant loads one. -/
theorem ofOpcode?_shortOpcode_constant {opcode : UInt8}
    (h : Layout.ofOpcode? opcode = some .wideConstant) :
    ∃ layout ∈ [Layout.constant, .wideConstant],
      Layout.ofOpcode? (shortOpcode opcode) = some layout := by
  unfold shortOpcode
  split
  · exact ⟨.constant, by simp, rfl⟩
  · cases h
  · cases h
  · exact ⟨.wideConstant, by simp, h⟩

/-- The short form of a jump is one. -/
theorem ofOpcode?_shortOpcode_branch {opcode : UInt8}
    (h : Layout.ofOpcode? opcode = some .wideBranch) :
    ∃ layout ∈ [Layout.branch, .wideBranch],
      Layout.ofOpcode? (shortOpcode opcode) = some layout := by
  unfold shortOpcode
  split
  · cases h
  · exact ⟨.branch, by simp, rfl⟩
  · exact ⟨.branch, by simp, rfl⟩
  · exact ⟨.wideBranch, by simp, h⟩

theorem returns_readOperand (context : Context) (offset : Nat) {opcode : UInt8} {layout : Layout}
    (h : Layout.ofOpcode? opcode = some layout) :
    Returns (readOperand context offset opcode layout) Instruction.IsRead := by
  -- what is read before the operand is put together does not matter
  have hread : ∀ operand : Operand, layout ∈ operand.layouts →
      Returns (Pure.pure ⟨opcode, operand⟩) Instruction.IsRead :=
    fun operand hlayout => .pure ⟨layout, hlayout, h⟩
  cases layout with
  | plain => exact hread _ (by simp [Operand.layouts])
  | byte | short | localVar | arrayType => exact .bind fun _ => hread _ (by simp [Operand.layouts])
  | constant | field | method | type | increment =>
    exact .bind fun _ => .bind fun _ => hread _ (by simp [Operand.layouts])
  | branch => exact .bind fun _ => .bind fun _ => hread _ (by simp [Operand.layouts])
  | wideConstant =>
    exact .bind fun _ => .bind fun _ => .pure (ofOpcode?_shortOpcode_constant h)
  | wideBranch => exact .bind fun _ => .bind fun _ => .pure (ofOpcode?_shortOpcode_branch h)
  | tableSwitch | lookupSwitch =>
    exact .bind fun _ => .bind fun _ => .bind fun _ => .bind fun _ =>
      hread _ (by simp [Operand.layouts])
  | interfaceMethod =>
    exact .bind fun _ => .bind fun _ => .bind fun _ => .bind fun _ =>
      hread _ (by simp [Operand.layouts])
  | callSite =>
    exact .bind fun _ => .bind fun _ => .bind fun _ => hread _ (by simp [Operand.layouts])
  | wide => exact returns_readWide
  | multiArray =>
    exact .bind fun _ => .bind fun _ => .bind fun _ => hread _ (by simp [Operand.layouts])

theorem returns_readInstruction (context : Context) :
    Returns (readInstruction context) fun found => found.2.IsRead := by
  refine .bind fun offset => .bind fun opcode => ?_
  split
  · next layout hlayout =>
    exact .map (returns_readOperand context offset hlayout) fun _ hread => hread
  · exact .fail _

end Bytecode

/-- Jumps get other targets, but an operand stays of its kind. -/
theorem Operand.layouts_of_mapTargets {f : Nat → Except Fault Nat} {operand operand' : Operand}
    (h : operand.mapTargets f = .ok operand') : operand'.layouts = operand.layouts := by
  cases operand with
  | branch place =>
    obtain ⟨target, -, h⟩ := bind_eq_ok_iff.1 h
    cases h
    rfl
  | switch default cases =>
    obtain ⟨target, -, h⟩ := bind_eq_ok_iff.1 h
    obtain ⟨targets, -, h⟩ := bind_eq_ok_iff.1 h
    cases h
    rfl
  | _ =>
    cases h
    rfl

/-- **The instructions of a body that was taken apart can be read.** -/
theorem Bytecode.isRead_of_decode {pool : Pool} {bootstraps : List Bootstrap} {body : Bytecode}
    {code : Code} (h : decode pool bootstraps body = .ok code) :
    ∀ instruction ∈ code.instructions, instruction.IsRead := by
  obtain ⟨found, hfound, h⟩ := bind_eq_ok_iff.1 h
  obtain ⟨instructions, hinstructions, h⟩ := bind_eq_ok_iff.1 h
  obtain ⟨handlers, -, h⟩ := bind_eq_ok_iff.1 h
  cases h
  obtain ⟨c, hrun⟩ := Reader.of_within hfound
  have hread := (returns_readInstruction _).untilEnd _ _ _ _ hrun
  refine forall_of_mapM_eq_ok (fun p instruction hp hsettled => ?_) hinstructions hread
  obtain ⟨operand, hoperand, hsettled⟩ := bind_eq_ok_iff.1 hsettled
  cases hsettled
  obtain ⟨layout, hlayout, hopcode⟩ := hp
  exact ⟨layout, Operand.layouts_of_mapTargets hoperand ▸ hlayout, hopcode⟩

/-- The code of a method comes from a body. -/
theorem MemberEntry.exists_decode_of_method {pool : Pool} {bootstraps : List Bootstrap}
    {entry : MemberEntry} {method : MethodDecl} (h : entry.method pool bootstraps = .ok method) :
    ∀ code ∈ method.code, ∃ body, entry.attributes.code = some body ∧
      Bytecode.decode pool bootstraps body = .ok code := by
  obtain ⟨code?, hcode, h⟩ := bind_eq_ok_iff.1 h
  cases h
  rintro code rfl
  cases hbody : entry.attributes.code with
  | none =>
    rw [hbody] at hcode
    cases hcode
  | some body =>
    rw [hbody, Option.mapM_some] at hcode
    obtain ⟨code', hdecode, hcode⟩ := bind_eq_ok_iff.1 hcode
    cases hcode
    exact ⟨body, rfl, hdecode⟩

theorem MemberEntry.isRead_of_method {pool : Pool} {bootstraps : List Bootstrap}
    {entry : MemberEntry} {method : MethodDecl} (h : entry.method pool bootstraps = .ok method) :
    ∀ code ∈ method.code, ∀ instruction ∈ code.instructions, instruction.IsRead := by
  intro code hcode
  obtain ⟨body, -, hdecode⟩ := exists_decode_of_method h code hcode
  exact Bytecode.isRead_of_decode hdecode

/-- **The instructions of a class file that was decoded can be read.** -/
theorem ClassFile.isRead_of_decode {bytes : List UInt8} {file : ClassFile}
    (h : decode bytes = .ok file) : ∀ method ∈ file.methods, ∀ code ∈ method.code,
      ∀ instruction ∈ code.instructions, instruction.IsRead := by
  obtain ⟨frame, -, h⟩ := bind_eq_ok_iff.1 h
  obtain ⟨bootstraps, -, h⟩ := bind_eq_ok_iff.1 h
  obtain ⟨methods, hmethods, h⟩ := bind_eq_ok_iff.1 h
  cases h
  exact forall_of_mapM_eq_ok (fun entry method _ hm => MemberEntry.isRead_of_method hm) hmethods
    fun _ _ => trivial

end Retest

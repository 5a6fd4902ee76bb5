import Retest.Assembly.Basic
import Retest.Proofs.CallGraph.Dispatch
import Retest.Proofs.ClassFile.Encoding
import Retest.Proofs.ClassFile.Operands
import Retest.Proofs.Declared

/-!
# What bootstrap methods lead to

A call site is linked by a bootstrap method when it is first run, and a dynamic constant when it is
first loaded. Code can get from there to the bootstrap method and to every handle among its
arguments; an argument may be a dynamic constant again, so that this goes on
(`Retest.Constant.LeadsTo`, `Retest.Operand.LeadsTo`).

The facts of a class file, and with them the call graph, have all that instructions lead to without
a dynamic constant on the way (`Retest.Operand.Shows`), and no call by way of a handle beyond that
(`Retest.ClassFile.mem_facts_of_bootstraps`). So a handle is missed if only a dynamic constant leads
to it, both where code loads the constant and where a call site has it as an argument
(`Retest.ClassFile.not_mem_facts_sampleRates`).
-/

namespace Retest

/-! ### Handles that code can get to -/

/-- The bootstrap method that links a constant. -/
def Constant.linked? (table : List Bootstrap) : Constant → Option Bootstrap
  | .dynamic index _ _ => table[index.toNat]?
  | _ => none

/-- **A constant leads to a handle**: it is the handle, or it is linked by a bootstrap method with
this handle, or one of whose arguments leads there. -/
inductive Constant.LeadsTo (table : List Bootstrap) : Constant → Handle → Prop where
  | handle (handle : Handle) : LeadsTo table (.handle handle) handle
  | linked {constant : Constant} {bootstrap : Bootstrap}
    (h : constant.linked? table = some bootstrap) : LeadsTo table constant bootstrap.handle
  | argument {constant argument : Constant} {bootstrap : Bootstrap} {handle : Handle}
    (h : constant.linked? table = some bootstrap) (hargument : argument ∈ bootstrap.arguments)
    (hleads : argument.LeadsTo table handle) : LeadsTo table constant handle

namespace Operand

/-- The constants that an operand gives: the one that is loaded, or the arguments for a call
site. -/
def constants : Operand → List Constant
  | .constant c => [c]
  | .dynamic _ _ (some bootstrap) => bootstrap.arguments
  | _ => []

/-- **An operand leads to a handle**: that of the bootstrap method of a call site, or one that a
constant leads to. -/
inductive LeadsTo (table : List Bootstrap) : Operand → Handle → Prop where
  | linked (name descriptor : String) (bootstrap : Bootstrap) :
    LeadsTo table (.dynamic name descriptor (some bootstrap)) bootstrap.handle
  | constant {operand : Operand} {c : Constant} {handle : Handle} (hc : c ∈ operand.constants)
    (hleads : c.LeadsTo table handle) : LeadsTo table operand handle

/-- An operand shows a handle: it leads there, where no dynamic constant is followed. -/
def Shows (operand : Operand) (handle : Handle) : Prop := operand.LeadsTo [] handle

end Operand

variable {table : List Bootstrap} {caller : MethodKey} {handle : Handle}

/-- A constant that nothing links leads to a handle only if it is one. -/
theorem Constant.eq_handle_of_leadsTo {c : Constant} (hc : c.linked? table = none)
    (h : c.LeadsTo table handle) : c = .handle handle := by
  cases h with
  | handle => rfl
  | linked h => rw [hc] at h; cases h
  | argument h => rw [hc] at h; cases h

/-- Without a table, nothing is linked. -/
@[simp] theorem Constant.linked?_nil (c : Constant) : c.linked? [] = none := by
  cases c <;> rfl

/-- What an operand shows is a bootstrap method, or a handle among its constants. -/
theorem Operand.shows_iff {operand : Operand} : operand.Shows handle ↔
    (∃ name descriptor bootstrap, operand = .dynamic name descriptor (some bootstrap) ∧
      bootstrap.handle = handle) ∨ .handle handle ∈ operand.constants := by
  constructor
  · intro h
    cases h with
    | linked name descriptor bootstrap => exact .inl ⟨name, descriptor, bootstrap, rfl, rfl⟩
    | constant hc hleads =>
      rw [Constant.eq_handle_of_leadsTo (Constant.linked?_nil _) hleads] at hc
      exact .inr hc
  · rintro (⟨name, descriptor, bootstrap, rfl, rfl⟩ | hc)
    · exact .linked name descriptor bootstrap
    · exact .constant hc (.handle handle)

/-- **Where no constant is linked, an operand shows all that it leads to.** -/
theorem Operand.shows_of_leadsTo {operand : Operand}
    (hconstants : ∀ c ∈ operand.constants, c.linked? table = .none)
    (h : operand.LeadsTo table handle) : operand.Shows handle := by
  cases h with
  | linked name descriptor bootstrap => exact .linked name descriptor bootstrap
  | constant hc hleads =>
    obtain rfl := Constant.eq_handle_of_leadsTo (hconstants _ hc) hleads
    exact .constant hc (.handle handle)

/-! ### The facts about handles -/

theorem Constant.mem_facts_iff {c : Constant} {fact : Fact} :
    fact ∈ c.facts caller ↔ ∃ handle, c = .handle handle ∧ handle.fact caller = fact := by
  cases c <;> simp [Constant.facts, eq_comm]

/-- The facts about handles are the calls by way of a handle, and some accesses. -/
theorem Handle.fact_eq_call_iff {owner : UnitName} {signature : Signature} :
    handle.fact caller = .call caller owner signature .handle ↔
      handle.isField = false ∧ handle.member.owner = owner ∧
        handle.member.signature = signature := by
  rw [Handle.fact]
  cases handle.isField <;> simp

/-- No opcode calls by way of a handle. -/
theorem CallKind.ofOpcode_ne_handle (opcode : UInt8) : ofOpcode opcode ≠ .handle := by
  unfold ofOpcode
  split <;> exact CallKind.noConfusion

namespace Instruction

variable {instruction : Instruction}

theorem mem_facts_of_shows (h : instruction.operand.Shows handle) :
    handle.fact caller ∈ instruction.facts caller := by
  obtain ⟨opcode, operand⟩ := instruction
  rcases Operand.shows_iff.1 h with ⟨name, descriptor, bootstrap, rfl, rfl⟩ | hc
  · exact List.mem_cons_self
  · cases operand with
    | constant c =>
      obtain rfl := List.mem_singleton.1 hc
      exact List.mem_singleton_self _
    | dynamic name descriptor bootstrap? =>
      cases bootstrap? with
      | none => cases hc
      | some bootstrap =>
        have hfact : handle.fact caller ∈ Constant.facts caller (.handle handle) :=
          List.mem_singleton_self _
        exact List.mem_cons_of_mem _ (List.mem_flatMap.2 ⟨_, hc, hfact⟩)
    | _ => cases hc

/-- A call by way of a handle is one of a handle that is shown. -/
theorem exists_shows_of_mem_facts {owner : UnitName} {signature : Signature}
    (h : .call caller owner signature .handle ∈ instruction.facts caller) :
    ∃ handle, instruction.operand.Shows handle ∧
      handle.fact caller = .call caller owner signature .handle := by
  obtain ⟨opcode, operand⟩ := instruction
  cases operand with
  | method target =>
    obtain ⟨-, -, -, hkind⟩ := Fact.call.inj (List.mem_singleton.1 h)
    exact absurd hkind.symm (CallKind.ofOpcode_ne_handle opcode)
  | field target => cases List.mem_singleton.1 h
  | constant c =>
    obtain ⟨handle, rfl, hfact⟩ := Constant.mem_facts_iff.1 h
    exact ⟨handle, Operand.shows_iff.2 (.inr (List.mem_singleton_self _)), hfact⟩
  | dynamic name descriptor bootstrap? =>
    cases bootstrap? with
    | none => cases h
    | some bootstrap =>
      rcases List.mem_cons.1 h with h | h
      · exact ⟨bootstrap.handle, .linked name descriptor bootstrap, h.symm⟩
      · obtain ⟨c, hc, hfact⟩ := List.mem_flatMap.1 h
        obtain ⟨handle, rfl, hcall⟩ := Constant.mem_facts_iff.1 hfact
        exact ⟨handle, Operand.shows_iff.2 (.inr hc), hcall⟩
  | _ => cases h

end Instruction

/-! ### The table of bootstrap methods -/

theorem Bytecode.SpellsFrom.exists_spells {pool : Pool} {bootstraps : List Bootstrap}
    {leads : Nat → Int → Nat → Prop} {offset : Nat} {instructions : List Instruction}
    {pieces : List (List UInt8)} (h : SpellsFrom pool bootstraps leads offset instructions pieces) :
    ∀ instruction ∈ instructions, ∃ place piece,
      Spells pool bootstraps (leads place) place instruction piece := by
  induction h with
  | nil => exact List.forall_mem_nil _
  | cons hspells _ ih => exact List.forall_mem_cons.2 ⟨⟨_, _, hspells⟩, ih⟩

/-- A call site is linked by a bootstrap method of the table. -/
theorem Bytecode.exists_index_of_dynamic {pool : Pool} {body : Bytecode} {code : Code}
    {instruction : Instruction} {name descriptor : String} {bootstrap : Option Bootstrap}
    (h : decode pool table body = .ok code) (hinstruction : instruction ∈ code.instructions)
    (hoperand : instruction.operand = .dynamic name descriptor bootstrap) :
    ∃ index : UInt16, bootstrap = table[index.toNat]? := by
  obtain ⟨pieces, hencodes⟩ := exists_encodes h
  obtain ⟨place, piece, hspells⟩ := hencodes.instructions.exists_spells instruction hinstruction
  cases hspells with
  | @callSite _ index _ _ _ _ =>
    cases hoperand
    exact ⟨index, rfl⟩
  | _ => cases hoperand

namespace ClassFile

/-- The bootstrap methods of a class file. -/
def bootstraps (bytes : List UInt8) : Except Fault (List Bootstrap) := do
  let frame ← Reader.within bytes Frame.read
  frame.attributes.bootstraps.mapM (BootstrapEntry.resolve frame.pool)

/-- The methods of a class file that was decoded have their code from bodies, which were taken apart
with the bootstrap methods of the class file. -/
theorem exists_bootstraps_of_decode {bytes : List UInt8} {file : ClassFile}
    (h : decode bytes = .ok file) : ∃ table, bootstraps bytes = .ok table ∧
      ∀ method ∈ file.methods, ∀ code ∈ method.code,
        ∃ pool body, Bytecode.decode pool table body = .ok code := by
  obtain ⟨frame, hframe, h⟩ := bind_eq_ok_iff.1 h
  obtain ⟨table, htable, h⟩ := bind_eq_ok_iff.1 h
  obtain ⟨methods, hmethods, h⟩ := bind_eq_ok_iff.1 h
  cases h
  refine ⟨table, bind_eq_ok_iff.2 ⟨frame, hframe, htable⟩, ?_⟩
  refine forall_of_mapM_eq_ok (fun entry method _ hmethod code hcode => ?_) hmethods
    fun _ _ => trivial
  obtain ⟨body, -, hdecode⟩ := MemberEntry.exists_decode_of_method hmethod code hcode
  exact ⟨frame.pool, body, hdecode⟩

/-! ### What class files say about handles -/

/-- **The calls by way of handles** that a class file has are those of the handles it shows. -/
theorem call_handle_mem_facts_iff {file : ClassFile} {owner : UnitName} {signature : Signature} :
    .call caller owner signature .handle ∈ file.facts ↔
      ∃ method ∈ file.methods, caller = ⟨file.name, method.slot⟩ ∧ ∃ code ∈ method.code,
        ∃ instruction ∈ code.instructions, ∃ handle, instruction.operand.Shows handle ∧
          handle.isField = false ∧ handle.member.owner = owner ∧
            handle.member.signature = signature := by
  rw [mem_facts_iff_of_caller? rfl]
  constructor
  · rintro ⟨method, hmethod, hcaller, code, hcode, instruction, hinstruction, hfact⟩
    obtain ⟨handle, hshows, hcall⟩ := Instruction.exists_shows_of_mem_facts hfact
    exact ⟨method, hmethod, hcaller, code, hcode, instruction, hinstruction, handle, hshows,
      Handle.fact_eq_call_iff.1 hcall⟩
  · rintro ⟨method, hmethod, hcaller, code, hcode, instruction, hinstruction, handle, hshows, hcall⟩
    refine ⟨method, hmethod, hcaller, code, hcode, instruction, hinstruction, ?_⟩
    rw [← Handle.fact_eq_call_iff.2 hcall]
    exact Instruction.mem_facts_of_shows hshows

/-- A handle that is shown is among what its method uses. -/
theorem fact_mem_facts_of_shows {file : ClassFile} {method : MethodDecl} {code : Code}
    {instruction : Instruction} (hmethod : method ∈ file.methods) (hcode : code ∈ method.code)
    (hinstruction : instruction ∈ code.instructions) (h : instruction.operand.Shows handle) :
    handle.fact ⟨file.name, method.slot⟩ ∈ file.facts :=
  (mem_facts_iff_of_caller? handle.caller?_fact).2
    ⟨method, hmethod, rfl, code, hcode, instruction, hinstruction, Instruction.mem_facts_of_shows h⟩

end ClassFile

/-- A handle may run the method of a unit: the one that is found upward from the unit it names, or
one below that unit. -/
def Handle.MayRun (handle : Handle) (inventory : Inventory) (unit : UnitName) : Prop :=
  handle.isField = false ∧
    (inventory.resolveMethod? handle.member.owner handle.member.signature = some unit ∨
      handle.member.signature.isInitializer = false ∧
        unit ∈ inventory.hierarchy.descendants handle.member.owner ∧
          inventory.declaresMethod unit handle.member.signature = true)

/-- The call graph has the methods that a handle may run. -/
theorem CallGraph.hasEdge_of_mayRun {settings : Settings} {files : List ClassFile}
    {external : List (UnitName × UnitName)} {file : ClassFile} {unit : UnitName}
    (hfile : file ∈ files) (hkept : settings.isExcluded file.name = false)
    (hfact : handle.fact caller ∈ file.facts)
    (howner : settings.isExcluded handle.member.owner = false)
    (hrun : handle.MayRun (Context.ofClasses settings files).inventory unit) :
    (CallGraph.ofClasses (.ofClasses settings files) files external).hasEdge (.method caller)
      (.method ⟨unit, handle.member.signature⟩) = true := by
  refine hasEdge_of_mem_facts hfile hkept hfact ?_
  rw [Handle.fact_eq_call_iff.2 ⟨hrun.1, rfl, rfl⟩]
  exact Context.mem_callEdges.2 ⟨howner, hrun.2⟩

namespace ClassFile

/-- **What call sites and constants lead to.** Let a class file be decoded, with its table of
bootstrap methods. Each call site is linked by a bootstrap method of the table, if there is one
under its index. A handle that an instruction shows is among what the method uses, and the call
graph has an edge to each method that the handle may run. An instruction shows every handle it leads
to as long as no bootstrap method links a constant that it loads or passes on. Otherwise handles may
be missed, since a class file has no calls by way of handles but of those that are shown. -/
theorem mem_facts_of_bootstraps {bytes : List UInt8} {file : ClassFile}
    (h : decode bytes = .ok file) : ∃ table, bootstraps bytes = .ok table ∧
      (∀ method ∈ file.methods, ∀ code ∈ method.code, ∀ instruction ∈ code.instructions,
        (∀ name descriptor bootstrap, instruction.operand = .dynamic name descriptor bootstrap →
          ∃ index : UInt16, bootstrap = table[index.toNat]?) ∧
        (∀ handle, instruction.operand.Shows handle →
          handle.fact ⟨file.name, method.slot⟩ ∈ file.facts ∧
          ∀ settings files external unit, file ∈ files → settings.isExcluded file.name = false →
            settings.isExcluded handle.member.owner = false →
            handle.MayRun (CallGraph.Context.ofClasses settings files).inventory unit →
            (CallGraph.ofClasses (.ofClasses settings files) files external).hasEdge
              (.method ⟨file.name, method.slot⟩)
              (.method ⟨unit, handle.member.signature⟩) = true) ∧
        ((∀ c ∈ instruction.operand.constants, c.linked? table = none) →
          ∀ handle, instruction.operand.LeadsTo table handle →
            instruction.operand.Shows handle)) ∧
      ∀ caller owner signature, .call caller owner signature .handle ∈ file.facts ↔
        ∃ method ∈ file.methods, caller = ⟨file.name, method.slot⟩ ∧ ∃ code ∈ method.code,
          ∃ instruction ∈ code.instructions, ∃ handle, instruction.operand.Shows handle ∧
            handle.isField = false ∧ handle.member.owner = owner ∧
              handle.member.signature = signature := by
  obtain ⟨table, htable, hbodies⟩ := exists_bootstraps_of_decode h
  refine ⟨table, htable, fun method hmethod code hcode instruction hinstruction => ⟨?_, ?_, ?_⟩,
    fun caller owner signature => call_handle_mem_facts_iff⟩
  · intro name descriptor bootstrap hoperand
    obtain ⟨pool, body, hdecode⟩ := hbodies method hmethod code hcode
    exact Bytecode.exists_index_of_dynamic hdecode hinstruction hoperand
  · intro handle hshows
    have hfact := fact_mem_facts_of_shows hmethod hcode hinstruction hshows
    exact ⟨hfact, fun settings files external unit hfile hkept howner hrun =>
      CallGraph.hasEdge_of_mayRun hfile hkept hfact howner hrun⟩
  · exact fun hconstants handle hleads => Operand.shows_of_leadsTo hconstants hleads

/-! ### A class with a dynamic constant -/

/-- A handle on a method of the class. -/
def sampleHandle (name : String) : Handle := ⟨6, ⟨"shop.Rates", name, "()I", false⟩⟩

/-- The constant, which the first bootstrap method links. -/
def sampleRate : Constant := .dynamic 0 "rate" "I"

/-- The bootstrap methods: that of the constant, that of a call site which passes the constant on,
and that of a call site which passes a handle on. -/
def sampleTable : List Bootstrap :=
  [⟨sampleHandle "load", [.handle (sampleHandle "read")]⟩, ⟨sampleHandle "link", [sampleRate]⟩,
    ⟨sampleHandle "link", [.handle (sampleHandle "read")]⟩]

/-- A method that returns what an instruction leaves. -/
def sampleReturning (name : String) (instruction : Instruction) : MethodDecl where
  access := 0x0009
  name := name
  descriptor := "()I"
  exceptions := []
  signature := none
  annotations := []
  code := some ⟨1, 0, [instruction, ⟨0xac, .none⟩], []⟩

/-- The method that loads the constant. -/
def sampleStored : MethodDecl := sampleReturning "stored" ⟨0x12, .constant sampleRate⟩

/-- The method whose call site passes the constant on. -/
def sampleAsked : MethodDecl :=
  sampleReturning "asked" ⟨0xba, .dynamic "rate" "()I" sampleTable[1]?⟩

/-- The method whose call site passes a handle on. -/
def samplePlain : MethodDecl :=
  sampleReturning "plain" ⟨0xba, .dynamic "rate" "()I" sampleTable[2]?⟩

/-- The class. -/
def sampleRatesFile : ClassFile where
  name := "shop.Rates"
  access := 0x0021
  superName := some objectUnit
  interfaces := []
  signature := none
  annotations := []
  fields := []
  methods := [sampleStored, sampleAsked, samplePlain] ++
    ["read", "load", "link"].map (sampleReturning · ⟨0x03, .none⟩)

-- the bootstrap method of a call site is called, whatever it is given
example : .call ⟨"shop.Rates", "asked()I"⟩ "shop.Rates" "link()I" .handle ∈
    sampleRatesFile.facts := by decide +kernel

section Assembled

open Assembly

/-- Assemble a method that returns what an instruction leaves. -/
def assembleReturning (name : String) (octets : List UInt8) : Assembler (List UInt8) := do
  let label ← text name
  let descriptor ← text "()I"
  let code ← attributeNamed "Code" (two 1 ++ two 0 ++ four (.ofNat (octets.length + 1)) ++ octets ++
    [0xac] ++ two 0 ++ two 0)
  return two 0x0009 ++ two label ++ two descriptor ++ counted [code]

/-- Assemble all that follows the constant pool. -/
def assembleRates : Assembler (List UInt8) := do
  let this ← unit "shop.Rates"
  let parent ← unit objectUnit
  let read ← staticHandle "shop.Rates" "read" "()I"
  let link ← staticHandle "shop.Rates" "link" "()I"
  let load ← bootstrap ⟨← staticHandle "shop.Rates" "load" "()I", [read]⟩
  let rate ← refer 17 [load, ← nameAndType "rate" "I"]
  let asked ← callSite (← bootstrap ⟨link, [rate]⟩) "rate" "()I"
  let plain ← callSite (← bootstrap ⟨link, [read]⟩) "rate" "()I"
  let linked := [← assembleReturning "stored" [0x12, .ofNat rate.toNat],
    ← assembleReturning "asked" (0xba :: two asked ++ two 0),
    ← assembleReturning "plain" (0xba :: two plain ++ two 0)]
  let others ← ["read", "load", "link"].mapM (assembleReturning · [0x03])
  let attributes ← ClassSpec.assembleAttributes { name := "shop.Rates" }
  return two 0x0021 ++ two this ++ two parent ++ counted [] ++ counted [] ++
    counted (linked ++ others) ++ counted attributes

/-- The octets of the class. -/
def sampleRates : List UInt8 :=
  let assembled := assembleRates.run {}
  four magic ++ two 0 ++ two 55 ++ two (.ofNat (assembled.2.entries.length + 1)) ++
    assembled.2.entries.flatten ++ assembled.1

end Assembled

theorem decode_sampleRates : decode sampleRates = .ok sampleRatesFile :=
  Reader.eq_ok_of_toOption (by decide +kernel)

theorem bootstraps_sampleRates : bootstraps sampleRates = .ok sampleTable :=
  Reader.eq_ok_of_toOption (by decide +kernel)

/-- The handle that a call site passes on: the method is known to use it. -/
theorem mem_facts_sampleRates_plain :
    decode sampleRates = .ok sampleRatesFile ∧ bootstraps sampleRates = .ok sampleTable ∧
      (∃ code ∈ samplePlain.code, ∃ instruction ∈ code.instructions,
        instruction.operand.LeadsTo sampleTable (sampleHandle "read")) ∧
      .call ⟨"shop.Rates", "plain()I"⟩ "shop.Rates" "read()I" .handle ∈ sampleRatesFile.facts ∧
      (CallGraph.ofClasses (.ofClasses {} [sampleRatesFile]) [sampleRatesFile] []).hasEdge
        (.method ⟨"shop.Rates", "plain()I"⟩) (.method ⟨"shop.Rates", "read()I"⟩) = true := by
  obtain ⟨table, htable, hfacts, -⟩ := mem_facts_of_bootstraps decode_sampleRates
  obtain rfl : sampleTable = table := Except.ok.inj (bootstraps_sampleRates.symm.trans htable)
  have hmethod : samplePlain ∈ sampleRatesFile.methods := by decide +kernel
  obtain ⟨-, hshown, hall⟩ := hfacts samplePlain hmethod _ rfl _ List.mem_cons_self
  have hleads : Operand.LeadsTo sampleTable (.dynamic "rate" "()I" sampleTable[2]?)
      (sampleHandle "read") := .constant (List.mem_singleton_self _) (.handle _)
  obtain ⟨hfact, hedge⟩ := hshown _ (hall (by decide +kernel) _ hleads)
  refine ⟨decode_sampleRates, htable, ⟨_, rfl, _, List.mem_cons_self, hleads⟩, hfact, ?_⟩
  exact hedge {} [sampleRatesFile] [] "shop.Rates" List.mem_cons_self (by decide +kernel)
    (by decide +kernel) ⟨by decide, .inl (by decide +kernel)⟩

/-- The constant leads to its bootstrap method, and to the argument of that. -/
theorem leadsTo_sampleRate :
    ∀ name ∈ ["load", "read"], sampleRate.LeadsTo sampleTable (sampleHandle name) := by
  have hlinked : sampleRate.linked? sampleTable =
      some ⟨sampleHandle "load", [.handle (sampleHandle "read")]⟩ := rfl
  refine List.forall_mem_cons.2 ⟨.linked hlinked, List.forall_mem_singleton.2 ?_⟩
  exact .argument hlinked (List.mem_singleton_self _) (.handle _)

/-- What links the constant: neither the method that loads it nor the one whose call site passes it
on is known to use it. -/
theorem not_mem_facts_sampleRates :
    decode sampleRates = .ok sampleRatesFile ∧ bootstraps sampleRates = .ok sampleTable ∧
      ∀ method ∈ [sampleStored, sampleAsked], ∀ name ∈ ["load", "read"],
        (∃ code ∈ method.code, ∃ instruction ∈ code.instructions,
          instruction.operand.LeadsTo sampleTable (sampleHandle name)) ∧
        (method ∈ sampleRatesFile.methods ∧
          .call ⟨"shop.Rates", method.slot⟩ "shop.Rates" (name ++ "()I") .handle ∉
            sampleRatesFile.facts ∧
          (CallGraph.Context.ofClasses {} [sampleRatesFile]).inventory.resolveMethod? "shop.Rates"
            (name ++ "()I") = some "shop.Rates" ∧
          (CallGraph.ofClasses (.ofClasses {} [sampleRatesFile]) [sampleRatesFile] []).hasEdge
            (.method ⟨"shop.Rates", method.slot⟩)
            (.method ⟨"shop.Rates", name ++ "()I"⟩) = false) := by
  refine ⟨decode_sampleRates, bootstraps_sampleRates, ?_⟩
  simp only [forall_and]
  refine ⟨List.forall_mem_cons.2 ⟨?_, List.forall_mem_singleton.2 ?_⟩, by decide +kernel⟩
  · intro name hname
    exact ⟨_, rfl, _, List.mem_cons_self,
      .constant (List.mem_singleton_self _) (leadsTo_sampleRate name hname)⟩
  · intro name hname
    exact ⟨_, rfl, _, List.mem_cons_self,
      .constant (List.mem_singleton_self _) (leadsTo_sampleRate name hname)⟩

end ClassFile

end Retest

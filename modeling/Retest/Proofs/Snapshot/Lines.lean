import Retest.Assembly.Basic
import Retest.Proofs.ClassFile.Texts
import Retest.Proofs.Fingerprint
import Retest.Proofs.Snapshot.Change

/-!
# What the lines of a method tell

A fingerprint is taken of lines of text, so a change of a method is seen only if it
changes its lines. Let all names be made of identifiers, all descriptors be well-formed,
and the generic signature and the annotations be of single lines. Then the lines tell the
access flags, the thrown exceptions, the decoration, the handlers and every instruction,
except for two things in a reference to a member: whether its owner is an interface, and
where its name ends and its descriptor begins
(`Retest.MethodDecl.lines_eq_iff_content`).

The second exception is not void. A field `aLb` of type `c` and a field `a` of type `bLc`
have the same text, and a method that loads the one has the fingerprint of a method that
loads the other (`Retest.ClassFile.lines_eq_sampleRun`). It needs an `L` inside the name of a
field whose type is a unit; where there is none, only the kind of the owner is lost
(`Retest.MethodDecl.content_joined_eq_iff`).

The lines hold no line feeds themselves, so the octets of which the digest is taken tell
the lines, and fingerprints are equal only if the lines are or SHA-256 collides
(`Retest.Fingerprint.ordered_eq_iff`).
-/

namespace Retest

open Text

/-! ### Instructions and handlers -/

/-- Change all members that an instruction names. -/
def Instruction.mapMember (view : MemberRef → MemberRef) (instruction : Instruction) :
    Instruction :=
  ⟨instruction.opcode, instruction.operand.mapMember view⟩

theorem Instruction.toList_line (instruction : Instruction) : instruction.line.toList =
    (hexPadded 2 instruction.opcode.toNat).toList ++ ' ' :: instruction.operand.text.toList := by
  simp [line]

/-- **The line of an instruction is the instruction**, but for kinds of owners and for borders
between names and descriptors. -/
theorem Instruction.line_eq_iff {instruction instruction' : Instruction}
    (hi : instruction.IsRead) (hi' : instruction'.IsRead) (hn : instruction.operand.WellNamed)
    (hn' : instruction'.operand.WellNamed) :
    instruction.line = instruction'.line ↔
      instruction.mapMember .joined = instruction'.mapMember .joined := by
  constructor
  · intro h
    have hlist := congrArg String.toList h
    rw [toList_line, toList_line] at hlist
    obtain ⟨hopcode, hrest⟩ := hexPadded_separator_inj rfl hlist
    have hopcode' := UInt8.toNat_inj.1 hopcode
    -- the opcode is the same, so the operands are of one kind
    obtain ⟨layout, hl, hlayout⟩ := hi
    obtain ⟨layout', hl', hlayout'⟩ := hi'
    rw [hopcode', hlayout'] at hlayout
    obtain rfl := Option.some.inj hlayout
    have htext := String.toList_inj.1 hrest
    rw [mapMember, mapMember, hopcode', (Operand.text_eq_iff hl hl' hn hn').1 htext]
  · intro h
    obtain ⟨hopcode, hoperand⟩ := Instruction.mk.inj h
    rw [line, line, hopcode, ← Operand.text_mapMember_joined, hoperand,
      Operand.text_mapMember_joined]

theorem Handler.toList_line (handler : Handler) : handler.line.toList =
    "catch ".toList ++ ((handler.catchType.getD "*").toList ++ ' ' :: ("[@".toList ++
      ((toString handler.start).toList ++ ',' :: ("@".toList ++ ((toString handler.stop).toList ++
        ')' :: (" -> @".toList ++ (toString handler.target).toList)))))) := by
  simp [line, toString_string]

/-- **The line of a handler is the handler.** -/
theorem Handler.line_injective {handler handler' : Handler}
    (hh : ∀ name ∈ handler.catchType, IsUnitName name)
    (hh' : ∀ name ∈ handler'.catchType, IsUnitName name) (h : handler.line = handler'.line) :
    handler = handler' := by
  -- neither a name nor the star has a blank, and no name is the star
  have hblank : ∀ k : Handler, (∀ name ∈ k.catchType, IsUnitName name) →
      ' ' ∉ (k.catchType.getD "*").toList := by
    intro k hk
    cases hcatch : k.catchType with
    | none => decide
    | some name => exact (hk name hcatch).notMem rfl
  have hstar : ∀ name, IsUnitName name → name ≠ "*" := by
    rintro name hname rfl
    exact hname.notMem rfl List.mem_cons_self
  have hlist := congrArg String.toList h
  rw [toList_line, toList_line] at hlist
  obtain ⟨hcatch, hlist⟩ := append_separator_inj (hblank handler hh) (hblank handler' hh')
    (List.append_cancel_left hlist)
  obtain ⟨hstart, hlist⟩ := toString_nat_separator_inj rfl (List.append_cancel_left hlist)
  obtain ⟨hstop, hlist⟩ := toString_nat_separator_inj rfl (List.append_cancel_left hlist)
  have htarget :=
    toString_nat_injective (String.toList_inj.1 (List.append_cancel_left hlist))
  obtain ⟨start, stop, target, catchType⟩ := handler
  obtain ⟨start', stop', target', catchType'⟩ := handler'
  have hcatch' : catchType = catchType' := by
    have hname := String.toList_inj.1 hcatch
    rcases catchType with _ | name <;> rcases catchType' with _ | name'
    · rfl
    · exact absurd hname.symm (hstar name' (hh' name' rfl))
    · exact absurd hname (hstar name (hh name rfl))
    · exact congrArg some hname
  rw [Handler.mk.injEq]
  exact ⟨hstart, hstop, htarget, hcatch'⟩

/-! ### Kinds of lines

The third character of a line tells what the line is for: `signature` and `annotation` have
a `g` and an `n` there, an instruction has the blank after its opcode, and `catch` has a `t`. -/

/-- The character that tells the kind of a line. -/
def lineKind (line : String) : Option Char := line.toList[2]?

@[simp] theorem lineKind_signature (s : String) : lineKind ("signature " ++ s) = some 'g' := by
  simp [lineKind]

@[simp] theorem lineKind_annotation (s : String) : lineKind ("annotation " ++ s) = some 'n' := by
  simp [lineKind]

theorem length_hexPadded_two (b : UInt8) : (hexPadded 2 b.toNat).toList.length = 2 := by
  have hlt := b.toNat_lt
  rcases Nat.lt_or_ge b.toNat 16 with hsmall | hlarge
  · simp [hexPadded, Nat.toDigits_of_lt_base hsmall]
  · have hhigh : b.toNat / 16 < 16 := by omega
    simp [hexPadded, Nat.toDigits_of_base_le (by omega) hlarge, Nat.toDigits_of_lt_base hhigh]

@[simp] theorem Instruction.lineKind_line (instruction : Instruction) :
    lineKind instruction.line = some ' ' := by
  rw [lineKind, toList_line, List.getElem?_append_right (length_hexPadded_two _).le,
    length_hexPadded_two]
  rfl

@[simp] theorem Handler.lineKind_line (handler : Handler) : lineKind handler.line = some 't' := by
  rw [lineKind, toList_line]
  rfl

/-- Lines of one kind end at the first line of another. -/
theorem append_inj_of_lineKind (k : Char) {a b x y : List String}
    (ha : ∀ l ∈ a, lineKind l = some k) (hb : ∀ l ∈ b, lineKind l = some k)
    (hx : ∀ l ∈ x, lineKind l ≠ some k) (hy : ∀ l ∈ y, lineKind l ≠ some k)
    (h : a ++ x = b ++ y) : a = b ∧ x = y :=
  append_inj_of_run ha hb (fun l hl => hx l (List.mem_of_mem_head? hl))
    (fun l hl => hy l (List.mem_of_mem_head? hl)) h

/-! ### Methods -/

/-- The access flags, thrown exceptions, decoration and body of a method, in a view of the members
that the body names. -/
structure MethodContent where
  access : Access
  exceptions : List UnitName
  signature : Option String
  annotations : List String
  instructions : List Instruction
  handlers : List Handler
deriving DecidableEq

namespace MethodDecl

/-- The instructions of a method; an absent body has none. -/
def instructions (method : MethodDecl) : List Instruction := method.code.elim [] (·.instructions)

/-- The handlers of a method; an absent body has none. -/
def handlers (method : MethodDecl) : List Handler := method.code.elim [] (·.handlers)

/-- The content of a method in a view of the members that its body names. -/
def content (view : MemberRef → MemberRef) (method : MethodDecl) : MethodContent where
  access := method.access
  exceptions := method.exceptions
  signature := method.signature
  annotations := method.annotations
  instructions := method.instructions.map (Instruction.mapMember view)
  handlers := method.handlers

/-- **A method whose names and descriptors are well-formed**, and whose decoration is of single
lines. -/
structure WellNamed (method : MethodDecl) : Prop where
  exceptions : ∀ name ∈ method.exceptions, IsUnitName name
  signature : ∀ s ∈ method.signature, '\n' ∉ s.toList
  annotations : ∀ s ∈ method.annotations, '\n' ∉ s.toList
  instructions : ∀ i ∈ method.instructions, i.operand.WellNamed
  handlers : ∀ h ∈ method.handlers, ∀ name ∈ h.catchType, IsUnitName name

theorem lines_eq (method : MethodDecl) : method.lines = method.access.line ::
    ("throws " ++ ",".intercalate method.exceptions) ::
      ((method.signature.map ("signature " ++ ·)).toList ++
        (method.annotations.map ("annotation " ++ ·) ++
          (method.instructions.map Instruction.line ++ method.handlers.map Handler.line))) := by
  rw [lines, decorationLines, instructions, handlers]
  cases method.code with
  | none => simp
  | some code => simp [Code.lines]

end MethodDecl

theorem Access.line_injective {access access' : Access} (h : access.line = access'.line) :
    access = access' :=
  UInt16.toNat_inj.1 (hexPadded_injective ((String.append_right_inj _).1 h))

/-- Names of units between commas are told. -/
theorem intercalate_unitNames_injective {names names' : List UnitName}
    (hn : ∀ name ∈ names, IsUnitName name) (hn' : ∀ name ∈ names', IsUnitName name)
    (h : ",".intercalate names = ",".intercalate names') : names = names' := by
  have hlist := congrArg (fun s => s.toList ++ [']']) h
  simp only [String.toList_intercalate] at hlist
  obtain ⟨hnames, -⟩ := intercalate_append_inj id IsUnitName
    (fun {a b x y} ha hb hx hy hab => by
      obtain ⟨hchars, hxy⟩ := append_inj_of_run ha.2 hb.2 (hx.not_of_head? rfl rfl)
        (hy.not_of_head? rfl rfl) hab
      exact ⟨String.toList_inj.1 hchars, hxy⟩)
    (fun {a x y} ha hclose => by
      obtain ⟨c, t, hc⟩ := List.exists_cons_of_ne_nil (toList_ne_nil ha.1)
      rw [hc] at hclose
      have hmem : ']' ∈ a.toList := by
        rw [hc, (List.cons.inj hclose).1]
        exact List.mem_cons_self
      exact ha.notMem rfl hmem)
    hn hn' hlist
  rwa [List.map_id, List.map_id] at hnames

namespace MethodDecl

/-- The four kinds of lines after the first two are told apart. -/
theorem blocks_eq {method method' : MethodDecl} (h : method.lines = method'.lines) :
    method.access.line = method'.access.line ∧
      ",".intercalate method.exceptions = ",".intercalate method'.exceptions ∧
      (method.signature.map ("signature " ++ ·)).toList =
        (method'.signature.map ("signature " ++ ·)).toList ∧
      method.annotations.map ("annotation " ++ ·) = method'.annotations.map ("annotation " ++ ·) ∧
      method.instructions.map Instruction.line = method'.instructions.map Instruction.line ∧
      method.handlers.map Handler.line = method'.handlers.map Handler.line := by
  rw [lines_eq, lines_eq] at h
  obtain ⟨haccess, h⟩ := List.cons.inj h
  obtain ⟨hthrows, h⟩ := List.cons.inj h
  obtain ⟨hs, h⟩ := append_inj_of_lineKind 'g' (by simp) (by simp) (by simp [or_imp, forall_and])
    (by simp [or_imp, forall_and]) h
  obtain ⟨ha, h⟩ := append_inj_of_lineKind 'n' (by simp) (by simp) (by simp [or_imp, forall_and])
    (by simp [or_imp, forall_and]) h
  obtain ⟨hi, hh⟩ := append_inj_of_lineKind ' ' (by simp) (by simp) (by simp) (by simp) h
  exact ⟨haccess, (String.append_right_inj _).1 hthrows, hs, ha, hi, hh⟩

/-- **The lines of a method are its content**, but for kinds of owners and for borders between
names and descriptors. -/
theorem lines_eq_iff_content {method method' : MethodDecl}
    (hread : ∀ i ∈ method.instructions, i.IsRead) (hread' : ∀ i ∈ method'.instructions, i.IsRead)
    (hn : method.WellNamed) (hn' : method'.WellNamed) :
    method.lines = method'.lines ↔ method.content .joined = method'.content .joined := by
  have hline : ∀ i ∈ method.instructions, ∀ i' ∈ method'.instructions,
      (i.line = i'.line ↔ i.mapMember .joined = i'.mapMember .joined) := fun i hi i' hi' =>
    Instruction.line_eq_iff (hread i hi) (hread' i' hi') (hn.instructions i hi)
      (hn'.instructions i' hi')
  constructor
  · intro h
    -- the kinds of lines tell the blocks apart, and each block tells its part of the content
    obtain ⟨haccess, hthrows, hsignature, hannotations, hinstructions, hhandlers⟩ := blocks_eq h
    have hfront : ∀ s : String, Function.Injective (s ++ ·) :=
      fun s a b hab => (String.append_right_inj s).1 hab
    have hhandlers' := map_eq_map_of_map_eq (g := id) (fun k hk k' hk' =>
      Handler.line_injective (hn.handlers k hk) (hn'.handlers k' hk')) hhandlers
    rw [List.map_id, List.map_id] at hhandlers'
    have hsignature' := congrArg List.head? hsignature
    rw [Option.head?_toList, Option.head?_toList] at hsignature'
    rw [content, content, MethodContent.mk.injEq]
    exact ⟨Access.line_injective haccess,
      intercalate_unitNames_injective hn.exceptions hn'.exceptions hthrows,
      Option.map_injective (hfront _) hsignature',
      List.map_injective_iff.2 (hfront _) hannotations,
      map_eq_map_of_map_eq (fun i hi i' hi' => (hline i hi i' hi').1) hinstructions, hhandlers'⟩
  · intro h
    rw [content, content, MethodContent.mk.injEq] at h
    obtain ⟨haccess, hexceptions, hsignature, hannotations, hinstructions, hhandlers⟩ := h
    rw [lines_eq, lines_eq, haccess, hexceptions, hsignature, hannotations, hhandlers,
      map_eq_map_of_map_eq (fun i hi i' hi' => (hline i hi i' hi').2) hinstructions]

end MethodDecl

/-! ### Legible methods -/

namespace MethodDecl

/-- **A method in whose references the border between name and descriptor shows.** -/
def IsLegible (method : MethodDecl) : Prop :=
  ∀ i ∈ method.instructions, ∀ ref ∈ i.operand.members, Retest.IsLegible ref.name ref.descriptor

instance (method : MethodDecl) : Decidable method.IsLegible :=
  inferInstanceAs (Decidable (∀ i ∈ method.instructions, ∀ ref ∈ i.operand.members,
    Retest.IsLegible ref.name ref.descriptor))

theorem content_joined_eq_iff {method method' : MethodDecl} (hn : method.WellNamed)
    (hn' : method'.WellNamed) (hl : method.IsLegible) (hl' : method'.IsLegible) :
    method.content .joined = method'.content .joined ↔
      method.content .bare = method'.content .bare := by
  have hclear : ∀ m : MethodDecl, m.WellNamed → m.IsLegible → ∀ i ∈ m.instructions,
      ∀ ref ∈ i.operand.members, ref.IsClear := by
    intro m hm hlegible i hi ref hr
    obtain ⟨hname, hdescriptor⟩ := (hm.instructions i hi).of_mem_members hr
    exact ⟨hname, hdescriptor, hlegible i hi ref hr⟩
  have hview : ∀ i ∈ method.instructions, ∀ i' ∈ method'.instructions,
      (i.mapMember .joined = i'.mapMember .joined ↔ i.mapMember .bare = i'.mapMember .bare) := by
    intro i hi i' hi'
    rw [Instruction.mapMember, Instruction.mapMember, Instruction.mapMember, Instruction.mapMember,
      Instruction.mk.injEq, Instruction.mk.injEq,
      Operand.mapMember_joined_eq_iff (hclear method hn hl i hi) (hclear method' hn' hl' i' hi')]
  have hlist : method.instructions.map (Instruction.mapMember .joined) =
        method'.instructions.map (Instruction.mapMember .joined) ↔
      method.instructions.map (Instruction.mapMember .bare) =
        method'.instructions.map (Instruction.mapMember .bare) :=
    ⟨map_eq_map_of_map_eq fun i hi i' hi' => (hview i hi i' hi').1,
      map_eq_map_of_map_eq fun i hi i' hi' => (hview i hi i' hi').2⟩
  simp only [content, MethodContent.mk.injEq, hlist]

end MethodDecl

/-! ### Single lines -/

theorem IsDescriptor.newline_notMem {s : String} (h : IsDescriptor s) : '\n' ∉ s.toList :=
  fun hm => absurd (h.isSignature.chars _ hm) (by decide)

theorem newline_notMem_append {a b : String} (ha : '\n' ∉ a.toList) (hb : '\n' ∉ b.toList) :
    '\n' ∉ (a ++ b).toList := by
  rw [String.toList_append, List.mem_append, not_or]
  exact ⟨ha, hb⟩

theorem MemberRef.WellNamed.newline_notMem {ref : MemberRef} (h : ref.WellNamed) :
    '\n' ∉ ref.text.toList :=
  newline_notMem_append (newline_notMem_append (h.owner.notMem rfl) (by decide))
    (newline_notMem_append (h.name.notMem rfl) h.descriptor.newline_notMem)

theorem Handle.newline_notMem {handle : Handle} (h : handle.member.WellNamed) :
    '\n' ∉ handle.text.toList :=
  newline_notMem_append (newline_notMem_append (newline_notMem_append (by decide)
    (notMem_toString_nat rfl _)) (by decide)) h.newline_notMem

theorem Constant.newline_notMem {constant : Constant} (h : constant.WellNamed) :
    '\n' ∉ constant.text.toList := by
  cases constant with
  | int value | long value =>
    exact newline_notMem_append (by decide) (notMem_toString_int rfl _)
  | float bits | double bits => exact newline_notMem_append (by decide) (notMem_hexPadded rfl _ _)
  | string value => exact newline_notMem_append (by decide) (newline_notMem_quoted _)
  | unit name => exact newline_notMem_append (by decide) (h.notMem rfl)
  | methodType descriptor => exact newline_notMem_append (by decide) h.newline_notMem
  | handle k => exact Handle.newline_notMem h
  | dynamic bootstrap name descriptor =>
    exact newline_notMem_append (newline_notMem_append (newline_notMem_append
      (newline_notMem_append (newline_notMem_append (by decide) (notMem_toString_nat rfl _))
        (by decide)) (h.1.notMem rfl)) (by decide)) h.2.newline_notMem

theorem Bootstrap.WellNamed.newline_notMem {bootstrap : Bootstrap} (h : bootstrap.WellNamed) :
    '\n' ∉ bootstrap.text.toList := by
  have harguments : ∀ s ∈ bootstrap.arguments.map Constant.text, '\n' ∉ s.toList := by
    intro s hs
    obtain ⟨c, hc, rfl⟩ := List.mem_map.1 hs
    exact Constant.newline_notMem (h.arguments c hc)
  exact newline_notMem_append (newline_notMem_append (newline_notMem_append
    (Handle.newline_notMem h.handle) (by decide)) (notMem_intercalate (by decide) harguments))
      (by decide)

theorem Operand.newline_notMem {operand : Operand} (h : operand.WellNamed) :
    '\n' ∉ operand.text.toList := by
  cases operand with
  | none => decide
  | int value => exact notMem_toString_int rfl _
  | localVar index => exact newline_notMem_append (by decide) (notMem_toString_nat rfl _)
  | increment index delta =>
    have hsigned : '\n' ∉ (signed delta.toInt).toList := by
      rw [signed]
      split
      · exact notMem_toString_int rfl _
      · exact newline_notMem_append (by decide) (notMem_toString_int rfl _)
    exact newline_notMem_append (newline_notMem_append (newline_notMem_append (by decide)
      (notMem_toString_nat rfl _)) (by decide)) hsigned
  | constant value => exact Constant.newline_notMem h
  | field target | method target => exact MemberRef.WellNamed.newline_notMem h
  | type name => exact newline_notMem_append (by decide) (h.notMem rfl)
  | branch target => exact newline_notMem_append (by decide) (notMem_toString_nat rfl _)
  | switch default cases =>
    have hcases : ∀ s ∈ cases.map (fun p => s!"{p.1.toInt}:@{p.2}"), '\n' ∉ s.toList := by
      intro s hs
      obtain ⟨p, -, rfl⟩ := List.mem_map.1 hs
      exact newline_notMem_append (newline_notMem_append (notMem_toString_int rfl _)
        (by decide)) (notMem_toString_nat rfl _)
    exact newline_notMem_append (newline_notMem_append (newline_notMem_append
      (newline_notMem_append (by decide) (notMem_toString_nat rfl _)) (by decide))
        (notMem_intercalate (by decide) hcases)) (by decide)
  | multiArray element dimensions =>
    exact newline_notMem_append (newline_notMem_append (by decide) (h.notMem rfl))
      (newline_notMem_append (by decide) (notMem_toString_nat rfl _))
  | dynamic name descriptor bootstrap =>
    refine newline_notMem_append (newline_notMem_append (newline_notMem_append (by decide)
      (h.1.notMem rfl)) h.2.1.newline_notMem) ?_
    cases bootstrap with
    | none => decide
    | some b => exact newline_notMem_append (by decide) (h.2.2 b rfl).newline_notMem

/-- **No line of a well-named method holds a line feed.** -/
theorem MethodDecl.WellNamed.newline_notMem {method : MethodDecl} (h : method.WellNamed) :
    ∀ line ∈ method.lines, '\n' ∉ line.toList := by
  intro line hline
  rw [lines_eq] at hline
  simp only [List.mem_cons, List.mem_append, Option.mem_toList,
    Option.map_eq_some_iff, List.mem_map] at hline
  rcases hline with rfl | rfl | ⟨s, hs, rfl⟩ | ⟨s, hs, rfl⟩ | ⟨i, hi, rfl⟩ | ⟨k, hk, rfl⟩
  · exact newline_notMem_append (by decide) (notMem_hexPadded rfl _ _)
  · exact newline_notMem_append (by decide)
      (notMem_intercalate (by decide) fun name hname => (h.exceptions name hname).notMem rfl)
  · exact newline_notMem_append (by decide) (h.signature s hs)
  · exact newline_notMem_append (by decide) (h.annotations s hs)
  · exact newline_notMem_append (newline_notMem_append (notMem_hexPadded rfl _ _) (by decide))
      (Operand.newline_notMem (h.instructions i hi))
  · have hcatch : '\n' ∉ (k.catchType.getD "*").toList := by
      cases hcatch : k.catchType with
      | none => decide
      | some name => exact (h.handlers k hk name hcatch).notMem rfl
    refine newline_notMem_append (newline_notMem_append (by decide) hcatch) ?_
    exact newline_notMem_append (newline_notMem_append (newline_notMem_append
      (newline_notMem_append (newline_notMem_append (by decide) (notMem_toString_nat rfl _))
        (by decide)) (notMem_toString_nat rfl _)) (by decide)) (notMem_toString_nat rfl _)

/-! ### Fingerprints of methods -/

namespace Snapshot

/-- The fingerprint under the slot of a member, if no two members share one. -/
theorem get?_slots {α : Type} {members : List α} {slot : α → String}
    (hnodup : (members.map slot).Nodup) {m : α} (hm : m ∈ members) (keep : α → Bool)
    (fingerprint : α → Fingerprint) :
    (slots members keep slot fingerprint).get? (slot m) =
      if keep m then some (fingerprint m) else none := by
  split
  · next hkeep =>
    have hfound : ∃ f, (slots members keep slot fingerprint).get? (slot m) = some f :=
      exists_get?_slots hm hkeep
    obtain ⟨f, hf⟩ := hfound
    obtain ⟨d, hd, -, hslot, rfl⟩ := exists_of_get?_slots hf
    rw [hf, List.inj_on_of_nodup_map hnodup hd hm hslot]
  · next hkeep =>
    refine Option.eq_none_iff_forall_ne_some.2 fun f hf => hkeep ?_
    obtain ⟨d, hd, hkeep', hslot, -⟩ := exists_of_get?_slots hf
    rwa [List.inj_on_of_nodup_map hnodup hd hm hslot] at hkeep'

/-- **The fingerprint of a method that is no initializer is taken of its lines in order.** -/
theorem method?_ofClass {file : ClassFile} (hnodup : (file.methods.map MethodDecl.slot).Nodup)
    (crc : UInt32) {m : MethodDecl} (hm : m ∈ file.methods)
    (hinit : isInitializerName m.name = false) :
    (ofClass file crc).method? m.slot = some (.ordered m.lines) := by
  have hconstructor : (ofClass file crc).constructors.get? m.slot = none :=
    (get?_slots hnodup hm _ _).trans (if_neg (by simp [hinit]))
  cases hstatic : m.access.isStatic with
  | false =>
    have hinstance : (ofClass file crc).instanceMethods.get? m.slot = some (.ordered m.lines) :=
      (get?_slots hnodup hm _ _).trans (if_pos (by simp [hinit, hstatic]))
    rw [method?, hconstructor, hinstance]
    rfl
  | true =>
    have hinstance : (ofClass file crc).instanceMethods.get? m.slot = none :=
      (get?_slots hnodup hm _ _).trans (if_neg (by simp [hstatic]))
    have hstatic' : (ofClass file crc).staticMethods.get? m.slot = some (.ordered m.lines) :=
      (get?_slots hnodup hm _ _).trans (if_pos (by simp [hinit, hstatic]))
    rw [method?, hconstructor, hinstance, hstatic']
    rfl

end Snapshot

/-! ### Decoded methods -/

namespace ClassFile

theorem isRead_of_mem_methods {bytes : List UInt8} {file : ClassFile}
    (h : decode bytes = .ok file) {method : MethodDecl} (hm : method ∈ file.methods) :
    ∀ i ∈ method.instructions, i.IsRead := by
  intro i hi
  rw [MethodDecl.instructions] at hi
  cases hcode : method.code with
  | none =>
    rw [hcode] at hi
    cases hi
  | some code =>
    rw [hcode] at hi
    exact isRead_of_decode h method hm code hcode i hi

/-- **What the lines and the fingerprint of a decoded method tell.** Let the names and descriptors
of two methods be well-formed. Their lines are equal exactly if they have the same content in which
the name and descriptor of each reference run together and the kind of its owner is left out. If
both are legible, it is the same to leave out the kinds of owners only. The fingerprints of two
methods that are no initializers are equal exactly if the lines are, unless SHA-256 collides on
them. -/
theorem lines_eq_iff_of_mem_methods {bytes bytes' : List UInt8} {file file' : ClassFile}
    {method method' : MethodDecl} (hfile : decode bytes = .ok file)
    (hfile' : decode bytes' = .ok file') (hm : method ∈ file.methods)
    (hm' : method' ∈ file'.methods) (hn : method.WellNamed) (hn' : method'.WellNamed) :
    (method.lines = method'.lines ↔ method.content .joined = method'.content .joined) ∧
      (method.IsLegible → method'.IsLegible →
        (method.lines = method'.lines ↔ method.content .bare = method'.content .bare)) ∧
      ∀ crc crc', (file.methods.map MethodDecl.slot).Nodup →
        (file'.methods.map MethodDecl.slot).Nodup → isInitializerName method.name = false →
        isInitializerName method'.name = false →
        ((Snapshot.ofClass file crc).method? method.slot =
            (Snapshot.ofClass file' crc').method? method'.slot ↔
          method.lines = method'.lines ∨ Digest.Sha256.Collide (Fingerprint.octets method.lines)
            (Fingerprint.octets method'.lines)) := by
  have hlines := MethodDecl.lines_eq_iff_content (isRead_of_mem_methods hfile hm)
    (isRead_of_mem_methods hfile' hm') hn hn'
  refine ⟨hlines, fun hl hl' => ?_, fun crc crc' hnodup hnodup' hinit hinit' => ?_⟩
  · rw [hlines, MethodDecl.content_joined_eq_iff hn hn' hl hl']
  · rw [Snapshot.method?_ofClass hnodup crc hm hinit,
      Snapshot.method?_ofClass hnodup' crc' hm' hinit', Option.some.injEq,
      Fingerprint.ordered_eq_iff hn.newline_notMem hn'.newline_notMem]
    rfl

/-! ### Samples -/

/-- The octets of a class with a method that loads a field of `app.A`. -/
def sampleLoading (name descriptor : String) : List UInt8 :=
  (ClassSpec.addMethod { name := "app.Main" } {
    access := 0x0009, name := "run", descriptor := "()V"
    exceptions := ["java.io.IOException"]
    code := some [.getstatic "app.A" name descriptor, .pop, .ret] }).assemble

/-- The method of that class. -/
def sampleRun (name descriptor : String) : MethodDecl where
  access := 0x0009
  name := "run"
  descriptor := "()V"
  exceptions := ["java.io.IOException"]
  signature := none
  annotations := []
  code := some ⟨8, 8,
    [⟨0xb2, .field ⟨"app.A", name, descriptor, false⟩⟩, ⟨0x57, .none⟩, ⟨0xb1, .none⟩], []⟩

/-- The class itself. -/
def sampleMain (name descriptor : String) : ClassFile where
  name := "app.Main"
  access := 0x0021
  superName := some "java.lang.Object"
  interfaces := []
  signature := none
  annotations := []
  fields := []
  methods := [sampleRun name descriptor]

theorem wellNamed_sampleRun {name descriptor : String} (hname : IsMemberName name)
    (hdescriptor : IsDescriptor descriptor) : (sampleRun name descriptor).WellNamed where
  exceptions := by
    have hexception : IsUnitName "java.io.IOException" := by decide
    simpa [sampleRun] using hexception
  signature := by simp [sampleRun]
  annotations := by simp [sampleRun]
  instructions := by
    have howner : IsUnitName "app.A" := by decide
    intro i hi
    simp only [sampleRun, MethodDecl.instructions, Option.elim, List.mem_cons, List.not_mem_nil,
      or_false] at hi
    rcases hi with rfl | rfl | rfl
    · exact ⟨howner, hname, hdescriptor⟩
    · trivial
    · trivial
  handlers := by simp [sampleRun, MethodDecl.handlers]

/-- Another field is loaded: the lines are others. -/
theorem lines_ne_sampleRun :
    decode (sampleLoading "count" "I") = .ok (sampleMain "count" "I") ∧
      decode (sampleLoading "total" "I") = .ok (sampleMain "total" "I") ∧
      (sampleRun "count" "I").WellNamed ∧ (sampleRun "total" "I").WellNamed ∧
      (sampleRun "count" "I").lines ≠ (sampleRun "total" "I").lines := by
  have hfile : decode (sampleLoading "count" "I") = .ok (sampleMain "count" "I") :=
    Reader.eq_ok_of_toOption (by decide +kernel)
  have hfile' : decode (sampleLoading "total" "I") = .ok (sampleMain "total" "I") :=
    Reader.eq_ok_of_toOption (by decide +kernel)
  have hI : IsDescriptor "I" := .inl (.base (by decide))
  have hn : (sampleRun "count" "I").WellNamed := wellNamed_sampleRun (by decide) hI
  have hn' : (sampleRun "total" "I").WellNamed := wellNamed_sampleRun (by decide) hI
  have hiff := (lines_eq_iff_of_mem_methods hfile hfile' List.mem_cons_self List.mem_cons_self
    hn hn').2.1 (by decide) (by decide)
  exact ⟨hfile, hfile', hn, hn', fun h => absurd (hiff.1 h) (by decide)⟩

/-- The field `aLb` of type `c` and the field `a` of type `bLc` have the same text, so a method that
loads the one and a method that loads the other have the same lines and the same fingerprint. -/
theorem lines_eq_sampleRun :
    decode (sampleLoading "aLb" "Lc;") = .ok (sampleMain "aLb" "Lc;") ∧
      decode (sampleLoading "a" "LbLc;") = .ok (sampleMain "a" "LbLc;") ∧
      (sampleRun "aLb" "Lc;").WellNamed ∧ (sampleRun "a" "LbLc;").WellNamed ∧
      (sampleRun "aLb" "Lc;").content .bare ≠ (sampleRun "a" "LbLc;").content .bare ∧
      (sampleRun "aLb" "Lc;").lines = (sampleRun "a" "LbLc;").lines ∧
      ∀ crc crc',
        (Snapshot.ofClass (sampleMain "aLb" "Lc;") crc).method? (sampleRun "aLb" "Lc;").slot =
          (Snapshot.ofClass (sampleMain "a" "LbLc;") crc').method?
            (sampleRun "a" "LbLc;").slot := by
  have hfile : decode (sampleLoading "aLb" "Lc;") = .ok (sampleMain "aLb" "Lc;") :=
    Reader.eq_ok_of_toOption (by decide +kernel)
  have hfile' : decode (sampleLoading "a" "LbLc;") = .ok (sampleMain "a" "LbLc;") :=
    Reader.eq_ok_of_toOption (by decide +kernel)
  have hunit : ∀ name : List Char, name ≠ [] → name.all isIdentifierChar = true →
      IsFieldDescriptor ('L' :: (name ++ [';'])) :=
    fun name hne hall => .unit hne fun c hc => .inl (List.all_eq_true.1 hall c hc)
  have hd : IsDescriptor "Lc;" := .inl (hunit ['c'] (by decide) rfl)
  have hd' : IsDescriptor "LbLc;" := .inl (hunit ['b', 'L', 'c'] (by decide) rfl)
  have hlines : (sampleRun "aLb" "Lc;").lines = (sampleRun "a" "LbLc;").lines := by decide
  refine ⟨hfile, hfile', wellNamed_sampleRun (by decide) hd, wellNamed_sampleRun (by decide) hd',
    by decide, hlines, fun crc crc' => ?_⟩
  have hnodup : ∀ name descriptor,
      ((sampleMain name descriptor).methods.map MethodDecl.slot).Nodup :=
    fun _ _ => List.nodup_singleton _
  have hmem : ∀ name descriptor, sampleRun name descriptor ∈ (sampleMain name descriptor).methods :=
    fun _ _ => List.mem_cons_self
  have hinit : isInitializerName "run" = false := by decide
  rw [Snapshot.method?_ofClass (hnodup _ _) crc (hmem _ _) hinit,
    Snapshot.method?_ofClass (hnodup _ _) crc' (hmem _ _) hinit, hlines]

end ClassFile

end Retest

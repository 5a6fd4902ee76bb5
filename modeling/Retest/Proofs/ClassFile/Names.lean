import Retest.ClassFile.Constant
import Retest.Proofs.Text.Delimited

/-!
# Names and descriptors

What a class file may call its units, members and types, if its names are made of
identifiers. The texts of references run a name and a descriptor together, without a
separator between them, so it has to be asked what can be read back of the two.

* Together they can be told from what comes after
  (`Retest.IsSignature.append_inj`): a descriptor never ends in an opening bracket,
  and after every opening bracket in it comes a type.
* The border between them shows (`Retest.eq_of_append_eq`) where the descriptor begins
  with a parenthesis or a bracket, or is a single letter. Where it begins with the `L` of
  a unit, the border could also be at an earlier `L`, inside the name. The pairs that do
  not let this happen are the *legible* ones (`Retest.IsLegible`).
-/

namespace Retest

/-! ### Names -/

/-- The characters of identifiers: letters, digits, the underscore and the dollar sign. Whatever
lies beyond ASCII counts as a letter. -/
def isIdentifierChar (c : Char) : Bool := c.isAlphanum || c == '_' || c == '$' || 128 ≤ c.toNat

/-- The characters of the names of members: those of identifiers, and the angle brackets around the
names of initializers. -/
def isMemberChar (c : Char) : Bool := isIdentifierChar c || c == '<' || c == '>'

/-- The characters of the names of units and of types of arrays. -/
def isUnitChar (c : Char) : Bool := isIdentifierChar c || c == '.' || c == '[' || c == ';'

/-- A name of a unit or of a type of arrays. -/
def IsUnitName (name : UnitName) : Prop := name ≠ "" ∧ ∀ c ∈ name.toList, isUnitChar c = true

/-- A name of a field or method. -/
def IsMemberName (name : String) : Prop := name ≠ "" ∧ ∀ c ∈ name.toList, isMemberChar c = true

instance (name : UnitName) : Decidable (IsUnitName name) :=
  decidable_of_iff (name ≠ "" ∧ name.toList.all isUnitChar = true) (by simp [IsUnitName])

instance (name : String) : Decidable (IsMemberName name) :=
  decidable_of_iff (name ≠ "" ∧ name.toList.all isMemberChar = true) (by simp [IsMemberName])

/-- A character that no name of a unit has. -/
theorem IsUnitName.notMem {name : UnitName} (h : IsUnitName name) {c : Char}
    (hc : isUnitChar c = false) : c ∉ name.toList := by
  intro hmem
  rw [h.2 c hmem] at hc
  cases hc

/-- A character that no name of a member has. -/
theorem IsMemberName.notMem {name : String} (h : IsMemberName name) {c : Char}
    (hc : isMemberChar c = false) : c ∉ name.toList := by
  intro hmem
  rw [h.2 c hmem] at hc
  cases hc

/-! ### Descriptors -/

/-- The letters of the types of numbers. -/
def baseTypes : List Char := ['B', 'C', 'D', 'F', 'I', 'J', 'S', 'Z']

/-- The descriptors of fields: a type of numbers, a unit between `L` and a semicolon, or an array
of such. -/
inductive IsFieldDescriptor : List Char → Prop
  | base {c : Char} (h : c ∈ baseTypes) : IsFieldDescriptor [c]
  | unit {name : List Char} (hne : name ≠ [])
      (h : ∀ c ∈ name, isIdentifierChar c = true ∨ c = '/') :
      IsFieldDescriptor ('L' :: (name ++ [';']))
  | array {element : List Char} (h : IsFieldDescriptor element) :
      IsFieldDescriptor ('[' :: element)

/-- The descriptors of methods: the types of the parameters in parentheses, and the type of the
result or `V`. -/
def IsMethodDescriptor (s : List Char) : Prop :=
  ∃ (parameters : List (List Char)) (result : List Char), (∀ d ∈ parameters, IsFieldDescriptor d) ∧
    (result = ['V'] ∨ IsFieldDescriptor result) ∧ s = '(' :: (parameters.flatten ++ ')' :: result)

/-- A descriptor of a field or of a method. -/
def IsDescriptor (s : String) : Prop := IsFieldDescriptor s.toList ∨ IsMethodDescriptor s.toList

/-! ### Signatures -/

/-- The characters of names of members and of descriptors. -/
def isSignatureChar (c : Char) : Bool :=
  isMemberChar c || c == '/' || c == ';' || c == '[' || c == '(' || c == ')'

/-- The characters that a descriptor of a field can begin with. -/
def isTypeStart (c : Char) : Bool := baseTypes.contains c || c == 'L' || c == '['

/-- **A text like a signature**: it has the characters of one, and after every opening bracket comes
a type. -/
structure IsSignature (s : List Char) : Prop where
  chars : ∀ c ∈ s, isSignatureChar c = true
  brackets : ∀ front back, s = front ++ '[' :: back → ∃ c ∈ back.head?, isTypeStart c = true

theorem isSignatureChar_of_isIdentifierChar {c : Char} (h : isIdentifierChar c = true) :
    isSignatureChar c = true := by
  simp [isSignatureChar, isMemberChar, h]

namespace IsSignature

/-- A text without brackets. -/
theorem of_notMem {s : List Char} (hchars : ∀ c ∈ s, isSignatureChar c = true) (h : '[' ∉ s) :
    IsSignature s := by
  refine ⟨hchars, fun front back hs => absurd ?_ h⟩
  rw [hs]
  exact List.mem_append_right _ List.mem_cons_self

theorem append {s t : List Char} (hs : IsSignature s) (ht : IsSignature t) :
    IsSignature (s ++ t) := by
  refine ⟨fun c hc => (List.mem_append.1 hc).elim (hs.chars c) (ht.chars c), ?_⟩
  intro front back h
  rcases List.append_eq_append_iff.1 h with ⟨between, -, hback⟩ | ⟨between, hfront, hback⟩
  · exact ht.brackets between back hback
  · rcases between with _ | ⟨c, between⟩
    · exact ht.brackets [] back hback.symm
    · rw [List.cons_append] at hback
      obtain ⟨rfl, rfl⟩ := List.cons.inj hback
      obtain ⟨d, hd, hstart⟩ := hs.brackets front between hfront
      exact ⟨d, by rw [List.head?_append, hd]; rfl, hstart⟩

theorem flatten {parts : List (List Char)} (h : ∀ s ∈ parts, IsSignature s) :
    IsSignature parts.flatten := by
  induction parts with
  | nil => exact of_notMem (by simp) (by simp)
  | cons s parts ih =>
    exact (h s List.mem_cons_self).append (ih fun t ht => h t (List.mem_cons_of_mem _ ht))

end IsSignature

theorem IsFieldDescriptor.exists_eq_cons {s : List Char} (h : IsFieldDescriptor s) :
    ∃ c t, s = c :: t ∧ isTypeStart c = true := by
  cases h with
  | base h => exact ⟨_, [], rfl, by simp [isTypeStart, h]⟩
  | unit => exact ⟨'L', _, rfl, rfl⟩
  | array => exact ⟨'[', _, rfl, rfl⟩

theorem IsFieldDescriptor.isSignature {s : List Char} (h : IsFieldDescriptor s) :
    IsSignature s := by
  induction h with
  | @base c h =>
    have hchars : baseTypes.all isSignatureChar = true := rfl
    refine .of_notMem (fun d hd => ?_) fun hb => ?_
    · rw [List.mem_singleton.1 hd]
      exact List.all_eq_true.1 hchars c h
    · rw [← List.mem_singleton.1 hb] at h
      exact absurd h (by decide)
  | @unit name _ h =>
    have hname : ∀ c ∈ name, isSignatureChar c = true ∧ c ≠ '[' := by
      intro c hc
      rcases h c hc with hident | rfl
      · refine ⟨isSignatureChar_of_isIdentifierChar hident, ?_⟩
        rintro rfl
        exact absurd hident (by decide)
      · exact ⟨rfl, by decide⟩
    refine .of_notMem (fun c hc => ?_) fun hb => ?_
    · simp only [List.mem_cons, List.mem_append, List.not_mem_nil, or_false] at hc
      rcases hc with rfl | hc | rfl
      · rfl
      · exact (hname c hc).1
      · rfl
    · simp only [List.mem_cons, List.mem_append, List.not_mem_nil, or_false] at hb
      rcases hb with hb | hb | hb
      · exact absurd hb (by decide)
      · exact (hname _ hb).2 rfl
      · exact absurd hb (by decide)
  | @array element h ih =>
    refine ⟨fun c hc => ?_, fun front back hs => ?_⟩
    · rcases List.mem_cons.1 hc with rfl | hc
      · rfl
      · exact ih.chars c hc
    · rcases front with _ | ⟨d, front⟩
      · -- the first bracket: the type of the elements follows
        obtain ⟨c, t, ht, hc⟩ := h.exists_eq_cons
        have hback : element = back := (List.cons.inj hs).2
        exact ⟨c, by rw [← hback, ht]; rfl, hc⟩
      · exact ih.brackets front back (List.cons.inj hs).2

theorem IsMethodDescriptor.isSignature {s : List Char} (h : IsMethodDescriptor s) :
    IsSignature s := by
  obtain ⟨parameters, result, hparameters, hresult, rfl⟩ := h
  have hsingle : ∀ c, isSignatureChar c = true → c ≠ '[' → IsSignature [c] := by
    intro c hc hne
    exact .of_notMem (fun d hd => List.mem_singleton.1 hd ▸ hc)
      fun hb => hne (List.mem_singleton.1 hb).symm
  have hresult' : IsSignature result := by
    rcases hresult with rfl | hresult
    · exact hsingle 'V' rfl (by decide)
    · exact hresult.isSignature
  exact (hsingle '(' rfl (by decide)).append
    ((IsSignature.flatten fun d hd => (hparameters d hd).isSignature).append
      ((hsingle ')' rfl (by decide)).append hresult'))

theorem IsDescriptor.isSignature {s : String} (h : IsDescriptor s) : IsSignature s.toList :=
  h.elim IsFieldDescriptor.isSignature IsMethodDescriptor.isSignature

theorem IsMemberName.isSignature {name : String} (h : IsMemberName name) :
    IsSignature name.toList := by
  refine .of_notMem (fun c hc => ?_) fun hb => absurd (h.2 _ hb) (by decide)
  simp [isSignatureChar, h.2 c hc]

/-! ### What comes after a signature -/

/-- **What may stand after a signature**: nothing, a character that cannot belong to one, or an
opening bracket after which no type begins. -/
def EndsSignature (x : List Char) : Prop :=
  ∀ c t, x = c :: t → isSignatureChar c = false ∨ (c = '[' ∧ ∃ d ∈ t.head?, isTypeStart d = false)

theorem endsSignature_nil : EndsSignature [] := by
  intro c t h
  cases h

theorem endsSignature_cons {c : Char} (h : isSignatureChar c = false) (x : List Char) :
    EndsSignature (c :: x) := by
  intro d t hd
  obtain ⟨rfl, -⟩ := List.cons.inj hd
  exact .inl h

theorem endsSignature_bracket {x : List Char} (h : ∃ c ∈ x.head?, isTypeStart c = false) :
    EndsSignature ('[' :: x) := by
  intro d t hd
  obtain ⟨rfl, rfl⟩ := List.cons.inj hd
  exact .inr ⟨rfl, h⟩

/-- A signature may stand in a list. -/
theorem endsSignature_of_endsElement {x : List Char} (h : Text.EndsElement x) :
    EndsSignature x := by
  intro c t hc
  rw [hc] at h
  rcases h c rfl with rfl | rfl
  · exact .inl rfl
  · exact .inl rfl

/-- What may stand after a signature does not prolong it. -/
theorem IsSignature.eq_nil_of_ends {s more x : List Char} (h : IsSignature (s ++ more))
    (hx : EndsSignature (more ++ x)) : more = [] := by
  rcases more with _ | ⟨c, more⟩
  · rfl
  · have hchar := h.chars c (List.mem_append_right _ List.mem_cons_self)
    rcases hx c (more ++ x) rfl with hfalse | ⟨rfl, d, hd, hfalse⟩
    · rw [hfalse] at hchar
      cases hchar
    · obtain ⟨e, he, htrue⟩ := h.brackets s more rfl
      rw [List.head?_append, he] at hd
      obtain rfl : e = d := Option.some.inj hd
      rw [htrue] at hfalse
      cases hfalse

/-- **A signature tells where it ends.** -/
theorem IsSignature.append_inj {s t x y : List Char} (hs : IsSignature s) (ht : IsSignature t)
    (hx : EndsSignature x) (hy : EndsSignature y) (h : s ++ x = t ++ y) : s = t ∧ x = y := by
  rcases List.append_eq_append_iff.1 h with ⟨more, rfl, rfl⟩ | ⟨more, rfl, rfl⟩
  · rw [ht.eq_nil_of_ends hx]
    exact ⟨(List.append_nil s).symm, rfl⟩
  · rw [hs.eq_nil_of_ends hy]
    exact ⟨List.append_nil t, rfl⟩

/-! ### The border between name and descriptor -/

/-- **A name and a descriptor whose border shows**: if the descriptor begins with an `L`, the name
has none after its first character. -/
def IsLegible (name descriptor : String) : Prop :=
  descriptor.toList.head? = some 'L' → 'L' ∉ name.toList.tail

instance (name descriptor : String) : Decidable (IsLegible name descriptor) :=
  inferInstanceAs (Decidable (_ → _))

/-- What a descriptor begins with, if a name could go on with it: it is a single letter, or it names
a unit. -/
theorem IsDescriptor.cases_of_isMemberChar {s : String} (h : IsDescriptor s) {c : Char}
    {t : List Char} (hs : s.toList = c :: t) (hc : isMemberChar c = true) :
    t = [] ∨ ∃ name, c = 'L' ∧ t = name ++ [';'] ∧
      ∀ d ∈ name, isIdentifierChar d = true ∨ d = '/' := by
  rcases h with h | ⟨parameters, result, -, -, h⟩
  · rw [hs] at h
    cases h with
    | base => exact .inl rfl
    | unit hne h => exact .inr ⟨_, rfl, rfl, h⟩
    | array => exact absurd hc (by decide)
  · rw [hs] at h
    rw [(List.cons.inj h).1] at hc
    exact absurd hc (by decide)

theorem IsDescriptor.toList_ne_nil {s : String} (h : IsDescriptor s) : s.toList ≠ [] := by
  intro hnil
  rcases h with h | ⟨parameters, result, -, -, h⟩
  · rw [hnil] at h
    cases h
  · rw [hnil] at h
    cases h

/-- The rest of a descriptor that names a unit is a descriptor only if it begins with an `L`. -/
theorem IsDescriptor.head?_eq_of_isSuffix {s : String} (h : IsDescriptor s)
    {front name : List Char} (hs : front ++ s.toList = name ++ [';'])
    (hname : ∀ d ∈ name, isIdentifierChar d = true ∨ d = '/') : s.toList.head? = some 'L' := by
  have hchars : ∀ c ∈ s.toList, (isIdentifierChar c = true ∨ c = '/') ∨ c = ';' := by
    intro c hc
    have hmem : c ∈ name ++ [';'] := hs ▸ List.mem_append_right _ hc
    rcases List.mem_append.1 hmem with hmem | hmem
    · exact .inl (hname c hmem)
    · exact .inr (List.mem_singleton.1 hmem)
  have hlast : s.toList.getLast? = some ';' := by
    have := congrArg List.getLast? hs
    rw [List.getLast?_append, List.getLast?_append] at this
    cases hl : s.toList.getLast? with
    | none => exact absurd (List.getLast?_eq_none_iff.1 hl) h.toList_ne_nil
    | some c =>
      rw [hl] at this
      exact this
  -- a base type has no semicolon, and an array or a method has a character no name has
  rcases h with h | ⟨parameters, result, -, -, h⟩
  · generalize s.toList = l at h hchars hlast
    cases h with
    | base h =>
      obtain rfl := Option.some.inj hlast
      exact absurd h (by decide)
    | unit => rfl
    | array =>
      have := hchars '[' List.mem_cons_self
      exact absurd this (by decide)
  · rw [h] at hchars
    have := hchars '(' List.mem_cons_self
    exact absurd this (by decide)

/-- A legible pair does not arise from another one by moving the border to the right. -/
theorem eq_nil_of_isLegible {name name' descriptor descriptor' : String} {between : List Char}
    (hname : IsMemberName name) (hname' : IsMemberName name') (hd : IsDescriptor descriptor)
    (hd' : IsDescriptor descriptor') (hlegible : IsLegible name' descriptor')
    (hn : name'.toList = name.toList ++ between)
    (h : descriptor.toList = between ++ descriptor'.toList) : between = [] := by
  rcases between with _ | ⟨c, between⟩
  · rfl
  · have hc : isMemberChar c = true := by
      refine hname'.2 c ?_
      rw [hn]
      exact List.mem_append_right _ List.mem_cons_self
    rcases hd.cases_of_isMemberChar h hc with hnil | ⟨unit, rfl, hunit, hchars⟩
    · exact absurd (List.append_eq_nil_iff.1 hnil).2 hd'.toList_ne_nil
    · -- the `L` of the unit would be part of the longer name
      have hL := hlegible (hd'.head?_eq_of_isSuffix hunit hchars)
      obtain ⟨first, rest, hfirst⟩ := List.exists_cons_of_ne_nil (Text.toList_ne_nil hname.1)
      rw [hn, hfirst, List.cons_append, List.tail_cons] at hL
      exact absurd (List.mem_append_right _ List.mem_cons_self) hL

/-- **The border between a name and a descriptor shows** in what they make together. -/
theorem eq_of_append_eq {name name' descriptor descriptor' : String} (hname : IsMemberName name)
    (hname' : IsMemberName name') (hd : IsDescriptor descriptor) (hd' : IsDescriptor descriptor')
    (hlegible : IsLegible name descriptor) (hlegible' : IsLegible name' descriptor')
    (h : name ++ descriptor = name' ++ descriptor') : name = name' ∧ descriptor = descriptor' := by
  have hlist := congrArg String.toList h
  rw [String.toList_append, String.toList_append] at hlist
  rcases List.append_eq_append_iff.1 hlist with ⟨between, hn, hdes⟩ | ⟨between, hn, hdes⟩
  · obtain rfl := eq_nil_of_isLegible hname hname' hd hd' hlegible' hn hdes
    exact ⟨String.toList_inj.1 (by rw [hn, List.append_nil]), String.toList_inj.1 hdes⟩
  · obtain rfl := eq_nil_of_isLegible hname' hname hd' hd hlegible hn hdes
    exact ⟨String.toList_inj.1 (by rw [hn, List.append_nil]), (String.toList_inj.1 hdes).symm⟩

end Retest

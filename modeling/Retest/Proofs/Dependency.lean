import Retest.Dependency
import Retest.Proofs.Text.Parts

/-!
# Texts of dependencies

A text that is read as a dependency is the text of that dependency
(`Retest.Dependency.text_of_parse?`), so reading loses nothing. The other way
round something can be lost: the dependencies that are found again in their own
texts are those that *read back* (`Retest.Dependency.ReadsBack`). Their texts are
words, and can stand on a line between others. Which they are can be told from the
names in them (`Retest.Dependency.parse?_unambiguous`): white space must not occur at
all, and the characters that divide a text only where they do. Part by part, this says
that the names are plain (`Retest.Dependency.readsBack_iff`).
-/

namespace Retest

/-- What lies before and after the last separator makes up the text. -/
theorem Text.splitLast?_eq_some {sep : Char} {s before after : List Char}
    (h : splitLast? sep s = some (before, after)) : s = before ++ sep :: after := by
  rw [splitLast?, Option.map_eq_some_iff] at h
  obtain ⟨⟨after', before'⟩, hsplit, hparts⟩ := h
  obtain ⟨rfl, rfl⟩ := Prod.mk.inj hparts
  have hs := (splitFirst?_eq_some hsplit).1
  rw [← List.reverse_reverse s, hs]
  simp

theorem Text.splitLast?_append {sep : Char} {after : List Char} (h : sep ∉ after)
    (before : List Char) : splitLast? sep (before ++ sep :: after) = some (before, after) := by
  have hreverse : (before ++ sep :: after).reverse = after.reverse ++ sep :: before.reverse := by
    simp
  rw [splitLast?, hreverse, splitFirst?_append (by simpa using h)]
  simp

theorem Text.notMem_of_splitLast? {sep : Char} {s before after : List Char}
    (h : splitLast? sep s = some (before, after)) : sep ∉ after := by
  rw [splitLast?, Option.map_eq_some_iff] at h
  obtain ⟨⟨after', before'⟩, hsplit, hparts⟩ := h
  obtain ⟨-, rfl⟩ := Prod.mk.inj hparts
  simpa using (splitFirst?_eq_some hsplit).2

theorem MethodKey.text_of_parse? {s : String} {key : MethodKey} (h : parse? s = some key) :
    key.text = s := by
  rw [parse?, Option.bind_eq_bind, Option.bind_eq_some_iff] at h
  obtain ⟨⟨owner, signature⟩, hsplit, h⟩ := h
  dsimp only at h
  split at h
  · cases h
  · cases h
    rw [← String.toList_inj, (Text.splitFirst?_eq_some hsplit).1]
    simp [text]

theorem FieldKey.text_of_parse? {s : String} {key : FieldKey} (h : parse? s = some key) :
    key.text = s := by
  rw [parse?] at h
  split at h
  · cases h
  rw [Option.bind_eq_bind, Option.bind_eq_some_iff] at h
  obtain ⟨⟨head, descriptor⟩, hcolon, h⟩ := h
  obtain ⟨⟨owner, name⟩, hstop, h⟩ := Option.bind_eq_some_iff.1 h
  dsimp only at h
  split at h
  · cases h
  · cases h
    rw [← String.toList_inj, (Text.splitFirst?_eq_some hcolon).1, Text.splitLast?_eq_some hstop]
    simp [text]

/-- The field of a slot is the one with that slot, provided its name holds no colon. -/
theorem FieldKey.ofSlot?_eq_some_iff {unit : UnitName} {slot : String} {key : FieldKey} :
    ofSlot? unit slot = some key ↔ key.owner = unit ∧ key.slot = slot ∧ ':' ∉ key.name.toList := by
  constructor
  · intro h
    obtain ⟨⟨name, descriptor⟩, hsplit, rfl⟩ := Option.map_eq_some_iff.1 h
    obtain ⟨hslot, hcolon⟩ := Text.splitFirst?_eq_some hsplit
    refine ⟨rfl, ?_, by rwa [String.toList_ofList]⟩
    rw [← String.toList_inj, hslot]
    simp [FieldKey.slot]
  · rintro ⟨rfl, rfl, hcolon⟩
    have hslot : key.slot.toList = key.name.toList ++ ':' :: key.descriptor.toList := by
      simp [FieldKey.slot]
    rw [ofSlot?, hslot, Text.splitFirst?_append hcolon]
    simp

namespace Dependency

/-- **A text that is read as a dependency is its text.** -/
theorem text_of_parse? {s : String} {id : Dependency} (h : parse? s = some id) : id.text = s := by
  rw [parse?] at h
  split at h
  · cases h
  split at h
  · obtain ⟨key, hkey, rfl⟩ := Option.map_eq_some_iff.1 h
    exact MethodKey.text_of_parse? hkey
  split at h
  · obtain ⟨key, hkey, rfl⟩ := Option.map_eq_some_iff.1 h
    exact FieldKey.text_of_parse? hkey
  · cases h
    rfl

/-- A text that is read as a dependency is a word, and not the wildcard. -/
theorem isWord_of_parse? {s : String} {id : Dependency} (h : parse? s = some id) :
    Text.IsWord s ∧ s ≠ wildcard := by
  rw [parse?] at h
  split at h
  · cases h
  next hs =>
  simp only [Bool.or_eq_true, not_or, List.isEmpty_iff, beq_iff_eq, List.any_eq_true, not_exists,
    not_and, Bool.not_eq_true] at hs
  obtain ⟨⟨hne, hwild⟩, hblank⟩ := hs
  exact ⟨⟨fun he => hne (by rw [he]; rfl), hblank⟩, hwild⟩

/-- **A dependency reads back** if it is found again in its text. -/
def ReadsBack (id : Dependency) : Prop := parse? id.text = some id

instance (id : Dependency) : Decidable id.ReadsBack := inferInstanceAs (Decidable (_ = _))

theorem readsBack_of_parse? {s : String} {id : Dependency} (h : parse? s = some id) :
    id.ReadsBack := by
  rw [ReadsBack, text_of_parse? h, h]

theorem ReadsBack.isWord {id : Dependency} (h : id.ReadsBack) : Text.IsWord id.text :=
  (isWord_of_parse? h).1

end Dependency

/-! ### Names that come back -/

/-- A text that is not empty and holds neither white space nor certain other characters. -/
def Text.IsWordWithout (excluded : List Char) (s : String) : Prop :=
  IsWord s ∧ ∀ c ∈ excluded, c ∉ s.toList

instance (excluded : List Char) (s : String) : Decidable (Text.IsWordWithout excluded s) :=
  decidable_of_iff (Text.IsWord s ∧ excluded.all (fun c => !s.toList.contains c) = true)
    (by simp [Text.IsWordWithout])

theorem MethodKey.toList_text (key : MethodKey) :
    key.text.toList = key.owner.toList ++ '#' :: key.signature.toList := by
  simp [text]

theorem FieldKey.toList_text (key : FieldKey) : key.text.toList =
    (key.owner.toList ++ '.' :: key.name.toList) ++ ':' :: key.descriptor.toList := by
  simp [text]

theorem MethodKey.parse?_text_iff {key : MethodKey} : parse? key.text = some key ↔
    key.owner ≠ "" ∧ '#' ∉ key.owner.toList ∧ '(' ∈ key.signature.toList := by
  constructor
  · intro h
    rw [parse?, Option.bind_eq_bind, Option.bind_eq_some_iff] at h
    obtain ⟨⟨owner, signature⟩, hsplit, h⟩ := h
    obtain ⟨-, hsharp⟩ := Text.splitFirst?_eq_some hsplit
    dsimp only at h
    split at h
    · cases h
    · next hparts =>
      cases h
      simpa [hsharp] using hparts
  · rintro ⟨howner, hsharp, hparen⟩
    rw [parse?, toList_text, Text.splitFirst?_append hsharp]
    simp [howner, hparen]

theorem FieldKey.parse?_text_iff {key : FieldKey} : parse? key.text = some key ↔
    '#' ∉ key.text.toList ∧ key.owner ≠ "" ∧ key.name ≠ "" ∧ key.descriptor ≠ "" ∧
      ':' ∉ key.owner.toList ∧ ':' ∉ key.name.toList ∧ '.' ∉ key.name.toList := by
  constructor
  · intro h
    rw [parse?] at h
    split at h
    · cases h
    next hsharp =>
    rw [Option.bind_eq_bind, Option.bind_eq_some_iff] at h
    obtain ⟨⟨head, descriptor⟩, hcolon, h⟩ := h
    obtain ⟨⟨owner, name⟩, hstop, h⟩ := Option.bind_eq_some_iff.1 h
    dsimp only at h
    split at h
    · cases h
    next hparts =>
    cases h
    have hfree := (Text.splitFirst?_eq_some hcolon).2
    rw [Text.splitLast?_eq_some hstop, List.mem_append, List.mem_cons, not_or, not_or] at hfree
    simp only [Bool.or_eq_true, List.isEmpty_iff, not_or] at hparts
    have hname := Text.notMem_of_splitLast? hstop
    simpa [hfree, hname, hparts] using hsharp
  · rintro ⟨hsharp, howner, hname, hdescriptor, hcolon, hcolon', hstop⟩
    have hhead : ':' ∉ key.owner.toList ++ '.' :: key.name.toList := by
      simp [hcolon, hcolon']
    rw [parse?, if_neg (by simpa using hsharp), toList_text, Text.splitFirst?_append hhead]
    simp [Text.splitLast?_append hstop, howner, hname, hdescriptor]

namespace Dependency

/-- How a word is read: as a method if there is a number sign, else as a field if there is a colon,
else as a unit. -/
theorem parse?_eq_some_iff {s : String} {id : Dependency} : parse? s = some id ↔
    (Text.IsWord s ∧ s ≠ wildcard) ∧
      (if '#' ∈ s.toList then (MethodKey.parse? s).map method
        else if ':' ∈ s.toList then (FieldKey.parse? s).map field
        else some (unit s)) = some id := by
  have hparse : Text.IsWord s ∧ s ≠ wildcard → parse? s =
      if '#' ∈ s.toList then (MethodKey.parse? s).map method
        else if ':' ∈ s.toList then (FieldKey.parse? s).map field else some (unit s) := by
    rintro ⟨hword, hwild⟩
    have hplain : (s.toList.isEmpty || s == wildcard || s.toList.any Text.isBlank) = false := by
      simpa [hwild, Text.IsWord] using hword
    rw [parse?]
    simp only [hplain, Bool.false_eq_true, if_false, List.contains_iff_mem]
  constructor
  · intro h
    have hword := isWord_of_parse? h
    exact ⟨hword, (hparse hword).symm.trans h⟩
  · rintro ⟨hword, h⟩
    rw [hparse hword, h]

/-! ### Texts that can be taken apart -/

/-- **The parts of a dependency can be told apart in its text.** No part that has to be there is
empty, and a character that divides a part from the next stands only where it does so: the first
number sign ends the owner of a method, the first colon and the last full stop before it end the
name and the owner of a field. -/
def Separable : Dependency → Prop
  | .unit name => name ≠ "" ∧ name ≠ wildcard ∧ '#' ∉ name.toList ∧ ':' ∉ name.toList
  | .method key => key.owner ≠ "" ∧ '#' ∉ key.owner.toList ∧ '(' ∈ key.signature.toList
  | .field key => (key.owner ≠ "" ∧ key.name ≠ "" ∧ key.descriptor ≠ "") ∧
      ('#' ∉ key.owner.toList ∧ '#' ∉ key.name.toList ∧ '#' ∉ key.descriptor.toList) ∧
      (':' ∉ key.owner.toList ∧ ':' ∉ key.name.toList) ∧ '.' ∉ key.name.toList

instance : (id : Dependency) → Decidable id.Separable
  | .unit _ => inferInstanceAs (Decidable (_ ∧ _))
  | .method _ => inferInstanceAs (Decidable (_ ∧ _))
  | .field _ => inferInstanceAs (Decidable (_ ∧ _))

/-- A text with a character in it that is no asterisk is a word as soon as it has no white space. -/
theorem isWord_and_ne_wildcard_iff {s : String} {c : Char} (hc : c ∈ s.toList) (hne : c ≠ '*') :
    Text.IsWord s ∧ s ≠ wildcard ↔ ∀ c ∈ s.toList, Text.isBlank c = false := by
  have hempty : s ≠ "" := fun he => by
    rw [he] at hc
    cases hc
  have hwild : s ≠ wildcard := fun he => by
    rw [he] at hc
    exact hne (List.mem_singleton.1 hc)
  rw [and_iff_left hwild, Text.IsWord, and_iff_right hempty]

theorem readsBack_unit_iff {name : UnitName} : (unit name).ReadsBack ↔
    (∀ c ∈ name.toList, Text.isBlank c = false) ∧ (unit name).Separable := by
  rw [ReadsBack, text, parse?_eq_some_iff, Text.IsWord]
  constructor
  · rintro ⟨⟨⟨hne, hblank⟩, hwild⟩, h⟩
    have hfree : '#' ∉ name.toList ∧ ':' ∉ name.toList := by
      split at h
      · simp at h
      split at h
      · simp at h
      · exact ⟨‹_›, ‹_›⟩
    exact ⟨hblank, hne, hwild, hfree⟩
  · rintro ⟨hblank, hne, hwild, hsharp, hcolon⟩
    refine ⟨⟨⟨hne, hblank⟩, hwild⟩, ?_⟩
    rw [if_neg hsharp, if_neg hcolon]

theorem readsBack_method_iff {key : MethodKey} : (method key).ReadsBack ↔
    (∀ c ∈ key.text.toList, Text.isBlank c = false) ∧ (method key).Separable := by
  have hsharp : '#' ∈ key.text.toList := by simp [key.toList_text]
  rw [ReadsBack, text, parse?_eq_some_iff, isWord_and_ne_wildcard_iff hsharp (by decide),
    if_pos hsharp, Option.map_eq_some_iff]
  simp only [method.injEq, exists_eq_right, MethodKey.parse?_text_iff, Separable]

theorem readsBack_field_iff {key : FieldKey} : (field key).ReadsBack ↔
    (∀ c ∈ key.text.toList, Text.isBlank c = false) ∧ (field key).Separable := by
  have hcolon : ':' ∈ key.text.toList := by simp [key.toList_text]
  have hsharp : '#' ∉ key.text.toList ↔ '#' ∉ key.owner.toList ∧ '#' ∉ key.name.toList ∧
      '#' ∉ key.descriptor.toList := by
    simp [key.toList_text]
  -- with a number sign in it, the text is read as a method or not at all
  have hread : (if '#' ∈ key.text.toList then (MethodKey.parse? key.text).map method
      else if ':' ∈ key.text.toList then (FieldKey.parse? key.text).map field
      else some (unit key.text)) = some (field key) ↔ FieldKey.parse? key.text = some key := by
    by_cases h : '#' ∈ key.text.toList
    · simp [h, FieldKey.parse?_text_iff]
    · simp [h, hcolon]
  rw [ReadsBack, text, parse?_eq_some_iff, isWord_and_ne_wildcard_iff hcolon (by decide), hread,
    FieldKey.parse?_text_iff, hsharp]
  simp only [Separable, and_assoc]
  refine and_congr_right fun _ => ?_
  constructor
  · rintro ⟨hs, hs', hs'', hne, hne', hne'', hc⟩
    exact ⟨hne, hne', hne'', hs, hs', hs'', hc⟩
  · rintro ⟨hne, hne', hne'', hs, hs', hs'', hc⟩
    exact ⟨hs, hs', hs'', hne, hne', hne'', hc⟩

/-- **Which dependencies read back**: those whose texts can be taken apart, and have no white space
in them. -/
theorem readsBack_iff_separable {id : Dependency} : id.ReadsBack ↔
    (∀ c ∈ id.text.toList, Text.isBlank c = false) ∧ id.Separable := by
  cases id with
  | unit name => exact readsBack_unit_iff
  | method key => exact readsBack_method_iff
  | field key => exact readsBack_field_iff

/-- **A dependency with plain names.** No name holds white space, nor what divides it from the
next. -/
def IsPlain : Dependency → Prop
  | .unit name => Text.IsWordWithout ['#', ':'] name ∧ name ≠ wildcard
  | .method key => Text.IsWordWithout ['#'] key.owner ∧ Text.IsWord key.signature ∧
      '(' ∈ key.signature.toList
  | .field key => Text.IsWordWithout ['#', ':'] key.owner ∧
      Text.IsWordWithout ['#', ':', '.'] key.name ∧ Text.IsWordWithout ['#'] key.descriptor

instance : (id : Dependency) → Decidable id.IsPlain
  | .unit _ => inferInstanceAs (Decidable (_ ∧ _))
  | .method _ => inferInstanceAs (Decidable (_ ∧ _))
  | .field _ => inferInstanceAs (Decidable (_ ∧ _))

/-- Names are plain if they can be told apart and there is no white space in the text. -/
theorem isPlain_iff {id : Dependency} : id.IsPlain ↔
    (∀ c ∈ id.text.toList, Text.isBlank c = false) ∧ id.Separable := by
  cases id with
  | unit name =>
    simp only [IsPlain, Separable, text, Text.IsWordWithout, Text.IsWord, List.forall_mem_cons,
      List.not_mem_nil, false_imp_iff, implies_true, and_true]
    constructor
    · rintro ⟨⟨⟨hne, hblank⟩, hsharp, hcolon⟩, hwild⟩
      exact ⟨hblank, hne, hwild, hsharp, hcolon⟩
    · rintro ⟨hblank, hne, hwild, hsharp, hcolon⟩
      exact ⟨⟨⟨hne, hblank⟩, hsharp, hcolon⟩, hwild⟩
  | method key =>
    simp only [IsPlain, Separable, text, key.toList_text, Text.IsWordWithout, Text.IsWord,
      List.forall_mem_append, List.forall_mem_cons, List.mem_singleton, forall_eq]
    constructor
    · rintro ⟨⟨⟨hne, hblank⟩, hsharp⟩, ⟨-, hblank'⟩, hparen⟩
      exact ⟨⟨hblank, by decide, hblank'⟩, hne, hsharp, hparen⟩
    · rintro ⟨⟨hblank, -, hblank'⟩, hne, hsharp, hparen⟩
      refine ⟨⟨⟨hne, hblank⟩, hsharp⟩, ⟨fun he => ?_, hblank'⟩, hparen⟩
      -- a signature has a parenthesis in it, and so it is not empty
      rw [he] at hparen
      cases hparen
  | field key =>
    simp only [IsPlain, Separable, text, key.toList_text, Text.IsWordWithout, Text.IsWord,
      List.forall_mem_append, List.forall_mem_cons, List.not_mem_nil, false_imp_iff, implies_true,
      and_true]
    constructor
    · rintro ⟨⟨⟨hne, hb⟩, hs, hc⟩, ⟨⟨hne', hb'⟩, hs', hc', hstop⟩, ⟨hne'', hb''⟩, hs''⟩
      exact ⟨⟨⟨hb, by decide, hb'⟩, by decide, hb''⟩, ⟨hne, hne', hne''⟩, ⟨hs, hs', hs''⟩,
        ⟨hc, hc'⟩, hstop⟩
    · rintro ⟨⟨⟨hb, -, hb'⟩, -, hb''⟩, ⟨hne, hne', hne''⟩, ⟨hs, hs', hs''⟩, ⟨hc, hc'⟩, hstop⟩
      exact ⟨⟨⟨hne, hb⟩, hs, hc⟩, ⟨⟨hne', hb'⟩, hs', hc', hstop⟩, ⟨hne'', hb''⟩, hs''⟩

/-- So the dependencies that read back are those with plain names. -/
theorem readsBack_iff {id : Dependency} : id.ReadsBack ↔ id.IsPlain :=
  readsBack_iff_separable.trans isPlain_iff.symm

/-- **Texts of dependencies are unambiguous.** A text that is read as a dependency is the text of
this dependency. And a dependency is read from its text exactly if there is no white space in the
text and its parts can be told apart. -/
theorem parse?_unambiguous (s : String) (id : Dependency) :
    (parse? s = some id → id.text = s) ∧
      (parse? id.text = some id ↔
        (∀ c ∈ id.text.toList, Text.isBlank c = false) ∧ id.Separable) :=
  ⟨text_of_parse?, readsBack_iff_separable⟩

-- a unit with a colon in its name is taken for a field
example : parse? (unit "shop.Cart.count:I").text = some (field ⟨"shop.Cart", "count", "I"⟩) := by
  decide +kernel

end Dependency

end Retest

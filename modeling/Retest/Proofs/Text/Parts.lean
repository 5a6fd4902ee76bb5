import Mathlib.Data.List.Basic
import Mathlib.Data.List.TakeWhile
import Retest.Text.Blank
import Retest.Text.Numeral
import Retest.Text.Search

/-!
# Texts put together from parts

Every text that this library writes is put together from parts with separators
between or after them, and read by cutting it at the separators. This module
says when cutting gives the parts back: the parts of a line may hold no white
space, the tests of a record no comma, and the lines of a text neither a line
feed nor a carriage return at their end.

A *word* (`Retest.Text.IsWord`) is a text that is not empty and holds no white
space. Decimal numerals are words (`Retest.Text.isWord_toString`), and a numeral
that is written is read as the number it was written for
(`Retest.Text.natural?_toString`).
-/

namespace Retest.Text

/-! ### Words -/

/-- A text that is not empty and holds no white space. -/
def IsWord (s : String) : Prop := s ≠ "" ∧ ∀ c ∈ s.toList, isBlank c = false

instance (s : String) : Decidable (IsWord s) :=
  decidable_of_iff (s ≠ "" ∧ s.toList.all (fun c => !isBlank c) = true) (by simp [IsWord])

theorem toList_ne_nil {s : String} (h : s ≠ "") : s.toList ≠ [] := fun hs =>
  h (String.toList_eq_nil_iff.1 hs)

/-- A word is the only word in it. -/
theorem words_eq_singleton {s : String} (h : IsWord s) : words s = [s] := by
  have hs : s.toList.isEmpty = false := List.isEmpty_eq_false_iff.2 (toList_ne_nil h.1)
  rw [words, List.splitOnP_eq_singleton h.2]
  simp [hs]

/-- **A word before a space is the first word.** -/
theorem words_append_space {a : String} (ha : IsWord a) (s : String) :
    words (a ++ " " ++ s) = a :: words s := by
  have hl : (a ++ " " ++ s).toList = a.toList ++ ' ' :: s.toList := by
    rw [String.toList_append, String.toList_append, List.append_assoc]
    rfl
  have he : a.toList.isEmpty = false := List.isEmpty_eq_false_iff.2 (toList_ne_nil ha.1)
  rw [words, hl, List.splitOnP_append_cons_of_forall_mem ha.2 ' ' (by decide)]
  simp [words, he]

/-- The parts of a list hold what is in the list, separators apart. -/
theorem of_mem_splitOnP {α : Type} {p : α → Bool} {l part : List α} (h : part ∈ l.splitOnP p) :
    ∀ a ∈ part, a ∈ l ∧ p a = false := by
  induction l generalizing part with
  | nil =>
    rw [List.splitOnP_nil, List.mem_singleton] at h
    rw [h]
    intro a ha
    cases ha
  | cons b l ih =>
    obtain ⟨first, others, hparts⟩ := List.exists_cons_of_ne_nil (List.splitOnP_ne_nil p l)
    have hmem : ∀ {q}, q ∈ l.splitOnP p → ∀ a ∈ q, a ∈ b :: l ∧ p a = false := fun hq a ha =>
      ⟨List.mem_cons_of_mem _ (ih hq a ha).1, (ih hq a ha).2⟩
    -- a separator opens an empty part, anything else joins the part that comes next
    rw [List.splitOnP_cons_eq_if_modifyHead] at h
    split at h
    · rcases List.mem_cons.1 h with rfl | h
      · intro a ha
        cases ha
      · exact hmem h
    · next hb =>
      rw [hparts] at h hmem
      rcases List.mem_cons.1 h with rfl | h
      · intro a ha
        rcases List.mem_cons.1 ha with rfl | ha
        · exact ⟨List.mem_cons_self, by simpa using hb⟩
        · exact hmem List.mem_cons_self a ha
      · exact hmem (List.mem_cons_of_mem _ h)

/-- What is no separator is in a part. -/
theorem exists_mem_splitOnP {α : Type} {p : α → Bool} {l : List α} {a : α} (ha : a ∈ l)
    (h : p a = false) : ∃ part ∈ l.splitOnP p, a ∈ part := by
  induction l with
  | nil => cases ha
  | cons b l ih =>
    rw [List.splitOnP_cons_eq_if_modifyHead]
    split
    · next hb =>
      rcases List.mem_cons.1 ha with rfl | ha
      · rw [h] at hb
        cases hb
      · obtain ⟨part, hpart, ha⟩ := ih ha
        exact ⟨part, List.mem_cons_of_mem _ hpart, ha⟩
    · obtain ⟨first, parts, hparts⟩ := List.exists_cons_of_ne_nil (List.splitOnP_ne_nil p l)
      rw [hparts, List.modifyHead_cons]
      rcases List.mem_cons.1 ha with rfl | ha
      · exact ⟨_, List.mem_cons_self, List.mem_cons_self⟩
      · obtain ⟨part, hpart, ha⟩ := ih ha
        rw [hparts] at hpart
        rcases List.mem_cons.1 hpart with rfl | hpart
        · exact ⟨_, List.mem_cons_self, List.mem_cons_of_mem _ ha⟩
        · exact ⟨part, List.mem_cons_of_mem _ hpart, ha⟩

theorem words_ne_nil {s : String} {c : Char} (hc : c ∈ s.toList) (h : isBlank c = false) :
    words s ≠ [] := by
  obtain ⟨part, hpart, hmem⟩ := exists_mem_splitOnP hc h
  have hempty : part.isEmpty = false := List.isEmpty_eq_false_iff.2 (List.ne_nil_of_mem hmem)
  exact List.ne_nil_of_mem (List.mem_map_of_mem (List.mem_filter.2 ⟨hpart, by simp [hempty]⟩))

/-- White space within a text parts it into two words or more. -/
theorem two_le_length_words {s : String} (hfirst : ∀ c ∈ s.toList.head?, isBlank c = false)
    (hlast : ∀ c ∈ s.toList.getLast?, isBlank c = false) {c : Char} (hc : c ∈ s.toList)
    (hblank : isBlank c = true) : 2 ≤ (words s).length := by
  obtain ⟨before, after, hs⟩ := List.append_of_mem hc
  have hwords : words s = words (.ofList before) ++ words (.ofList after) := by
    rw [words, hs, List.splitOnP_append_cons _ _ hblank, List.filter_append, List.map_append, words,
      words, String.toList_ofList, String.toList_ofList]
  have hne : ∀ {l : List Char} {d : Char}, d ∈ l → isBlank d = false →
      0 < (words (.ofList l)).length := fun {l d} hd hfalse =>
    List.length_pos_iff.2 (words_ne_nil (String.toList_ofList.symm ▸ hd) hfalse)
  -- the text neither begins nor ends with white space, so there is more on both sides
  have hbefore : 0 < (words (.ofList before)).length := by
    cases before with
    | nil => exact absurd (hfirst c (by rw [hs]; rfl)) (by rw [hblank]; decide)
    | cons d before => exact hne List.mem_cons_self (hfirst d (by rw [hs]; rfl))
  have hafter : 0 < (words (.ofList after)).length := by
    rw [hs, List.getLast?_append_cons] at hlast
    cases after with
    | nil => exact absurd (hlast c rfl) (by rw [hblank]; decide)
    | cons d after =>
      rw [List.getLast?_cons_cons] at hlast
      exact hne (List.getLast_mem (List.cons_ne_nil d after))
        (hlast _ (List.getLast?_eq_some_getLast (List.cons_ne_nil d after)))
  rw [hwords, List.length_append]
  omega

/-- The words of a text are words. -/
theorem isWord_of_mem_words {s word : String} (h : word ∈ words s) : IsWord word := by
  obtain ⟨part, hpart, rfl⟩ := List.mem_map.1 h
  rw [List.mem_filter] at hpart
  refine ⟨fun he => ?_, fun c hc => ?_⟩
  · have := congrArg String.toList he
    rw [String.toList_ofList] at this
    simp [this] at hpart
  · rw [String.toList_ofList] at hc
    exact (of_mem_splitOnP hpart.1 c hc).2

/-! ### White space at the ends -/

theorem dropWhileEnd_eq_self {α : Type} {p : α → Bool} {l : List α}
    (h : ∀ a ∈ l.getLast?, p a = false) : dropWhileEnd p l = l := by
  have hd : l.reverse.dropWhile p = l.reverse := by
    cases hr : l.reverse with
    | nil => rfl
    | cons a r =>
      have ha : l.getLast? = some a := by rw [← List.head?_reverse, hr]; rfl
      exact List.dropWhile_cons_of_neg (by rw [h a ha]; decide)
  rw [dropWhileEnd, hd, List.reverse_reverse]

theorem trim_eq_self {s : String} (hfirst : ∀ c ∈ s.toList.head?, isBlank c = false)
    (hlast : ∀ c ∈ s.toList.getLast?, isBlank c = false) : trim s = s := by
  have hd : s.toList.dropWhile isBlank = s.toList := by
    cases hs : s.toList with
    | nil => rfl
    | cons c l =>
      rw [hs] at hfirst
      exact List.dropWhile_cons_of_neg (by rw [hfirst c rfl]; decide)
  rw [trim, hd, dropWhileEnd_eq_self hlast, String.ofList_toList]

theorem dropWhileEnd_cons {α : Type} {p : α → Bool} {a : α} (h : p a = false) (l : List α) :
    dropWhileEnd p (a :: l) = a :: dropWhileEnd p l := by
  rw [dropWhileEnd, List.reverse_cons, List.dropWhile_append]
  split
  · next hempty =>
    rw [List.isEmpty_iff] at hempty
    rw [List.dropWhile_cons_of_neg (by rw [h]; decide), dropWhileEnd, hempty]
    rfl
  · rw [List.reverse_append, dropWhileEnd]
    rfl

theorem of_dropWhile_eq_cons {α : Type} {p : α → Bool} {l m : List α} {a : α}
    (h : l.dropWhile p = a :: m) : p a = false := by
  have := List.head?_dropWhile_not p l
  rw [h] at this
  exact this

theorem of_mem_getLast?_dropWhileEnd {α : Type} {p : α → Bool} {l : List α} {a : α}
    (h : a ∈ (dropWhileEnd p l).getLast?) : p a = false := by
  have := List.head?_dropWhile_not p l.reverse
  rw [dropWhileEnd, List.getLast?_reverse] at h
  rw [Option.mem_def.1 h] at this
  exact this

theorem mem_of_mem_trim {s : String} {c : Char} (h : c ∈ (trim s).toList) : c ∈ s.toList := by
  rw [trim, String.toList_ofList, dropWhileEnd, List.mem_reverse] at h
  have := List.mem_reverse.1 ((List.dropWhile_sublist _).mem h)
  exact (List.dropWhile_sublist _).mem this

/-- A trimmed text has no white space at its ends. -/
theorem ends_trim (s : String) : (∀ c ∈ (trim s).toList.head?, isBlank c = false) ∧
    ∀ c ∈ (trim s).toList.getLast?, isBlank c = false := by
  refine ⟨fun c hc => ?_, fun c hc => ?_⟩
  · rw [trim, String.toList_ofList] at hc
    cases hd : s.toList.dropWhile isBlank with
    | nil =>
      rw [hd] at hc
      cases hc
    | cons a l =>
      have ha : isBlank a = false := of_dropWhile_eq_cons hd
      rw [hd, dropWhileEnd_cons ha, List.head?_cons, Option.mem_some] at hc
      exact hc ▸ ha
  · rw [trim, String.toList_ofList] at hc
    exact of_mem_getLast?_dropWhileEnd hc

theorem trim_trim (s : String) : trim (trim s) = trim s :=
  trim_eq_self (ends_trim s).1 (ends_trim s).2

theorem trim_ne_empty {s : String} (h : isBlankLine s = false) : trim s ≠ "" := by
  intro he
  have hnil : dropWhileEnd isBlank (s.toList.dropWhile isBlank) = [] := by
    rw [← String.toList_ofList (l := dropWhileEnd _ _), ← trim, he]
    rfl
  cases hd : s.toList.dropWhile isBlank with
  | nil =>
    rw [List.dropWhile_eq_nil_iff] at hd
    rw [isBlankLine, List.all_eq_true.2 hd] at h
    cases h
  | cons d l =>
    rw [hd, dropWhileEnd_cons (of_dropWhile_eq_cons hd)] at hnil
    cases hnil

/-- A word has no white space at its ends. -/
theorem trim_word {s : String} (h : IsWord s) : trim s = s :=
  trim_eq_self (fun c hc => h.2 c (List.mem_of_mem_head? hc))
    fun c hc => h.2 c (List.mem_of_getLast? hc)

theorem isBlankLine_eq_false {s : String} {c : Char} (hc : c ∈ s.toList)
    (h : isBlank c = false) : isBlankLine s = false := by
  rw [isBlankLine, List.all_eq_false]
  exact ⟨c, hc, by rw [h]; decide⟩

/-! ### Lines -/

/-- Parts that are closed by a separator are cut at it. -/
theorem splitOnP_flatMap_closed {α : Type} {p : α → Bool} {sep : α} (hsep : p sep = true)
    {parts : List (List α)} (h : ∀ l ∈ parts, ∀ a ∈ l, p a = false) :
    (parts.flatMap (· ++ [sep])).splitOnP p = parts ++ [[]] := by
  induction parts with
  | nil => rfl
  | cons l parts ih =>
    rw [List.flatMap_cons, List.append_assoc, List.singleton_append,
      List.splitOnP_append_cons_of_forall_mem (h l List.mem_cons_self) sep hsep,
      ih fun l' hl' => h l' (List.mem_cons_of_mem _ hl')]
    rfl

/-- **Parts that are closed by line feeds are the lines of the text they make**, each without a
carriage return at its end. -/
theorem linesOf_flatMap_append {α : Type} [BEq α] [LawfulBEq α] {lf : α} (cr : α)
    {parts : List (List α)} (hlf : ∀ l ∈ parts, lf ∉ l) :
    linesOf lf cr (parts.flatMap (· ++ [lf])) = parts.map (dropReturn cr) := by
  have hsplit : (parts.flatMap (· ++ [lf])).splitOnP (· == lf) = parts ++ [[]] := by
    refine splitOnP_flatMap_closed (p := (· == lf)) (beq_self_eq_true lf) fun l hl a ha => ?_
    exact beq_eq_false_iff_ne.2 fun he => hlf l hl (he ▸ ha)
  rw [linesOf, hsplit]
  simp

theorem dropReturn_eq_self {α : Type} [BEq α] [LawfulBEq α] {cr : α} {l : List α}
    (h : l.getLast? ≠ some cr) : dropReturn cr l = l := by
  rw [dropReturn, if_neg]
  simpa using h

/-- Lines that end with no carriage return are found as they are. -/
theorem linesOf_flatMap_closed {α : Type} [BEq α] [LawfulBEq α] {lf cr : α}
    {parts : List (List α)} (hlf : ∀ l ∈ parts, lf ∉ l)
    (hcr : ∀ l ∈ parts, l.getLast? ≠ some cr) :
    linesOf lf cr (parts.flatMap (· ++ [lf])) = parts := by
  rw [linesOf_flatMap_append cr hlf, List.map_congr_left fun l hl => dropReturn_eq_self (hcr l hl),
    List.map_id']

theorem mem_of_mem_dropReturn {α : Type} [BEq α] {cr a : α} {l : List α}
    (h : a ∈ dropReturn cr l) : a ∈ l := by
  rw [dropReturn] at h
  split at h
  · exact (List.dropLast_sublist l).mem h
  · exact h

/-- There is no line feed in a line. -/
theorem newline_notMem_of_mem_lines {s line : String} (h : line ∈ lines s) :
    '\n' ∉ line.toList := by
  have hpart : ∀ part ∈ s.toList.splitOnP (· == '\n'), '\n' ∉ part := fun part hpart hm => by
    simpa using (of_mem_splitOnP hpart _ hm).2
  obtain ⟨l, hl, rfl⟩ := List.mem_map.1 h
  rw [String.toList_ofList]
  rw [linesOf, List.mem_append] at hl
  rcases hl with hl | hl
  · obtain ⟨part, hmem, rfl⟩ := List.mem_map.1 hl
    exact fun hm => hpart part ((List.dropLast_sublist _).mem hmem) (mem_of_mem_dropReturn hm)
  · have hlast := (List.mem_filter.1 hl).1
    rw [Option.mem_toList] at hlast
    exact hpart l (List.mem_of_getLast? hlast)

/-- A text that is found again where it stands on a line: it is not empty, has no line feed in it,
and no white space at its end. -/
def IsLine (s : String) : Prop :=
  s ≠ "" ∧ '\n' ∉ s.toList ∧ ∀ c ∈ s.toList.getLast?, isBlank c = false

instance (s : String) : Decidable (IsLine s) :=
  decidable_of_iff (s ≠ "" ∧ '\n' ∉ s.toList ∧ s.toList.getLast?.all (fun c => !isBlank c) = true)
    (by simp [IsLine, Option.all_eq_true])

theorem IsWord.isLine {s : String} (h : IsWord s) : IsLine s :=
  ⟨h.1, fun hm => absurd (h.2 _ hm) (by decide), fun c hc => h.2 c (List.mem_of_getLast? hc)⟩

theorem IsLine.append {a b : String} (ha : '\n' ∉ a.toList) (hb : IsLine b) : IsLine (a ++ b) := by
  have hlist : b.toList ≠ [] := toList_ne_nil hb.1
  refine ⟨fun he => ?_, fun hm => ?_, fun c hc => ?_⟩
  · have := congrArg String.toList he
    rw [String.toList_append] at this
    exact hlist (List.append_eq_nil_iff.1 this).2
  · rw [String.toList_append] at hm
    exact (List.mem_append.1 hm).elim ha hb.2.1
  · rw [String.toList_append, List.getLast?_append_of_ne_nil _ hlist] at hc
    exact hb.2.2 c hc

theorem IsLine.isBlankLine {s : String} (h : IsLine s) : isBlankLine s = false := by
  obtain ⟨c, hc⟩ := Option.isSome_iff_exists.1 (List.getLast?_isSome.2 (toList_ne_nil h.1))
  exact isBlankLine_eq_false (List.mem_of_getLast? hc) (h.2.2 c hc)

/-- A text without one carriage return at its end. -/
def withoutReturn (s : String) : String := .ofList (dropReturn '\r' s.toList)

/-- A text is the same with a carriage return at its end, or has none there. -/
theorem withoutReturn_cases (s : String) : withoutReturn s = s ∨ withoutReturn s ++ "\r" = s := by
  by_cases h : s.toList.getLast? = some '\r'
  · refine .inr (String.toList_inj.1 ?_)
    have hdrop : dropReturn '\r' s.toList = s.toList.dropLast := by simp [dropReturn, h]
    rw [String.toList_append, withoutReturn, String.toList_ofList, hdrop]
    exact List.dropLast_append_getLast? '\r' h
  · exact .inl (by rw [withoutReturn, dropReturn_eq_self h, String.ofList_toList])

/-- White space at the end does not add a word. -/
theorem words_append_return (s : String) : words (s ++ "\r") = words s := by
  have hl : (s ++ "\r").toList = s.toList ++ '\r' :: [] := String.toList_append
  rw [words, hl, List.splitOnP_append_cons _ _ (by decide)]
  simp [words]

@[simp] theorem words_withoutReturn (s : String) : words (withoutReturn s) = words s := by
  rcases withoutReturn_cases s with h | h
  · rw [h]
  · rw [← words_append_return, h]

theorem isBlankLine_append_return (s : String) : isBlankLine (s ++ "\r") = isBlankLine s := by
  have hl : (s ++ "\r").toList = s.toList ++ ['\r'] := String.toList_append
  have hr : isBlank '\r' = true := by decide
  simp [isBlankLine, hl, hr]

@[simp] theorem isBlankLine_withoutReturn (s : String) :
    isBlankLine (withoutReturn s) = isBlankLine s := by
  rcases withoutReturn_cases s with h | h
  · rw [h]
  · rw [← isBlankLine_append_return, h]

/-- **Texts without line feeds are found again in the text that closes each of them by one**, but
for a carriage return at the end. -/
theorem lines_join_eq_map {parts : List String} (h : ∀ s ∈ parts, '\n' ∉ s.toList) :
    lines (String.join (parts.map (· ++ "\n"))) = parts.map withoutReturn := by
  have htext : (String.join (parts.map (· ++ "\n"))).toList =
      (parts.map String.toList).flatMap (· ++ ['\n']) := by
    rw [String.toList_join, List.flatMap_map, List.flatMap_map]
    simp
  have hlf : ∀ l ∈ parts.map String.toList, '\n' ∉ l := by
    intro l hl
    obtain ⟨s, hs, rfl⟩ := List.mem_map.1 hl
    exact h s hs
  rw [lines, htext, linesOf_flatMap_append '\r' hlf, List.map_map, List.map_map]
  rfl

theorem IsLine.withoutReturn_eq {s : String} (h : IsLine s) : withoutReturn s = s := by
  rcases withoutReturn_cases s with hs | hs
  · exact hs
  · have hlast : s.toList.getLast? = some '\r' := by
      rw [← hs, String.toList_append]
      exact List.getLast?_concat
    exact absurd (h.2.2 _ hlast) (by decide)

/-- **Lines are found again in the text they make.** -/
theorem lines_join {parts : List String} (h : ∀ s ∈ parts, IsLine s) :
    lines (String.join (parts.map (· ++ "\n"))) = parts := by
  rw [lines_join_eq_map fun s hs => (h s hs).2.1,
    List.map_congr_left fun s hs => (h s hs).withoutReturn_eq, List.map_id']

/-! ### Fields between separators -/

/-- Fields without the separator are the fields of the text that joins them. -/
theorem splitOnP_intercalate {sep : Char} {parts : List (List Char)} (hne : parts ≠ [])
    (h : ∀ l ∈ parts, sep ∉ l) :
    ([sep].intercalate parts).splitOnP (· == sep) = parts := by
  have hfalse : ∀ l ∈ parts, ∀ c ∈ l, (c == sep) = false := fun l hl c hc =>
    beq_eq_false_iff_ne.2 fun he => h l hl (he ▸ hc)
  induction parts with
  | nil => exact absurd rfl hne
  | cons l parts ih =>
    have hl : ∀ c ∈ l, (c == sep) = false := hfalse l List.mem_cons_self
    cases parts with
    | nil => simpa using List.splitOnP_eq_singleton hl
    | cons l' parts =>
      have ht : [sep].intercalate (l :: l' :: parts) =
          l ++ sep :: [sep].intercalate (l' :: parts) := by
        simp [List.intercalate]
      rw [ht, List.splitOnP_append_cons_of_forall_mem hl sep (beq_self_eq_true sep),
        ih (by simp) (fun k hk => h k (List.mem_cons_of_mem _ hk))
          fun k hk => hfalse k (List.mem_cons_of_mem _ hk)]

/-! ### Numerals -/

theorem digitsOnto_eq {s : List Char} (h : ∀ c ∈ s, c.isDigit = true) (acc : Nat) :
    digitsOnto acc s = some (Nat.ofDigitChars 10 s acc) := by
  induction s generalizing acc with
  | nil => rfl
  | cons c s ih =>
    rw [digitsOnto, if_pos (h c List.mem_cons_self),
      ih (fun d hd => h d (List.mem_cons_of_mem _ hd)), Nat.ofDigitChars_cons]
    rfl

theorem isDigit_of_mem_toString {n : Nat} {c : Char} (h : c ∈ (toString n).toList) :
    c.isDigit = true := by
  rw [Nat.toString_eq_ofList_toDigits, String.toList_ofList] at h
  exact Nat.isDigit_of_mem_toDigits (by decide) (by decide) h

theorem toList_toString_ne_nil (n : Nat) : (toString n).toList ≠ [] := by
  rw [Nat.toString_eq_ofList_toDigits, String.toList_ofList]
  exact Nat.toDigits_ne_nil

theorem decimal?_toString (n : Nat) : decimal? (toString n).toList = some n := by
  rw [decimal?, if_neg (by simp),
    digitsOnto_eq fun c hc => isDigit_of_mem_toString hc, Nat.toString_eq_ofList_toDigits,
    String.toList_ofList, Nat.ofDigitChars_ten_toDigits]

/-- **A number is read from its numeral.** -/
theorem natural?_toString (n : Nat) : natural? (toString n) = some n := by
  rw [natural?]
  split
  · -- a numeral does not begin with a plus sign
    next s hs =>
    have hplus : '+' ∈ (toString n).toList := by rw [hs]; exact List.mem_cons_self
    exact absurd (isDigit_of_mem_toString hplus) (by decide)
  · exact decimal?_toString n

theorem isBlank_of_isDigit {c : Char} (h : c.isDigit = true) : isBlank c = false := by
  simp only [Char.isDigit, Bool.and_eq_true, decide_eq_true_eq] at h
  have h1 : 48 ≤ c.toNat := h.1
  have h2 : c.toNat ≤ 57 := h.2
  simp only [isBlank, Bool.or_eq_false_iff, Bool.and_eq_false_iff, beq_eq_false_iff_ne,
    decide_eq_false_iff_not]
  omega

theorem isWord_toString (n : Nat) : IsWord (toString n) :=
  ⟨fun h => toList_toString_ne_nil n (by rw [h]; rfl),
    fun _ hc => isBlank_of_isDigit (isDigit_of_mem_toString hc)⟩

theorem hexValue?_hexDigit {n : Nat} (h : n < 16) : hexValue? (hexDigit n) = some n := by
  revert n
  decide

/-! ### Text before a separator -/

theorem splitFirst?_append {sep : Char} {before : List Char} (h : sep ∉ before)
    (after : List Char) : splitFirst? sep (before ++ sep :: after) = some (before, after) := by
  have hne : ∀ c ∈ before, (c != sep) = true := fun c hc => bne_iff_ne.2 fun he => h (he ▸ hc)
  rw [splitFirst?, List.dropWhile_append_of_pos hne, List.takeWhile_append_of_pos hne]
  simp

/-- Texts that agree up to and after their first separators have the same two parts. -/
theorem append_separator_inj {sep : Char} {a a' b b' : List Char} (ha : sep ∉ a) (ha' : sep ∉ a')
    (h : a ++ sep :: b = a' ++ sep :: b') : a = a' ∧ b = b' := by
  have hsplit := splitFirst?_append ha b
  rw [h, splitFirst?_append ha'] at hsplit
  exact ⟨(Prod.mk.inj (Option.some.inj hsplit)).1.symm,
    (Prod.mk.inj (Option.some.inj hsplit)).2.symm⟩

/-- What lies before and after the first separator makes up the text. -/
theorem splitFirst?_eq_some {sep : Char} {s before after : List Char}
    (h : splitFirst? sep s = some (before, after)) : s = before ++ sep :: after ∧ sep ∉ before := by
  rw [splitFirst?] at h
  split at h
  · cases h
  · next d r hd =>
    have hparts := Prod.mk.inj (Option.some.inj h)
    obtain ⟨rfl, rfl⟩ := hparts
    have hsep : d = sep := by simpa using of_dropWhile_eq_cons hd
    refine ⟨?_, fun hm => ?_⟩
    · rw [← hsep, ← hd, hsep]
      exact List.takeWhile_append_dropWhile.symm
    · have hp := List.all_takeWhile (l := s) (p := (· != sep))
      simpa using List.all_eq_true.1 hp sep hm

end Retest.Text

import Retest.Proofs.Text.Parts
import Retest.Text.Quoted

/-!
# Texts that tell where they end

A text that is put together from parts can be taken apart again if each part tells where
it ends: by a character that cannot belong to it, or by a mark of its own. This module
has both kinds. A run of characters of one sort ends at the first character of another
sort (`Retest.Text.append_inj_of_run`), and numerals, decimal or hexadecimal, are such
runs. A quoted text ends at its closing quote, which `Retest.Text.escaped` keeps apart
from the quotes inside (`Retest.Text.quoted_append_inj`). A list between separators is
taken apart if its elements are (`Retest.Text.intercalate_append_inj`), whatever the
elements themselves may hold.

All statements have the form: if two texts with something after them agree, they stand
for the same, and what comes after them agrees.
-/

namespace Retest.Text

/-! ### Runs -/

/-- **A run ends at the first element of another sort.** -/
theorem append_inj_of_run {α : Type} {p : α → Prop} {a b x y : List α} (ha : ∀ c ∈ a, p c)
    (hb : ∀ c ∈ b, p c) (hx : ∀ c ∈ x.head?, ¬p c) (hy : ∀ c ∈ y.head?, ¬p c)
    (h : a ++ x = b ++ y) : a = b ∧ x = y := by
  induction a generalizing b with
  | nil =>
    rcases b with _ | ⟨d, b⟩
    · exact ⟨rfl, h⟩
    · rw [List.nil_append] at h
      rw [h] at hx
      exact absurd (hb d List.mem_cons_self) (hx d rfl)
  | cons c a ih =>
    rcases b with _ | ⟨d, b⟩
    · rw [List.nil_append] at h
      rw [← h] at hy
      exact absurd (ha c List.mem_cons_self) (hy c rfl)
    · obtain ⟨rfl, hrest⟩ := List.cons.inj h
      obtain ⟨rfl, hxy⟩ := ih (fun e he => ha e (List.mem_cons_of_mem _ he))
        (fun e he => hb e (List.mem_cons_of_mem _ he)) hrest
      exact ⟨rfl, hxy⟩

theorem forall_head?_cons {α : Type} {p : α → Prop} {a : α} (h : p a) (l : List α) :
    ∀ c ∈ (a :: l).head?, p c := by
  rintro c ⟨⟩
  exact h

/-! ### Numerals -/

theorem toString_string (s : String) : toString s = s := rfl

theorem toString_uint8 (n : UInt8) : toString n = toString n.toNat := rfl

theorem toString_uint16 (n : UInt16) : toString n = toString n.toNat := rfl

theorem toString_nat_injective {n m : Nat} (h : toString n = toString m) : n = m := by
  have hsome : some n = some m := by rw [← decimal?_toString, h, decimal?_toString]
  exact Option.some.inj hsome

theorem toString_nat_append_inj {n m : Nat} {x y : List Char}
    (hx : ∀ c ∈ x.head?, ¬c.isDigit = true) (hy : ∀ c ∈ y.head?, ¬c.isDigit = true)
    (h : (toString n).toList ++ x = (toString m).toList ++ y) : n = m ∧ x = y := by
  obtain ⟨hnm, hxy⟩ := append_inj_of_run (fun c hc => isDigit_of_mem_toString hc)
    (fun c hc => isDigit_of_mem_toString hc) hx hy h
  exact ⟨toString_nat_injective (String.toList_inj.1 hnm), hxy⟩

theorem notMem_toString_nat {c : Char} (hc : c.isDigit = false) (n : Nat) :
    c ∉ (toString n).toList := by
  intro h
  rw [isDigit_of_mem_toString h] at hc
  cases hc

/-- A number tells where it ends by the separator after it. -/
theorem toString_nat_separator_inj {sep : Char} (hsep : sep.isDigit = false) {n m : Nat}
    {x y : List Char} (h : (toString n).toList ++ sep :: x = (toString m).toList ++ sep :: y) :
    n = m ∧ x = y := by
  obtain ⟨hnm, hxy⟩ :=
    append_separator_inj (notMem_toString_nat hsep n) (notMem_toString_nat hsep m) h
  exact ⟨toString_nat_injective (String.toList_inj.1 hnm), hxy⟩

/-- The characters of decimal numerals, negative ones among them. -/
def isNumeralChar (c : Char) : Bool := c.isDigit || c == '-'

theorem isNumeralChar_of_isDigit {c : Char} (h : c.isDigit = true) : isNumeralChar c = true := by
  rw [isNumeralChar, h]
  rfl

theorem isNumeralChar_of_mem_toString {n : Int} {c : Char} (h : c ∈ (toString n).toList) :
    isNumeralChar c = true := by
  rw [Int.toString_eq_repr, Int.repr_eq_if] at h
  split at h
  · exact isNumeralChar_of_isDigit (isDigit_of_mem_toString h)
  · rw [String.toList_append, List.mem_append] at h
    rcases h with h | h
    · rw [List.mem_singleton.1 h]
      rfl
    · exact isNumeralChar_of_isDigit (isDigit_of_mem_toString h)

theorem toString_int_injective {n m : Int} (h : toString n = toString m) : n = m := by
  -- a minus sign is no digit, so both numbers are negative or none is
  have hminus : ∀ (k : Nat) (s : String), toString k ≠ "-" ++ s := by
    intro k s hk
    refine notMem_toString_nat rfl k (?_ : '-' ∈ _)
    rw [hk, String.toList_append]
    exact List.mem_append_left _ List.mem_cons_self
  rw [Int.toString_eq_repr, Int.toString_eq_repr, Int.repr_eq_if, Int.repr_eq_if] at h
  split at h <;> split at h
  · have := toString_nat_injective h
    omega
  · exact absurd h (hminus _ _)
  · exact absurd h.symm (hminus _ _)
  · have := toString_nat_injective (String.append_right_inj _ |>.1 h)
    omega

theorem toString_int_append_inj {n m : Int} {x y : List Char}
    (hx : ∀ c ∈ x.head?, ¬isNumeralChar c = true) (hy : ∀ c ∈ y.head?, ¬isNumeralChar c = true)
    (h : (toString n).toList ++ x = (toString m).toList ++ y) : n = m ∧ x = y := by
  obtain ⟨hnm, hxy⟩ := append_inj_of_run (fun c hc => isNumeralChar_of_mem_toString hc)
    (fun c hc => isNumeralChar_of_mem_toString hc) hx hy h
  exact ⟨toString_int_injective (String.toList_inj.1 hnm), hxy⟩

theorem notMem_toString_int {c : Char} (hc : isNumeralChar c = false) (n : Int) :
    c ∉ (toString n).toList := by
  intro h
  rw [isNumeralChar_of_mem_toString h] at hc
  cases hc

theorem toString_int_separator_inj {sep : Char} (hsep : isNumeralChar sep = false) {n m : Int}
    {x y : List Char} (h : (toString n).toList ++ sep :: x = (toString m).toList ++ sep :: y) :
    n = m ∧ x = y := by
  obtain ⟨hnm, hxy⟩ :=
    append_separator_inj (notMem_toString_int hsep n) (notMem_toString_int hsep m) h
  exact ⟨toString_int_injective (String.toList_inj.1 hnm), hxy⟩

theorem signed_injective {n m : Int} (h : signed n = signed m) : n = m := by
  have hplus : ∀ (k : Int) (s : String), toString k ≠ "+" ++ s := by
    intro k s hk
    refine notMem_toString_int rfl k (?_ : '+' ∈ _)
    rw [hk, String.toList_append]
    exact List.mem_append_left _ List.mem_cons_self
  rw [signed, signed] at h
  split at h <;> split at h
  · exact toString_int_injective h
  · exact absurd h (hplus _ _)
  · exact absurd h.symm (hplus _ _)
  · exact toString_int_injective (String.append_right_inj _ |>.1 h)

/-! ### Hexadecimal numerals -/

/-- The value of a run of hexadecimal digits. -/
def hexNumber (s : List Char) : Nat := s.foldl (fun n c => 16 * n + (hexValue? c).getD 0) 0

theorem hexValue?_digitChar {n : Nat} (h : n < 16) : hexValue? n.digitChar = some n := by
  revert n
  decide

theorem isHexDigit_digitChar {n : Nat} (h : n < 16) : isHexDigit n.digitChar = true := by
  revert n
  decide

theorem hexNumber_toDigits (n : Nat) : hexNumber (Nat.toDigits 16 n) = n := by
  induction n using Nat.strongRecOn with
  | ind n ih =>
    rcases Nat.lt_or_ge n 16 with hlt | hge
    · rw [Nat.toDigits_of_lt_base hlt, hexNumber, List.foldl_cons, hexValue?_digitChar hlt]
      exact Nat.zero_add n
    · have hlast : n % 16 < 16 := Nat.mod_lt _ (by omega)
      have hfront := ih (n / 16) (by omega)
      rw [hexNumber] at hfront
      rw [Nat.toDigits_of_base_le (by omega) hge, hexNumber, List.foldl_append, hfront,
        List.foldl_cons, hexValue?_digitChar hlast]
      exact Nat.div_add_mod n 16

theorem hexNumber_hexPadded (width n : Nat) : hexNumber (hexPadded width n).toList = n := by
  have hzeros : ∀ k,
      (List.replicate k '0').foldl (fun n c => 16 * n + (hexValue? c).getD 0) 0 = 0 := by
    intro k
    induction k with
    | zero => rfl
    | succ k ih => exact ih
  rw [hexPadded, String.toList_ofList, hexNumber, List.foldl_append, hzeros]
  exact hexNumber_toDigits n

theorem isHexDigit_of_mem_toDigits {n : Nat} {c : Char} (h : c ∈ Nat.toDigits 16 n) :
    isHexDigit c = true := by
  induction n using Nat.strongRecOn with
  | ind n ih =>
    rcases Nat.lt_or_ge n 16 with hlt | hge
    · rw [Nat.toDigits_of_lt_base hlt, List.mem_singleton] at h
      exact h ▸ isHexDigit_digitChar hlt
    · rw [Nat.toDigits_of_base_le (by omega) hge, List.mem_append, List.mem_singleton] at h
      rcases h with h | rfl
      · exact ih (n / 16) (by omega) h
      · exact isHexDigit_digitChar (Nat.mod_lt _ (by omega))

theorem isHexDigit_of_mem_hexPadded {width n : Nat} {c : Char}
    (h : c ∈ (hexPadded width n).toList) : isHexDigit c = true := by
  rw [hexPadded, String.toList_ofList, List.mem_append] at h
  rcases h with h | h
  · rw [(List.mem_replicate.1 h).2]
    rfl
  · exact isHexDigit_of_mem_toDigits h

theorem hexPadded_injective {width n m : Nat} (h : hexPadded width n = hexPadded width m) :
    n = m := by
  rw [← hexNumber_hexPadded width n, h, hexNumber_hexPadded]

theorem hexPadded_append_inj {width n m : Nat} {x y : List Char}
    (hx : ∀ c ∈ x.head?, ¬isHexDigit c = true) (hy : ∀ c ∈ y.head?, ¬isHexDigit c = true)
    (h : (hexPadded width n).toList ++ x = (hexPadded width m).toList ++ y) : n = m ∧ x = y := by
  obtain ⟨hnm, hxy⟩ := append_inj_of_run (fun c hc => isHexDigit_of_mem_hexPadded hc)
    (fun c hc => isHexDigit_of_mem_hexPadded hc) hx hy h
  exact ⟨hexPadded_injective (String.toList_inj.1 hnm), hxy⟩

theorem notMem_hexPadded {c : Char} (hc : isHexDigit c = false) (width n : Nat) :
    c ∉ (hexPadded width n).toList := by
  intro h
  rw [isHexDigit_of_mem_hexPadded h] at hc
  cases hc

theorem hexPadded_separator_inj {sep : Char} (hsep : isHexDigit sep = false) {width n m : Nat}
    {x y : List Char}
    (h : (hexPadded width n).toList ++ sep :: x = (hexPadded width m).toList ++ sep :: y) :
    n = m ∧ x = y := by
  obtain ⟨hnm, hxy⟩ :=
    append_separator_inj (notMem_hexPadded hsep width n) (notMem_hexPadded hsep width m) h
  exact ⟨hexPadded_injective (String.toList_inj.1 hnm), hxy⟩

theorem hexOctet_injective {a b : UInt8} (h : hexOctet a = hexOctet b) : a = b := by
  have hdigit : ∀ {n m : Nat}, n < 16 → m < 16 → hexDigit n = hexDigit m → n = m := by
    intro n m hn hm hnm
    have hsome : some n = some m := by rw [← hexValue?_hexDigit hn, hnm, hexValue?_hexDigit hm]
    exact Option.some.inj hsome
  obtain ⟨hhigh, hlow⟩ := List.cons.inj h
  have ha := a.toNat_lt
  have hb := b.toNat_lt
  have hhigh' := hdigit (by omega) (by omega) hhigh
  have hlow' := hdigit (by omega) (by omega) (List.cons.inj hlow).1
  exact UInt8.toNat_inj.1 (by omega)

theorem hexOctets_injective {l m : List UInt8} (h : hexOctets l = hexOctets m) : l = m := by
  rw [hexOctets, hexOctets, String.ofList_inj] at h
  induction l generalizing m with
  | nil =>
    rcases m with _ | ⟨b, m⟩
    · rfl
    · cases h
  | cons a l ih =>
    rcases m with _ | ⟨b, m⟩
    · cases h
    · rw [List.flatMap_cons, List.flatMap_cons] at h
      obtain ⟨hab, hlm⟩ := List.append_inj h rfl
      rw [hexOctet_injective hab, ih hlm]

/-! ### Quoted texts -/

/-- The character that a letter stands for after a backslash. -/
def namedChar : Char → Char
  | '0' => '\x00'
  | 't' => '\t'
  | 'r' => '\r'
  | 'n' => '\n'
  | c => c

/-- A character shows as itself, under its name or by its number. -/
theorem escaped_cases (c : Char) :
    (escaped c = [c] ∧ c ≠ '\\' ∧ c ≠ '"' ∧ c ≠ '\n') ∨
      (∃ name, escaped c = ['\\', name] ∧ name ≠ 'u' ∧ name ≠ '\n' ∧ namedChar name = c) ∨
      escaped c = byNumber c := by
  unfold escaped
  split
  · exact .inr (.inl ⟨'0', rfl, by decide, by decide, rfl⟩)
  · exact .inr (.inl ⟨'t', rfl, by decide, by decide, rfl⟩)
  · exact .inr (.inl ⟨'r', rfl, by decide, by decide, rfl⟩)
  · exact .inr (.inl ⟨'n', rfl, by decide, by decide, rfl⟩)
  · exact .inr (.inl ⟨'"', rfl, by decide, by decide, rfl⟩)
  · exact .inr (.inl ⟨'\\', rfl, by decide, by decide, rfl⟩)
  · next hnull htab hreturn hnewline hquote hbackslash =>
    split
    · exact .inr (.inr rfl)
    · exact .inl ⟨rfl, hbackslash, hquote, hnewline⟩

theorem byNumber_append_inj {c d : Char} {x y : List Char}
    (h : byNumber c ++ x = byNumber d ++ y) : c = d ∧ x = y := by
  have htail : ∀ e z, byNumber e ++ z =
      '\\' :: 'u' :: '\x7b' :: ((hexPadded 1 e.toNat).toList ++ '\x7d' :: z) := by
    intro e z
    simp [byNumber]
  rw [htail, htail] at h
  obtain ⟨hcd, hxy⟩ :=
    hexPadded_separator_inj rfl (List.cons.inj (List.cons.inj (List.cons.inj h).2).2).2
  exact ⟨Char.toNat_inj.1 hcd, hxy⟩

/-- **A character that shows tells where it ends.** -/
theorem escaped_append_inj {c d : Char} {x y : List Char}
    (h : escaped c ++ x = escaped d ++ y) : c = d ∧ x = y := by
  rcases escaped_cases c with ⟨hc, hne, -, -⟩ | ⟨name, hc, hu, -, hname⟩ | hc <;>
    rcases escaped_cases d with ⟨hd, hne', -, -⟩ | ⟨name', hd, hu', -, hname'⟩ | hd <;>
    rw [hc, hd] at h
  · exact List.cons.inj h
  · exact absurd (List.cons.inj h).1 hne
  · exact absurd (List.cons.inj h).1 hne
  · exact absurd (List.cons.inj h).1.symm hne'
  · obtain ⟨hnames, hxy⟩ := List.cons.inj (List.cons.inj h).2
    exact ⟨by rw [← hname, hnames, hname'], hxy⟩
  · exact absurd (List.cons.inj (List.cons.inj h).2).1 hu
  · exact absurd (List.cons.inj h).1.symm hne'
  · exact absurd (List.cons.inj (List.cons.inj h).2).1.symm hu'
  · exact byNumber_append_inj h

theorem exists_escaped_eq_cons (c : Char) : ∃ d s, escaped c = d :: s ∧ d ≠ '"' := by
  rcases escaped_cases c with ⟨hc, -, hquote, -⟩ | ⟨name, hc, -⟩ | hc
  · exact ⟨c, [], hc, hquote⟩
  · exact ⟨'\\', [name], hc, by decide⟩
  · exact ⟨'\\', _, hc, by decide⟩

theorem flatMap_escaped_append_inj {l m x y : List Char}
    (h : l.flatMap escaped ++ '"' :: x = m.flatMap escaped ++ '"' :: y) : l = m ∧ x = y := by
  induction l generalizing m with
  | nil =>
    rcases m with _ | ⟨d, m⟩
    · exact ⟨rfl, (List.cons.inj h).2⟩
    · obtain ⟨e, s, he, hquote⟩ := exists_escaped_eq_cons d
      rw [List.flatMap_cons, he] at h
      exact absurd (List.cons.inj h).1.symm hquote
  | cons c l ih =>
    rcases m with _ | ⟨d, m⟩
    · obtain ⟨e, s, he, hquote⟩ := exists_escaped_eq_cons c
      rw [List.flatMap_cons, he] at h
      exact absurd (List.cons.inj h).1 hquote
    · rw [List.flatMap_cons, List.flatMap_cons, List.append_assoc, List.append_assoc] at h
      obtain ⟨rfl, hrest⟩ := escaped_append_inj h
      obtain ⟨rfl, hxy⟩ := ih hrest
      exact ⟨rfl, hxy⟩

/-- **A quoted text tells what it quotes and where it ends.** -/
theorem quoted_append_inj {s t : String} {x y : List Char}
    (h : (quoted s).toList ++ x = (quoted t).toList ++ y) : s = t ∧ x = y := by
  have hparts : ∀ (u : String) z, (quoted u).toList ++ z =
      '"' :: (u.toList.flatMap escaped ++ '"' :: z) := by
    intro u z
    simp [quoted]
  rw [hparts, hparts] at h
  obtain ⟨hst, hxy⟩ := flatMap_escaped_append_inj (List.cons.inj h).2
  exact ⟨String.toList_inj.1 hst, hxy⟩

theorem newline_notMem_byNumber (c : Char) : '\n' ∉ byNumber c := by
  intro h
  simp only [byNumber, List.cons_append, List.mem_cons, List.mem_append, List.not_mem_nil,
    or_false] at h
  rcases h with h | h | h | h | h
  · cases h
  · cases h
  · cases h
  · exact notMem_hexPadded rfl _ _ h
  · cases h

theorem newline_notMem_quoted (s : String) : '\n' ∉ (quoted s).toList := by
  intro h
  simp only [quoted, String.toList_ofList, List.cons_append, List.mem_cons, List.mem_append,
    List.mem_flatMap, List.not_mem_nil, or_false] at h
  rcases h with h | ⟨c, -, h⟩ | h
  · cases h
  · rcases escaped_cases c with ⟨hc, -, -, hne⟩ | ⟨name, hc, -, hne, -⟩ | hc <;> rw [hc] at h
    · exact hne (List.mem_singleton.1 h).symm
    · rcases List.mem_cons.1 h with h | h
      · cases h
      · exact hne (List.mem_singleton.1 h).symm
    · exact newline_notMem_byNumber c h
  · cases h

/-! ### Lists between separators -/

theorem notMem_intercalate {c : Char} {l : List String} (hc : c ≠ ',')
    (h : ∀ s ∈ l, c ∉ s.toList) : c ∉ (",".intercalate l).toList := by
  induction l with
  | nil => simp
  | cons s l ih =>
    rcases l with _ | ⟨t, l⟩
    · simpa using h s List.mem_cons_self
    · rw [String.intercalate_cons_cons]
      have hs := h s List.mem_cons_self
      have hrest := ih fun u hu => h u (List.mem_cons_of_mem _ hu)
      simp only [String.toList_append, List.mem_append, not_or]
      exact ⟨⟨hs, by simpa using hc⟩, hrest⟩

theorem intercalate_cons {sep : Char} (a : List Char) (l : List (List Char)) :
    [sep].intercalate (a :: l) = a ++ l.flatMap (sep :: ·) := by
  induction l generalizing a with
  | nil => simp [List.intercalate]
  | cons b l ih =>
    have hstep : [sep].intercalate (a :: b :: l) = a ++ sep :: [sep].intercalate (b :: l) := by
      simp [List.intercalate]
    rw [hstep, ih, List.flatMap_cons, List.cons_append]

section Lists

variable {α β : Type} {code : α → List Char} (view : α → β) (Good : α → Prop)

/-- What may stand after an element of a list: a comma, the closing bracket, or nothing. -/
def EndsElement (x : List Char) : Prop := ∀ c ∈ x.head?, c = ',' ∨ c = ']'

theorem EndsElement.not_of_head? {x : List Char} (hx : EndsElement x) {p : Char → Bool}
    (hcomma : p ',' = false) (hclose : p ']' = false) : ∀ c ∈ x.head?, ¬p c = true := by
  intro c hc
  rcases hx c hc with rfl | rfl
  · simp [hcomma]
  · simp [hclose]

theorem endsElement_flatMap (l : List α) (x : List Char) :
    EndsElement ((l.map code).flatMap (',' :: ·) ++ ']' :: x) := by
  rcases l with _ | ⟨a, l⟩
  · exact forall_head?_cons (.inr rfl) _
  · exact forall_head?_cons (.inl rfl) _

/-- The elements after the first of a list, and the closing bracket. -/
theorem flatMap_comma_append_inj
    (hcode : ∀ {a b : α} {x y : List Char}, Good a → Good b → EndsElement x → EndsElement y →
      code a ++ x = code b ++ y → view a = view b ∧ x = y)
    {l m : List α} {x y : List Char} (hl : ∀ a ∈ l, Good a) (hm : ∀ a ∈ m, Good a)
    (h : (l.map code).flatMap (',' :: ·) ++ ']' :: x =
      (m.map code).flatMap (',' :: ·) ++ ']' :: y) : l.map view = m.map view ∧ x = y := by
  induction l generalizing m with
  | nil =>
    rcases m with _ | ⟨b, m⟩
    · exact ⟨rfl, (List.cons.inj h).2⟩
    · exact absurd (List.cons.inj h).1 (by decide)
  | cons a l ih =>
    rcases m with _ | ⟨b, m⟩
    · exact absurd (List.cons.inj h).1 (by decide)
    · simp only [List.map_cons, List.flatMap_cons, List.cons_append, List.append_assoc] at h
      obtain ⟨hab, hrest⟩ := hcode (hl a List.mem_cons_self) (hm b List.mem_cons_self)
        (endsElement_flatMap l x) (endsElement_flatMap m y) (List.cons.inj h).2
      obtain ⟨hlm, hxy⟩ := ih (fun c hc => hl c (List.mem_cons_of_mem _ hc))
        (fun c hc => hm c (List.mem_cons_of_mem _ hc)) hrest
      exact ⟨by rw [List.map_cons, List.map_cons, hab, hlm], hxy⟩

/-- **A list between commas tells its elements**, up to the closing bracket, if each element tells
what it is before a comma and before the bracket, and is not empty. -/
theorem intercalate_append_inj
    (hcode : ∀ {a b : α} {x y : List Char}, Good a → Good b → EndsElement x → EndsElement y →
      code a ++ x = code b ++ y → view a = view b ∧ x = y)
    (hfirst : ∀ {a : α} {x y : List Char}, Good a → code a ++ x ≠ ']' :: y)
    {l m : List α} {x y : List Char} (hl : ∀ a ∈ l, Good a) (hm : ∀ a ∈ m, Good a)
    (h : [','].intercalate (l.map code) ++ ']' :: x =
      [','].intercalate (m.map code) ++ ']' :: y) : l.map view = m.map view ∧ x = y := by
  rcases l with _ | ⟨a, l⟩ <;> rcases m with _ | ⟨b, m⟩
  · exact ⟨rfl, (List.cons.inj h).2⟩
  · rw [List.map_cons, intercalate_cons, List.append_assoc] at h
    exact absurd h.symm (hfirst (hm b List.mem_cons_self))
  · rw [List.map_cons, intercalate_cons, List.append_assoc] at h
    exact absurd h (hfirst (hl a List.mem_cons_self))
  · rw [List.map_cons, List.map_cons, intercalate_cons, intercalate_cons, List.append_assoc,
      List.append_assoc] at h
    obtain ⟨hab, hrest⟩ := hcode (hl a List.mem_cons_self) (hm b List.mem_cons_self)
      (endsElement_flatMap l x) (endsElement_flatMap m y) h
    obtain ⟨hlm, hxy⟩ := flatMap_comma_append_inj view Good hcode
      (fun c hc => hl c (List.mem_cons_of_mem _ hc))
      (fun c hc => hm c (List.mem_cons_of_mem _ hc)) hrest
    exact ⟨by rw [List.map_cons, List.map_cons, hab, hlm], hxy⟩

end Lists

end Retest.Text

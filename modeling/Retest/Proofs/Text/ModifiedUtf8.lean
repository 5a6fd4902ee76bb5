import Mathlib.Data.List.Basic
import Retest.ClassFile.Pool
import Retest.Proofs.Text.Utf8

/-!
# Texts of a constant pool

A class file holds its texts in a variant of UTF-8: the null character takes two octets, and a
supplementary character, one above U+FFFF, takes six, three for each of its two surrogates
(`Retest.Text.Utf8.encodeModified`). Reading such a text (`Retest.poolText`) goes one of two
ways, depending on all of its octets: as they are, if they are valid UTF-8, and otherwise with
null characters put right and defects replaced.

Both ways come to the same: each character gives itself, except a supplementary one, which gives
six replacement characters (`Retest.Text.Utf8.poolText_encodeModified`). This is shown with a scan
of the octets of one character after another, whatever follows them
(`Retest.Text.Utf8.Scans`). So a text is read as it was written if and only if it has no
supplementary characters, and two texts with different ones in the same places are read as one
(`Retest.Text.Utf8.poolText_sampleSmile`).
-/

namespace Retest.Text.Utf8

/-! ### Writing -/

/-- The form of three octets, which is also used for surrogates. -/
def threeOctets (n : Nat) : List UInt8 :=
  [.ofNat (n / 0x1000 + 0xE0), .ofNat (n / 0x40 % 0x40 + 0x80), .ofNat (n % 0x40 + 0x80)]

/-- **The octets of a character in modified UTF-8**: two for the null character, those of both
surrogates for a supplementary one, and those of UTF-8 for all others. -/
def encodeModifiedChar (c : Char) : List UInt8 :=
  if c.toNat = 0 then [0xC0, 0x80]
  else if c.toNat < 0x10000 then String.utf8EncodeChar c
  else
    threeOctets (0xD800 + (c.toNat - 0x10000) / 0x400) ++
      threeOctets (0xDC00 + (c.toNat - 0x10000) % 0x400)

/-- The octets of a text in modified UTF-8. -/
def encodeModified (s : String) : List UInt8 := s.toList.flatMap encodeModifiedChar

/-- **A text without supplementary characters.** -/
def IsBasic (s : String) : Prop := ∀ c ∈ s.toList, c.toNat < 0x10000

/-- The characters that are read for one that was written. -/
def readAs (c : Char) : List Char := if c.toNat < 0x10000 then [c] else List.replicate 6 '�'

/-! ### Scanning -/

/-- **A scan of octets finds characters and defects**, whatever follows the octets. -/
def Scans (octets : List UInt8) (found : List (Option Char)) : Prop :=
  ∀ rest, scalars (octets ++ rest) = found ++ scalars rest

namespace Scans

variable {octets octets' : List UInt8} {found found' : List (Option Char)}

theorem nil : Scans [] [] := fun _ => rfl

theorem append (h : Scans octets found) (h' : Scans octets' found') :
    Scans (octets ++ octets') (found ++ found') := by
  intro rest
  rw [List.append_assoc, h, h', List.append_assoc]

theorem flatMap {α : Type} {octets : α → List UInt8} {found : α → List (Option Char)} {l : List α}
    (h : ∀ a ∈ l, Scans (octets a) (found a)) : Scans (l.flatMap octets) (l.flatMap found) := by
  induction l with
  | nil => exact nil
  | cons a l ih =>
    rw [List.flatMap_cons, List.flatMap_cons]
    exact (h a List.mem_cons_self).append (ih fun a ha => h a (List.mem_cons_of_mem _ ha))

theorem scalars_eq (h : Scans octets found) : scalars octets = found := by
  have hall := h []
  rwa [List.append_nil, scalars, List.append_nil] at hall

theorem encodeChar (c : Char) : Scans (String.utf8EncodeChar c) [some c] := by
  intro rest
  obtain ⟨b, bs, hb, hscan⟩ := scan_encode c rest
  rw [hb, List.cons_append, scalars, hscan]
  rfl

/-- An octet that cannot begin a character is a defect. -/
theorem stray {b : UInt8} (h : 0x80 ≤ b.toNat) (h' : b.toNat < 0xC2) : Scans [b] [none] := by
  intro rest
  have hscan : scan b rest = (none, rest) := by
    have hlow : ¬b < 0x80 := UInt8.not_lt.2 (UInt8.le_iff_toNat_le.2 h)
    have hhigh : ∀ k l : UInt8, 0xC2 ≤ k.toNat → ¬(k ≤ b && b ≤ l) = true := by
      intro k l hk hb
      rw [Bool.and_eq_true, decide_eq_true_eq, UInt8.le_iff_toNat_le] at hb
      omega
    rw [scan.eq_def, if_neg hlow, if_neg (hhigh _ _ (by decide)), if_neg (hhigh _ _ (by decide)),
      if_neg (hhigh _ _ (by decide))]
  rw [List.singleton_append, scalars, hscan]
  rfl

/-- An octet that is too high to follow the first one of a surrogate makes that a defect. -/
theorem scan_surrogate {c : UInt8} (h : 0xA0 ≤ c.toNat) (rest : List UInt8) :
    scan 0xED (c :: rest) = (none, c :: rest) := by
  have hfits : fits 0xED c = false := by
    have hle : ¬c ≤ 0x9F := by
      rw [UInt8.le_iff_toNat_le]
      exact Nat.not_le.2 h
    simp [fits, hle]
  simp [scan, hfits]

/-- The octets of a surrogate are three defects. -/
theorem surrogate {n : Nat} (h : 0xD800 ≤ n) (h' : n < 0xE000) :
    Scans (threeOctets n) [none, none, none] := by
  have hfirst : UInt8.ofNat (n / 0x1000 + 0xE0) = 0xED := by
    rw [show n / 0x1000 + 0xE0 = 0xED by omega]
    rfl
  have hsecond : (UInt8.ofNat (n / 0x40 % 0x40 + 0x80)).toNat = n / 0x40 % 0x40 + 0x80 :=
    toNat_octet (by omega)
  have hthird : (UInt8.ofNat (n % 0x40 + 0x80)).toNat = n % 0x40 + 0x80 := toNat_octet (by omega)
  rw [threeOctets, hfirst]
  intro rest
  rw [List.cons_append, scalars, List.cons_append, scan_surrogate (by omega)]
  exact congrArg (none :: ·)
    (((stray (by omega) (by omega)).append (stray (by omega) (by omega))) rest)

end Scans

/-- What a scan finds of a character. -/
theorem scans_encodeModifiedChar (c : Char) : Scans (encodeModifiedChar c)
    (if c.toNat = 0 then [none, none] else if c.toNat < 0x10000 then [some c]
      else List.replicate 6 none) := by
  have hc : c.toNat < 0x110000 := by
    have hvalid : c.toNat < 0xD800 ∨ 0xDFFF < c.toNat ∧ c.toNat < 0x110000 := c.valid
    omega
  rw [encodeModifiedChar]
  split
  · exact (Scans.stray (by decide) (by decide)).append (Scans.stray (by decide) (by decide))
  · split
    · exact .encodeChar c
    · exact (Scans.surrogate (by omega) (by omega)).append (Scans.surrogate (by omega) (by omega))

/-! ### Null characters -/

theorem plainNull_cons {b : UInt8} (h : b ≠ 0xC0) (rest : List UInt8) :
    poolText.plainNull (b :: rest) = b :: poolText.plainNull rest := by
  rw [poolText.plainNull]
  rintro r heq -
  exact absurd heq h

/-- Octets other than the first one of the null character stay as they are. -/
theorem plainNull_append {octets : List UInt8} (h : 0xC0 ∉ octets) (rest : List UInt8) :
    poolText.plainNull (octets ++ rest) = octets ++ poolText.plainNull rest := by
  induction octets with
  | nil => rfl
  | cons b octets ih =>
    rw [List.mem_cons, not_or] at h
    rw [List.cons_append, plainNull_cons (Ne.symm h.1), ih h.2, List.cons_append]

/-- No character but the null character has its first octet. -/
theorem not_mem_encodeModifiedChar {c : Char} (h : c.toNat ≠ 0) :
    0xC0 ∉ encodeModifiedChar c := by
  have hvalid : c.toNat < 0xD800 ∨ 0xDFFF < c.toNat ∧ c.toNat < 0x110000 := c.valid
  have hoctet : ∀ n, n < 256 → n ≠ 0xC0 → (0xC0 : UInt8) ≠ UInt8.ofNat n := by
    intro n hn hne heq
    have := congrArg UInt8.toNat heq
    rw [toNat_octet hn] at this
    exact hne this.symm
  have hthree : ∀ n, n < 0x10000 → 0xC0 ∉ threeOctets n := by
    intro n hn
    simp only [threeOctets, List.mem_cons, List.not_mem_nil, or_false, not_or]
    exact ⟨hoctet _ (by omega) (by omega), hoctet _ (by omega) (by omega),
      hoctet _ (by omega) (by omega)⟩
  rw [encodeModifiedChar, if_neg h]
  split
  · next hbasic =>
    have hn : c.val.toNat = c.toNat := rfl
    rw [String.utf8EncodeChar, hn]
    repeat' split
    all_goals simp only [List.mem_cons, List.not_mem_nil, or_false, not_or]
    · exact hoctet _ (by omega) (by omega)
    · exact ⟨hoctet _ (by omega) (by omega), hoctet _ (by omega) (by omega)⟩
    · exact ⟨hoctet _ (by omega) (by omega), hoctet _ (by omega) (by omega),
        hoctet _ (by omega) (by omega)⟩
    · omega
  · exact List.not_mem_append (hthree _ (by omega)) (hthree _ (by omega))

/-- Null characters are put right, and nothing else is touched. -/
theorem plainNull_encodeModified (l : List Char) :
    poolText.plainNull (l.flatMap encodeModifiedChar) =
      l.flatMap fun c => if c.toNat = 0 then [0] else encodeModifiedChar c := by
  induction l with
  | nil => rfl
  | cons c l ih =>
    rw [List.flatMap_cons, List.flatMap_cons, ← ih]
    by_cases hc : c.toNat = 0
    · rw [encodeModifiedChar, if_pos hc, if_pos hc]
      rfl
    · rw [if_neg hc, plainNull_append (not_mem_encodeModifiedChar hc)]

/-! ### Reading -/

/-- A text without null or supplementary characters is valid UTF-8 as it stands. -/
theorem decode?_encodeModified_of_plain {s : String}
    (h : ∀ c ∈ s.toList, c.toNat ≠ 0 ∧ c.toNat < 0x10000) :
    decode? (encodeModified s) = some s := by
  have hencode : encodeModified s = encode s :=
    List.flatMap_congr fun c hc => by
      rw [encodeModifiedChar, if_neg (h c hc).1, if_pos (h c hc).2]
  rw [hencode, decode?_encode]

/-- A text with one of them is not. -/
theorem decode?_encodeModified_of_mem {s : String} {c : Char} (hc : c ∈ s.toList)
    (h : ¬(c.toNat ≠ 0 ∧ c.toNat < 0x10000)) : decode? (encodeModified s) = none := by
  have hscalars := (Scans.flatMap fun c (_ : c ∈ s.toList) => scans_encodeModifiedChar c).scalars_eq
  have hnone : none ∈ scalars (encodeModified s) := by
    rw [encodeModified, hscalars]
    refine List.mem_flatMap.2 ⟨c, hc, ?_⟩
    split
    · exact List.mem_cons_self
    · next hnull =>
      rw [if_neg fun hbasic => h ⟨hnull, hbasic⟩]
      exact List.mem_cons_self
  rw [decode?, if_neg]
  intro hall
  exact absurd (List.all_eq_true.1 hall none hnone) (by decide)

/-- With null characters put right, what is found is all characters but the supplementary ones. -/
theorem decodeLossy_plainNull (s : String) :
    decodeLossy (poolText.plainNull (encodeModified s)) = .ofList (s.toList.flatMap readAs) := by
  have hscans : ∀ c ∈ s.toList,
      Scans (if c.toNat = 0 then [0] else encodeModifiedChar c)
        (if c.toNat < 0x10000 then [some c] else List.replicate 6 none) := by
    intro c _
    split
    · next hnull =>
      have hc : c = Char.ofNat 0 := by rw [← hnull, Char.ofNat_toNat]
      subst hc
      rw [if_pos (by decide)]
      exact Scans.encodeChar (Char.ofNat 0)
    · next hnull =>
      have hchar := scans_encodeModifiedChar c
      rwa [if_neg hnull] at hchar
  rw [decodeLossy, encodeModified, plainNull_encodeModified, (Scans.flatMap hscans).scalars_eq,
    List.map_flatMap]
  refine congrArg String.ofList (List.flatMap_congr fun c _ => ?_)
  rw [readAs]
  split <;> rfl

/-- The characters of a basic text are read as themselves. -/
theorem flatMap_readAs_of_isBasic {s : String} (h : IsBasic s) :
    s.toList.flatMap readAs = s.toList :=
  (List.flatMap_congr fun c hc => if_pos (h c hc)).trans (List.flatMap_singleton' _)

/-- **What is read of a text**: its characters, with six replacement characters for each
supplementary one. -/
theorem poolText_encodeModified (s : String) :
    poolText (encodeModified s) = .ofList (s.toList.flatMap readAs) := by
  by_cases h : ∀ c ∈ s.toList, c.toNat ≠ 0 ∧ c.toNat < 0x10000
  · rw [poolText, decode?_encodeModified_of_plain h, Option.getD_some,
      flatMap_readAs_of_isBasic fun c hc => (h c hc).2, String.ofList_toList]
  · simp only [not_forall] at h
    obtain ⟨c, hc, hnot⟩ := h
    rw [poolText, decode?_encodeModified_of_mem hc hnot, Option.getD_none, decodeLossy_plainNull]

theorem length_le_flatMap_readAs (l : List Char) : l.length ≤ (l.flatMap readAs).length := by
  induction l with
  | nil => exact Nat.le_refl _
  | cons c l ih =>
    rw [List.flatMap_cons, List.length_append, List.length_cons, readAs]
    split
    · rw [List.length_singleton]
      omega
    · rw [List.length_replicate]
      omega

/-- Only basic characters are read as themselves, since any other makes the text longer. -/
theorem lt_of_flatMap_readAs {l : List Char} (h : l.flatMap readAs = l) :
    ∀ c ∈ l, c.toNat < 0x10000 := by
  induction l with
  | nil => simp
  | cons c l ih =>
    by_cases hc : c.toNat < 0x10000
    · rw [List.flatMap_cons, readAs, if_pos hc] at h
      exact List.forall_mem_cons.2 ⟨hc, ih (List.cons.inj h).2⟩
    · have hlength := congrArg List.length h
      rw [List.flatMap_cons, readAs, if_neg hc, List.length_append, List.length_replicate,
        List.length_cons] at hlength
      have hle := length_le_flatMap_readAs l
      omega

/-- **Texts of a constant pool are read as they were written if and only if they have no
supplementary characters.** In any case, a supplementary character is read as six replacement
characters and every other one as itself, null characters included; and no two basic texts are read
as the same. -/
theorem poolText_eq_iff_isBasic (s t : String) :
    (poolText (encodeModified s) = s ↔ IsBasic s) ∧
      poolText (encodeModified s) = .ofList (s.toList.flatMap readAs) ∧
      (IsBasic s → IsBasic t →
        (poolText (encodeModified s) = poolText (encodeModified t) ↔ s = t)) := by
  have hself : ∀ s, IsBasic s → poolText (encodeModified s) = s := fun s h => by
    rw [poolText_encodeModified, flatMap_readAs_of_isBasic h, String.ofList_toList]
  refine ⟨⟨fun h => ?_, hself s⟩, poolText_encodeModified s, fun hs ht => ?_⟩
  · rw [poolText_encodeModified] at h
    have hlist := congrArg String.toList h
    rw [String.toList_ofList] at hlist
    exact lt_of_flatMap_readAs hlist
  · rw [hself s hs, hself t ht]

/-- Null characters, characters of two and three octets, and a replacement character are all read as
they were written. -/
example : encodeModified "a\x00é€�" =
      [0x61, 0xC0, 0x80, 0xC3, 0xA9, 0xE2, 0x82, 0xAC, 0xEF, 0xBF, 0xBD] ∧
    poolText [0x61, 0xC0, 0x80, 0xC3, 0xA9, 0xE2, 0x82, 0xAC, 0xEF, 0xBF, 0xBD] =
      "a\x00é€�" := by
  decide +kernel

/-- Two faces are read as the same six replacement characters. -/
theorem poolText_sampleSmile :
    encodeModified "😀" = [0xED, 0xA0, 0xBD, 0xED, 0xB8, 0x80] ∧
      encodeModified "😢" = [0xED, 0xA0, 0xBD, 0xED, 0xB8, 0xA2] ∧
      poolText (encodeModified "😀") = "������" ∧
      poolText (encodeModified "😢") = "������" ∧
      poolText (encodeModified "😀") ≠ "😀" ∧ "😀" ≠ "😢" := by
  decide +kernel

end Retest.Text.Utf8

import Retest.Text.Utf8

/-!
# UTF-8 round trip

The octets of a text are read as that text (`Retest.Text.Utf8.decode?_encode`).
The work is in one character: whatever follows its octets, a scan of them finds
the character and leaves what follows (`Retest.Text.Utf8.scan_encode`), by the
four sizes that a character can have.

Octets below 128 stand for themselves and occur nowhere else, so a text without
a line feed has octets without a line feed.
-/

namespace Retest.Text.Utf8

/-! ### Octets by number -/

theorem toNat_octet {n : Nat} (h : n < 256) : (UInt8.ofNat n).toNat = n :=
  UInt8.toNat_ofNat_of_lt h

theorem isContinuation_octet {n : Nat} (h : n < 64) :
    isContinuation (UInt8.ofNat (n + 0x80)) = true := by
  have hn : (UInt8.ofNat (n + 0x80)).toNat = n + 0x80 := toNat_octet (by omega)
  rw [isContinuation, Bool.and_eq_true, decide_eq_true_eq, decide_eq_true_eq,
    UInt8.le_iff_toNat_le, UInt8.le_iff_toNat_le, hn]
  exact ⟨Nat.le_add_left _ _, show n + 128 ≤ 191 by omega⟩

theorem payload_octet {n : Nat} (h : n < 64) : payload (UInt8.ofNat (n + 0x80)) = n := by
  rw [payload, toNat_octet (by omega)]
  omega

/-- What may follow a leading octet, by numbers. -/
theorem fits_octet {b c : Nat} (hb : b < 256) (hc : c < 64) (hE0 : b = 0xE0 → 0x20 ≤ c)
    (hED : b = 0xED → c < 0x20) (hF0 : b = 0xF0 → 0x10 ≤ c) (hF4 : b = 0xF4 → c < 0x10) :
    fits (UInt8.ofNat b) (UInt8.ofNat (c + 0x80)) = true := by
  have hbn : (UInt8.ofNat b).toNat = b := toNat_octet hb
  have hcn : (UInt8.ofNat (c + 0x80)).toNat = c + 0x80 := toNat_octet (by omega)
  have hne : ∀ k : UInt8, b ≠ k.toNat → (UInt8.ofNat b != k) = true := fun k hk =>
    bne_iff_ne.2 fun he => hk (by rw [← he, hbn])
  -- each condition is on one leading octet, and holds of all others
  have part : ∀ (k : UInt8) (p : Bool), (b = k.toNat → p = true) →
      (UInt8.ofNat b != k || p) = true := fun k p hp => by
    by_cases hk : b = k.toNat
    · rw [hp hk, Bool.or_true]
    · rw [hne k hk, Bool.true_or]
  simp only [fits, Bool.and_eq_true]
  refine ⟨⟨⟨⟨isContinuation_octet hc, part _ _ fun h => ?_⟩, part _ _ fun h => ?_⟩,
    part _ _ fun h => ?_⟩, part _ _ fun h => ?_⟩
  all_goals rw [decide_eq_true_eq, UInt8.le_iff_toNat_le, hcn]
  · have := hE0 h
    exact show 160 ≤ c + 128 by omega
  · have := hED h
    exact show c + 128 ≤ 159 by omega
  · have := hF0 h
    exact show 144 ≤ c + 128 by omega
  · have := hF4 h
    exact show c + 128 ≤ 143 by omega

/-! ### One character -/

theorem ofNat_octet_lt {n k : Nat} (hn : n < 256) (hk : k < 256) :
    (UInt8.ofNat n < UInt8.ofNat k) ↔ n < k := by
  rw [UInt8.lt_iff_toNat_lt, toNat_octet hn, toNat_octet hk]

theorem ofNat_octet_le {n k : Nat} (hn : n < 256) (hk : k < 256) :
    (UInt8.ofNat n ≤ UInt8.ofNat k) ↔ n ≤ k := by
  rw [UInt8.le_iff_toNat_le, toNat_octet hn, toNat_octet hk]

theorem scan_one {v : Nat} (h : v < 0x80) (rest : List UInt8) :
    scan (UInt8.ofNat v) rest = (some (.ofNat v), rest) := by
  have hb : UInt8.ofNat v < 0x80 := (ofNat_octet_lt (by omega) (by decide)).2 h
  rw [scan.eq_def, if_pos hb, toNat_octet (by omega)]

theorem scan_two {b c : Nat} (hb : 2 ≤ b) (hb' : b < 32) (hc : c < 64) (rest : List UInt8) :
    scan (UInt8.ofNat (b + 0xC0)) (UInt8.ofNat (c + 0x80) :: rest) =
      (some (.ofNat (b * 64 + c)), rest) := by
  have h1 : ¬ UInt8.ofNat (b + 0xC0) < 0x80 := fun h => by
    have := (ofNat_octet_lt (k := 0x80) (by omega) (by decide)).1 h
    omega
  have h2 : (0xC2 ≤ UInt8.ofNat (b + 0xC0) && UInt8.ofNat (b + 0xC0) ≤ 0xDF) = true := by
    rw [Bool.and_eq_true, decide_eq_true_eq, decide_eq_true_eq]
    exact ⟨(ofNat_octet_le (n := 0xC2) (by decide) (by omega)).2 (by omega),
      (ofNat_octet_le (k := 0xDF) (by omega) (by decide)).2 (by omega)⟩
  rw [scan.eq_def, if_neg h1, if_pos h2]
  simp only [isContinuation_octet hc, if_true, payload_octet hc,
    toNat_octet (show b + 0xC0 < 256 by omega)]
  rw [show (b + 0xC0) % 32 = b by omega]

theorem scan_three {b c d : Nat} (hb : b < 16) (hc : c < 64) (hd : d < 64)
    (hE0 : b = 0 → 0x20 ≤ c) (hED : b = 13 → c < 0x20) (rest : List UInt8) :
    scan (UInt8.ofNat (b + 0xE0)) (UInt8.ofNat (c + 0x80) :: UInt8.ofNat (d + 0x80) :: rest) =
      (some (.ofNat (b * 4096 + c * 64 + d)), rest) := by
  have h1 : ¬ UInt8.ofNat (b + 0xE0) < 0x80 := fun h => by
    have := (ofNat_octet_lt (k := 0x80) (by omega) (by decide)).1 h
    omega
  have h2 : ¬ (0xC2 ≤ UInt8.ofNat (b + 0xE0) && UInt8.ofNat (b + 0xE0) ≤ 0xDF) = true := fun h => by
    rw [Bool.and_eq_true, decide_eq_true_eq, decide_eq_true_eq] at h
    have := (ofNat_octet_le (k := 0xDF) (by omega) (by decide)).1 h.2
    omega
  have h3 : (0xE0 ≤ UInt8.ofNat (b + 0xE0) && UInt8.ofNat (b + 0xE0) ≤ 0xEF) = true := by
    rw [Bool.and_eq_true, decide_eq_true_eq, decide_eq_true_eq]
    exact ⟨(ofNat_octet_le (n := 0xE0) (by decide) (by omega)).2 (by omega),
      (ofNat_octet_le (k := 0xEF) (by omega) (by decide)).2 (by omega)⟩
  have hfits : fits (UInt8.ofNat (b + 0xE0)) (UInt8.ofNat (c + 0x80)) = true :=
    fits_octet (by omega) hc (fun h => hE0 (by omega)) (fun h => hED (by omega)) (by omega)
      (by omega)
  rw [scan.eq_def, if_neg h1, if_neg h2, if_pos h3]
  simp only [hfits, isContinuation_octet hd, if_true, payload_octet hc, payload_octet hd,
    toNat_octet (show b + 0xE0 < 256 by omega)]
  rw [show (b + 0xE0) % 16 = b by omega]

theorem scan_four {b c d e : Nat} (hb : b < 5) (hc : c < 64) (hd : d < 64) (he : e < 64)
    (hF0 : b = 0 → 0x10 ≤ c) (hF4 : b = 4 → c < 0x10) (rest : List UInt8) :
    scan (UInt8.ofNat (b + 0xF0)) (UInt8.ofNat (c + 0x80) :: UInt8.ofNat (d + 0x80) ::
        UInt8.ofNat (e + 0x80) :: rest) =
      (some (.ofNat (b * 262144 + c * 4096 + d * 64 + e)), rest) := by
  have h1 : ¬ UInt8.ofNat (b + 0xF0) < 0x80 := fun h => by
    have := (ofNat_octet_lt (k := 0x80) (by omega) (by decide)).1 h
    omega
  have above : ∀ l k : UInt8, k.toNat < 0xF0 →
      ¬ (l ≤ UInt8.ofNat (b + 0xF0) && UInt8.ofNat (b + 0xF0) ≤ k) = true := by
    intro l k hk h
    rw [Bool.and_eq_true, decide_eq_true_eq, decide_eq_true_eq, UInt8.le_iff_toNat_le,
      UInt8.le_iff_toNat_le, toNat_octet (by omega)] at h
    omega
  have h4 : (0xF0 ≤ UInt8.ofNat (b + 0xF0) && UInt8.ofNat (b + 0xF0) ≤ 0xF4) = true := by
    rw [Bool.and_eq_true, decide_eq_true_eq, decide_eq_true_eq]
    exact ⟨(ofNat_octet_le (n := 0xF0) (by decide) (by omega)).2 (by omega),
      (ofNat_octet_le (k := 0xF4) (by omega) (by decide)).2 (by omega)⟩
  have hfits : fits (UInt8.ofNat (b + 0xF0)) (UInt8.ofNat (c + 0x80)) = true :=
    fits_octet (by omega) hc (by omega) (by omega) (fun h => hF0 (by omega)) fun h => hF4 (by omega)
  rw [scan.eq_def, if_neg h1, if_neg (above _ _ (by decide)),
    if_neg (above _ _ (by decide)), if_pos h4]
  simp only [hfits, isContinuation_octet hd, isContinuation_octet he, if_true, payload_octet hc,
    payload_octet hd, payload_octet he, toNat_octet (show b + 0xF0 < 256 by omega)]
  rw [show (b + 0xF0) % 8 = b by omega]

/-- **A scan finds a character by its octets**, and leaves what follows them. -/
theorem scan_encode (c : Char) (rest : List UInt8) :
    ∃ b bs, String.utf8EncodeChar c = b :: bs ∧ scan b (bs ++ rest) = (some c, rest) := by
  have hv : c.toNat < 0xD800 ∨ 0xDFFF < c.toNat ∧ c.toNat < 0x110000 := c.valid
  have hc : ∀ n, n = c.toNat → Char.ofNat n = c := fun n hn => by rw [hn, Char.ofNat_toNat]
  have hn : c.val.toNat = c.toNat := rfl
  -- by the number of octets, one to four
  rw [String.utf8EncodeChar, hn]
  split
  · next h => exact ⟨_, _, rfl, by rw [List.nil_append, scan_one (by omega), hc _ rfl]⟩
  split
  · next h =>
    refine ⟨_, _, rfl, ?_⟩
    rw [List.cons_append, List.nil_append, scan_two (by omega) (by omega) (by omega)]
    rw [hc _ (by omega)]
  split
  · next h =>
    refine ⟨_, _, rfl, ?_⟩
    rw [List.cons_append, List.cons_append, List.nil_append,
      scan_three (by omega) (by omega) (by omega) (by omega) (by omega)]
    rw [hc _ (by omega)]
  · next h =>
    refine ⟨_, _, rfl, ?_⟩
    rw [List.cons_append, List.cons_append, List.cons_append, List.nil_append,
      scan_four (by omega) (by omega) (by omega) (by omega) (by omega) (by omega)]
    rw [hc _ (by omega)]

/-! ### Texts -/

theorem scalars_encode (l : List Char) :
    scalars (l.flatMap String.utf8EncodeChar) = l.map some := by
  induction l with
  | nil => rw [List.flatMap_nil, scalars]; rfl
  | cons c l ih =>
    obtain ⟨b, bs, hb, hscan⟩ := scan_encode c (l.flatMap String.utf8EncodeChar)
    rw [List.flatMap_cons, hb, List.cons_append, scalars, hscan, ih, List.map_cons]

/-- **The octets of a text are read as that text.** -/
@[simp] theorem decode?_encode (s : String) : decode? (encode s) = some s := by
  have hall : (s.toList.map some).all (·.isSome) = true := by simp
  have hmap : (s.toList.map some).filterMap id = s.toList := by simp [List.filterMap_map]
  rw [decode?, encode, scalars_encode, if_pos hall, hmap, String.ofList_toList]

/-- An octet below 128 is all there is of its character; no other character has one. -/
theorem encodeChar_cases (c : Char) :
    c.toNat < 0x80 ∧ String.utf8EncodeChar c = [UInt8.ofNat c.toNat] ∨
      ∀ b ∈ String.utf8EncodeChar c, 0x80 ≤ b.toNat := by
  have hn : c.val.toNat = c.toNat := rfl
  rw [String.utf8EncodeChar, hn]
  by_cases h : c.toNat ≤ 0x7f
  · exact .inl ⟨by omega, by rw [if_pos h]⟩
  · refine .inr fun b hb => ?_
    rw [if_neg h] at hb
    have high : ∀ n, 0x80 ≤ n → n < 256 → b = UInt8.ofNat n → 0x80 ≤ b.toNat := by
      rintro n hn hn' rfl
      rwa [toNat_octet hn']
    split at hb
    · simp only [List.mem_cons, List.not_mem_nil, or_false] at hb
      rcases hb with hb | hb <;> exact high _ (by omega) (by omega) hb
    · split at hb
      · simp only [List.mem_cons, List.not_mem_nil, or_false] at hb
        rcases hb with hb | hb | hb <;> exact high _ (by omega) (by omega) hb
      · simp only [List.mem_cons, List.not_mem_nil, or_false] at hb
        rcases hb with hb | hb | hb | hb <;> exact high _ (by omega) (by omega) hb

/-- An octet below 128 occurs only where its character does. -/
theorem mem_of_octet_mem {l : List Char} {c : Char} (hc : c.toNat < 0x80)
    (h : UInt8.ofNat c.toNat ∈ l.flatMap String.utf8EncodeChar) : c ∈ l := by
  obtain ⟨d, hd, hm⟩ := List.mem_flatMap.1 h
  have hcn : (UInt8.ofNat c.toNat).toNat = c.toNat := toNat_octet (by omega)
  rcases encodeChar_cases d with ⟨hdn, he⟩ | hhigh
  · rw [he, List.mem_singleton] at hm
    have hn := congrArg UInt8.toNat hm
    rw [hcn, toNat_octet (by omega)] at hn
    rwa [Char.toNat_inj.1 hn]
  · have := hhigh _ hm
    omega

end Retest.Text.Utf8

import Retest.Json.Reader
import Retest.Json.Writer
import Retest.Proofs.Text.Parts

/-!
# What is written is read

Compact JSON, as `Retest.Json.writeString` and its kin write it, is read as the
value it stands for. `Retest.Json.Written t j` says so of one text and one value:
wherever the text stands, the reader takes up just the text and returns the
value. There is one lemma for each way of writing, so a record that is written
field by field is read field by field.

Two things have to be kept track of. A numeral ends only where something else
begins, so what follows a text has to be a comma, a closing bracket or nothing
(`Retest.Json.Stops`). And the reader counts its steps; twice the length of the
text is enough, since each value begins with a character of its own.
-/

namespace Retest.Json

/-- What may follow a value in a compact text. -/
def Stops (rest : List Char) : Prop :=
  rest = [] ∨ ∃ c s, rest = c :: s ∧ (c = ',' ∨ c = ']' ∨ c = '\x7d')

theorem stops_nil : Stops [] := .inl rfl

theorem stops_comma (s : List Char) : Stops (',' :: s) := .inr ⟨_, s, rfl, .inl rfl⟩

theorem stops_bracket (s : List Char) : Stops (']' :: s) := .inr ⟨_, s, rfl, .inr (.inl rfl)⟩

theorem stops_brace (s : List Char) : Stops ('\x7d' :: s) := .inr ⟨_, s, rfl, .inr (.inr rfl)⟩

/-- **A text stands for a value**: it is read as the value, whatever may follow it. -/
structure Written (t : List Char) (j : Json) : Prop where
  /-- The text begins with neither white space nor a closing bracket. -/
  starts : ∃ c s, t = c :: s ∧ isSpace c = false ∧ c ≠ ']'
  /-- The reader takes up the text. -/
  reads : ∀ steps rest, 2 * t.length ≤ steps → Stops rest →
    value? steps (t ++ rest) = some (j, rest)
  /-- The text stands on one line. -/
  oneLine : '\n' ∉ t

theorem skipSpace_cons {c : Char} (h : isSpace c = false) (s : List Char) :
    skipSpace (c :: s) = c :: s := by
  rw [skipSpace, List.dropWhile_cons_of_neg (by rw [h]; decide)]

/-! ### Strings -/

theorem fourDigits?_low {n : Nat} (h : n < 0x20) :
    fourDigits? '0' '0' (Text.hexDigit (n / 16)) (Text.hexDigit (n % 16)) = some n := by
  have h0 : Text.hexValue? '0' = some 0 := by decide
  have hhigh : Text.hexValue? (Text.hexDigit (n / 16)) = some (n / 16) :=
    Text.hexValue?_hexDigit (by omega)
  have hlow : Text.hexValue? (Text.hexDigit (n % 16)) = some (n % 16) :=
    Text.hexValue?_hexDigit (by omega)
  simp [fourDigits?, h0, hhigh, hlow, Nat.div_add_mod']

theorem stringBody?_plain {c : Char} (hquote : c ≠ '"') (hslash : c ≠ '\\') (hc : ¬ c.toNat < 0x20)
    (s : List Char) :
    stringBody? (c :: s) = (stringBody? s).map fun (ns, rest) => (c.toNat :: ns, rest) := by
  cases h : stringBody? s <;> simp [stringBody?, hslash, hc, h]

/-- A character is read from the way it is written. -/
theorem stringBody?_escapedChar (c : Char) (s : List Char) :
    stringBody? (escapedChar c ++ s) =
      (stringBody? s).map fun (ns, rest) => (c.toNat :: ns, rest) := by
  unfold escapedChar
  split
  -- the seven characters with a name of their own
  iterate 7
    cases h : stringBody? s <;> simp [stringBody?, namedEscape?, h]
  next hquote hslash _ _ _ _ _ =>
  split
  · next hc => cases h : stringBody? s <;> simp [stringBody?, fourDigits?_low hc, h]
  · next hc => exact stringBody?_plain hquote hslash hc s

theorem stringBody?_flatMap (cs : List Char) (rest : List Char) :
    stringBody? (cs.flatMap escapedChar ++ '"' :: rest) = some (cs.map Char.toNat, rest) := by
  induction cs with
  | nil => simp [stringBody?]
  | cons c cs ih => simp [List.append_assoc, stringBody?_escapedChar, ih]

/-- The number of a character is no half of a surrogate pair. -/
theorem isHalf_toNat (c : Char) : isHighHalf c.toNat = false ∧ isLowHalf c.toNat = false := by
  have h : c.toNat < 0xD800 ∨ 0xDFFF < c.toNat ∧ c.toNat < 0x110000 := c.valid
  simp only [isHighHalf, isLowHalf, Bool.and_eq_false_iff, decide_eq_false_iff_not]
  omega

theorem joinHalves?_map_toNat (cs : List Char) : joinHalves? (cs.map Char.toNat) = some cs := by
  match cs with
  | [] => rfl
  | [c] => simp [joinHalves?, isHalf_toNat]
  | c :: d :: cs =>
    have ih := joinHalves?_map_toNat (d :: cs)
    simp only [List.map_cons] at ih
    simp [joinHalves?, isHalf_toNat, ih]

/-- A string is read, after its opening quote, from the way it is written. -/
theorem stringRest?_flatMap (s : String) (rest : List Char) :
    stringRest? (s.toList.flatMap escapedChar ++ '"' :: rest) = some (some s, rest) := by
  simp [stringRest?, stringBody?_flatMap, joinHalves?_map_toNat]

theorem writeString_append (s : String) (rest : List Char) :
    writeString s ++ rest = '"' :: (s.toList.flatMap escapedChar ++ '"' :: rest) := by
  simp [writeString]

theorem newline_notMem_escapedChar (c : Char) : '\n' ∉ escapedChar c := by
  have hdigit : ∀ n : Fin 16, Text.hexDigit n ≠ '\n' := by decide
  unfold escapedChar
  split
  iterate 7 decide
  next hnewline _ _ =>
  split
  · next hc =>
    have hhigh := hdigit ⟨c.toNat / 16, by omega⟩
    have hlow := hdigit ⟨c.toNat % 16, by omega⟩
    simpa using ⟨hhigh.symm, hlow.symm⟩
  · simpa using Ne.symm hnewline

theorem newline_notMem_writeString (s : String) : '\n' ∉ writeString s := by
  simp [writeString, newline_notMem_escapedChar]

theorem written_string (s : String) : Written (writeString s) (string (some s)) where
  starts := ⟨'"', _, rfl, by decide, by decide⟩
  reads steps rest hsteps _ := by
    obtain ⟨steps, rfl⟩ : ∃ n, steps = n + 1 :=
      Nat.exists_eq_succ_of_ne_zero (by simp [writeString] at hsteps; omega)
    rw [writeString_append, value?, skipSpace_cons (by decide)]
    simp [stringRest?_flatMap]
  oneLine := newline_notMem_writeString s

/-! ### Numbers and `null` -/

/-- Only the numeral of zero begins with a zero. -/
theorem toDigits_eq_zero_cons {n : Nat} {ds : List Char} (h : Nat.toDigits 10 n = '0' :: ds) :
    n = 0 ∧ ds = [] := by
  have hvalue : ∀ {m : Nat}, Nat.toDigits 10 m = ['0'] → m = 0 := fun {m} hm => by
    rw [← Nat.ofDigitChars_ten_toDigits (n := m), hm]
    decide
  induction n using Nat.strongRecOn generalizing ds with
  | ind n ih =>
    rcases Nat.lt_or_ge n 10 with hn | hn
    · have hds : ds = [] := by
        rw [Nat.toDigits_of_lt_base hn] at h
        exact (List.cons.inj h).2.symm
      exact ⟨hvalue (hds ▸ h), hds⟩
    · -- the digits before the last are a numeral that begins with a zero too
      rw [Nat.toDigits_of_base_le (by decide) hn] at h
      obtain ⟨d, front, hfront⟩ :=
        List.exists_cons_of_ne_nil (Nat.toDigits_ne_nil (b := 10) (n := n / 10))
      rw [hfront, List.cons_append] at h
      obtain ⟨rfl, -⟩ := List.cons.inj h
      have := (ih (n / 10) (by omega) hfront).1
      omega

theorem takeWhile_append_stop {p : Char → Bool} {l rest : List Char} (h : ∀ c ∈ l, p c = true)
    (hrest : ∀ c ∈ rest.head?, p c = false) : (l ++ rest).takeWhile p = l := by
  rw [List.takeWhile_append_of_pos h]
  cases rest with
  | nil => simp
  | cons c s => rw [List.takeWhile_cons_of_neg (by simp [hrest c rfl]), List.append_nil]

theorem dropWhile_append_stop {p : Char → Bool} {l rest : List Char} (h : ∀ c ∈ l, p c = true)
    (hrest : ∀ c ∈ rest.head?, p c = false) : (l ++ rest).dropWhile p = rest := by
  rw [List.dropWhile_append_of_pos h]
  cases rest with
  | nil => rfl
  | cons c s => rw [List.dropWhile_cons_of_neg (by simp [hrest c rfl])]

/-- A numeral ends where no digit follows. -/
theorem wholePart?_writeNatural (n : Nat) {rest : List Char}
    (hrest : ∀ c ∈ rest.head?, c.isDigit = false) :
    wholePart? (writeNatural n ++ rest) = some (n, rest) := by
  have hdigits : ∀ c ∈ writeNatural n, c.isDigit = true := fun c hc =>
    Text.isDigit_of_mem_toString hc
  have hwritten : writeNatural n = Nat.toDigits 10 n := by
    rw [writeNatural, Nat.toString_eq_ofList_toDigits, String.toList_ofList]
  have hvalue : (writeNatural n).foldl (fun n c => 10 * n + (c.toNat - 48)) 0 = n := by
    have := Nat.ofDigitChars_ten_toDigits (n := n)
    rwa [← hwritten] at this
  obtain ⟨d, ds, hcons⟩ := List.exists_cons_of_ne_nil (Text.toList_toString_ne_nil n)
  rw [← writeNatural] at hcons
  by_cases hd : d = '0'
  · subst hd
    obtain ⟨rfl, rfl⟩ := toDigits_eq_zero_cons (hwritten ▸ hcons)
    rw [hcons]
    rfl
  · have htake := takeWhile_append_stop hdigits hrest
    have hdrop : (ds ++ rest).dropWhile Char.isDigit = rest :=
      dropWhile_append_stop (fun c hc => hdigits c (hcons ▸ List.mem_cons_of_mem _ hc)) hrest
    rw [hcons, List.cons_append] at htake ⊢
    rw [wholePart?, if_pos (hdigits d (hcons ▸ List.mem_cons_self)), htake, hdrop, ← hcons, hvalue]
    simpa using hd

theorem Stops.head?_eq {rest : List Char} (h : Stops rest) {c : Char} (hc : c ∈ rest.head?) :
    c = ',' ∨ c = ']' ∨ c = '\x7d' := by
  obtain rfl | ⟨d, s, rfl, hd⟩ := h
  · cases hc
  · cases hc
    exact hd

theorem skipFraction?_stops {rest : List Char} (h : Stops rest) :
    skipFraction? rest = some (false, rest) := by
  obtain rfl | ⟨c, s, rfl, rfl | rfl | rfl⟩ := h <;> rfl

theorem skipExponent?_stops {rest : List Char} (h : Stops rest) :
    skipExponent? rest = some (false, rest) := by
  obtain rfl | ⟨c, s, rfl, rfl | rfl | rfl⟩ := h <;> rfl

/-- A numeral begins with a digit. -/
theorem exists_writeNatural_eq_cons (n : Nat) :
    ∃ d ds, writeNatural n = d :: ds ∧ d.isDigit = true := by
  obtain ⟨d, ds, h⟩ := List.exists_cons_of_ne_nil (Text.toList_toString_ne_nil n)
  exact ⟨d, ds, h, Text.isDigit_of_mem_toString (h ▸ List.mem_cons_self)⟩

theorem number?_writeNatural (n : Nat) {rest : List Char} (h : Stops rest) :
    number? (writeNatural n ++ rest) = some (natural n, rest) := by
  have hrest : ∀ c ∈ rest.head?, c.isDigit = false := fun c hc => by
    obtain rfl | rfl | rfl := h.head?_eq hc <;> decide
  rw [number?]
  · simp [wholePart?_writeNatural n hrest, skipFraction?_stops h, skipExponent?_stops h]
  · -- a numeral does not begin with a sign
    intro s hs
    obtain ⟨d, ds, hcons, hd⟩ := exists_writeNatural_eq_cons n
    rw [hcons, List.cons_append] at hs
    obtain ⟨rfl, -⟩ := List.cons.inj hs
    exact absurd hd (by decide)

theorem ne_of_isDigit {d c : Char} (hd : d.isDigit = true) (hc : c.isDigit = false) : d ≠ c := by
  rintro rfl
  rw [hc] at hd
  cases hd

theorem isSpace_of_isDigit {d : Char} (hd : d.isDigit = true) : isSpace d = false := by
  simp [isSpace, ne_of_isDigit hd]

/-- The value that begins with a digit is a number. -/
theorem value?_digit {d : Char} (hd : d.isDigit = true) (steps : Nat) (s : List Char) :
    value? (steps + 1) (d :: s) = number? (d :: s) := by
  rw [value?, skipSpace_cons (isSpace_of_isDigit hd)]
  simp [ne_of_isDigit hd]

theorem written_natural (n : Nat) : Written (writeNatural n) (natural n) := by
  obtain ⟨d, ds, hcons, hd⟩ := exists_writeNatural_eq_cons n
  refine ⟨⟨d, ds, hcons, isSpace_of_isDigit hd, ne_of_isDigit hd (by decide)⟩,
    fun steps rest hsteps hrest => ?_,
    fun h => absurd (Text.isDigit_of_mem_toString h) (by decide)⟩
  obtain ⟨steps, rfl⟩ : ∃ k, steps = k + 1 :=
    Nat.exists_eq_succ_of_ne_zero (by simp [hcons] at hsteps; omega)
  have := number?_writeNatural n hrest
  rw [hcons, List.cons_append] at this ⊢
  rw [value?_digit hd, this]

theorem written_null : Written "null".toList null where
  starts := ⟨'n', ['u', 'l', 'l'], rfl, by decide, by decide⟩
  reads steps rest hsteps _ := by
    obtain ⟨steps, rfl⟩ : ∃ n, steps = n + 1 :=
      Nat.exists_eq_succ_of_ne_zero (by simp at hsteps; omega)
    rfl
  oneLine := by decide

/-! ### Arrays and objects -/

variable {α : Type} {f : α → List Char} {g : α → Json}

theorem eq_comma_or_mem_of_mem_commaSeparated {c : Char} {ts : List (List Char)}
    (h : c ∈ commaSeparated ts) : c = ',' ∨ ∃ t ∈ ts, c ∈ t := by
  fun_induction commaSeparated ts with
  | case1 => cases h
  | case2 t => exact .inr ⟨t, List.mem_singleton_self t, h⟩
  | case3 t ts _ ih =>
    rcases List.mem_append.1 h with ht | h
    · exact .inr ⟨t, List.mem_cons_self, ht⟩
    · rcases List.mem_cons.1 h with hc | h
      · exact .inl hc
      · exact (ih h).imp_right fun ⟨u, hu, hc⟩ => ⟨u, List.mem_cons_of_mem _ hu, hc⟩

/-- The items of an array are read one by one, up to the bracket. -/
theorem items?_commaSeparated (x : α) (xs : List α) (h : ∀ y ∈ x :: xs, Written (f y) (g y))
    (steps : Nat) (rest : List Char)
    (hsteps : 2 * (commaSeparated ((x :: xs).map f)).length < steps) :
    items? steps (commaSeparated ((x :: xs).map f) ++ ']' :: rest) =
      some ((x :: xs).map g, rest) := by
  induction xs generalizing x steps with
  | nil =>
    obtain ⟨steps, rfl⟩ : ∃ k, steps = k + 1 := Nat.exists_eq_succ_of_ne_zero (by omega)
    have hx := (h x List.mem_cons_self).reads steps (']' :: rest)
      (by simp [commaSeparated] at hsteps; omega) (stops_bracket rest)
    simp only [List.map_cons, List.map_nil, commaSeparated]
    rw [items?, hx]
    rfl
  | cons y ys ih =>
    obtain ⟨steps, rfl⟩ : ∃ k, steps = k + 1 := Nat.exists_eq_succ_of_ne_zero (by omega)
    -- each element takes one step here, and its comma alone makes up for it
    have hcs : commaSeparated ((x :: y :: ys).map f) =
        f x ++ ',' :: commaSeparated ((y :: ys).map f) := rfl
    rw [hcs, List.length_append, List.length_cons] at hsteps
    have hx := (h x List.mem_cons_self).reads steps
      (',' :: (commaSeparated ((y :: ys).map f) ++ ']' :: rest)) (by omega) (stops_comma _)
    have hys := ih y (fun z hz => h z (List.mem_cons_of_mem _ hz)) steps (by omega)
    rw [hcs, List.append_assoc, List.cons_append, items?, hx]
    generalize commaSeparated ((y :: ys).map f) = text at hys
    simp [skipSpace_cons (show isSpace ',' = false by decide), hys]

theorem exists_commaSeparated_eq_cons (x : α) (xs : List α) (h : Written (f x) (g x)) :
    ∃ c s, commaSeparated ((x :: xs).map f) = c :: s ∧ isSpace c = false ∧ c ≠ ']' := by
  obtain ⟨c, s, hc, hspace, hne⟩ := h.starts
  cases xs with
  | nil => exact ⟨c, s, hc, hspace, hne⟩
  | cons y ys =>
    exact ⟨c, s ++ ',' :: commaSeparated ((y :: ys).map f), by simp [commaSeparated, hc],
      hspace, hne⟩

theorem written_array {xs : List α} (h : ∀ x ∈ xs, Written (f x) (g x)) :
    Written (writeArray (xs.map f)) (array (xs.map g)) where
  starts := ⟨'[', _, rfl, by decide, by decide⟩
  reads steps rest hsteps hrest := by
    rw [writeArray, List.length_append, List.length_cons, List.length_singleton] at hsteps
    obtain ⟨steps, rfl⟩ : ∃ k, steps = k + 1 := Nat.exists_eq_succ_of_ne_zero (by omega)
    rw [writeArray, List.cons_append, List.cons_append, List.append_assoc, List.singleton_append,
      value?, skipSpace_cons (by decide)]
    cases xs with
    | nil => rfl
    | cons x xs =>
      obtain ⟨c, s, hc, hspace, hne⟩ := exists_commaSeparated_eq_cons x xs (h x List.mem_cons_self)
      have hitems := items?_commaSeparated x xs h steps rest (by omega)
      rw [hc, List.cons_append] at hitems ⊢
      simp [skipSpace_cons hspace, hne, hitems]
  oneLine := by
    intro hmem
    have hmem : '\n' ∈ commaSeparated (xs.map f) := by simpa [writeArray] using hmem
    obtain hc | ⟨t, ht, hc⟩ := eq_comma_or_mem_of_mem_commaSeparated hmem
    · exact absurd hc (by decide)
    · obtain ⟨x, hx, rfl⟩ := List.mem_map.1 ht
      exact (h x hx).oneLine hc

/-- The members of an object are read one by one, up to the brace. -/
theorem members?_commaSeparated (name : α → String) (x : α) (xs : List α)
    (h : ∀ y ∈ x :: xs, Written (f y) (g y)) (steps : Nat) (rest : List Char)
    (hsteps : 2 * (commaSeparated
      ((x :: xs).map fun y => writeString (name y) ++ ':' :: f y)).length < steps) :
    members? steps (commaSeparated ((x :: xs).map fun y => writeString (name y) ++ ':' :: f y) ++
      '\x7d' :: rest) = some ((x :: xs).map fun y => (some (name y), g y), rest) := by
  induction xs generalizing x steps with
  | nil =>
    obtain ⟨steps, rfl⟩ : ∃ k, steps = k + 1 := Nat.exists_eq_succ_of_ne_zero (by omega)
    have hx := (h x List.mem_cons_self).reads steps ('\x7d' :: rest)
      (by simp [commaSeparated] at hsteps; omega) (stops_brace rest)
    simp only [List.map_cons, List.map_nil, commaSeparated]
    rw [List.append_assoc, writeString_append, members?]
    simp [skipSpace_cons, isSpace, stringRest?_flatMap, hx]
  | cons y ys ih =>
    obtain ⟨steps, rfl⟩ : ∃ k, steps = k + 1 := Nat.exists_eq_succ_of_ne_zero (by omega)
    have hcs : commaSeparated ((x :: y :: ys).map fun y => writeString (name y) ++ ':' :: f y) =
        writeString (name x) ++ ':' :: (f x ++
          ',' :: commaSeparated ((y :: ys).map fun y => writeString (name y) ++ ':' :: f y)) := by
      simp [commaSeparated]
    rw [hcs] at hsteps
    simp only [List.length_append, List.length_cons] at hsteps
    have hx := (h x List.mem_cons_self).reads steps
      (',' :: (commaSeparated ((y :: ys).map fun y => writeString (name y) ++ ':' :: f y) ++
        '\x7d' :: rest)) (by omega) (stops_comma _)
    have hys := ih y (fun z hz => h z (List.mem_cons_of_mem _ hz)) steps (by omega)
    rw [hcs, List.append_assoc, List.cons_append, List.append_assoc, List.cons_append,
      writeString_append, members?]
    generalize commaSeparated ((y :: ys).map fun y => writeString (name y) ++ ':' :: f y) = text
      at hx hys
    simp [skipSpace_cons, isSpace, stringRest?_flatMap, hx, hys]

theorem written_object {name : α → String} {xs : List α} (h : ∀ x ∈ xs, Written (f x) (g x)) :
    Written (writeObject (xs.map fun x => (name x, f x)))
      (object (xs.map fun x => (some (name x), g x))) where
  starts := ⟨'\x7b', _, rfl, by decide, by decide⟩
  reads steps rest hsteps hrest := by
    have hwritten : writeObject (xs.map fun x => (name x, f x)) =
        '\x7b' :: commaSeparated (xs.map fun x => writeString (name x) ++ ':' :: f x) ++
          ['\x7d'] := by
      simp [writeObject, Function.comp_def]
    rw [hwritten, List.length_append, List.length_cons, List.length_singleton] at hsteps
    obtain ⟨steps, rfl⟩ : ∃ k, steps = k + 1 := Nat.exists_eq_succ_of_ne_zero (by omega)
    rw [hwritten, List.cons_append, List.cons_append, List.append_assoc, List.singleton_append,
      value?, skipSpace_cons (by decide)]
    cases xs with
    | nil => rfl
    | cons x xs =>
      -- the members begin with a quotation mark, and not with the brace that closes the object
      obtain ⟨s, hs⟩ : ∃ s, commaSeparated
          ((x :: xs).map fun x => writeString (name x) ++ ':' :: f x) = '"' :: s := by
        cases xs <;> exact ⟨_, rfl⟩
      have hmembers := members?_commaSeparated name x xs h steps rest (by omega)
      rw [hs, List.cons_append] at hmembers ⊢
      simp [skipSpace_cons (show isSpace '"' = false by decide), hmembers]
  oneLine := by
    intro hmem
    have hmem : '\n' ∈ commaSeparated (xs.map fun x => writeString (name x) ++ ':' :: f x) := by
      simpa [writeObject, Function.comp_def] using hmem
    obtain hc | ⟨t, ht, hc⟩ := eq_comma_or_mem_of_mem_commaSeparated hmem
    · exact absurd hc (by decide)
    · obtain ⟨x, hx, rfl⟩ := List.mem_map.1 ht
      have hc : '\n' ∈ f x := by simpa [newline_notMem_writeString] using hc
      exact (h x hx).oneLine hc

/-- **What is written is read.** -/
theorem Written.parse? {t : List Char} {j : Json} (h : Written t j) :
    Json.parse? (.ofList t) = some j := by
  have := h.reads (2 * t.length + 2) [] (by omega) stops_nil
  rw [List.append_nil] at this
  rw [Json.parse?, String.toList_ofList, this]
  rfl

end Retest.Json

import Retest.Proofs.Dependency
import Retest.Proofs.Sorted
import Retest.Store.Line

/-!
# Lines of a dependency store are read back

What one line of a store says is read from it again: a record from its line
(`Retest.Store.parseRecord?_recordLineWith`), the tests that may depend on
anything from theirs (`Retest.Store.parseWildcard?_wildcardLine`), and the tests
of a record from their positions in a list of names
(`Retest.Store.parseTests?_positions`).

A test can be named on a line with others if its name is not empty and has
neither white space nor a comma in it (`Retest.Store.IsTestName`). A line of its
own asks for less (`Retest.Store.IsListed`).
-/

namespace Retest

/-! ### Fingerprints -/

/-- What holds of the hexadecimal digits among the first 128 characters holds of all. -/
theorem Text.forall_isHexDigit {P : Char → Prop}
    (hP : ∀ n : Fin 128, isHexDigit (.ofNat n) = true → P (.ofNat n)) {c : Char}
    (h : isHexDigit c = true) : P c := by
  have hn : c.toNat < 128 := by
    simp only [isHexDigit, Char.isDigit, Bool.or_eq_true, Bool.and_eq_true, decide_eq_true_eq,
      Char.le_def, UInt32.le_iff_toNat_le] at h
    have h9 : '9'.val.toNat = 57 := rfl
    have hf : 'f'.val.toNat = 102 := rfl
    have hF : 'F'.val.toNat = 70 := rfl
    have hc : c.toNat = c.val.toNat := rfl
    omega
  have := hP ⟨c.toNat, hn⟩
  rw [Char.ofNat_toNat] at this
  exact this h

namespace Fingerprint

/-- **A fingerprint reads back** if it is found again in its text. -/
def IsHex (f : Fingerprint) : Prop := ofHex? f.text = some f

theorem isHex_of_digits {s : String} (hs : s ≠ "")
    (h : ∀ c ∈ s.toList, Text.isHexDigit c = true ∧ c.toLower = c) : IsHex ⟨s⟩ := by
  have hall : s.toList.all Text.isHexDigit = true := List.all_eq_true.2 fun c hc => (h c hc).1
  have hlower : s.toList.map Char.toLower = s.toList := by
    rw [List.map_congr_left fun c hc => (h c hc).2, List.map_id']
  have hempty : s.isEmpty = false := by simpa using hs
  rw [IsHex, ofHex?, if_pos (by simp only [hempty, hall]; decide), hlower, String.ofList_toList]

/-- A fingerprint that was computed reads back. -/
theorem isHex_ordered (lines : List String) : (ordered lines).IsHex := by
  have hdigit : ∀ n : Fin 16, Text.isHexDigit (Text.hexDigit n) = true ∧
      (Text.hexDigit n).toLower = Text.hexDigit n := by decide
  have hne : Digest.Sha256.digest (octets lines) ≠ [] :=
    List.ne_nil_of_length_pos (by rw [Digest.Sha256.length_digest]; decide)
  obtain ⟨b, bs, hb⟩ := List.exists_cons_of_ne_nil hne
  apply isHex_of_digits
  · intro h
    have : (Text.hexOctets (Digest.Sha256.digest (octets lines))).toList = [] := by rw [h]; rfl
    rw [Text.hexOctets, hb, String.toList_ofList] at this
    cases this
  · intro c hc
    rw [Text.hexOctets, String.toList_ofList, List.mem_flatMap] at hc
    obtain ⟨b, -, hc⟩ := hc
    have hb : b.toNat < 256 := b.toNat_lt
    simp only [Text.hexOctet, List.mem_cons, List.not_mem_nil, or_false] at hc
    rcases hc with rfl | rfl
    · exact hdigit ⟨b.toNat / 16, by omega⟩
    · exact hdigit ⟨b.toNat % 16, by omega⟩

theorem ofHex?_eq_some {s : String} {f : Fingerprint} (h : ofHex? s = some f) :
    s ≠ "" ∧ (∀ c ∈ s.toList, Text.isHexDigit c = true) ∧
      f = ⟨.ofList (s.toList.map Char.toLower)⟩ := by
  rw [ofHex?] at h
  split at h
  · next hs =>
    simp only [Bool.and_eq_true, Bool.not_eq_true', List.all_eq_true,
      String.isEmpty_eq_false_iff] at hs
    exact ⟨hs.1, hs.2, (Option.some.inj h).symm⟩
  · cases h

/-- A fingerprint that was read reads back. -/
theorem isHex_of_ofHex? {s : String} {f : Fingerprint} (h : ofHex? s = some f) : f.IsHex := by
  obtain ⟨hne, hdigits, rfl⟩ := ofHex?_eq_some h
  apply isHex_of_digits
  · intro he
    have := congrArg String.toList he
    rw [String.toList_ofList] at this
    exact Text.toList_ne_nil hne (List.map_eq_nil_iff.1 this)
  · intro c hc
    rw [String.toList_ofList] at hc
    obtain ⟨d, hd, rfl⟩ := List.mem_map.1 hc
    exact Text.forall_isHexDigit (P := fun d => Text.isHexDigit d.toLower = true ∧
      d.toLower.toLower = d.toLower) (by decide) (hdigits d hd)

theorem IsHex.isWord {f : Fingerprint} (h : f.IsHex) : Text.IsWord f.text := by
  obtain ⟨hne, hdigits, -⟩ := ofHex?_eq_some h
  exact ⟨hne, fun c hc => Text.forall_isHexDigit (P := fun c => Text.isBlank c = false) (by decide)
    (hdigits c hc)⟩

end Fingerprint

namespace Store

/-! ### Names of tests -/

/-- A name that can stand on a line between others: it is not empty and has neither white space nor
a comma in it. -/
def IsTestName (s : String) : Prop := s ≠ "" ∧ ∀ c ∈ s.toList, Text.isBlank c = false ∧ c ≠ ','

instance (s : String) : Decidable (IsTestName s) :=
  decidable_of_iff (s ≠ "" ∧ s.toList.all (fun c => !Text.isBlank c && c != ',') = true)
    (by simp [IsTestName])

/-- A name that can stand on a line of its own: it is not empty, has no white space at its ends, and
no line feed in it. -/
def IsListed (s : String) : Prop := s ≠ "" ∧ Text.trim s = s ∧ '\n' ∉ s.toList

theorem IsTestName.isWord {s : String} (h : IsTestName s) : Text.IsWord s :=
  ⟨h.1, fun c hc => (h.2 c hc).1⟩

theorem IsTestName.isListed {s : String} (h : IsTestName s) : IsListed s :=
  ⟨h.1, Text.trim_word h.isWord, fun hm => absurd (h.2 _ hm).1 (by decide)⟩

theorem IsListed.isLine {s : String} (h : IsListed s) : Text.IsLine s := by
  refine ⟨h.1, h.2.2, ?_⟩
  rw [← h.2.1]
  exact (Text.ends_trim s).2

theorem isListed_trim {line : String} (hblank : Text.isBlankLine line = false)
    (hline : '\n' ∉ line.toList) : IsListed (Text.trim line) :=
  ⟨Text.trim_ne_empty hblank, Text.trim_trim line, fun hm => hline (Text.mem_of_mem_trim hm)⟩

/-- What stands between commas in a word is the name of a test. -/
theorem isTestName_of_mem_splitTests {word t : String}
    (hword : ∀ c ∈ word.toList, Text.isBlank c = false) (ht : t ∈ splitTests word) :
    IsTestName t := by
  obtain ⟨hfield, hne⟩ := List.mem_filter.1 ht
  obtain ⟨part, hpart, rfl⟩ := List.mem_map.1 hfield
  refine ⟨by simpa using hne, fun c hc => ?_⟩
  rw [String.toList_ofList] at hc
  obtain ⟨hmem, hcomma⟩ := Text.of_mem_splitOnP hpart c hc
  exact ⟨hword c hmem, by simpa using hcomma⟩

theorem toList_joinTests (tests : List String) :
    (joinTests tests).toList = [','].intercalate (tests.map String.toList) := by
  rw [joinTests, String.toList_intercalate]
  rfl

theorem joinTests_singleton (t : String) : joinTests [t] = t := by
  rw [← String.toList_inj, toList_joinTests]
  simp

theorem joinTests_cons_cons (t u : String) (tests : List String) :
    joinTests (t :: u :: tests) = t ++ "," ++ joinTests (u :: tests) := by
  rw [← String.toList_inj, String.toList_append, String.toList_append, toList_joinTests,
    toList_joinTests]
  simp [List.intercalate]

theorem eq_comma_or_mem_of_mem_joinTests {tests : List String} {c : Char}
    (h : c ∈ (joinTests tests).toList) : c = ',' ∨ ∃ t ∈ tests, c ∈ t.toList := by
  induction tests with
  | nil => cases h
  | cons t tests ih =>
    cases tests with
    | nil =>
      rw [joinTests_singleton] at h
      exact .inr ⟨t, List.mem_cons_self, h⟩
    | cons u tests =>
      rw [joinTests_cons_cons, String.toList_append, String.toList_append, List.mem_append,
        List.mem_append] at h
      rcases h with (h | h) | h
      · exact .inr ⟨t, List.mem_cons_self, h⟩
      · exact .inl (List.mem_singleton.1 h)
      · exact (ih h).imp_right fun ⟨v, hv, hc⟩ => ⟨v, List.mem_cons_of_mem _ hv, hc⟩

theorem mem_joinTests_of_mem {tests : List String} {t : String} (ht : t ∈ tests) {c : Char}
    (hc : c ∈ t.toList) : c ∈ (joinTests tests).toList := by
  induction tests with
  | nil => cases ht
  | cons u tests ih =>
    cases tests with
    | nil => rwa [joinTests_singleton, ← List.mem_singleton.1 ht]
    | cons v tests =>
      rw [joinTests_cons_cons, String.toList_append, String.toList_append, List.mem_append,
        List.mem_append]
      rcases List.mem_cons.1 ht with rfl | ht
      · exact .inl (.inl hc)
      · exact .inr (ih ht)

theorem head?_joinTests {t : String} (ht : t ≠ "") (tests : List String) :
    (joinTests (t :: tests)).toList.head? = t.toList.head? := by
  cases tests with
  | nil => rw [joinTests_singleton]
  | cons u tests =>
    rw [joinTests_cons_cons, String.append_assoc, String.toList_append,
      List.head?_append_of_ne_nil _ (Text.toList_ne_nil ht)]

/-- Names that are put between commas are taken apart at all commas. -/
theorem splitTests_joinTests (tests : List String) :
    splitTests (joinTests tests) = tests.flatMap splitTests := by
  have happend : ∀ s t, splitTests (s ++ "," ++ t) = splitTests s ++ splitTests t := by
    intro s t
    have hl : (s ++ "," ++ t).toList = s.toList ++ ',' :: t.toList := by
      rw [String.toList_append, String.toList_append, List.append_assoc]
      rfl
    rw [splitTests, Text.fieldsOf, hl, List.splitOnP_append_cons _ _ (by simp), List.map_append,
      List.filter_append]
    rfl
  induction tests with
  | nil => decide +kernel
  | cons t tests ih =>
    cases tests with
    | nil => rw [joinTests_singleton, List.flatMap_singleton]
    | cons u tests => rw [joinTests_cons_cons, happend, ih, List.flatMap_cons (x := t)]

/-- Names without commas are left whole. -/
theorem flatMap_splitTests {tests : List String} (h : ∀ t ∈ tests, t ≠ "" ∧ ',' ∉ t.toList) :
    tests.flatMap splitTests = tests := by
  have hsingle : ∀ t ∈ tests, splitTests t = [t] := by
    intro t ht
    have hcomma : ∀ c ∈ t.toList, (c == ',') = false := fun c hc =>
      beq_eq_false_iff_ne.2 fun heq => (h t ht).2 (heq ▸ hc)
    rw [splitTests, Text.fieldsOf, List.splitOnP_eq_singleton hcomma, List.map_singleton,
      String.ofList_toList, List.filter_cons_of_pos (by simpa using (h t ht).1), List.filter_nil]
  rw [List.flatMap_congr hsingle, List.flatMap_singleton']

theorem flatMap_splitTests_of_isTestName {tests : List String} (h : ∀ t ∈ tests, IsTestName t) :
    tests.flatMap splitTests = tests :=
  flatMap_splitTests fun t ht => ⟨(h t ht).1, fun hc => ((h t ht).2 _ hc).2 rfl⟩

theorem isLine_joinTests {tests : List String} (hne : tests ≠ [])
    (h : ∀ t ∈ tests, Text.IsLine t) : Text.IsLine (joinTests tests) := by
  induction tests with
  | nil => exact absurd rfl hne
  | cons t tests ih =>
    cases tests with
    | nil =>
      rw [joinTests_singleton]
      exact h t List.mem_cons_self
    | cons u tests =>
      rw [joinTests_cons_cons]
      refine (ih (by simp) fun v hv => h v (List.mem_cons_of_mem _ hv)).append ?_
      simpa using (h t List.mem_cons_self).2.1

theorem isWord_joinTests {tests : List String} (hne : tests ≠ []) (h : ∀ t ∈ tests, Text.IsWord t) :
    Text.IsWord (joinTests tests) := by
  refine ⟨(isLine_joinTests hne fun t ht => (h t ht).isLine).1, fun c hc => ?_⟩
  obtain rfl | ⟨u, hu, hc⟩ := eq_comma_or_mem_of_mem_joinTests hc
  · decide
  · exact (h u hu).2 c hc

/-! ### Records -/

/-- The words of the line for a record begin with its dependency. -/
theorem words_recordLineWith {id : Dependency} {f : Fingerprint} (hid : id.ReadsBack)
    (hf : f.IsHex) (tests : List String) :
    Text.words (recordLineWith id f tests) =
      id.text :: f.text :: if tests.isEmpty then [] else Text.words (joinTests tests) := by
  rw [recordLineWith]
  split
  · rw [String.append_empty, Text.words_append_space hid.isWord, Text.words_eq_singleton hf.isWord]
  · rw [String.append_assoc, Text.words_append_space hid.isWord, ← String.append_assoc,
      Text.words_append_space hf.isWord]

theorem isLine_recordLineWith {id : Dependency} {f : Fingerprint} {tests : List String}
    (hid : id.ReadsBack) (hf : f.IsHex) (htests : ∀ t ∈ tests, Text.IsLine t) :
    Text.IsLine (recordLineWith id f tests) := by
  have hstart : '\n' ∉ (id.text ++ " ").toList := by simpa using hid.isWord.isLine.2.1
  rw [recordLineWith]
  split
  · rw [String.append_empty]
    exact hf.isWord.isLine.append hstart
  · next hne =>
    rw [← String.append_assoc]
    refine (isLine_joinTests (by simpa using hne) htests).append ?_
    simpa using ⟨by simpa using hstart, hf.isWord.isLine.2.1⟩

/-- Whatever is read from the line for a record, it is a record for the same dependency. -/
theorem eq_of_parseRecord?_recordLineWith {names : Option (List UnitName)} {id id' : Dependency}
    {f : Fingerprint} {tests : List String} {record : StoreRecord} (hid : id.ReadsBack)
    (hf : f.IsHex) (h : parseRecord? names (recordLineWith id f tests) = some (id', record)) :
    id' = id := by
  have hwith : ∀ {words}, parseRecord?.parseWith names id.text f.text words = some (id', record) →
      id' = id := fun {words} h => by
    rw [parseRecord?.parseWith, hid] at h
    simp only [Option.bind_eq_bind, Option.bind_some] at h
    obtain ⟨f', -, h⟩ := Option.bind_eq_some_iff.1 h
    obtain ⟨tests', -, h⟩ := Option.bind_eq_some_iff.1 h
    exact (Prod.mk.inj (Option.some.inj h)).1.symm
  rw [parseRecord?, words_recordLineWith hid hf] at h
  split at h
  · next hw =>
    simp only [List.cons.injEq] at hw
    obtain ⟨rfl, rfl, -⟩ := hw
    exact hwith h
  · next hw =>
    simp only [List.cons.injEq] at hw
    obtain ⟨rfl, rfl, -⟩ := hw
    exact hwith h
  · cases h

/-- **A record is read from its line**, with the names of its tests taken apart at commas. -/
theorem parseRecord?_recordLineWith {names : Option (List UnitName)} {id : Dependency}
    {f : Fingerprint} {tests : List String} {set : SortedSet UnitName} (hid : id.ReadsBack)
    (hf : f.IsHex) (htests : ∀ t ∈ tests, Text.IsWord t)
    (hset : parseTests? names (tests.flatMap splitTests) = some set) :
    parseRecord? names (recordLineWith id f tests) = some (id, ⟨f, set⟩) := by
  have hwith : parseRecord?.parseWith names id.text f.text (tests.flatMap splitTests) =
      some (id, ⟨f, set⟩) := by
    rw [parseRecord?.parseWith, hid]
    simp [show Fingerprint.ofHex? f.text = some f from hf, hset]
  rw [parseRecord?, words_recordLineWith hid hf]
  cases tests with
  | nil => exact hwith
  | cons t tests =>
    have hword := isWord_joinTests (by simp) htests
    rw [List.isEmpty_cons, if_neg Bool.false_ne_true, Text.words_eq_singleton hword]
    dsimp only
    rw [splitTests_joinTests, hwith]

/-- Nothing is read from the line if a name has white space in it. -/
theorem parseRecord?_recordLineWith_of_isBlank {names : Option (List UnitName)} {id : Dependency}
    {f : Fingerprint} {tests : List String} (hid : id.ReadsBack) (hf : f.IsHex)
    (htests : ∀ t ∈ tests, IsListed t) {t : String} (ht : t ∈ tests) {c : Char}
    (hc : c ∈ t.toList) (hblank : Text.isBlank c = true) :
    parseRecord? names (recordLineWith id f tests) = none := by
  have hempty : tests.isEmpty = false := List.isEmpty_eq_false_iff.2 (List.ne_nil_of_mem ht)
  have hlast := (isLine_joinTests (List.ne_nil_of_mem ht) fun u hu => (htests u hu).isLine).2.2
  have hfirst : ∀ d ∈ (joinTests tests).toList.head?, Text.isBlank d = false := by
    cases tests with
    | nil => cases ht
    | cons u tests =>
      have hu := htests u List.mem_cons_self
      rw [head?_joinTests hu.1, ← hu.2.1]
      exact (Text.ends_trim u).1
  -- the names are two words or more, so the line has too many
  have hwords := Text.two_le_length_words hfirst hlast (mem_joinTests_of_mem ht hc) hblank
  rw [parseRecord?, words_recordLineWith hid hf, hempty, if_neg Bool.false_ne_true]
  generalize Text.words (joinTests tests) = words at hwords
  rcases words with _ | ⟨u, _ | ⟨v, words⟩⟩
  · simp at hwords
  · simp at hwords
  · rfl

/-- A numeral can stand where the name of a test can. -/
theorem isTestName_toString (n : Nat) : IsTestName (toString n) := by
  refine ⟨(Text.isWord_toString n).1, fun c hc => ⟨(Text.isWord_toString n).2 c hc, ?_⟩⟩
  rintro rfl
  exact absurd (Text.isDigit_of_mem_toString hc) (by decide)

theorem mem_positions {names : List UnitName} {tests : SortedSet UnitName} {i : Nat} :
    i ∈ positions names tests ↔ ∃ t ∈ tests, names.idxOf? t = some i := by
  simp [positions, List.mem_mergeSort, List.mem_filterMap]

theorem getElem?_of_idxOf? {names : List UnitName} {t : UnitName} {i : Nat}
    (h : names.idxOf? t = some i) : names[i]? = some t := by
  obtain ⟨hi, ht, -⟩ := List.idxOf?_eq_some_iff.1 h
  rw [List.getElem?_eq_getElem hi, ht]

theorem exists_mapM_eq_some {α β : Type} {f : α → Option β} {l : List α}
    (h : ∀ a ∈ l, ∃ b, f a = some b) :
    ∃ bs, l.mapM f = some bs ∧ ∀ b, b ∈ bs ↔ ∃ a ∈ l, f a = some b := by
  induction l with
  | nil => exact ⟨[], rfl, by simp⟩
  | cons a l ih =>
    obtain ⟨b, hb⟩ := h a List.mem_cons_self
    obtain ⟨bs, hbs, hmem⟩ := ih fun c hc => h c (List.mem_cons_of_mem _ hc)
    refine ⟨b :: bs, by simp [hb, hbs], fun d => ?_⟩
    simp [hmem, hb, eq_comm]

theorem exists_of_mem_mapM {α β : Type} {f : α → Option β} {l : List α} {bs : List β}
    (h : l.mapM f = some bs) {b : β} (hb : b ∈ bs) : ∃ a ∈ l, f a = some b := by
  induction l generalizing bs with
  | nil =>
    cases h
    cases hb
  | cons a l ih =>
    rw [List.mapM_cons] at h
    obtain ⟨c, hc, h⟩ := Option.bind_eq_some_iff.1 h
    obtain ⟨cs, hcs, h⟩ := Option.bind_eq_some_iff.1 h
    cases h
    rcases List.mem_cons.1 hb with rfl | hb
    · exact ⟨a, List.mem_cons_self, hc⟩
    · exact (ih hcs hb).imp fun _ ha => ⟨List.mem_cons_of_mem _ ha.1, ha.2⟩

/-- What is read from positions in a list is in the list. -/
theorem mem_of_parseTests? {names : List UnitName} {words : List String}
    {tests : SortedSet UnitName} (h : parseTests? (some names) words = some tests) {t : UnitName}
    (ht : t ∈ tests) : t ∈ names := by
  obtain ⟨found, hfound, h⟩ := Option.bind_eq_some_iff.1 h
  cases h
  obtain ⟨word, -, hword⟩ := exists_of_mem_mapM hfound (SortedSet.mem_ofList.1 ht)
  obtain ⟨i, -, hi⟩ := Option.bind_eq_some_iff.1 hword
  exact List.mem_of_getElem? hi

/-- **The tests of a record are read from their positions.** -/
theorem parseTests?_positions {names : List UnitName} {tests : SortedSet UnitName}
    (h : ∀ t ∈ tests, t ∈ names) :
    parseTests? (some names) ((positions names tests).map toString) = some tests := by
  -- a numeral in the list is the position of a test, and read as that test
  have hread : ∀ word ∈ (positions names tests).map toString, ∃ t ∈ tests,
      names.idxOf? t = Text.natural? word ∧
        (Text.natural? word).bind (fun i => names[i]?) = some t := by
    intro word hword
    obtain ⟨i, hi, rfl⟩ := List.mem_map.1 hword
    obtain ⟨t, ht, hti⟩ := mem_positions.1 hi
    refine ⟨t, ht, ?_, ?_⟩
    · rw [hti, Text.natural?_toString]
    · rw [Text.natural?_toString, Option.bind_some, getElem?_of_idxOf? hti]
  obtain ⟨found, hfound, hmem⟩ := exists_mapM_eq_some fun word hword =>
    (hread word hword).imp fun _ ht => ht.2.2
  have hset : SortedSet.ofList found = tests := by
    apply SortedSet.ext_mem
    intro t
    rw [SortedSet.mem_ofList, hmem]
    constructor
    · rintro ⟨word, hword, hw⟩
      obtain ⟨u, hu, -, hr⟩ := hread word hword
      rw [hr] at hw
      exact Option.some.inj hw ▸ hu
    · intro ht
      obtain ⟨i, hi⟩ := Option.isSome_iff_exists.1 (List.isSome_idxOf?.2 (h t ht))
      refine ⟨toString i, List.mem_map_of_mem (mem_positions.2 ⟨t, ht, hi⟩), ?_⟩
      rw [Text.natural?_toString, Option.bind_some, getElem?_of_idxOf? hi]
  have hmapM : ((positions names tests).map toString).mapM
      (fun word => do names[← Text.natural? word]?) = some found := hfound
  rw [parseTests?, hmapM]
  simp [hset]

/-! ### Tests that may depend on anything -/

theorem trimEnd_eq_self {s : String} (h : ∀ c ∈ s.toList.getLast?, Text.isBlank c = false) :
    Text.trimEnd s = s := by
  rw [Text.trimEnd, Text.dropWhileEnd_eq_self h, String.ofList_toList]

/-- The line ends with the names. -/
theorem wildcardLine_eq {tests : SortedSet UnitName} (hne : tests ≠ ∅)
    (h : ∀ t ∈ tests, IsTestName t) :
    wildcardLine tests = Dependency.wildcard ++ " " ++ noFingerprint ++ " " ++
      joinTests tests.toList ∧
      Text.IsWord (joinTests tests.toList) := by
  have hlist : tests.toList ≠ [] := fun he => hne (SortedSet.ext_toList he)
  have hword := isWord_joinTests hlist fun t ht => (h t ht).isWord
  refine ⟨trimEnd_eq_self fun c hc => ?_, hword⟩
  rw [String.toList_append, List.getLast?_append_of_ne_nil _ (Text.toList_ne_nil hword.1)] at hc
  exact hword.2 c (List.mem_of_getLast? hc)

theorem isLine_wildcardLine {tests : SortedSet UnitName} (hne : tests ≠ ∅)
    (h : ∀ t ∈ tests, IsTestName t) : Text.IsLine (wildcardLine tests) := by
  obtain ⟨hline, hword⟩ := wildcardLine_eq hne h
  rw [hline]
  exact hword.isLine.append (by decide)

/-- **The tests that may depend on anything are read from their line.** -/
theorem parseWildcard?_wildcardLine {tests : SortedSet UnitName} (hne : tests ≠ ∅)
    (h : ∀ t ∈ tests, IsTestName t) : parseWildcard? (wildcardLine tests) = some tests := by
  obtain ⟨hline, hword⟩ := wildcardLine_eq hne h
  have hwords : Text.words (wildcardLine tests) =
      [Dependency.wildcard, noFingerprint, joinTests tests.toList] := by
    rw [hline, String.append_assoc, String.append_assoc, Text.words_append_space (by decide),
      ← String.append_assoc, Text.words_append_space (by decide), Text.words_eq_singleton hword]
  have hsplit : splitTests (joinTests tests.toList) = tests.toList := by
    rw [splitTests_joinTests, flatMap_splitTests_of_isTestName h]
  rw [parseWildcard?, hwords]
  simp [parseWildcard?.starts, hsplit]

end Store

end Retest

import Retest.Proofs.Store.Text

/-!
# Lines that are no records do no harm

The text of a store is a head – the line for tests that may depend on anything,
the header, and in the indexed encoding the list of names – and then one line for
each record. Among the records, and after them, a text may hold other lines: blank
ones, and such that cannot be read as a record. Reading passes over them
(`Retest.Store.parse?_strewn`), and so the store that was written is read from its
text in either encoding, however many of them were strewn in
(`Retest.Store.parse?_render_strewn`).

The list of names has to stay as it is, since its lines are counted.
-/

namespace Retest

/-- A fingerprint is written in lower-case hexadecimal digits, one at least. -/
def Fingerprint.IsLowerHex (f : Fingerprint) : Prop :=
  f.text ≠ "" ∧ ∀ c ∈ f.text.toList, ('0' ≤ c ∧ c ≤ '9') ∨ ('a' ≤ c ∧ c ≤ 'f')

instance (f : Fingerprint) : Decidable f.IsLowerHex :=
  decidable_of_iff (f.text ≠ "" ∧ f.text.toList.all (fun c =>
    ('0' ≤ c ∧ c ≤ '9') ∨ ('a' ≤ c ∧ c ≤ 'f')) = true) (by simp [Fingerprint.IsLowerHex])

/-- Such a fingerprint is found again in its text. -/
theorem Fingerprint.IsLowerHex.isHex {f : Fingerprint} (h : f.IsLowerHex) : f.IsHex := by
  refine isHex_of_digits h.1 fun c hc => ?_
  have hdigit : Text.isHexDigit c = true := by
    rcases h.2 c hc with hd | hd
    · simp [Text.isHexDigit, Char.isDigit, Char.le_def, UInt32.le_iff_toNat_le] at hd ⊢
      exact .inl (.inl hd)
    · simp [Text.isHexDigit, hd]
  refine ⟨hdigit, ?_⟩
  -- only the upper-case digits have another lower case
  exact Text.forall_isHexDigit
    (P := fun c => ('0' ≤ c ∧ c ≤ '9') ∨ ('a' ≤ c ∧ c ≤ 'f') → c.toLower = c) (by decide) hdigit
    (h.2 c hc)

namespace Store

/-! ### Lines strewn among others -/

/-- **Lines with junk strewn in**: all lines of the first list stand in the second, in their order,
and every other line there is junk. -/
inductive Strewn (Junk : String → Prop) : List String → List String → Prop
  | nil : Strewn Junk [] []
  | keep (line : String) {lines strewn : List String} :
      Strewn Junk lines strewn → Strewn Junk (line :: lines) (line :: strewn)
  | junk {line : String} {lines strewn : List String} :
      Junk line → Strewn Junk lines strewn → Strewn Junk lines (line :: strewn)

/-- A line that is no record: it is blank, or cannot be read as one. -/
structure IsJunk (names : Option (List UnitName)) (line : String) : Prop where
  oneLine : '\n' ∉ line.toList
  unread : Text.isBlankLine line = true ∨ parseRecord? names line = none

instance (names : Option (List UnitName)) (line : String) : Decidable (IsJunk names line) :=
  decidable_of_iff ('\n' ∉ line.toList ∧
    (Text.isBlankLine line = true ∨ parseRecord? names line = none))
    ⟨fun h => ⟨h.1, h.2⟩, fun h => ⟨h.oneLine, h.unread⟩⟩

namespace Strewn

variable {Junk : String → Prop} {lines strewn : List String}

/-- What holds of the lines and of all junk holds of every line that results. -/
theorem forall_mem {P : String → Prop} (h : Strewn Junk lines strewn)
    (hlines : ∀ line ∈ lines, P line) (hjunk : ∀ line, Junk line → P line) :
    ∀ line ∈ strewn, P line := by
  induction h with
  | nil => exact hlines
  | keep line _ ih =>
    intro line' hline'
    rcases List.mem_cons.1 hline' with rfl | hline'
    · exact hlines _ List.mem_cons_self
    · exact ih (fun l hl => hlines l (List.mem_cons_of_mem _ hl)) line' hline'
  | junk hj _ ih =>
    intro line' hline'
    rcases List.mem_cons.1 hline' with rfl | hline'
    · exact hjunk _ hj
    · exact ih hlines line' hline'

/-- A reader that makes nothing of junk reads the same as before. -/
theorem filterMap_eq {β : Type} {read : String → Option β} (h : Strewn Junk lines strewn)
    (hjunk : ∀ line, Junk line → read line = none) :
    strewn.filterMap read = lines.filterMap read := by
  induction h with
  | nil => rfl
  | keep line _ ih => rw [List.filterMap_cons, List.filterMap_cons, ih]
  | junk hj _ ih => rw [List.filterMap_cons, hjunk _ hj, ih]

end Strewn

/-! ### Reading past junk -/

/-- A carriage return at the end of a line makes no difference to what is read from it. -/
theorem parseRecord?_withoutReturn (names : Option (List UnitName)) (line : String) :
    parseRecord? names (Text.withoutReturn line) = parseRecord? names line := by
  rw [parseRecord?, parseRecord?, Text.words_withoutReturn]

/-- What a line adds to a store: nothing if it is blank. -/
def readLine? (names : Option (List UnitName)) (line : String) :
    Option (Dependency × StoreRecord) :=
  if Text.isBlankLine line then none else parseRecord? names line

theorem IsJunk.readLine?_eq {names : Option (List UnitName)} {line : String}
    (h : IsJunk names line) : readLine? names line = none := by
  rw [readLine?]
  split
  · rfl
  · next hblank => exact h.unread.resolve_left hblank

/-- The lines of a text are read one by one. -/
theorem filterMap_parseRecord? (names : Option (List UnitName)) (lines : List String) :
    ((lines.map Text.withoutReturn).filter fun line => !Text.isBlankLine line).filterMap
      (parseRecord? names) = lines.filterMap (readLine? names) := by
  rw [List.filterMap_filter, List.filterMap_map]
  refine List.filterMap_congr fun line _ => ?_
  simp only [Function.comp_apply, Text.isBlankLine_withoutReturn, parseRecord?_withoutReturn,
    readLine?]
  cases Text.isBlankLine line <;> rfl

variable {store : Store} {encoding : StoreEncoding} {body : List String}

/-- What is read from a text with the head of a store. -/
theorem parse?_headLines_append (h : store.Readable)
    (hbody : ∀ line ∈ body, '\n' ∉ line.toList) :
    parse? (closeLines (store.headLines encoding ++ body)) =
      some { wildcard := store.wildcard
             knownTests := store.listedIn encoding
             records := .ofList (body.filterMap (readLine? (store.namesIn encoding))) } := by
  have hhead : ∀ line ∈ store.headLines encoding, Text.IsLine line := fun line hline =>
    isLine_of_mem_headLines h hline
  have hfeed : ∀ line ∈ store.headLines encoding ++ body, '\n' ∉ line.toList := by
    intro line hline
    rcases List.mem_append.1 hline with hline | hline
    · exact (hhead line hline).2.1
    · exact hbody line hline
  have hsame : (store.headLines encoding).map Text.withoutReturn = store.headLines encoding := by
    rw [List.map_congr_left fun line hline => (hhead line hline).withoutReturn_eq, List.map_id']
  have hkept : (store.headLines encoding).filter (fun line => !Text.isBlankLine line) =
      store.headLines encoding := by
    refine List.filter_eq_self.2 fun line hline => ?_
    rw [(hhead line hline).isBlankLine]
    rfl
  rw [parse?, closeLines, Text.lines_join_eq_map hfeed, List.map_append, hsame, List.filter_append,
    hkept, parseLines?_headLines_append h, addRecords_eq, filterMap_parseRecord?]
  rfl

/-- **Junk among the records makes no difference.** -/
theorem parse?_strewn (h : store.Readable)
    (hbody : Strewn (IsJunk (store.namesIn encoding)) (store.recordLines (store.namesIn encoding))
      body) :
    parse? (closeLines (store.headLines encoding ++ body)) = parse? (store.render encoding) := by
  have hrecords : ∀ line ∈ store.recordLines (store.namesIn encoding), '\n' ∉ line.toList :=
    fun line hline => (isLine_recordLine h _ hline).2.1
  rw [parse?_headLines_append h (hbody.forall_mem hrecords fun _ hj => hj.oneLine), render,
    lines_eq_headLines_append, parse?_headLines_append h hrecords,
    hbody.filterMap_eq fun _ hj => hj.readLine?_eq]

/-- **A store is read from its text, whatever junk was strewn among its records.** -/
theorem parse?_render_strewn
    (hids : ∀ {id record}, store.records.get? id = some record → id.ReadsBack)
    (hhex : ∀ {id record}, store.records.get? id = some record → record.fingerprint.IsLowerHex)
    (htests : ∀ t ∈ store.tests, IsTestName t)
    (hbody : Strewn (IsJunk (store.namesIn encoding)) (store.recordLines (store.namesIn encoding))
      body) :
    store.render encoding = closeLines
        (store.headLines encoding ++ store.recordLines (store.namesIn encoding)) ∧
      parse? (closeLines (store.headLines encoding ++ body)) =
        some { store with knownTests := store.listedIn encoding } := by
  have hhex' : ∀ {id record}, store.records.get? id = some record → record.fingerprint.IsHex :=
    fun h => (hhex h).isHex
  refine ⟨by rw [render, lines_eq_headLines_append], ?_⟩
  rw [parse?_strewn (readable_of_isTestName hids hhex' htests) hbody]
  exact parse?_render_of_isTestName hids hhex' htests encoding

/-- A record of each kind. -/
def sampleRecords : List (Dependency × StoreRecord) :=
  [(.unit "shop.Cart", ⟨⟨"0a"⟩, .ofList ["shop.CartTest", "shop.StockTest"]⟩),
    (.method ⟨"shop.Cart", "total()I"⟩, ⟨⟨"1b"⟩, .ofList ["shop.CartTest"]⟩),
    (.field ⟨"shop.Cart", "count", "I"⟩, ⟨⟨"2c"⟩, ∅⟩)]

/-- A store with these records. -/
def sampleStore : Store where
  wildcard := .ofList ["shop.ReflectTest"]
  records := .ofList sampleRecords
  knownTests := .ofList ["shop.IdleTest"]

theorem entries_sampleStore : sampleStore.records.entries = sampleRecords := by decide +kernel

theorem readsBack_isLowerHex_sampleStore {id : Dependency} {record : StoreRecord}
    (h : sampleStore.records.get? id = some record) :
    id.ReadsBack ∧ record.fingerprint.IsLowerHex := by
  have hall : ∀ e ∈ sampleRecords, e.1.ReadsBack ∧ e.2.fingerprint.IsLowerHex := by
    decide +kernel
  rw [SortedMap.get?_eq_some_iff, entries_sampleStore] at h
  exact hall (id, record) h

theorem recordLines_sampleStore : sampleStore.recordLines (sampleStore.namesIn .indexed) =
    ["shop.Cart 0a 0,2", "shop.Cart#total()I 1b 0", "shop.Cart.count:I 2c"] := by
  let names := ["shop.CartTest", "shop.IdleTest", "shop.StockTest"]
  have hnames : sampleStore.namesIn .indexed = some names := by decide +kernel
  have hsorted : ∀ e ∈ sampleRecords,
      (e.2.tests.toList.filterMap fun t => names.idxOf? t).Pairwise (· ≤ ·) := by decide +kernel
  calc sampleStore.recordLines (sampleStore.namesIn .indexed)
    _ = sampleRecords.map fun e => recordLineWith e.1 e.2.fingerprint
          ((e.2.tests.toList.filterMap fun t => names.idxOf? t).map toString) := by
      rw [recordLines, entries_sampleStore, hnames]
      refine List.map_congr_left fun e he => ?_
      have hpositions : positions names e.2.tests = e.2.tests.toList.filterMap fun t =>
          names.idxOf? t :=
        List.mergeSort_of_pairwise ((hsorted e he).imp decide_eq_true)
      exact congrArg (fun is => recordLineWith e.1 e.2.fingerprint (is.map toString)) hpositions
    _ = _ := by decide +kernel

theorem parse?_sampleStore_strewn :
    parse? (closeLines (sampleStore.headLines .indexed ++
        ["shop.Cart 0a 0,2", "shop.Stock", " \r", "shop.Cart#total()I 1b 0", "shop.Stock 3d 7",
          "shop.Cart.count:I 2c", ""])) =
      some { sampleStore with knownTests := sampleStore.listedIn .indexed } := by
  -- a line that ends too early, two blank ones, and one with a number that stands for no name
  have hjunk : ∀ line ∈ ["shop.Stock", " \r", "shop.Stock 3d 7", ""],
      IsJunk (sampleStore.namesIn .indexed) line := by decide +kernel
  have hbody : Strewn (IsJunk (sampleStore.namesIn .indexed))
      (sampleStore.recordLines (sampleStore.namesIn .indexed))
      ["shop.Cart 0a 0,2", "shop.Stock", " \r", "shop.Cart#total()I 1b 0", "shop.Stock 3d 7",
        "shop.Cart.count:I 2c", ""] := by
    rw [recordLines_sampleStore]
    exact .keep _ (.junk (hjunk _ (by simp)) (.junk (hjunk _ (by simp))
      (.keep _ (.junk (hjunk _ (by simp)) (.keep _ (.junk (hjunk _ (by simp)) .nil))))))
  exact (parse?_render_strewn (fun h => (readsBack_isLowerHex_sampleStore h).1)
    (fun h => (readsBack_isLowerHex_sampleStore h).2) (by decide +kernel) hbody).2

end Store

end Retest

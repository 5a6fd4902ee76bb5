import Retest.Proofs.Store.Line
import Retest.Store.Text

/-!
# The text of a dependency store is read back

`Retest.Store.parse?_render`: a store is found again in its text, in either
encoding. The records come back one by one. In the encoding by names a record
comes back if its tests have names that can stand between commas; another may be
lost, but it never gets in the way of the others, since the line for a record is
read as a record for the same dependency or not at all.

What has been read can be written and read again: every store that comes from a
text is readable (`Retest.Store.readable_of_parse?`).
-/

namespace Retest.Store

/-- **A store that can be written and read.** -/
structure Readable (store : Store) : Prop where
  /-- The tests that may depend on anything can be named on one line. -/
  wildcard : ∀ t ∈ store.wildcard, IsTestName t
  /-- All other tests can be named on lines of their own. -/
  listed : ∀ t ∈ store.nameList, IsListed t
  /-- The dependencies are found again in their texts. -/
  readsBack : ∀ {id record}, store.records.get? id = some record → id.ReadsBack
  /-- The fingerprints are found again in their texts. -/
  isHex : ∀ {id record}, store.records.get? id = some record → record.fingerprint.IsHex

theorem mem_unions_tests {records : SortedMap Dependency StoreRecord} {t : UnitName} :
    t ∈ SortedSet.unions (records.values.map StoreRecord.tests) ↔
      ∃ id record, records.get? id = some record ∧ t ∈ record.tests := by
  simp only [SortedSet.mem_unions, List.mem_map, SortedMap.mem_values]
  constructor
  · rintro ⟨_, ⟨record, ⟨id, hid⟩, rfl⟩, ht⟩
    exact ⟨id, record, hid, ht⟩
  · rintro ⟨id, record, hid, ht⟩
    exact ⟨_, ⟨record, ⟨id, hid⟩, rfl⟩, ht⟩

theorem mem_recordTests {store : Store} {t : UnitName} :
    t ∈ store.recordTests ↔
      ∃ id record, store.records.get? id = some record ∧ t ∈ record.tests := mem_unions_tests

theorem mem_nameList {store : Store} {t : UnitName} :
    t ∈ store.nameList ↔ t ∈ store.knownTests ∨ t ∈ store.recordTests := by
  simp [nameList]

theorem mem_nameList_of_record {store : Store} {id : Dependency} {record : StoreRecord}
    (h : store.records.get? id = some record) {t : UnitName} (ht : t ∈ record.tests) :
    t ∈ store.nameList :=
  mem_nameList.2 (.inr (mem_recordTests.2 ⟨id, record, h, ht⟩))

/-- A store whose tests can be named on one line can be written and read. -/
theorem readable_of_isTestName {store : Store}
    (hids : ∀ {id record}, store.records.get? id = some record → id.ReadsBack)
    (hhex : ∀ {id record}, store.records.get? id = some record → record.fingerprint.IsHex)
    (htests : ∀ t ∈ store.tests, IsTestName t) : store.Readable where
  wildcard t ht := htests t (SortedSet.mem_union.2 (.inl (SortedSet.mem_union.2 (.inl ht))))
  listed t ht := by
    refine (htests t ?_).isListed
    rw [tests, SortedSet.mem_union, SortedSet.mem_union]
    exact (mem_nameList.1 ht).imp_left .inr
  readsBack := hids
  isHex := hhex

/-- The list of names that the records of a text refer to, if there is one. -/
def namesIn (store : Store) : StoreEncoding → Option (List UnitName)
  | .names => none
  | .indexed => some store.nameList

/-- The tests that a text lists beside the records. -/
def listedIn (store : Store) : StoreEncoding → SortedSet UnitName
  | .names => ∅
  | .indexed => store.knownTests ∪ store.recordTests

/-! ### Lines -/

/-- The lines of the list of names, if there is one. -/
def listLines (store : Store) : StoreEncoding → List String
  | .names => []
  | .indexed => toString store.nameList.length :: store.nameList

/-- The lines before the records. -/
def headLines (store : Store) (encoding : StoreEncoding) : List String :=
  (if store.wildcard.isEmpty then [] else [wildcardLine store.wildcard]) ++
    headerLine encoding :: store.listLines encoding

/-- After the head come the records. -/
theorem lines_eq_headLines_append (store : Store) (encoding : StoreEncoding) :
    store.lines encoding =
      store.headLines encoding ++ store.recordLines (store.namesIn encoding) := by
  cases encoding <;> simp [lines, headLines, listLines, namesIn]

theorem isLine_recordLine {store : Store} (h : store.Readable) (names : Option (List UnitName))
    {line : String} (hline : line ∈ store.recordLines names) : Text.IsLine line := by
  obtain ⟨⟨id, record⟩, hentry, rfl⟩ := List.mem_map.1 hline
  have hget := SortedMap.get?_eq_some_iff.2 hentry
  refine isLine_recordLineWith (h.readsBack hget) (h.isHex hget) fun t ht => ?_
  cases names with
  | none => exact (h.listed t (mem_nameList_of_record hget ht)).isLine
  | some names =>
    obtain ⟨i, -, rfl⟩ := List.mem_map.1 ht
    exact (Text.isWord_toString i).isLine

theorem isLine_of_mem_headLines {store : Store} (h : store.Readable) {encoding : StoreEncoding}
    {line : String} (hline : line ∈ store.headLines encoding) : Text.IsLine line := by
  rw [headLines, List.mem_append, List.mem_cons] at hline
  rcases hline with hline | rfl | hline
  · split at hline
    · cases hline
    · next hne =>
      rw [List.mem_singleton.1 hline]
      exact isLine_wildcardLine (by simpa using hne) h.wildcard
  · cases encoding <;> decide +kernel
  · cases encoding with
    | names => cases hline
    | indexed =>
      rcases List.mem_cons.1 hline with rfl | hline
      · exact (Text.isWord_toString _).isLine
      · exact (h.listed line hline).isLine

theorem isLine_of_mem_lines {store : Store} (h : store.Readable) {encoding : StoreEncoding}
    {line : String} (hline : line ∈ store.lines encoding) : Text.IsLine line := by
  rw [lines_eq_headLines_append, List.mem_append] at hline
  rcases hline with hline | hline
  · exact isLine_of_mem_headLines h hline
  · exact isLine_recordLine h _ hline

/-- The lines of a store are found again in its text. -/
theorem filter_lines_render {store : Store} (h : store.Readable) (encoding : StoreEncoding) :
    (Text.lines (store.render encoding)).filter (fun line => !Text.isBlankLine line) =
      store.lines encoding := by
  rw [render, closeLines, Text.lines_join fun line hline => isLine_of_mem_lines h hline]
  refine List.filter_eq_self.2 fun line hline => ?_
  rw [(isLine_of_mem_lines h hline).isBlankLine]
  rfl

theorem parse?_render_eq_parseLines? {store : Store} (h : store.Readable)
    (encoding : StoreEncoding) :
    parse? (store.render encoding) = parseLines? (store.lines encoding) := by
  rw [parse?, filter_lines_render h]

/-! ### The parts before the records -/

theorem parseHeader?_headerLine (encoding : StoreEncoding) :
    parseHeader? (headerLine encoding) = some encoding := by
  cases encoding <;> decide +kernel

theorem parseWildcard?_headerLine (encoding : StoreEncoding) :
    parseWildcard? (headerLine encoding) = none := by
  cases encoding <;> decide +kernel

/-- What follows the header is read in the encoding that the header names. -/
theorem parseLines?_header {store : Store} (h : store.Readable) (encoding : StoreEncoding)
    (body : List String) :
    parseLines? ((if store.wildcard.isEmpty then [] else [wildcardLine store.wildcard]) ++
        headerLine encoding :: body) =
      parseBody? { wildcard := store.wildcard } encoding body := by
  have hfrom : ∀ start : Store, parseFrom? start (headerLine encoding :: body) =
      parseBody? start encoding body := fun start => by
    simp [parseFrom?, parseHeader?_headerLine]
  by_cases hempty : store.wildcard = ∅
  · simp [hempty, parseLines?, parseWildcard?_headerLine, hfrom]
  · rw [if_neg (by simpa using hempty), List.singleton_append, parseLines?,
      parseWildcard?_wildcardLine hempty h.wildcard]
    exact hfrom _

/-- **All lines after the head are read as records.** -/
theorem parseLines?_headLines_append {store : Store} (h : store.Readable)
    (encoding : StoreEncoding) (rest : List String) :
    parseLines? (store.headLines encoding ++ rest) =
      some ({ wildcard := store.wildcard, knownTests := store.listedIn encoding : Store }.addRecords
        (store.namesIn encoding) rest) := by
  cases encoding with
  | names =>
    rw [headLines, List.append_assoc, List.cons_append, parseLines?_header h]
    rfl
  | indexed =>
    have hcount : Text.natural? (Text.trim (toString store.nameList.length)) =
        some store.nameList.length := by
      rw [Text.trim_word (Text.isWord_toString _), Text.natural?_toString]
    have hnames : store.nameList.map Text.trim = store.nameList := by
      rw [List.map_congr_left fun t ht => (h.listed t ht).2.1, List.map_id']
    have hset : SortedSet.ofList store.nameList = store.knownTests ∪ store.recordTests :=
      SortedSet.ofList_toList _
    rw [headLines, List.append_assoc, List.cons_append, parseLines?_header h, listLines,
      List.cons_append, parseBody?, hcount]
    simp [hnames, hset, listedIn, namesIn]

/-! ### Records -/

/-- The records of lines are put into a store from the first to the last. -/
theorem addRecords_eq (store : Store) (names : Option (List UnitName)) (lines : List String) :
    store.addRecords names lines =
      { store with
        records := store.records.insertMany (lines.filterMap (parseRecord? names)) } := by
  have key : ∀ (entries : List (Dependency × StoreRecord)) (store : Store),
      entries.foldl (fun store e => store.insert e.1 e.2) store =
        { store with records := store.records.insertMany entries } := by
    intro entries
    induction entries with
    | nil => intro store; rfl
    | cons e entries ih =>
      intro store
      rw [List.foldl_cons, ih]
      rfl
  exact key _ store

/-- What is read from the line of a record. -/
def readBack? (store : Store) (encoding : StoreEncoding) (id : Dependency) (record : StoreRecord) :
    Option StoreRecord :=
  (parseRecord? (store.namesIn encoding) (recordLine (store.namesIn encoding) id record)).map (·.2)

/-- A record whose tests can be told from its line. -/
def Named (encoding : StoreEncoding) (record : StoreRecord) : Prop :=
  encoding = .names → ∀ t ∈ record.tests, IsTestName t

theorem readBack?_eq_some {store : Store} (h : store.Readable) {encoding : StoreEncoding}
    {id : Dependency} {record : StoreRecord} (hget : store.records.get? id = some record)
    (hnamed : Named encoding record) : store.readBack? encoding id record = some record := by
  have hparse : parseRecord? (store.namesIn encoding)
      (recordLine (store.namesIn encoding) id record) = some (id, record) := by
    cases encoding with
    | names =>
      have hset : parseTests? none (record.tests.toList.flatMap splitTests) =
          some record.tests := by
        rw [flatMap_splitTests_of_isTestName (hnamed rfl)]
        simp [parseTests?]
      exact parseRecord?_recordLineWith (h.readsBack hget) (h.isHex hget)
        (fun t ht => (hnamed rfl t ht).isWord) hset
    | indexed =>
      have hnumerals : ∀ t ∈ (positions store.nameList record.tests).map toString,
          IsTestName t := by
        intro t ht
        obtain ⟨i, -, rfl⟩ := List.mem_map.1 ht
        exact isTestName_toString i
      have hset : parseTests? (some store.nameList)
          (((positions store.nameList record.tests).map toString).flatMap splitTests) =
            some record.tests := by
        rw [flatMap_splitTests_of_isTestName hnumerals]
        exact parseTests?_positions fun t ht => mem_nameList_of_record hget ht
      exact parseRecord?_recordLineWith (h.readsBack hget) (h.isHex hget)
        (fun t ht => (hnumerals t ht).isWord) hset
  rw [readBack?, hparse]
  rfl

/-- What the encoding by names keeps of a record. The names of its tests are taken apart at commas,
and if there is white space in one of them then nothing is kept. -/
def keptByNames? (record : StoreRecord) : Option StoreRecord :=
  if record.tests.toList.all fun t => t.toList.all fun c => !Text.isBlank c then
    some ⟨record.fingerprint, .ofList (record.tests.toList.flatMap splitTests)⟩
  else none

theorem keptByNames?_eq_some {record : StoreRecord} (h : ∀ t ∈ record.tests, IsTestName t) :
    keptByNames? record = some record := by
  have hwords : ∀ t ∈ record.tests.toList, ∀ c ∈ t.toList, Text.isBlank c = false := fun t ht =>
    (h t ht).isWord.2
  rw [keptByNames?, if_pos (by simpa using hwords), flatMap_splitTests_of_isTestName h,
    SortedSet.ofList_toList]

theorem readBack?_names {store : Store} (h : store.Readable) {id : Dependency}
    {record : StoreRecord} (hget : store.records.get? id = some record) :
    store.readBack? .names id record = keptByNames? record := by
  have hlisted : ∀ t ∈ record.tests.toList, IsListed t := fun t ht =>
    h.listed t (mem_nameList_of_record hget ht)
  rw [keptByNames?, readBack?]
  split
  · next hwords =>
    simp only [List.all_eq_true, Bool.not_eq_true'] at hwords
    have hparse := @parseRecord?_recordLineWith none id record.fingerprint record.tests.toList _
      (h.readsBack hget) (h.isHex hget) (fun t ht => ⟨(hlisted t ht).1, hwords t ht⟩) rfl
    exact congrArg (Option.map Prod.snd) hparse
  · next hblank =>
    simp only [List.all_eq_true, Bool.not_eq_true', not_forall, Bool.not_eq_false] at hblank
    obtain ⟨t, ht, c, hc, hblank⟩ := hblank
    exact congrArg (Option.map Prod.snd) (parseRecord?_recordLineWith_of_isBlank
      (h.readsBack hget) (h.isHex hget) hlisted ht hc hblank)

/-- **A record is read from its own line** and from no other. -/
theorem lastValue?_recordLines {store : Store} (h : store.Readable) (encoding : StoreEncoding)
    (id : Dependency) :
    SortedMap.lastValue? ((store.recordLines (store.namesIn encoding)).filterMap
      (parseRecord? (store.namesIn encoding))) id =
        (store.records.get? id).bind (store.readBack? encoding id) := by
  have hread : ∀ read, (id, read) ∈ (store.recordLines (store.namesIn encoding)).filterMap
      (parseRecord? (store.namesIn encoding)) ↔
        (store.records.get? id).bind (store.readBack? encoding id) = some read := by
    intro read
    rw [List.mem_filterMap, Option.bind_eq_some_iff]
    constructor
    · rintro ⟨line, hline, hparse⟩
      obtain ⟨⟨id', record⟩, hentry, rfl⟩ := List.mem_map.1 hline
      -- a line is never read as the record of another dependency
      have hget := SortedMap.get?_eq_some_iff.2 hentry
      obtain rfl := eq_of_parseRecord?_recordLineWith (h.readsBack hget) (h.isHex hget) hparse
      exact ⟨record, hget, by rw [readBack?, hparse]; rfl⟩
    · rintro ⟨record, hget, hback⟩
      obtain ⟨⟨id', _⟩, hparse, rfl⟩ := Option.map_eq_some_iff.1 hback
      obtain rfl := eq_of_parseRecord?_recordLineWith (h.readsBack hget) (h.isHex hget) hparse
      exact ⟨_, List.mem_map_of_mem (SortedMap.get?_eq_some_iff.1 hget), hparse⟩
  exact SortedMap.lastValue?_eq_of_mem_iff hread

/-- **A store is read from its text**, record by record. -/
theorem parse?_render {store : Store} (h : store.Readable) (encoding : StoreEncoding) :
    ∃ loaded, parse? (store.render encoding) = some loaded ∧ loaded.wildcard = store.wildcard ∧
      loaded.knownTests = store.listedIn encoding ∧
      ∀ id, loaded.records.get? id =
        (store.records.get? id).bind (store.readBack? encoding id) := by
  refine ⟨{ wildcard := store.wildcard
            knownTests := store.listedIn encoding
            records := .ofList ((store.recordLines (store.namesIn encoding)).filterMap
              (parseRecord? (store.namesIn encoding))) }, ?_, rfl, rfl, fun id => ?_⟩
  · rw [parse?_render_eq_parseLines? h, lines_eq_headLines_append, parseLines?_headLines_append h,
      addRecords_eq]
    rfl
  · rw [SortedMap.get?_ofList, lastValue?_recordLines h encoding id]

/-- A record that can be told from its line is read as it is. -/
theorem get?_eq_of_named {store loaded : Store} (h : store.Readable) {encoding : StoreEncoding}
    {id : Dependency} (hloaded : loaded.records.get? id =
      (store.records.get? id).bind (store.readBack? encoding id))
    (hnamed : ∀ record ∈ store.records.get? id, Named encoding record) :
    loaded.records.get? id = store.records.get? id := by
  rw [hloaded]
  cases hget : store.records.get? id with
  | none => rfl
  | some record => exact readBack?_eq_some h hget (hnamed record hget)

/-- A store whose tests all have names that can stand between commas is read as a whole. -/
theorem parse?_render_eq {store : Store} (h : store.Readable) (encoding : StoreEncoding)
    (hnamed : ∀ {id record}, store.records.get? id = some record → Named encoding record) :
    parse? (store.render encoding) = some { store with knownTests := store.listedIn encoding } := by
  obtain ⟨loaded, hparse, hwildcard, hknown, hrecords⟩ := parse?_render h encoding
  have hall : loaded.records = store.records :=
    SortedMap.ext_get? fun id => get?_eq_of_named h (hrecords id) fun _ hget => hnamed hget
  rw [hparse, ← hwildcard, ← hknown, ← hall]

/-- So is any store with such tests only, if its dependencies and fingerprints read back. -/
theorem parse?_render_of_isTestName {store : Store}
    (hids : ∀ {id record}, store.records.get? id = some record → id.ReadsBack)
    (hhex : ∀ {id record}, store.records.get? id = some record → record.fingerprint.IsHex)
    (htests : ∀ t ∈ store.tests, IsTestName t) (encoding : StoreEncoding) :
    parse? (store.render encoding) = some { store with knownTests := store.listedIn encoding } :=
  parse?_render_eq (readable_of_isTestName hids hhex htests) encoding fun hget _ t ht =>
    htests t (SortedSet.mem_union.2 (.inr (mem_recordTests.2 ⟨_, _, hget, ht⟩)))

/-! ### Stores that come from a text -/

theorem isTestName_of_parseWildcard? {line : String} {tests : SortedSet UnitName}
    (h : parseWildcard? line = some tests) : ∀ t ∈ tests, IsTestName t := by
  intro t ht
  rw [parseWildcard?] at h
  split at h
  · split at h
    · cases h
      exact absurd ht (SortedSet.not_mem_empty t)
    · cases h
  · next word hwords =>
    split at h
    · cases h
      have hword : Text.IsWord word := Text.isWord_of_mem_words (s := line) (by rw [hwords]; simp)
      exact isTestName_of_mem_splitTests hword.2 (SortedSet.mem_ofList.1 ht)
    · cases h
  · cases h

/-- What is read from the line of a record can be written and read again. -/
theorem of_parseRecord? {names : Option (List UnitName)} {line : String} {id : Dependency}
    {record : StoreRecord} (h : parseRecord? names line = some (id, record)) :
    id.ReadsBack ∧ record.fingerprint.IsHex ∧
      ∀ t ∈ record.tests, names.elim (IsTestName t) (t ∈ ·) := by
  have hwith : ∀ {first second : String} {tests : List String}, (∀ t ∈ tests, IsTestName t) →
      parseRecord?.parseWith names first second tests = some (id, record) →
        id.ReadsBack ∧ record.fingerprint.IsHex ∧
          ∀ t ∈ record.tests, names.elim (IsTestName t) (t ∈ ·) := by
    intro first second tests htests h
    rw [parseRecord?.parseWith] at h
    obtain ⟨id', hid, h⟩ := Option.bind_eq_some_iff.1 h
    obtain ⟨f, hf, h⟩ := Option.bind_eq_some_iff.1 h
    obtain ⟨set, hset, h⟩ := Option.bind_eq_some_iff.1 h
    cases h
    refine ⟨Dependency.readsBack_of_parse? hid, Fingerprint.isHex_of_ofHex? hf, fun t ht => ?_⟩
    cases names with
    | none =>
      cases hset
      exact htests t (SortedSet.mem_ofList.1 ht)
    | some names => exact mem_of_parseTests? hset ht
  -- a line of two words names no tests, one of three words has them in the third
  rw [parseRecord?] at h
  split at h
  · exact hwith (fun t ht => by cases ht) h
  · next word hwords =>
    have hword : Text.IsWord word := Text.isWord_of_mem_words (s := line) (by rw [hwords]; simp)
    exact hwith (fun t ht => isTestName_of_mem_splitTests hword.2 ht) h
  · cases h

theorem readable_addRecords {wildcard known : SortedSet UnitName}
    (hwildcard : ∀ t ∈ wildcard, IsTestName t) (hknown : ∀ t ∈ known, IsListed t)
    {names : Option (List UnitName)} (hnames : ∀ ns ∈ names, ∀ t ∈ ns, IsListed t)
    (lines : List String) :
    ({ wildcard := wildcard, knownTests := known : Store }.addRecords names lines).Readable := by
  rw [addRecords_eq]
  have hrecord : ∀ {id record},
      ((∅ : SortedMap Dependency StoreRecord).insertMany
        (lines.filterMap (parseRecord? names))).get? id = some record →
      id.ReadsBack ∧ record.fingerprint.IsHex ∧
        ∀ t ∈ record.tests, names.elim (IsTestName t) (t ∈ ·) := by
    intro id record h
    obtain ⟨line, -, hparse⟩ := List.mem_filterMap.1 (SortedMap.mem_of_get?_ofList h)
    exact of_parseRecord? hparse
  refine ⟨hwildcard, fun t ht => ?_, fun h => (hrecord h).1, fun h => (hrecord h).2.1⟩
  rcases mem_nameList.1 ht with ht | ht
  · exact hknown t ht
  · obtain ⟨id, record, hget, ht⟩ := mem_recordTests.1 ht
    have := (hrecord hget).2.2 t ht
    cases names with
    | none => exact IsTestName.isListed this
    | some ns => exact hnames ns rfl t this

/-- Lines as they are read: none is blank, and no line feed is in any. -/
def ReadLines (lines : List String) : Prop :=
  ∀ line ∈ lines, Text.isBlankLine line = false ∧ '\n' ∉ line.toList

theorem ReadLines.tail {line : String} {lines : List String} (h : ReadLines (line :: lines)) :
    ReadLines lines := fun l hl => h l (List.mem_cons_of_mem _ hl)

theorem readable_of_parseFrom? {wildcard : SortedSet UnitName} {store : Store}
    (hwildcard : ∀ t ∈ wildcard, IsTestName t) {lines : List String} (hlines : ReadLines lines)
    (h : parseFrom? { wildcard := wildcard } lines = some store) : store.Readable := by
  cases lines with
  | nil => cases h
  | cons line lines =>
  obtain ⟨encoding, -, h⟩ := Option.bind_eq_some_iff.1 h
  have hempty : ∀ t ∈ (∅ : SortedSet UnitName), IsListed t := fun t ht =>
    absurd ht (SortedSet.not_mem_empty t)
  cases encoding with
  | names =>
    cases h
    exact readable_addRecords hwildcard hempty (fun ns hns => by cases hns) lines
  | indexed =>
    cases lines with
    | nil => cases h
    | cons first lines =>
      rw [parseBody?] at h
      obtain ⟨count, -, h⟩ := Option.bind_eq_some_iff.1 h
      dsimp only at h
      split at h
      · cases h
      · -- the tests are listed first, each on a line of its own
        have hnames : ∀ t ∈ (lines.take count).map Text.trim, IsListed t := by
          intro t ht
          obtain ⟨l, hl, rfl⟩ := List.mem_map.1 ht
          have := hlines.tail.tail l (List.mem_of_mem_take hl)
          exact isListed_trim this.1 this.2
        cases h
        refine readable_addRecords hwildcard (fun t ht => ?_) (fun ns hns => ?_) (lines.drop count)
        · exact hnames t (SortedSet.mem_ofList.1 ht)
        · cases hns
          exact hnames

/-- **A store that comes from a text can be written and read again.** -/
theorem readable_of_parse? {text : String} {store : Store} (h : parse? text = some store) :
    store.Readable := by
  have hlines : ReadLines ((Text.lines text).filter fun line => !Text.isBlankLine line) := by
    intro line hline
    rw [List.mem_filter] at hline
    exact ⟨by simpa using hline.2, Text.newline_notMem_of_mem_lines hline.1⟩
  rw [parse?] at h
  generalize (Text.lines text).filter (fun line => !Text.isBlankLine line) = lines at h hlines
  cases lines with
  | nil => cases h
  | cons line lines =>
    rw [parseLines?] at h
    split at h
    · next tests htests =>
      exact readable_of_parseFrom? (isTestName_of_parseWildcard? htests) hlines.tail h
    · exact readable_of_parseFrom? (fun t ht => absurd ht (SortedSet.not_mem_empty t)) hlines h

end Retest.Store

import Retest.Proofs.Store.Directory
import Retest.Proofs.Store.Text

/-!
# Stores that are saved again

A text that is read as a store need not have been written as one. It may hold blank
lines, carriage returns and any white space between its words, fingerprints in upper
case, several records for one dependency, numerals with a sign and leading zeros,
empty places between commas, and in the list of names any text that fits on a line, as
often as one likes. All this is gone once the store is saved: what was read is written
in one way only.

In the indexed encoding nothing that was read is lost on the way, whatever the text, and
from then on the text stays as it is (`Retest.Store.parse?_render_of_parse?`). The
encoding by names has no list of names, and it takes names apart at commas and white
space. So it keeps a store exactly if there is nothing to list and no such name, which
is the case for every text that is itself in this encoding.

Which of the two is used is not a matter of the text that was loaded. Where only a few
tests are left, an indexed text is saved by names, and then the list is gone and with it
every record that has a test with white space in its name.
-/

namespace Retest.Store

variable {text : String} {store : Store}

/-! ### The header of a text -/

/-- The header among the lines of a text: the first of them that is not about tests that may depend
on anything, of which there is one line at most. -/
def headerOf? : List String → Option String
  | [] => none
  | line :: lines => if (parseWildcard? line).isSome then lines.head? else some line

/-- **The encoding that the header of a text names.** -/
def encodingOf? (text : String) : Option StoreEncoding :=
  (headerOf? ((Text.lines text).filter fun line => !Text.isBlankLine line)).bind parseHeader?

/-- What follows the header is read in the encoding that the header names. -/
theorem exists_parseBody?_of_parse? (h : parse? text = some store) :
    ∃ wildcard encoding body, encodingOf? text = some encoding ∧
      parseBody? { wildcard := wildcard } encoding body = some store := by
  have hfrom : ∀ {wildcard : SortedSet UnitName} {lines : List String},
      parseFrom? { wildcard := wildcard } lines = some store →
        ∃ encoding body, lines.head?.bind parseHeader? = some encoding ∧
          parseBody? { wildcard := wildcard } encoding body = some store := by
    intro wildcard lines hlines
    cases lines with
    | nil => cases hlines
    | cons line lines =>
      obtain ⟨encoding, hheader, hbody⟩ := Option.bind_eq_some_iff.1 hlines
      exact ⟨encoding, lines, hheader, hbody⟩
  rw [parse?] at h
  rw [encodingOf?]
  generalize (Text.lines text).filter (fun line => !Text.isBlankLine line) = lines at h
  cases lines with
  | nil => cases h
  | cons line lines =>
    rw [parseLines?] at h
    cases hwildcard : parseWildcard? line with
    | some tests =>
      rw [hwildcard] at h
      obtain ⟨encoding, body, hheader, hbody⟩ := hfrom h
      exact ⟨tests, encoding, body, by rwa [headerOf?, hwildcard], hbody⟩
    | none =>
      rw [hwildcard] at h
      obtain ⟨encoding, body, hheader, hbody⟩ := hfrom h
      exact ⟨∅, encoding, body, by rwa [headerOf?, hwildcard], hbody⟩

theorem encodingOf?_render (h : store.Readable) (encoding : StoreEncoding) :
    encodingOf? (store.render encoding) = some encoding := by
  rw [encodingOf?, filter_lines_render h, lines_eq_headLines_append, headLines, List.append_assoc,
    List.cons_append]
  by_cases hempty : store.wildcard = ∅
  · simp [hempty, headerOf?, parseWildcard?_headerLine, parseHeader?_headerLine]
  · rw [if_neg (by simpa using hempty), List.singleton_append, headerOf?,
      parseWildcard?_wildcardLine hempty h.wildcard]
    exact parseHeader?_headerLine encoding

-- the header may come after blank lines, and its version may have a sign and leading zeros
example : encodingOf? "\n* -\t\n \r\n rts-store v+01\tindexed\r\n" = some .indexed := by
  decide +kernel

/-- **A text in the encoding by names** lists no tests, and names all others between commas. -/
theorem of_encodingOf?_eq_names (h : parse? text = some store)
    (hnames : encodingOf? text = some .names) :
    store.knownTests = ∅ ∧ ∀ t ∈ store.recordTests, IsTestName t := by
  obtain ⟨wildcard, encoding, body, hencoding, hbody⟩ := exists_parseBody?_of_parse? h
  obtain rfl : encoding = .names := Option.some.inj (hencoding.symm.trans hnames)
  obtain rfl : addRecords { wildcard := wildcard } none body = store := Option.some.inj hbody
  rw [addRecords_eq]
  refine ⟨rfl, fun t ht => ?_⟩
  obtain ⟨id, record, hget, ht⟩ := mem_recordTests.1 ht
  obtain ⟨line, -, hparse⟩ := List.mem_filterMap.1 (SortedMap.mem_of_get?_ofList hget)
  exact (of_parseRecord? hparse).2.2 t ht

/-! ### Writing once more -/

/-- The store with all tests of its records listed. -/
def withTestsListed (store : Store) : Store :=
  { store with knownTests := store.knownTests ∪ store.recordTests }

theorem nameList_withTestsListed (store : Store) :
    store.withTestsListed.nameList = store.nameList := by
  have hrecords : store.withTestsListed.recordTests = store.recordTests := rfl
  have hunion : store.knownTests ∪ store.recordTests ∪ store.recordTests =
      store.knownTests ∪ store.recordTests := by
    apply SortedSet.ext_mem
    intro t
    rw [SortedSet.mem_union, or_iff_left_of_imp fun ht => SortedSet.mem_union.2 (.inr ht)]
  rw [nameList, hrecords]
  exact congrArg SortedSet.toList hunion

/-- To list the tests of the records makes no difference to the indexed text. -/
theorem render_withTestsListed (store : Store) :
    store.withTestsListed.render .indexed = store.render .indexed := by
  simp only [render, lines, nameList_withTestsListed]
  rfl

theorem tests_withTestsListed (store : Store) : store.withTestsListed.tests = store.tests := by
  have hrecords : store.withTestsListed.recordTests = store.recordTests := rfl
  apply SortedSet.ext_mem
  intro t
  rw [tests, tests, hrecords]
  simp only [withTestsListed, SortedSet.mem_union]
  tauto

/-- A store that was read is kept by the indexed encoding. -/
theorem parse?_render_indexed (h : store.Readable) :
    parse? (store.render .indexed) = some store.withTestsListed :=
  parse?_render_eq h .indexed fun _ hnames => by cases hnames

/-- It is kept by the encoding by names exactly if this can name all its tests. -/
theorem parse?_render_names_iff (h : store.Readable) :
    parse? (store.render .names) = some store ↔
      store.knownTests = ∅ ∧ ∀ t ∈ store.recordTests, IsTestName t := by
  constructor
  · intro hparse
    exact of_encodingOf?_eq_names hparse (encodingOf?_render h .names)
  · rintro ⟨hknown, htests⟩
    rw [parse?_render_eq h .names fun hget _ t ht =>
      htests t (mem_recordTests.2 ⟨_, _, hget, ht⟩), listedIn, ← hknown]

/-- Saving succeeds unless there is a folder in the place of the file. -/
theorem exists_saveStore {d : StoreDirectory} {settings : Settings}
    (hfolder : d.entry? StoreDirectory.storeFile ≠ some .folder) :
    ∃ d', (StoreDirectory.saveStore store settings).run.run d = (.ok (), d') ∧
      d'.loadStore = parse? (store.render (settings.encodingFor store.tests.size)) :=
  ⟨_, StoreDirectory.write_eq_ok.2 ⟨hfolder, rfl⟩, StoreDirectory.loadStore_put_encode d _⟩

/-- **Loading and saving.** The directory has a store again, and which of its records are still
there depends on the encoding that is used. -/
theorem exists_resaved {d : StoreDirectory} {bytes : List UInt8} (settings : Settings)
    (h : parse? text = some store) (hread : d.read? StoreDirectory.storeFile = some bytes)
    (hdecode : Text.Utf8.decode? bytes = some text) :
    ∃ d' saved, d.loadStore = some store ∧
      (StoreDirectory.saveStore store settings).run.run d = (.ok (), d') ∧
      d'.loadStore = some saved ∧ saved.wildcard = store.wildcard ∧
      (settings.encodingFor store.tests.size = .indexed → saved = store.withTestsListed) ∧
      (settings.encodingFor store.tests.size = .names → saved.knownTests = ∅ ∧
        ∀ id, saved.records.get? id = (store.records.get? id).bind keptByNames?) := by
  have hreadable := readable_of_parse? h
  have hload : d.loadStore = some store := by
    simp [StoreDirectory.loadStore, hread, hdecode, h]
  have hfolder : d.entry? StoreDirectory.storeFile ≠ some .folder := fun he => by
    rw [StoreDirectory.read?, he] at hread
    cases hread
  obtain ⟨d', hrun, hload'⟩ := @exists_saveStore store d settings hfolder
  cases hchosen : settings.encodingFor store.tests.size with
  | indexed =>
    rw [hchosen, parse?_render_indexed hreadable] at hload'
    exact ⟨d', _, hload, hrun, hload', rfl, fun _ => rfl, fun hnames => by cases hnames⟩
  | names =>
    obtain ⟨saved, hsaved, hwildcard, hknown, hrecords⟩ := parse?_render hreadable .names
    rw [hchosen, hsaved] at hload'
    refine ⟨d', saved, hload, hrun, hload', hwildcard, fun hindexed => ?_,
      fun _ => ⟨hknown, fun id => ?_⟩⟩
    · cases hindexed
    · rw [hrecords]
      exact Option.bind_congr fun record hget => readBack?_names hreadable hget

/-- **Any text of a store is normalised in one step.** What was read from a text is read again once
it was written, in the indexed encoding with the tests of the records added to the list, and it is
written in just one way. A text in the encoding by names may also be written in that encoding, where
a store is kept exactly if it has no list of tests and no test whose name is taken apart.

So a directory still has all of its store after this was loaded and saved, if it was saved in the
indexed encoding or had been written by names. If an indexed text is saved by names then its list is
lost, and each record has its tests taken apart, or is lost as well. -/
theorem parse?_render_of_parse? (h : parse? text = some store) :
    parse? (store.render .indexed) =
        some { store with knownTests := store.knownTests ∪ store.recordTests } ∧
      { store with knownTests := store.knownTests ∪ store.recordTests }.render .indexed =
        store.render .indexed ∧
      (encodingOf? text = some .names → parse? (store.render .names) = some store) ∧
      (parse? (store.render .names) = some store ↔
        store.knownTests = ∅ ∧ ∀ t ∈ store.recordTests, IsTestName t) ∧
      ∀ (d : StoreDirectory) (settings : Settings) (bytes : List UInt8),
        d.read? StoreDirectory.storeFile = some bytes → Text.Utf8.decode? bytes = some text →
        ∃ d' saved, d.loadStore = some store ∧
          (StoreDirectory.saveStore store settings).run.run d = (.ok (), d') ∧
          d'.loadStore = some saved ∧ saved.wildcard = store.wildcard ∧
          (settings.encodingFor store.tests.size = .indexed →
            saved = { store with knownTests := store.knownTests ∪ store.recordTests }) ∧
          (settings.encodingFor store.tests.size = .names → saved.knownTests = ∅ ∧
            ∀ id, saved.records.get? id = (store.records.get? id).bind keptByNames?) ∧
          (settings.encodingFor store.tests.size = .indexed ∨ encodingOf? text = some .names →
            saved.records = store.records ∧ saved.tests = store.tests ∧
              ∀ t ∈ store.knownTests, t ∈ saved.knownTests) := by
  have hreadable := readable_of_parse? h
  have hnames : encodingOf? text = some .names → parse? (store.render .names) = some store :=
    fun henc => (parse?_render_names_iff hreadable).2 (of_encodingOf?_eq_names h henc)
  refine ⟨parse?_render_indexed hreadable, render_withTestsListed store, hnames,
    parse?_render_names_iff hreadable, fun d settings bytes hread hdecode => ?_⟩
  obtain ⟨d', saved, hload, hrun, hload', hwildcard, hindexed, hkept⟩ :=
    exists_resaved settings h hread hdecode
  refine ⟨d', saved, hload, hrun, hload', hwildcard, hindexed, hkept, fun henc => ?_⟩
  cases hchosen : settings.encodingFor store.tests.size with
  | indexed =>
    rw [hindexed hchosen]
    exact ⟨rfl, tests_withTestsListed store, fun t ht => SortedSet.mem_union.2 (.inl ht)⟩
  | names =>
    obtain ⟨hknown, htests⟩ := of_encodingOf?_eq_names h
      (henc.resolve_left (by rw [hchosen]; decide))
    obtain ⟨hempty, hget⟩ := hkept hchosen
    have hrecords : saved.records = store.records := by
      apply SortedMap.ext_get?
      intro id
      rw [hget]
      cases hrecord : store.records.get? id with
      | none => rfl
      | some record =>
        exact keptByNames?_eq_some fun t ht =>
          htests t (mem_recordTests.2 ⟨id, record, hrecord, ht⟩)
    obtain rfl : saved = store := by
      rw [← hempty] at hknown
      cases saved
      cases store
      simp_all
    exact ⟨rfl, rfl, fun t ht => ht⟩

/-- The text of a store as it may look after it was edited by hand. -/
def sampleEdited : String :=
  "\n * -\t,R,,R \r\n\r\nrts-store v+01  indexed\r\n +3\n  T 1,T \t\r\nU\n \nU\nA 0A 1,+00\nB\n" ++
    "A Bb 0,02,,2\r\nA#f() CC"

/-- What is read from it. -/
def sampleEditedStore : Store where
  wildcard := .ofList ["R"]
  records := .ofList [(.unit "A", ⟨⟨"bb"⟩, .ofList ["T 1,T", "U"]⟩),
    (.method ⟨"A", "f()"⟩, ⟨⟨"cc"⟩, ∅⟩)]
  knownTests := .ofList ["T 1,T", "U"]

/-- A text in the encoding by names. -/
def sampleEditedNames : String := "\trts-store v1 names \r\nA 0A U,,T,\r\nB\n"

/-- What is read from this one. -/
def sampleEditedNamesStore : Store where
  records := .ofList [(.unit "A", ⟨⟨"0a"⟩, .ofList ["T", "U"]⟩)]

/-- A directory with nothing but the text of a store in it. -/
def sampleDirectory (text : String) : StoreDirectory :=
  ⟨"store", some (.ofList [(StoreDirectory.storeFile, .file (Text.Utf8.encode text))])⟩

theorem read?_sampleDirectory (text : String) :
    (sampleDirectory text).read? StoreDirectory.storeFile = some (Text.Utf8.encode text) := by
  simp [sampleDirectory, StoreDirectory.read?, StoreDirectory.entry?, SortedMap.get?_ofList,
    SortedMap.lastValue?]

theorem parse?_render_sampleEdited :
    parse? sampleEdited = some sampleEditedStore ∧
      parse? (sampleEditedStore.render .indexed) = some sampleEditedStore ∧
      parse? (sampleEditedStore.render .names) ≠ some sampleEditedStore ∧
      parse? sampleEditedNames = some sampleEditedNamesStore ∧
      parse? (sampleEditedNamesStore.render .names) = some sampleEditedNamesStore ∧
      ∃ d saved, (StoreDirectory.saveStore sampleEditedNamesStore {}).run.run
          (sampleDirectory sampleEditedNames) = (.ok (), d) ∧
        d.loadStore = some saved ∧ saved.records = sampleEditedNamesStore.records := by
  have hedited : parse? sampleEdited = some sampleEditedStore := by decide +kernel
  have hnames : parse? sampleEditedNames = some sampleEditedNamesStore := by decide +kernel
  have hencoding : encodingOf? sampleEditedNames = some .names := by decide +kernel
  have hlisted : { sampleEditedStore with
      knownTests := sampleEditedStore.knownTests ∪ sampleEditedStore.recordTests } =
        sampleEditedStore := by decide +kernel
  obtain ⟨hindexed, -, -, hkept, -⟩ := parse?_render_of_parse? hedited
  obtain ⟨-, -, hagain, -, hsave⟩ := parse?_render_of_parse? hnames
  obtain ⟨d, saved, -, hrun, hload, -, -, -, hall⟩ := hsave (sampleDirectory sampleEditedNames) {}
    _ (read?_sampleDirectory _) (Text.Utf8.decode?_encode _)
  refine ⟨hedited, hindexed.trans (congrArg some hlisted), fun h => ?_, hnames, hagain hencoding,
    d, saved, hrun, hload, (hall (.inr hencoding)).1⟩
  -- there are names in the list, and one of them has a blank and a comma in it
  exact absurd (hkept.1 h).1 (by decide +kernel)

/-- An indexed text with two tests in its list, one of them with a blank in its name. -/
def sampleListed : String := "rts-store v1 indexed\n2\nT 1\nU\nA 0a 0\n"

/-- What is read from it. -/
def sampleListedStore : Store where
  records := .ofList [(.unit "A", ⟨⟨"0a"⟩, .ofList ["T 1"]⟩)]
  knownTests := .ofList ["T 1", "U"]

/-- Once it was loaded and saved with the default settings, there is no record left and no test. -/
theorem exists_resaved_sampleListed :
    ∃ d saved, (sampleDirectory sampleListed).loadStore = some sampleListedStore ∧
      (StoreDirectory.saveStore sampleListedStore {}).run.run (sampleDirectory sampleListed) =
        (.ok (), d) ∧
      d.loadStore = some saved ∧ (sampleListedStore.records.get? (.unit "A")).isSome ∧
      saved.records.get? (.unit "A") = none ∧ "U" ∈ sampleListedStore.knownTests ∧
      saved.knownTests = ∅ := by
  have hparse : parse? sampleListed = some sampleListedStore := by decide +kernel
  obtain ⟨d, saved, hload, hrun, hload', -, -, hkept⟩ := exists_resaved {} hparse
    (read?_sampleDirectory _) (Text.Utf8.decode?_encode _)
  obtain ⟨hknown, hget⟩ := hkept (by decide +kernel)
  refine ⟨d, saved, hload, hrun, hload', by decide +kernel, ?_, by decide +kernel, hknown⟩
  rw [hget]
  decide +kernel

end Retest.Store

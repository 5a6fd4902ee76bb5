import Retest.Proofs.Store.Tolerance

/-!
# A store whose record lines are damaged

If the record lines of a store are damaged, what is read is a part of the store that
was written (`Retest.Store.Keeps`). A record is read from its own line, as long as this
line remains, and nothing else is read (`Retest.Store.get?_of_remains`). The head of
the text is as it was: the tests that it lists are known, and so are those that may
depend on anything.

It does not matter what became of a line. It may have been replaced by one that is no
record, or be gone, and lines may stand in another order or more than once
(`Retest.Store.Remains`). One way to damage a line is to cut it off after its first
word (`Retest.Store.cutLines`).
-/

namespace Retest.Store

variable {store : Store} {encoding : StoreEncoding} {body : List String} {id : Dependency}
  {record : StoreRecord}

/-- **What remains of some lines**: lines that stood there, and lines that are no records. -/
def Remains (names : Option (List UnitName)) (lines body : List String) : Prop :=
  ∀ line ∈ body, line ∈ lines ∨ IsJunk names line

/-- The line of a record. -/
def lineFor (store : Store) (encoding : StoreEncoding) (id : Dependency) (record : StoreRecord) :
    String :=
  recordLine (store.namesIn encoding) id record

theorem lineFor_mem_recordLines (hget : store.records.get? id = some record) :
    store.lineFor encoding id record ∈ store.recordLines (store.namesIn encoding) :=
  List.mem_map.2 ⟨(id, record), SortedMap.get?_eq_some_iff.1 hget, rfl⟩

/-- A line that was written is read as a record. -/
theorem readLine?_of_mem (h : store.Readable) {line : String}
    (hline : line ∈ store.recordLines (store.namesIn encoding)) :
    readLine? (store.namesIn encoding) line = parseRecord? (store.namesIn encoding) line := by
  rw [readLine?, (isLine_recordLine h _ hline).isBlankLine]
  rfl

/-- **A record is read from its own line** if that remains, and from no other. -/
theorem get?_of_remains (h : store.Readable)
    (hbody : Remains (store.namesIn encoding) (store.recordLines (store.namesIn encoding)) body)
    (id : Dependency) :
    (SortedMap.ofList (body.filterMap (readLine? (store.namesIn encoding)))).get? id =
      (store.records.get? id).bind fun record =>
        if store.lineFor encoding id record ∈ body then store.readBack? encoding id record
        else none := by
  have hread : ∀ read, (id, read) ∈ body.filterMap (readLine? (store.namesIn encoding)) ↔
      ((store.records.get? id).bind fun record =>
        if store.lineFor encoding id record ∈ body then store.readBack? encoding id record
        else none) = some read := by
    intro read
    rw [List.mem_filterMap, Option.bind_eq_some_iff]
    constructor
    · rintro ⟨line, hline, hparse⟩
      rcases hbody line hline with hold | hjunk
      · rw [readLine?_of_mem h hold] at hparse
        obtain ⟨⟨id', record⟩, hentry, rfl⟩ := List.mem_map.1 hold
        have hget := SortedMap.get?_eq_some_iff.2 hentry
        obtain rfl := eq_of_parseRecord?_recordLineWith (h.readsBack hget) (h.isHex hget) hparse
        refine ⟨record, hget, ?_⟩
        rw [lineFor, if_pos hline, readBack?, hparse]
        rfl
      · cases hjunk.readLine?_eq.symm.trans hparse
    · rintro ⟨record, hget, hback⟩
      split at hback
      · next hline =>
        obtain ⟨⟨id', _⟩, hparse, rfl⟩ := Option.map_eq_some_iff.1 hback
        obtain rfl := eq_of_parseRecord?_recordLineWith (h.readsBack hget) (h.isHex hget) hparse
        exact ⟨_, hline, (readLine?_of_mem h (lineFor_mem_recordLines hget)).trans hparse⟩
      · cases hback
  rw [SortedMap.get?_ofList]
  exact SortedMap.lastValue?_eq_of_mem_iff hread

/-- **A part of a store is left**: some of its records, and all else. -/
structure Keeps (store left : Store) : Prop where
  wildcard : left.wildcard = store.wildcard
  knownTests : left.knownTests = store.knownTests
  records : ∀ {id record}, left.records.get? id = some record → store.records.get? id = some record

/-- **A damaged store is read in part.** -/
theorem exists_left (h : store.Readable)
    (hbody : Remains (store.namesIn encoding) (store.recordLines (store.namesIn encoding)) body) :
    ∃ loaded left, parse? (store.render encoding) = some loaded ∧
      parse? (closeLines (store.headLines encoding ++ body)) = some left ∧ loaded.Keeps left ∧
      ∀ id record, store.records.get? id = some record → left.records.get? id =
        if store.lineFor encoding id record ∈ body then loaded.records.get? id else none := by
  obtain ⟨loaded, hloaded, hwildcard, hknown, hrecords⟩ := parse?_render h encoding
  have hfeed : ∀ line ∈ body, '\n' ∉ line.toList := by
    intro line hline
    rcases hbody line hline with hold | hjunk
    · exact (isLine_recordLine h _ hold).2.1
    · exact hjunk.oneLine
  refine ⟨loaded, _, hloaded, parse?_headLines_append h hfeed,
    ⟨hwildcard.symm, hknown.symm, ?_⟩, ?_⟩
  · intro id record hget
    rw [get?_of_remains h hbody] at hget
    obtain ⟨record', hget', hback⟩ := Option.bind_eq_some_iff.1 hget
    rw [hrecords, hget']
    split at hback
    · exact hback
    · cases hback
  · intro id record hget
    rw [get?_of_remains h hbody, hrecords, hget]
    rfl

/-! ### Lines that are cut off -/

/-- The record lines, where that of one dependency is cut off after its first word. -/
def cutLines (store : Store) (encoding : StoreEncoding) (cut : Dependency) : List String :=
  store.records.entries.map fun e =>
    if e.1 = cut then e.1.text else store.lineFor encoding e.1 e.2

/-- All lines but the one remain. -/
theorem remains_cutLines (h : store.Readable) (encoding : StoreEncoding) (cut : Dependency) :
    Remains (store.namesIn encoding) (store.recordLines (store.namesIn encoding))
      (store.cutLines encoding cut) := by
  intro line hline
  obtain ⟨⟨id, record⟩, hentry, rfl⟩ := List.mem_map.1 hline
  have hget := SortedMap.get?_eq_some_iff.2 hentry
  have hword := (h.readsBack hget).isWord
  dsimp only
  split
  · refine .inr ⟨hword.isLine.2.1, .inr ?_⟩
    rw [parseRecord?, Text.words_eq_singleton hword]
  · exact .inl (lineFor_mem_recordLines hget)

/-- The line of a record remains unless it is the one that is cut off. -/
theorem lineFor_mem_cutLines (h : store.Readable) {cut : Dependency}
    (hget : store.records.get? id = some record) :
    store.lineFor encoding id record ∈ store.cutLines encoding cut ↔ id ≠ cut := by
  have hwords : ∀ {id record}, store.records.get? id = some record → ∃ rest,
      Text.words (store.lineFor encoding id record) = id.text :: record.fingerprint.text :: rest :=
    fun hget => ⟨_, words_recordLineWith (h.readsBack hget) (h.isHex hget) _⟩
  obtain ⟨rest, hline⟩ := hwords hget
  constructor
  · rintro hmem rfl
    obtain ⟨⟨id', record'⟩, hentry, heq⟩ := List.mem_map.1 hmem
    have hget' := SortedMap.get?_eq_some_iff.2 hentry
    rw [← heq] at hline
    dsimp only at hline
    split at hline
    · -- what was cut off has one word only
      rw [Text.words_eq_singleton (h.readsBack hget').isWord] at hline
      cases (List.cons.inj hline).2
    · next hne =>
      obtain ⟨rest', hline'⟩ := hwords hget'
      have hback : Dependency.parse? id'.text = some id := by
        rw [(List.cons.inj (hline'.symm.trans hline)).1]
        exact h.readsBack hget
      exact hne (Option.some.inj ((h.readsBack hget').symm.trans hback))
  · intro hne
    refine List.mem_map.2 ⟨(id, record), SortedMap.get?_eq_some_iff.1 hget, ?_⟩
    rw [if_neg hne]

example : sampleStore.cutLines .names (.unit "shop.Cart") =
    ["shop.Cart", "shop.Cart#total()I 1b shop.CartTest", "shop.Cart.count:I 2c"] := by
  decide +kernel

end Retest.Store

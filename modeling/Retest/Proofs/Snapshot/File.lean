import Mathlib.Data.List.Nodup
import Retest.Proofs.Json.Written
import Retest.Proofs.Sorted
import Retest.Proofs.Store.Directory

/-!
# Snapshots are kept

A snapshot is read back from the line that is written for it
(`Retest.Snapshot.parse?_write`), and the snapshots of a directory are read back
from their file (`Retest.StoreDirectory.parseSnapshots_textLines`). Each snapshot
stands on a line of its own, since a written string has no line feed in it, and
each line ends with a brace, so no carriage return is lost either. What is saved is
loaded (`Retest.StoreDirectory.loadSnapshots_saveSnapshots`), for snapshots with any
texts in them.
-/

namespace Retest

namespace Json

/-! ### Reading the parts of a record -/

theorem mapM_map_eq_some {α β : Type} {write : α → β} {read : β → Option α} {xs : List α}
    (h : ∀ x ∈ xs, read (write x) = some x) : (xs.map write).mapM read = some xs := by
  induction xs with
  | nil => rfl
  | cons x xs ih =>
    simp [h x List.mem_cons_self, ih fun y hy => h y (List.mem_cons_of_mem _ hy)]

/-- The strings of a list of texts. -/
def strings (texts : List String) : Json := array (texts.map fun s => string (some s))

theorem written_strings (texts : List String) :
    Written (writeArray (texts.map writeString)) (strings texts) :=
  written_array fun s _ => written_string s

theorem list?_strings (texts : List String) : (strings texts).list? text? = some texts :=
  mapM_map_eq_some fun _ _ => rfl

theorem set?_strings (set : SortedSet String) : (strings set.toList).set? = some set := by
  rw [set?, list?_strings, Option.map_some, SortedSet.ofList_toList]

/-- An object with a value for each key of a map. -/
def mapping {β : Type} (value : β → Json) (m : SortedMap String β) : Json :=
  object (m.entries.map fun e => (some e.1, value e.2))

theorem written_mapping {β : Type} {write : β → List Char} {value : β → Json}
    (h : ∀ b, Written (write b) (value b)) (m : SortedMap String β) :
    Written (writeObject (m.entries.map fun e => (e.1, write e.2))) (mapping value m) :=
  written_object fun e _ => h e.2

theorem map?_mapping {β : Type} {read : Json → Option β} {value : β → Json}
    (h : ∀ b, read (value b) = some b) (m : SortedMap String β) :
    (mapping value m).map? read = some m := by
  have hmembers : (m.entries.map fun e => (some e.1, value e.2)).mapM (member? read) =
      some m.entries := mapM_map_eq_some fun e _ => by simp [member?, h]
  rw [mapping, map?, hmembers, Option.map_some, SortedMap.ofList_entries]

/-- An object with the fields of a record. -/
def fields (members : List (String × Json)) : Json := object (members.map fun m => (some m.1, m.2))

theorem written_fields {members : List (String × List Char × Json)}
    (h : ∀ m ∈ members, Written m.2.1 m.2.2) :
    Written (writeObject (members.map fun m => (m.1, m.2.1)))
      (fields (members.map fun m => (m.1, m.2.2))) := by
  rw [fields, List.map_map]
  exact written_object h

theorem membersNamed_cons (name : String) (m : String × Json) (members : List (String × Json)) :
    membersNamed name ((m :: members).map fun m => (some m.1, m.2)) =
      (if m.1 = name then [m.2] else []) ++
        membersNamed name (members.map fun m => (some m.1, m.2)) := by
  by_cases h : m.1 = name <;> simp [membersNamed, h]

theorem membersNamed_eq_nil {name : String} {members : List (String × Json)}
    (h : name ∉ members.map (·.1)) :
    membersNamed name (members.map fun m => (some m.1, m.2)) = [] := by
  induction members with
  | nil => rfl
  | cons m members ih =>
    rw [List.map_cons, List.mem_cons, not_or] at h
    rw [membersNamed_cons, if_neg (Ne.symm h.1), ih h.2, List.nil_append]

theorem membersNamed_eq_singleton {m : String × Json} {members : List (String × Json)}
    (h : (members.map (·.1)).Nodup) (hm : m ∈ members) :
    membersNamed m.1 (members.map fun m => (some m.1, m.2)) = [m.2] := by
  induction members with
  | nil => cases hm
  | cons d members ih =>
    rw [List.map_cons, List.nodup_cons] at h
    rw [membersNamed_cons]
    rcases List.mem_cons.1 hm with rfl | hm
    · rw [if_pos rfl, membersNamed_eq_nil h.1, List.append_nil]
    · have hne : d.1 ≠ m.1 := fun he => h.1 (by rw [he]; exact List.mem_map_of_mem hm)
      rw [if_neg hne, ih h.2 hm, List.nil_append]

/-- **The fields of a record are read from their object**, if no two have the same name. -/
theorem record?_fields {members : List (String × Json)} (h : (members.map (·.1)).Nodup) :
    (fields members).record? (members.map (·.1)) = some ⟨false, members.map fun m => some m.2⟩ := by
  have hone : ((members.map (·.1)).all fun name =>
      (membersNamed name (members.map fun m => (some m.1, m.2))).length ≤ 1) = true := by
    simp only [List.all_map, List.all_eq_true]
    intro m hm
    simp [membersNamed_eq_singleton h hm]
  rw [fields, record?, if_pos (by rw [hone]; simp), List.map_map]
  congr 2
  exact List.map_congr_left fun m hm => by simp [membersNamed_eq_singleton h hm]

end Json

namespace MethodHeader

/-- The fields of a header, as they are written and as values. -/
def members (header : MethodHeader) : List (String × List Char × Json) :=
  [("access", Json.writeNatural header.access.toNat, .natural header.access.toNat),
    ("exceptions", Json.writeArray (header.exceptions.map Json.writeString),
      .strings header.exceptions)]

/-- The value that is written for a header. -/
def toJson (header : MethodHeader) : Json := .fields (header.members.map fun m => (m.1, m.2.2))

theorem written (header : MethodHeader) : Json.Written header.write header.toJson := by
  have hmembers : ∀ m ∈ header.members, Json.Written m.2.1 m.2.2 := by
    simp only [members, List.forall_mem_cons]
    exact ⟨Json.written_natural _, Json.written_strings _, by simp⟩
  have h := Json.written_fields hmembers
  exact h

theorem ofJson?_toJson (header : MethodHeader) : ofJson? header.toJson = some header := by
  have hrecord : header.toJson.record? fieldNames = _ := Json.record?_fields (by
    show fieldNames.Nodup
    decide)
  have haccess : header.access.toNat < UInt16.size := header.access.toNat_lt
  rw [ofJson?, hrecord]
  simp only [members, List.map_cons, List.map_nil, Json.required?, Json.naturalBelow?,
    Option.pure_def, Option.bind_eq_bind, Option.bind_some, haccess, ↓reduceIte, Json.list?_strings,
    UInt16.ofNat_toNat]

end MethodHeader

namespace Snapshot

/-! ### One snapshot -/

/-- The value that is written for fingerprints. -/
def fingerprintsJson (m : SortedMap String Fingerprint) : Json :=
  .mapping (fun f => .string (some f.text)) m

theorem written_fingerprints (m : SortedMap String Fingerprint) :
    Json.Written (writeFingerprints m) (fingerprintsJson m) := by
  have hwritten : ∀ f : Fingerprint, Json.Written ((fun f => Json.writeString f.text) f)
      ((fun f : Fingerprint => .string (some f.text)) f) := fun f => Json.written_string f.text
  have h := Json.written_mapping hwritten m
  exact h

theorem fingerprintsOfJson?_fingerprintsJson (m : SortedMap String Fingerprint) :
    fingerprintsOfJson? (fingerprintsJson m) = some m :=
  Json.map?_mapping (fun _ => rfl : ∀ f : Fingerprint, fingerprintOfJson? _ = some f) m

theorem written_superName (superName : Option UnitName) :
    Json.Written (superName.elim "null".toList Json.writeString)
      (superName.elim .null fun u => .string (some u)) := by
  cases superName with
  | none => exact Json.written_null
  | some u => exact Json.written_string u

theorem nullable?_superName (superName : Option UnitName) :
    Json.nullable? Json.text? (superName.elim .null fun u => .string (some u)) =
      some superName := by
  cases superName <;> rfl

/-- The fields of a snapshot, as they are written and as values. -/
def members (s : Snapshot) : List (String × List Char × Json) :=
  [("name", Json.writeString s.name, .string (some s.name)),
    ("raw_crc", Json.writeNatural s.crc.toNat, .natural s.crc.toNat),
    ("class", Json.writeString s.whole.text, .string (some s.whole.text)),
    ("header", Json.writeString s.header.text, .string (some s.header.text)),
    ("super_name", s.superName.elim "null".toList Json.writeString,
      s.superName.elim .null fun u => .string (some u)),
    ("interfaces", writeSet s.interfaces, .strings s.interfaces.toList),
    ("fields", writeSet s.declarations, .strings s.declarations.toList),
    ("field_fingerprints", writeFingerprints s.fields, fingerprintsJson s.fields),
    ("constructors", writeFingerprints s.constructors, fingerprintsJson s.constructors),
    ("instance_methods", writeFingerprints s.instanceMethods, fingerprintsJson s.instanceMethods),
    ("static_methods", writeFingerprints s.staticMethods, fingerprintsJson s.staticMethods),
    ("method_headers", Json.writeObject (s.methodHeaders.entries.map fun e => (e.1, e.2.write)),
      .mapping MethodHeader.toJson s.methodHeaders)]

/-- The value that is written for a snapshot. -/
def toJson (s : Snapshot) : Json := .fields (s.members.map fun m => (m.1, m.2.2))

theorem written_members (s : Snapshot) : ∀ m ∈ s.members, Json.Written m.2.1 m.2.2 := by
  have hheaders := Json.written_mapping MethodHeader.written s.methodHeaders
  simp only [members, List.forall_mem_cons]
  exact ⟨Json.written_string _, Json.written_natural _, Json.written_string _,
    Json.written_string _, written_superName _, Json.written_strings _, Json.written_strings _,
    written_fingerprints _, written_fingerprints _, written_fingerprints _,
    written_fingerprints _, hheaders, by simp⟩

theorem written (s : Snapshot) : Json.Written s.write s.toJson := by
  have h := Json.written_fields s.written_members
  exact h

theorem ofJson?_toJson (s : Snapshot) : ofJson? s.toJson = some s := by
  have hrecord : s.toJson.record? fieldNames = _ := Json.record?_fields (by
    show fieldNames.Nodup
    decide)
  have hcrc : Json.naturalBelow? UInt32.size (.natural s.crc.toNat) = some s.crc.toNat :=
    if_pos s.crc.toNat_lt
  have hheaders := Json.map?_mapping MethodHeader.ofJson?_toJson s.methodHeaders
  -- field after field, in the order in which they are read
  rw [ofJson?]
  refine Option.bind_eq_some_iff.2 ⟨_, hrecord, ?_⟩
  refine Option.bind_eq_some_iff.2 ⟨s.name, rfl, ?_⟩
  refine Option.bind_eq_some_iff.2 ⟨s.crc.toNat, hcrc, ?_⟩
  refine Option.bind_eq_some_iff.2 ⟨s.whole, rfl, ?_⟩
  refine Option.bind_eq_some_iff.2 ⟨s.header, rfl, ?_⟩
  refine Option.bind_eq_some_iff.2 ⟨s.superName, nullable?_superName _, ?_⟩
  refine Option.bind_eq_some_iff.2 ⟨s.interfaces, Json.set?_strings _, ?_⟩
  refine Option.bind_eq_some_iff.2 ⟨s.declarations, Json.set?_strings _, ?_⟩
  refine Option.bind_eq_some_iff.2 ⟨s.fields, fingerprintsOfJson?_fingerprintsJson _, ?_⟩
  refine Option.bind_eq_some_iff.2 ⟨s.constructors, fingerprintsOfJson?_fingerprintsJson _, ?_⟩
  refine Option.bind_eq_some_iff.2 ⟨s.instanceMethods, fingerprintsOfJson?_fingerprintsJson _, ?_⟩
  refine Option.bind_eq_some_iff.2 ⟨s.staticMethods, fingerprintsOfJson?_fingerprintsJson _, ?_⟩
  refine Option.bind_eq_some_iff.2 ⟨s.methodHeaders, hheaders, ?_⟩
  rw [UInt32.ofNat_toNat]
  rfl

/-- **A snapshot is read back from what is written for it.** -/
theorem parse?_write (s : Snapshot) : parse? (.ofList s.write) = some s := by
  simp [parse?, s.written.parse?, ofJson?_toJson]

end Snapshot

namespace StoreDirectory

/-! ### The file -/

theorem isSnapshotHeader_snapshotHeader : isSnapshotHeader (.ofList snapshotHeader) = true := by
  decide +kernel

theorem getLast?_writeObject (members : List (String × List Char)) :
    (Json.writeObject members).getLast? = some '\x7d' := List.getLast?_concat

/-- Each snapshot stands on one line, which a brace ends. -/
theorem closed_of_mem_lines {snapshots : List Snapshot} {line : List Char}
    (h : line ∈ snapshotHeader :: snapshots.map Snapshot.write) :
    '\n' ∉ line ∧ line.getLast? = some '\x7d' := by
  rcases List.mem_cons.1 h with rfl | h
  · decide +kernel
  · obtain ⟨s, -, rfl⟩ := List.mem_map.1 h
    exact ⟨s.written.oneLine, getLast?_writeObject _⟩

/-- **Lines of text that line feeds close are the lines of their octets.** -/
theorem textLines_encode {lines : List (List Char)} (hlf : ∀ l ∈ lines, '\n' ∉ l)
    (hlast : ∀ l ∈ lines, l.getLast? = some '\x7d') :
    textLines (Text.Utf8.encode (.ofList (lines.flatMap (· ++ ['\n'])))) = lines.map .ofList := by
  have hencode : Text.Utf8.encode (.ofList (lines.flatMap (· ++ ['\n']))) =
      (lines.map (·.flatMap String.utf8EncodeChar)).flatMap (· ++ [10]) := by
    have hnewline : String.utf8EncodeChar '\n' = [10] := by decide
    rw [Text.Utf8.encode, String.toList_ofList, List.flatMap_assoc, List.flatMap_map]
    simp [List.flatMap_append, hnewline]
  have hparts : Text.linesOf 10 13
      ((lines.map (·.flatMap String.utf8EncodeChar)).flatMap (· ++ [10])) =
      lines.map (·.flatMap String.utf8EncodeChar) := by
    apply Text.linesOf_flatMap_closed
    · -- the octet of a line feed is part of no other character
      intro part hpart h10
      obtain ⟨l, hl, rfl⟩ := List.mem_map.1 hpart
      exact hlf l hl (Text.Utf8.mem_of_octet_mem (by decide) h10)
    · -- a line ends in a brace, so it has no carriage return to lose
      intro part hpart
      obtain ⟨l, hl, rfl⟩ := List.mem_map.1 hpart
      obtain ⟨front, rfl⟩ := List.getLast?_eq_some_iff.1 (hlast l hl)
      have hbrace : String.utf8EncodeChar '\x7d' = [125] := by decide
      rw [List.flatMap_append, List.flatMap_singleton, hbrace, List.getLast?_concat]
      decide
  have hdecode : (lines.map (·.flatMap String.utf8EncodeChar)).map Text.Utf8.decode? =
      (lines.map .ofList).map some := by
    rw [List.map_map, List.map_map]
    refine List.map_congr_left fun l _ => ?_
    have := Text.Utf8.decode?_encode (.ofList l)
    rwa [Text.Utf8.encode, String.toList_ofList] at this
  have hall : ((lines.map String.ofList).map some).takeWhile Option.isSome =
      (lines.map String.ofList).map some := by
    rw [List.takeWhile_eq_self_iff]
    simp
  rw [textLines, hencode, hparts, hdecode, hall, List.filterMap_map]
  exact List.filterMap_some

/-- The lines of the file: the header, and one line for each snapshot. -/
theorem textLines_renderSnapshots (snapshots : List Snapshot) :
    textLines (Text.Utf8.encode (renderSnapshots snapshots)) =
      .ofList snapshotHeader :: snapshots.map fun s => .ofList s.write := by
  rw [renderSnapshots, textLines_encode (fun l hl => (closed_of_mem_lines hl).1)
    fun l hl => (closed_of_mem_lines hl).2, List.map_cons, List.map_map]
  rfl

/-- **The snapshots of a directory are read back from their file.** -/
theorem parseSnapshots_textLines (snapshots : List Snapshot) :
    parseSnapshots (textLines (Text.Utf8.encode (renderSnapshots snapshots))) =
      indexSnapshots snapshots := by
  have hread : (snapshots.map fun s => String.ofList s.write).filterMap Snapshot.parse? =
      snapshots := by
    have hparse : (Snapshot.parse? ∘ fun s => String.ofList s.write) = some :=
      funext Snapshot.parse?_write
    rw [List.filterMap_map, hparse, List.filterMap_some]
  rw [textLines_renderSnapshots, parseSnapshots, if_pos isSnapshotHeader_snapshotHeader, hread]

/-- Of snapshots with different names each is found under its own. -/
theorem get?_indexSnapshots {snapshots : List Snapshot}
    (hnames : (snapshots.map Snapshot.name).Nodup) {name : UnitName} {s : Snapshot} :
    (indexSnapshots snapshots).get? name = some s ↔ s ∈ snapshots ∧ s.name = name := by
  have hentry : ∀ t, (name, t) ∈ snapshots.map (fun s => (s.name, s)) ↔
      t ∈ snapshots ∧ t.name = name := by
    intro t
    rw [List.mem_map]
    constructor
    · rintro ⟨u, hu, heq⟩
      obtain ⟨rfl, rfl⟩ := Prod.mk.inj heq
      exact ⟨hu, rfl⟩
    · rintro ⟨ht, rfl⟩
      exact ⟨t, ht, rfl⟩
  rw [indexSnapshots, SortedMap.get?_ofList_eq_some_iff, hentry]
  intro t u ht hu
  obtain ⟨ht, htname⟩ := (hentry t).1 ht
  obtain ⟨hu, huname⟩ := (hentry u).1 hu
  exact List.inj_on_of_nodup_map hnames hu ht (huname.trans htname.symm)

/-- **What was saved is loaded.** The file has a header and then each snapshot on a line of its own,
from which it is read back whatever its texts hold. Read as a whole, the file gives the map in which
each of the snapshots stands under its name, and nothing else. So a directory has just these
snapshots after they were saved, which fails only if there is a folder in the place of the file. -/
theorem loadSnapshots_saveSnapshots {snapshots : List Snapshot}
    (hnames : (snapshots.map Snapshot.name).Nodup) :
    textLines (Text.Utf8.encode (renderSnapshots snapshots)) =
        .ofList snapshotHeader :: (snapshots.map fun s => .ofList s.write) ∧
      (∀ s ∈ snapshots, Snapshot.parse? (.ofList s.write) = some s) ∧
      (∀ name s, (parseSnapshots (textLines (Text.Utf8.encode (renderSnapshots snapshots)))).get?
        name = some s ↔ s ∈ snapshots ∧ s.name = name) ∧
      ∀ d : StoreDirectory, d.entry? snapshotFile ≠ some .folder →
        ∃ d', (saveSnapshots snapshots).run.run d = (.ok (), d') ∧
          d'.read? snapshotFile = some (Text.Utf8.encode (renderSnapshots snapshots)) ∧
          ∀ name s, d'.loadSnapshots.get? name = some s ↔ s ∈ snapshots ∧ s.name = name := by
  refine ⟨textLines_renderSnapshots snapshots, fun s _ => s.parse?_write, fun name s => ?_,
    fun d hfolder => ⟨_, write_eq_ok.2 ⟨hfolder, rfl⟩, ?_, fun name s => ?_⟩⟩
  · rw [parseSnapshots_textLines, get?_indexSnapshots hnames]
  · simp [read?, entry?_put]
  · rw [loadSnapshots_put_encode, parseSnapshots_textLines, get?_indexSnapshots hnames]

/-- A snapshot with texts that would end a string, a line or an object. -/
def sampleOddSnapshot : Snapshot where
  name := "shop.\"Cart\\\n\r "
  crc := 0xFFFFFFFF
  whole := ⟨"\x00\x1f\x7f"⟩
  header := ⟨""⟩
  superName := some "null"
  interfaces := .ofList ["", "\x7d,\x7b", "été 𝄞"]
  declarations := .ofList ["name:Ljava/lang/String;=\"\t\""]
  fields := .ofList [("name:Ljava/lang/String;", ⟨"\\u00e9"⟩)]
  constructors := .ofList [("<init>()V", ⟨"0a"⟩), ("<init>(I)V", ⟨"0a"⟩)]
  instanceMethods := ∅
  staticMethods := .ofList [("\n", ⟨"1b"⟩)]
  methodHeaders := .ofList [("\n", ⟨0xFFFF, ["java.io.IOException", "java.io.IOException"]⟩)]

theorem loadSnapshots_sampleOddSnapshot :
    ∃ d, (saveSnapshots [{ sampleOddSnapshot with name := "", superName := none },
        sampleOddSnapshot]).run.run ⟨"store", none⟩ = (.ok (), d) ∧
      d.loadSnapshots.get? "shop.\"Cart\\\n\r " = some sampleOddSnapshot ∧
      d.loadSnapshots.get? "" = some { sampleOddSnapshot with name := "", superName := none } ∧
      d.loadSnapshots.get? "shop.Cart" = none := by
  have hnames : ([{ sampleOddSnapshot with name := "", superName := none },
      sampleOddSnapshot].map Snapshot.name).Nodup := by decide
  obtain ⟨-, -, -, hsave⟩ := loadSnapshots_saveSnapshots hnames
  obtain ⟨d, hrun, -, hget⟩ := hsave ⟨"store", none⟩ (by decide)
  refine ⟨d, hrun, (hget _ _).2 ⟨by simp, rfl⟩, (hget _ _).2 ⟨by simp, rfl⟩, ?_⟩
  refine Option.eq_none_iff_forall_ne_some.2 fun s hs => ?_
  obtain ⟨hmem, hname⟩ := (hget _ _).1 hs
  simp only [List.mem_cons, List.not_mem_nil, or_false] at hmem
  obtain rfl | rfl := hmem
  · exact absurd hname (by decide)
  · exact absurd hname (by decide)

end StoreDirectory

end Retest

import Retest.Proofs.Text.Utf8
import Retest.Store.Directory

/-!
# Files of a store

What writing a file does to the directory of a store, and what is read from it
afterwards. Steps that change the directory are run one after the other
(`Retest.Storing.run_bind`); writing succeeds unless there is a folder in the place
of the file (`Retest.StoreDirectory.write_eq_ok`), and what was written is then found
there, all other files being as they were (`Retest.StoreDirectory.entry?_put`).
-/

namespace Retest

/-! ### Steps -/

namespace Storing

variable {α β : Type} {x : Storing α} {f : α → Storing β} {d d' : StoreDirectory}

theorem run_bind (x : Storing α) (f : α → Storing β) (d : StoreDirectory) :
    (x >>= f).run.run d = match x.run.run d with
      | (.ok a, d₁) => (f a).run.run d₁
      | (.error e, d₁) => (.error e, d₁) := by
  simp only [ExceptT.run_bind, StateT.run_bind]
  cases x.run.run d with
  | mk result d₁ => cases result <;> rfl

/-- A step that succeeds hands over to the next. -/
theorem run_bind_of_ok {a : α} {d₁ : StoreDirectory} (h : x.run.run d = (.ok a, d₁)) :
    (x >>= f).run.run d = (f a).run.run d₁ := by
  rw [run_bind, h]

theorem run_get_bind (f : StoreDirectory → Storing β) (d : StoreDirectory) :
    ((get : Storing StoreDirectory) >>= f).run.run d = (f d).run.run d :=
  run_bind_of_ok (x := get) rfl

/-- The steps of a run that succeeds. -/
theorem of_run_bind_eq_ok {b : β} (h : (x >>= f).run.run d = (.ok b, d')) :
    ∃ a d₁, x.run.run d = (.ok a, d₁) ∧ (f a).run.run d₁ = (.ok b, d') := by
  rw [run_bind] at h
  cases hx : x.run.run d with
  | mk result d₁ =>
    rw [hx] at h
    cases result with
    | error e => cases h
    | ok a => exact ⟨a, d₁, rfl, h⟩

end Storing

namespace StoreDirectory

/-! ### Files -/

/-- Writing a file succeeds unless there is a folder in its place. -/
theorem write_eq_ok {file : String} {bytes : List UInt8} {d d' : StoreDirectory} :
    (write file bytes).run.run d = (.ok (), d') ↔
      d.entry? file ≠ some .folder ∧ d' = d.put file (.file bytes) := by
  rw [write, Storing.run_get_bind]
  split
  · next h =>
    refine ⟨fun hthrow => ?_, fun hne => absurd h hne.1⟩
    cases hthrow
  · next h =>
    refine ⟨fun hset => ⟨h, ?_⟩, fun heq => ?_⟩
    · cases hset
      rfl
    · rw [heq.2]
      rfl

theorem entry?_put (d : StoreDirectory) (file other : String) (entry : DirectoryEntry) :
    StoreDirectory.entry? (d.put file entry) other =
      if other = file then some entry else d.entry? other := by
  simp only [ entry?, put, Option.bind_some, SortedMap.get?_insert]
  cases d.entries <;> rfl

/-- Writing what is there changes nothing. -/
theorem put_eq_self {d : StoreDirectory} {file : String} {entry : DirectoryEntry}
    (h : d.entry? file = some entry) : d.put file entry = d := by
  obtain ⟨entries, hentries, hget⟩ := Option.bind_eq_some_iff.1 h
  have hinsert : entries.insert file entry = entries := by
    refine SortedMap.ext_get? fun k => ?_
    rw [SortedMap.get?_insert]
    split
    · next hk => rw [hk, hget]
    · rfl
  cases d
  simp_all [put]

/-- The two files do not get in each other's way. -/
theorem loadStore_put {d : StoreDirectory} {entry : DirectoryEntry} :
    (d.put snapshotFile entry).loadStore = d.loadStore := by
  rw [loadStore, loadStore, read?, read?, entry?_put, if_neg (by decide)]

theorem loadSnapshots_put {d : StoreDirectory} {entry : DirectoryEntry} :
    (d.put storeFile entry).loadSnapshots = d.loadSnapshots := by
  rw [loadSnapshots, loadSnapshots, read?, read?, entry?_put, if_neg (by decide)]

/-- A dependency store is read from the text that was written. -/
theorem loadStore_put_encode (d : StoreDirectory) (text : String) :
    (d.put storeFile (.file (Text.Utf8.encode text))).loadStore = Store.parse? text := by
  simp [loadStore, read?, entry?_put]

/-- Snapshots are read from the lines that were written. -/
theorem loadSnapshots_put_encode (d : StoreDirectory) (text : String) :
    (d.put snapshotFile (.file (Text.Utf8.encode text))).loadSnapshots =
      parseSnapshots (textLines (Text.Utf8.encode text)) := by
  simp [loadSnapshots, read?, entry?_put]

end StoreDirectory

end Retest

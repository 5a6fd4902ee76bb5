import Retest.Snapshot.Json
import Retest.Store.Text

/-!
# The directory of a store

A store is kept in a directory with two files: the text of the dependency store,
and the snapshots of the units it was made from, one to a line. A
`Retest.StoreDirectory` is such a directory at one time; `Retest.Storing` is what
changes it. What was written before something failed stays written.

Reading never fails. A dependency store that is not there or cannot be read is
as good as none, and a snapshot that cannot be read is passed over.
-/

namespace Retest

inductive DirectoryEntry where
  | file (bytes : List UInt8)
  | folder
deriving DecidableEq, Repr

/-- **The directory of a store** at one time. One that does not exist yet is as good as an empty
one, and is made when something is written. -/
structure StoreDirectory where
  /-- What the directory is called in reports. -/
  name : String
  /-- What is in it; `none` as long as it does not exist. -/
  entries : Option (SortedMap String DirectoryEntry)
deriving DecidableEq

/-- A step that changes the directory of a store, or fails. The state comes out in either case, so
that what was written before a failure is seen. -/
abbrev Storing := ExceptT Error (StateM StoreDirectory)

namespace StoreDirectory

/-! ### Files -/

def entry? (directory : StoreDirectory) (file : String) : Option DirectoryEntry :=
  directory.entries.bind (·.get? file)

def names (directory : StoreDirectory) : List String :=
  directory.entries.elim [] (·.keys.toList)

def read? (directory : StoreDirectory) (file : String) : Option (List UInt8) :=
  match directory.entry? file with
  | some (.file bytes) => some bytes
  | _ => none

def put (directory : StoreDirectory) (file : String) (entry : DirectoryEntry) : StoreDirectory :=
  { directory with entries := some ((directory.entries.getD ∅).insert file entry) }

def erase (directory : StoreDirectory) (file : String) : StoreDirectory :=
  { directory with entries := directory.entries.map (·.erase file) }

/-- Write a file. A folder is not overwritten. -/
def write (file : String) (bytes : List UInt8) : Storing Unit := do
  let directory ← get
  match directory.entry? file with
  | some .folder => throw (.unwritable file)
  | _ => set (directory.put file (.file bytes))

/-! ### The dependency store -/

def storeFile : String := "dependencies"

/-- **The dependency store**, if there is one that can be read. A file that is no text, or no text
of a store, counts as none, and all tests are selected then. -/
def loadStore (directory : StoreDirectory) : Option Store := do
  Store.parse? (← Text.Utf8.decode? (← directory.read? storeFile))

/-- Write the dependency store, in the encoding that the settings ask for. -/
def saveStore (store : Store) (settings : Settings) : Storing Unit :=
  write storeFile (Text.Utf8.encode (store.render (settings.encodingFor store.tests.size)))

/-! ### Snapshots -/

def snapshotFile : String := "checksums.jsonl"

def snapshotHeader : List Char := Json.writeObject [("version", Json.writeNatural Store.version)]

/-- Whether a line is the first line of snapshots in this format. -/
def isSnapshotHeader (line : String) : Bool :=
  (do
    let record ← (← Json.parse? line).record? ["version"]
    let [version] := record.values | none
    Json.required? (Json.naturalBelow? UInt32.size) version) == some Store.version

/-- The lines of a file, up to the first that is no text; those behind it are lost, even if they
are. -/
def textLines (bytes : List UInt8) : List String :=
  ((Text.linesOf 10 13 bytes).map Text.Utf8.decode?).takeWhile Option.isSome |>.filterMap id

/-- Snapshots by the names of their units; of two for the same unit the last stays. -/
def indexSnapshots (snapshots : List Snapshot) : SortedMap UnitName Snapshot :=
  .ofList (snapshots.map fun s => (s.name, s))

/-- Read the lines of snapshots. Without the right first line there are none; of the others each
that is no snapshot is passed over. -/
def parseSnapshots : List String → SortedMap UnitName Snapshot
  | [] => ∅
  | header :: lines =>
    if isSnapshotHeader header then indexSnapshots (lines.filterMap Snapshot.parse?) else ∅

def loadSnapshots (directory : StoreDirectory) : SortedMap UnitName Snapshot :=
  parseSnapshots ((directory.read? snapshotFile).elim [] textLines)

def renderSnapshots (snapshots : List Snapshot) : String :=
  .ofList ((snapshotHeader :: snapshots.map Snapshot.write).flatMap (· ++ ['\n']))

def saveSnapshots (snapshots : List Snapshot) : Storing Unit :=
  write snapshotFile (Text.Utf8.encode (renderSnapshots snapshots))

end StoreDirectory

end Retest

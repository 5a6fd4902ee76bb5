import Retest.Settings
import Retest.Store.Basic

/-!
# Lines of a dependency store

The text of a dependency store consists of lines of words:

    * - T1,T2                   tests that may depend on anything
    rts-store v1 names          the format, its version, and the encoding
    com.a.A 9f0c T1,T2          a dependency, its fingerprint, and its tests

In the indexed encoding the tests of a record are given by their positions in a
list of names. Each kind of line has a function that writes it, and one that
reads it back.
-/

namespace Retest.Store

def joinTests (tests : List String) : String := ",".intercalate tests

/-- The texts between commas, without empty ones. A name that holds a comma falls into several. -/
def splitTests (field : String) : List String := (Text.fieldsOf ',' field).filter (!·.isEmpty)

/-! ### The header -/

def magic : String := "rts-store"

/-- The version of the format. Texts of other versions are not read. -/
def version : Nat := 1

def headerLine (encoding : StoreEncoding) : String :=
  magic ++ s!" v{version} " ++ match encoding with
    | .names => "names"
    | .indexed => "indexed"

def parseVersion? (word : String) : Option Nat :=
  match word.toList with
  | 'v' :: digits => Text.naturalBelow? UInt32.size (.ofList digits)
  | _ => none

def parseHeader? (line : String) : Option StoreEncoding :=
  match Text.words line with
  | [first, second, third] =>
    if first = magic ∧ parseVersion? second = some version then StoreEncoding.choices.lookup third
    else none
  | _ => none

/-! ### Tests that may depend on anything -/

def noFingerprint : String := "-"

/-- The line for tests that may depend on anything. It looks like that of a record, but for the star
and the dash, which no dependency and no fingerprint consists of. -/
def wildcardLine (tests : SortedSet UnitName) : String :=
  Text.trimEnd (Dependency.wildcard ++ " " ++ noFingerprint ++ " " ++ joinTests tests.toList)

def parseWildcard? (line : String) : Option (SortedSet UnitName) :=
  match Text.words line with
  | [first, second] => if starts first second then some ∅ else none
  | [first, second, tests] =>
    if starts first second then some (.ofList (splitTests tests)) else none
  | _ => none
where
  /-- Whether a line with these words in front is of this kind. -/
  starts (first second : String) : Bool := first == Dependency.wildcard && second == noFingerprint

/-! ### Records -/

def recordLineWith (id : Dependency) (fingerprint : Fingerprint) (tests : List String) : String :=
  id.text ++ " " ++ fingerprint.text ++ if tests.isEmpty then "" else " " ++ joinTests tests

def positions (names : List UnitName) (tests : SortedSet UnitName) : List Nat :=
  (tests.toList.filterMap fun t => names.idxOf? t).mergeSort

/-- **The line for a record**: with the names of the tests, or with their positions in a list. A
test that is not in the list is left out. -/
def recordLine (names : Option (List UnitName)) (id : Dependency) (record : StoreRecord) : String :=
  recordLineWith id record.fingerprint <| match names with
    | none => record.tests.toList
    | some names => (positions names record.tests).map toString

/-- Read how the tests of a record are written. A position that the list of names does not have is
none, however large it is. -/
def parseTests? (names : Option (List UnitName)) (words : List String) :
    Option (SortedSet UnitName) :=
  match names with
  | none => some (.ofList words)
  | some names => do
    let tests ← words.mapM fun word => do names[← Text.natural? word]?
    return .ofList tests

/-- **Read the line of a record**: a dependency, a fingerprint, and tests or none. If one of the
three cannot be read the line is no record. -/
def parseRecord? (names : Option (List UnitName)) (line : String) :
    Option (Dependency × StoreRecord) :=
  match Text.words line with
  | [id, fingerprint] => parseWith id fingerprint []
  | [id, fingerprint, tests] => parseWith id fingerprint (splitTests tests)
  | _ => none
where
  /-- Read the parts of the line of a record. -/
  parseWith (id fingerprint : String) (tests : List String) :
      Option (Dependency × StoreRecord) := do
    let id ← Dependency.parse? id
    let fingerprint ← Fingerprint.ofHex? fingerprint
    return (id, ⟨fingerprint, ← parseTests? names tests⟩)

end Retest.Store

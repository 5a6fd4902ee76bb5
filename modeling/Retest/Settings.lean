import Retest.Json.Reader
import Retest.Text.Blank
import Retest.Text.Search
import Retest.UnitName

/-!
# Settings of a selection

What a selection can be told: how finely dependencies are tracked, which
packages are left out, which classes count as test fixtures, and how the
dependency store writes the tests of a record. Settings come from their
defaults (`Retest.Settings`), from a JSON text (`Retest.Settings.parse?`), and
from environment variables laid over either (`Retest.Settings.override`).

Numbers out of bounds are moved to the nearest bound (`Retest.clamp`). A text
that cannot be read is an error in a file and passed over in a variable.
-/

namespace Retest

/-- Move a number between two bounds; should they cross, the upper one wins. -/
def clamp (value low high : Int) : Int := min (max value low) high

/-! ### Choices -/

/-- **How finely dependencies are tracked.** With members, a test is run again only if something
that it can reach has changed; with units, if one of the units that it can reach has. -/
inductive Granularity where
  /-- One record for each unit. -/
  | unit
  /-- One record for each unit, and one for each of its methods and fields. -/
  | member
deriving DecidableEq, Repr

/-- How the dependency store writes the tests of a record. -/
inductive StoreEncoding where
  /-- By their names. -/
  | names
  /-- By their positions in a list that is written once. -/
  | indexed
deriving DecidableEq, Repr

/-- A word of a setting as it is compared: without white space around it, in lower case. -/
def settingWord (s : String) : String := .ofList ((Text.trim s).toList.map Char.toLower)

def Granularity.names : List (String × Granularity) := [("class", unit), ("method", member)]

/-- Read a granularity; `fine` is another word for the finer one. -/
def Granularity.parse? (s : String) : Option Granularity :=
  (names ++ [("fine", member)]).lookup (settingWord s)

def StoreEncoding.choices : List (String × StoreEncoding) :=
  [("names", names), ("indexed", indexed)]

/-- Read an encoding; `index` is another word for the indexed one. -/
def StoreEncoding.parse? (s : String) : Option StoreEncoding :=
  (choices ++ [("index", indexed)]).lookup (settingWord s)

/-! ### Settings -/

/-- Packages that are never analysed: the platform, test frameworks and build tools. -/
def platformPrefixes : List String :=
  ["java.", "javax.", "jdk.", "sun.", "com.sun.", "kotlin.", "scala.", "org.junit.", "junit.",
   "org.testng.", "org.hamcrest.", "org.mockito.", "org.assertj.", "org.apache.maven.",
   "org.gradle."]

/-- **What a selection can be told**, with the defaults. -/
structure Settings where
  granularity : Granularity := .member
  /-- How many workers share the work; `none` leaves it to the machine. No answer depends on it. -/
  workers : Option Nat := none
  /-- Units whose names begin with one of these are left out. -/
  excludedPrefixes : List String := platformPrefixes
  /-- Units whose simple names hold this are test fixtures. -/
  fixtureMarker : String := "Test"
  /-- With more tests than this the store is written in the indexed encoding. -/
  indexThreshold : Nat := 64
  /-- An encoding that is used whatever the number of tests. -/
  encoding : Option StoreEncoding := none
deriving DecidableEq, Repr

namespace Settings

def isExcluded (settings : Settings) (unit : UnitName) : Bool :=
  settings.excludedPrefixes.any (Text.beginsWith unit)

/-- Whether a unit is a test fixture. Nothing is one if the marker is empty. -/
def isFixture (settings : Settings) (unit : UnitName) : Bool :=
  !settings.fixtureMarker.isEmpty && Text.holds unit.simple settings.fixtureMarker

/-- The encoding in which a store with this many tests is written. -/
def encodingFor (settings : Settings) (tests : Nat) : StoreEncoding :=
  match settings.encoding with
  | some forced => forced
  | none => if settings.indexThreshold < tests then .indexed else .names

def clampWorkers (n : Int) : Nat := (clamp n 1 64).toNat

def clampThreshold (n : Int) : Nat := (clamp n 0 1000000).toNat

/-! ### Settings from a text -/

def fieldNames : List String :=
  ["granularity", "workers", "excluded_prefixes", "fixture_marker", "index_threshold", "encoding"]

/-- A number of 64 bits, taken as a signed one: with the highest bit set it is negative. -/
def signed64 (n : Nat) : Int := if n < Text.int64Bound then n else (n : Int) - UInt64.size

/-- **Settings from a JSON value**; what is missing keeps its default. A number of workers is moved
between its bounds, and a threshold is taken as it stands. -/
def ofJson? (j : Json) : Option Settings := do
  let record ← j.record? fieldNames
  let [granularity, workers, excluded, marker, threshold, encoding] := record.values | none
  let base : Settings := {}
  return {
    granularity := ← Json.optional? base.granularity (Json.choice? Granularity.names) granularity
    workers := (← Json.optional? none (fun j => (j.naturalBelow? UInt64.size).map some) workers).map
      fun n => clampWorkers (signed64 n)
    excludedPrefixes := ← Json.optional? base.excludedPrefixes (Json.list? Json.text?) excluded
    fixtureMarker := ← Json.optional? base.fixtureMarker Json.text? marker
    indexThreshold :=
      ← Json.optional? base.indexThreshold (Json.naturalBelow? UInt64.size) threshold
    encoding :=
      ← Json.optional? none (Json.nullable? (Json.choice? StoreEncoding.choices)) encoding }

def parse? (text : String) : Option Settings := do ofJson? (← Json.parse? text)

/-! ### Settings from the environment -/

/-- The value of a variable without the white space around it, if anything is left. -/
def lookup? (env : String → Option String) (name : String) : Option String :=
  ((env name).map Text.trim).filter (!·.isEmpty)

/-- Lay the variables of an environment over settings. Prefixes are added, other
values replaced; a value that cannot be read changes nothing. -/
def override (env : String → Option String) (settings : Settings) : Settings where
  granularity :=
    ((lookup? env "RTS_GRANULARITY").bind Granularity.parse?).getD settings.granularity
  workers := ((lookup? env "RTS_WORKERS").bind Text.int64?).elim settings.workers
    fun n => some (clampWorkers n)
  excludedPrefixes := settings.excludedPrefixes ++
    (((lookup? env "RTS_EXCLUDE").elim [] (Text.fieldsOf ',')).map Text.trim).filter (!·.isEmpty)
  fixtureMarker := (lookup? env "RTS_FIXTURE_MARKER").getD settings.fixtureMarker
  indexThreshold := ((lookup? env "RTS_INDEX_THRESHOLD").bind Text.int64?).elim
    settings.indexThreshold clampThreshold
  encoding := ((lookup? env "RTS_STORE_ENCODING").bind StoreEncoding.parse?).elim
    settings.encoding some

end Settings

end Retest

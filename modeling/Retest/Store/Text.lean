import Retest.Store.Line

/-!
# The text of a dependency store

`Retest.Store.render` writes a store as a text, `Retest.Store.parse?` reads one.
The line for tests that may depend on anything comes first, unless there are
none; then the header; then, in the indexed encoding, the number of names and
the names themselves; then the records. Reading passes over empty lines
everywhere, and over lines that are no records after the header.
-/

namespace Retest.Store

/-! ### Writing -/

/-- The names that records refer to in the indexed encoding, in order. -/
def nameList (store : Store) : List UnitName := (store.knownTests ∪ store.recordTests).toList

def recordLines (store : Store) (names : Option (List UnitName)) : List String :=
  store.records.entries.map fun (id, record) => recordLine names id record

def lines (store : Store) (encoding : StoreEncoding) : List String :=
  (if store.wildcard.isEmpty then [] else [wildcardLine store.wildcard]) ++
    headerLine encoding :: match encoding with
      | .names => store.recordLines none
      | .indexed => toString store.nameList.length :: store.nameList ++
          store.recordLines (some store.nameList)

def closeLines (lines : List String) : String := String.join (lines.map (· ++ "\n"))

/-- **The text of a store.** In the encoding by names, tests are lost that are known and that
nothing else names. -/
def render (store : Store) (encoding : StoreEncoding) : String := closeLines (store.lines encoding)

/-! ### Reading -/

/-- Read the lines of records into a store; of records for the same dependency the last stays. -/
def addRecords (store : Store) (names : Option (List UnitName)) (lines : List String) : Store :=
  (lines.filterMap (parseRecord? names)).foldl
    (fun store (id, record) => store.insert id record) store

/-- Read what follows the header. The number of names is only compared with the lines that are
there: a text that announces more names than any memory could hold is refused like every other text
with too few lines, and nothing is said of room that may be set aside for the names beforehand. -/
def parseBody? (store : Store) : StoreEncoding → List String → Option Store
  | .names, lines => some (store.addRecords none lines)
  | .indexed, [] => none
  | .indexed, first :: lines => do
    let count ← Text.natural? (Text.trim first)
    if lines.length < count then none
    else
      let names := (lines.take count).map Text.trim
      some ({ store with knownTests := .ofList names }.addRecords (some names) (lines.drop count))

def parseFrom? (store : Store) : List String → Option Store
  | [] => none
  | line :: lines => do store.parseBody? (← parseHeader? line) lines

def parseLines? : List String → Option Store
  | [] => none
  | line :: lines =>
    match parseWildcard? line with
    | some tests => parseFrom? { wildcard := tests } lines
    | none => parseFrom? {} (line :: lines)

/-- **Read the text of a store.** Empty lines are passed over, and so are lines after the header
that are no records; there is no store only if the lines before the records cannot be read. -/
def parse? (text : String) : Option Store :=
  parseLines? ((Text.lines text).filter fun line => !Text.isBlankLine line)

end Retest.Store

import Retest.Build.Basic
import Retest.Text.Search
import Retest.Text.Utf8

/-!
# Class paths

A class path is a list of directories with class files, of which the earlier
hide the later. The unit `com.foo.A` is looked for in the file `com/foo/A.class`
of each directory. What cannot be read, because something else is in its place,
ends the search.
-/

namespace Retest

/-- A place in a directory: the names on the way to it. -/
abbrev FilePath := List String

/-- The files and folders below a directory. -/
structure FileTree where
  files : List (FilePath × List UInt8) := []
  /-- Folders that are there whether or not a file lies in them. -/
  folders : List FilePath := []
deriving DecidableEq, Repr

/-- What comes of reading a file. Where nothing is found the search goes on in the next directory;
where something else is in the way it ends. -/
inductive ReadResult where
  | found (bytes : List UInt8)
  | missing
  /-- There is something, but it cannot be read. -/
  | unreadable
deriving DecidableEq, Repr

namespace FileTree

/-- Whether a place is a folder: the root, a folder that was made or one above it, or a place on the
way to a file. -/
def isFolder (tree : FileTree) (path : FilePath) : Bool :=
  path.isEmpty || tree.folders.any path.isPrefixOf ||
    tree.files.any fun (file, _) => path.isPrefixOf file && path.length < file.length

def file? (tree : FileTree) (path : FilePath) : Option (List UInt8) := tree.files.lookup path

def write (tree : FileTree) (path : FilePath) (bytes : List UInt8) : FileTree :=
  { tree with files := (path, bytes) :: tree.files.filter (·.1 != path) }

def makeFolder (tree : FileTree) (path : FilePath) : FileTree :=
  { tree with folders := path :: tree.folders }

/-- The longest name that a file can have, in octets. -/
def nameLimit : Nat := 255

/-- Read a file, having come to a place on the way to it. What comes before the last name has to be
a folder: a file in the place of a folder cannot be read, and neither can a folder in the place of
the file, or a name that is too long. -/
def readFrom (tree : FileTree) (here : FilePath) : FilePath → ReadResult
  | [] =>
    match tree.file? here with
    | some bytes => .found bytes
    | none => if tree.isFolder here then .unreadable else .missing
  | name :: rest =>
    if tree.isFolder here then
      if nameLimit < name.utf8ByteSize then .unreadable
      else readFrom tree (here ++ [name]) rest
    else if (tree.file? here).isSome then .unreadable
    else .missing

def read (tree : FileTree) (path : FilePath) : ReadResult := tree.readFrom [] path

/-- The name of a class file without its extension; there is none if nothing
stands before the extension. -/
def classBase? (name : String) : Option String := do
  let (base, extension) ← Text.splitLast? '.' name.toList
  if extension = "class".toList ∧ base ≠ [] then some (.ofList base) else none

/-- The unit whose class file lies at a place. A base name that stands for a
folder itself or the one above it does not count. -/
def unitAt? (path : FilePath) : Option UnitName := do
  let base ← classBase? (← path.getLast?)
  let parts := path.dropLast ++ [base].filter fun base => base != "." && base != ".."
  if parts.isEmpty then none else some (".".intercalate parts)

end FileTree

/-- Directories with class files; `none` is one that does not exist. -/
abbrev ClassPath := List (Option FileTree)

namespace ClassPath

/-- The units with a class file in one of the directories. -/
def units (path : ClassPath) : SortedSet UnitName :=
  .ofList ((path.flatMap fun root => root.elim [] FileTree.files).filterMap fun (file, _) =>
    (FileTree.unitAt? file).filter fun unit => !unit.isDescriptor)

/-- The longest path that can be looked for, in octets. -/
def pathLimit : Nat := 4095

/-- Read a file in the first directory that has it. A directory in which it cannot be read ends the
search, even if a later one has the file. -/
def readFirst : ClassPath → FilePath → Option (List UInt8)
  | [], _ => none
  | none :: path, file => readFirst path file
  | some tree :: path, file =>
    match tree.read file with
    | .found bytes => some bytes
    | .missing => readFirst path file
    | .unreadable => none

/-- The class file of a unit. A path that begins at the root, holds a null
character or is too long finds nothing. -/
def locate (path : ClassPath) (unit : UnitName) : Option (List UInt8) :=
  let file := unit.artifactPath
  if Text.beginsWith file "/" || file.toList.contains '\x00' || pathLimit < file.utf8ByteSize then
    none
  else readFirst path ((Text.fieldsOf '/' file).filter (!·.isEmpty))

def build (path : ClassPath) : Build where
  units := path.units.toList
  locate := path.locate

end ClassPath

end Retest

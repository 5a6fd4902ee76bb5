import Retest.Error
import Retest.Snapshot.Basic

/-!
# Builds

A build is what a compiler leaves behind: class files, found by the names of
their units. `Retest.Build.parse` reads the class file of a unit, which has to
declare that unit.
-/

namespace Retest

/-- **The class files that are there at one time.** What is listed and what can be found are two
things: a class file may be found that is not listed, and one that is listed may not be found. -/
structure Build where
  /-- The units there are, in order. -/
  units : List UnitName
  /-- The class file of a unit. -/
  locate : UnitName → Option (List UInt8)

/-- Whether a unit holds no code: the descriptor of a module or a package. -/
def UnitName.isDescriptor (unit : UnitName) : Bool :=
  unit.simple == "module-info" || unit.simple == "package-info"

/-- A class file that has been read, and its snapshot. -/
structure ParsedUnit where
  file : ClassFile
  snapshot : Snapshot

namespace Build

/-- The build with given class files. Descriptors can be found there, but are not listed. -/
def ofMap (files : SortedMap UnitName (List UInt8)) : Build where
  units := files.keys.toList.filter fun unit => !unit.isDescriptor
  locate := files.get?

/-- Read class file octets that are expected to declare a unit. A class file that declares another
unit is refused like one that is malformed. -/
def parseBytes (unit : UnitName) (bytes : List UInt8) : Except Error ParsedUnit :=
  match Snapshot.decode bytes with
  | .error fault => .error (.malformed unit fault)
  | .ok (file, snapshot) =>
    if file.name = unit then .ok ⟨file, snapshot⟩
    else .error (.malformed unit (.declares file.name))

def parse (build : Build) (unit : UnitName) : Except Error ParsedUnit :=
  match build.locate unit with
  | none => .error (.missing unit)
  | some bytes => parseBytes unit bytes

end Build

end Retest

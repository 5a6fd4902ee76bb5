import Retest.Analysis

/-!
# Finding tests

Tests are the units whose names mark them as test fixtures, abstract classes and
interfaces apart. They are found from an analysis (`Retest.Analysis.tests`), or
by reading only the class files in question (`Retest.Build.scanTests`); in the
latter way a class file that cannot be read counts as a test, too.
-/

namespace Retest

/-- The tests among the units of an analysis: fixtures that can be instantiated. -/
def Analysis.tests (analysis : Analysis) (settings : Settings) : List UnitName :=
  (analysis.inventory.units.filter fun unit info =>
    !info.isInterface && !info.isAbstract && settings.isFixture unit).keys.toList

def canHoldTest (bytes : List UInt8) : Bool :=
  match ClassFile.decode bytes with
  | .ok file => !file.access.isInterface && !file.access.isAbstract
  | .error _ => true

/-- The tests among the units of a build, found without an analysis. A fixture that cannot be read
may be a test, and so it is taken for one. -/
def Build.scanTests (build : Build) (settings : Settings) : List UnitName :=
  (build.relevant settings).filter fun unit =>
    settings.isFixture unit && (build.locate unit).any canHoldTest

end Retest

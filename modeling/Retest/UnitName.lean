/-!
# Names of units and signatures of methods

A *unit* is a compiled class. Its name is dotted, `com.foo.A$B`, while class
files and directories write it with slashes. A method is known inside its unit
by its *signature*, the name followed by the descriptor: `f(I)V`.

Two method names are special: `<init>`, the constructors of a unit, and
`<clinit>`, its static initializer. Neither is dispatched at run time.
-/

namespace Retest

/-- The dotted name of a compiled class. Any text is allowed; what is written with slashes and read
back is the same unless it held a slash. -/
abbrev UnitName := String

/-- The name of a method followed by its descriptor. -/
abbrev Signature := String

def replaceChar (old new : Char) (s : String) : String :=
  .ofList (s.toList.map fun c => if c = old then new else c)

def UnitName.ofSlashed (s : String) : UnitName := replaceChar '/' '.' s

def UnitName.slashed (unit : UnitName) : String := replaceChar '.' '/' unit

/-- Where the class file of a unit lies below a root directory. -/
def UnitName.artifactPath (unit : UnitName) : String := unit.slashed ++ ".class"

/-- The last part of a dotted name. -/
def UnitName.simple (unit : UnitName) : String :=
  .ofList (unit.toList.reverse.takeWhile (· != '.')).reverse

def constructorName : String := "<init>"

def staticInitializerName : String := "<clinit>"

/-- Whether a method name is that of a constructor or of a static initializer. -/
def isInitializerName (name : String) : Bool :=
  name == constructorName || name == staticInitializerName

/-- The method name of a signature, which ends before the first parenthesis. -/
def Signature.methodName (signature : Signature) : String :=
  .ofList (signature.toList.takeWhile (· != '('))

def Signature.isInitializer (signature : Signature) : Bool := isInitializerName signature.methodName

/-- The signature of a static initializer, which takes and returns nothing. -/
def staticInitializerSignature : Signature := "<clinit>()V"

end Retest

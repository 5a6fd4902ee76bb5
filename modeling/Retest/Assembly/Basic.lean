import Retest.Assembly.Code
import Retest.ClassFile.Decode

/-!
# Assembling class files

A `Retest.ClassSpec` describes a class file, and `Retest.ClassSpec.assemble`
makes its octets. What a recompilation can change without changing the class is
part of the description: the name of the source file, line numbers, and other
entries at the front of the constant pool.
-/

namespace Retest

structure FieldSpec where
  access : Access
  name : String
  descriptor : String
  /-- The number it always holds. -/
  constant : Option Int32 := none
deriving DecidableEq, Repr

structure MethodSpec where
  access : Access
  name : String
  descriptor : String
  /-- Its body; `none` if it is abstract. -/
  code : Option (List AsmOp)
  exceptions : List UnitName := []
  /-- The types of annotations without elements. -/
  annotations : List String := []
deriving DecidableEq, Repr

/-- The unit that all others descend from. -/
def objectUnit : UnitName := "java.lang.Object"

/-- **The description of a class.** It says what the class file is to declare, and nothing of the
indices of the constant pool or of the offsets of jumps, which are found when it is assembled. -/
structure ClassSpec where
  name : UnitName
  access : Access := 0x0021
  superName : Option UnitName := some objectUnit
  interfaces : List UnitName := []
  fields : List FieldSpec := []
  methods : List MethodSpec := []
  sourceFile : Option String := none
  /-- The number of the first line; with it line numbers and local variables are written. -/
  firstLine : Option UInt16 := none
  /-- Texts at the front of the constant pool. -/
  padding : List String := []
deriving DecidableEq, Repr

namespace ClassSpec

/-! ### Building descriptions -/

def makeInterface (spec : ClassSpec) : ClassSpec := { spec with access := 0x0601 }

def implements (spec : ClassSpec) (interface : UnitName) : ClassSpec :=
  { spec with interfaces := spec.interfaces ++ [interface] }

def addField (spec : ClassSpec) (field : FieldSpec) : ClassSpec :=
  { spec with fields := spec.fields ++ [field] }

/-- Add a public constant. -/
def addConstant (spec : ClassSpec) (name : String) (value : Int32) : ClassSpec :=
  spec.addField { access := 0x0019, name, descriptor := "I", constant := some value }

def addMethod (spec : ClassSpec) (method : MethodSpec) : ClassSpec :=
  { spec with methods := spec.methods ++ [method] }

/-- Add a public abstract method. -/
def addAbstract (spec : ClassSpec) (name descriptor : String) : ClassSpec :=
  spec.addMethod { access := 0x0401, name, descriptor, code := none }

/-- Add a public constructor that calls that of the super class. -/
def addConstructor (spec : ClassSpec) : ClassSpec :=
  let parent := spec.superName.getD objectUnit
  spec.addMethod {
    access := 0x0001, name := constructorName, descriptor := "()V"
    code := some [.aload 0, .invokespecial parent constructorName "()V", .ret] }

/-- Change the method that was added last, if there is one. -/
def changeLast (spec : ClassSpec) (change : MethodSpec → MethodSpec) : ClassSpec :=
  { spec with methods :=
      spec.methods.dropLast ++ (spec.methods.getLast?.map change).toList }

/-- Let the method that was added last throw an exception. -/
def throws (spec : ClassSpec) (exception : UnitName) : ClassSpec :=
  spec.changeLast fun m => { m with exceptions := m.exceptions ++ [exception] }

def annotated (spec : ClassSpec) (type : String) : ClassSpec :=
  spec.changeLast fun m => { m with annotations := m.annotations ++ [type] }

end ClassSpec

/-! ### Assembling -/

open Assembly

def FieldSpec.assemble (field : FieldSpec) : Assembler (List UInt8) := do
  let name ← text field.name
  let descriptor ← text field.descriptor
  let attributes ← match field.constant with
    | none => pure []
    | some value => do
      let label ← text "ConstantValue"
      let index ← integer value
      pure [two label ++ four 2 ++ two index]
  return two field.access ++ two name ++ two descriptor ++ counted attributes

namespace ClassSpec

/-- The attributes of a body of a length that only serve debugging: a line number for its first
instruction, and one local variable that lives as long as the body. -/
def debugAttributes (spec : ClassSpec) (length : Nat) : Assembler (List (List UInt8)) := do
  match spec.firstLine with
  | none => return []
  | some line =>
    let lines ← attributeNamed "LineNumberTable" (two 1 ++ two 0 ++ two line)
    let this ← text "this"
    let type ← text ("L" ++ spec.name.slashed ++ ";")
    let locals ← attributeNamed "LocalVariableTable"
      (two 1 ++ two 0 ++ two (.ofNat length) ++ two this ++ two type ++ two 0)
    return [lines, locals]

/-- How much room each method has on the stack and for local variables. -/
def room : UInt16 := 8

def assembleBody (spec : ClassSpec) (ops : List AsmOp) : Assembler (List UInt8) := do
  let octets ← AsmOp.assemble ops
  let debug ← spec.debugAttributes octets.length
  attributeNamed "Code" (two room ++ two room ++ four (.ofNat octets.length) ++ octets ++ two 0 ++
    counted debug)

def assembleMethod (spec : ClassSpec) (method : MethodSpec) : Assembler (List UInt8) := do
  let name ← text method.name
  let descriptor ← text method.descriptor
  let code ← method.code.mapM spec.assembleBody
  let exceptions ← if method.exceptions.isEmpty then pure [] else do
    let units ← method.exceptions.mapM unit
    pure [← attributeNamed "Exceptions" (counted (units.map two))]
  let annotations ← if method.annotations.isEmpty then pure [] else do
    let types ← method.annotations.mapM text
    pure [← attributeNamed "RuntimeVisibleAnnotations"
      (counted (types.map fun t => two t ++ two 0))]
  return two method.access ++ two name ++ two descriptor ++
    counted (code.toList ++ exceptions ++ annotations)

/-- Assemble the attributes of the class itself. The bootstrap methods are among them; they are all
known only when all bodies have been assembled. -/
def assembleAttributes (spec : ClassSpec) : Assembler (List (List UInt8)) := do
  let source ← spec.sourceFile.mapM fun name => do
    let index ← text name
    attributeNamed "SourceFile" (two index)
  let bootstraps := (← get).bootstraps
  let methods ← if bootstraps.isEmpty then pure [] else do
    pure [← attributeNamed "BootstrapMethods" (counted (bootstraps.map fun b =>
      two b.handle ++ counted (b.arguments.map two)))]
  return source.toList ++ methods

/-- Assemble all that follows the constant pool, which is written in front of it but complete only
afterwards. -/
def assembleBelowPool (spec : ClassSpec) : Assembler (List UInt8) := do
  let _ ← spec.padding.mapM text
  let this ← unit spec.name
  let parent ← spec.superName.mapM unit
  let interfaces ← spec.interfaces.mapM unit
  let fields ← spec.fields.mapM FieldSpec.assemble
  let methods ← spec.methods.mapM spec.assembleMethod
  let attributes ← spec.assembleAttributes
  return two spec.access ++ two this ++ two (parent.getD 0) ++ counted (interfaces.map two) ++
    counted fields ++ counted methods ++ counted attributes

/-- The version of the format that is written. -/
def formatVersion : UInt16 := 52

/-- **Assemble a class file.** If the description keeps to the limits of the format, decoding what
comes out gives back what was described. -/
def assemble (spec : ClassSpec) : List UInt8 :=
  let (below, draft) := spec.assembleBelowPool.run {}
  four ClassFile.magic ++ two 0 ++ two formatVersion ++ two (.ofNat (draft.entries.length + 1)) ++
    draft.entries.flatten ++ below

end ClassSpec

end Retest

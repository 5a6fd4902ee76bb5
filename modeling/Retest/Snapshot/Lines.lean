import Retest.ClassFile.Basic

/-!
# Lines of a class file

Fingerprints are taken of lines of text. This module says which lines stand for
a method, a field, or the header of a class. They hold all that a member does,
and neither the name nor the descriptor of a method: a method that is renamed
and otherwise left alone has the same lines.
-/

namespace Retest

def Access.line (access : Access) : String := "access " ++ Text.hexPadded 4 access.toNat

/-- The lines for the generic signature and the annotations of a declaration. -/
def decorationLines (signature : Option String) (annotations : List String) : List String :=
  (signature.map ("signature " ++ ·)).toList ++ annotations.map ("annotation " ++ ·)

/-- The text of an operand. References stand in it by name and jumps by ordinal, so nothing of the
layout of the class file is left. -/
def Operand.text : Operand → String
  | none => ""
  | int value => toString value.toInt
  | localVar index => s!"local:{index}"
  | increment index delta => s!"local:{index} " ++ Text.signed delta.toInt
  | constant value => value.text
  | field target | method target => target.text
  | type name => "type:" ++ name
  | branch target => s!"@{target}"
  | switch default cases =>
    s!"default:@{default} [" ++
      ",".intercalate (cases.map fun (key, target) => s!"{key.toInt}:@{target}") ++ "]"
  | multiArray element dimensions => "type:" ++ element ++ s!" dims:{dimensions}"
  | dynamic name descriptor bootstrap =>
    "indy:" ++ name ++ descriptor ++ bootstrap.elim "" (" " ++ ·.text)

def Instruction.line (instruction : Instruction) : String :=
  Text.hexPadded 2 instruction.opcode.toNat ++ " " ++ instruction.operand.text

def Handler.line (handler : Handler) : String :=
  "catch " ++ handler.catchType.getD "*" ++
    s!" [@{handler.start},@{handler.stop}) -> @{handler.target}"

def Code.lines (code : Code) : List String :=
  code.instructions.map Instruction.line ++ code.handlers.map Handler.line

/-- **The lines for a method**: access flags, exceptions, generic signature, annotations and body,
but not the name and descriptor. -/
def MethodDecl.lines (method : MethodDecl) : List String :=
  [method.access.line, "throws " ++ ",".intercalate method.exceptions] ++
    decorationLines method.signature method.annotations ++ method.code.elim [] Code.lines

/-- The declaration of a field in one line: slot and initial value. -/
def FieldDecl.declaration (field : FieldDecl) : String :=
  field.slot ++ "=" ++ field.constant.elim "" Constant.text

def FieldDecl.lines (field : FieldDecl) : List String :=
  [field.access.line, field.declaration] ++ decorationLines field.signature field.annotations

/-- The lines for a class without its members and parents. -/
def ClassFile.headerLines (file : ClassFile) : List String :=
  file.access.line :: decorationLines file.signature file.annotations

end Retest

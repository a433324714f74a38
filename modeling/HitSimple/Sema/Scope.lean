import HitSimple.Ast

namespace HitSimple.Sema

abbrev Diagnostic := String

abbrev Analysis := Except Diagnostic

structure Symbol where
  binding : Hir.Binding
  byteLength : Nat
  templateName : TemplateName
  deriving DecidableEq, Repr

/-- A located View of a declared object: the object itself or one of its members. -/
structure MemoryReference where
  name : String
  binding : Hir.Binding
  byteLength : Nat
  offset : Nat
  templateName : TemplateName
  deriving DecidableEq, Repr

structure ReturnItem where
  byteLength : Nat
  templateName : TemplateName
  deriving DecidableEq, Repr

structure ImplOpInfo where
  symbolName : String
  result : ReturnItem
  deriving DecidableEq, Repr

/-- The declarations an expression is analysed under.  A function maps to its return items, a
member path to the located member that its layouts assign. -/
structure Scope where
  lookup : String → Option Symbol
  resolveMember : String → List String → Analysis MemoryReference
  functions : String → Option (List ReturnItem)
  implOps : OperatorSpelling → TemplateName → TemplateName → Option ImplOpInfo
  implAssignments : String → Option ImplOpInfo
  aggregateByteLength : String → Option Nat
  cCompatibilityMode : Bool

def Scope.templateByteLength (scope : Scope) : TemplateName → Option Nat
  | .none | .bytes | .cstr => none
  | .bool => some 1
  | .addr | .handle => some pointerByteLength
  | .signedInteger byteLength | .unsignedInteger byteLength =>
      if byteLength = 0 then none else some byteLength
  | .floating byteLength =>
      if byteLength = 2 ∨ byteLength = 4 ∨ byteLength = 8 ∨ byteLength = 16 then some byteLength
      else none
  | .user name => scope.aggregateByteLength name

/-- No declarations at all. -/
def emptyScope : Scope where
  lookup := fun _ => none
  resolveMember := fun name _ => .error ("use of undeclared variable '" ++ name ++ "'")
  functions := fun _ => none
  implOps := fun _ _ _ => none
  implAssignments := fun _ => none
  aggregateByteLength := fun _ => none
  cCompatibilityMode := false

/-- Every name denotes one local object. -/
def Scope.ofObject (templateName : TemplateName) (byteLength : Nat) : Scope :=
  { emptyScope with
    lookup := fun _ => some {
      binding := { bindingName := "x", storage := .local }
      byteLength, templateName } }

def isLoweredFloatByteLength (byteLength : Nat) : Bool :=
  byteLength == 2 || byteLength == 4 || byteLength == 8 || byteLength == 16

/-- The width the analyser gives an integer literal: zero when its spelling is out of range. -/
def inferIntegerLiteralByteLength (spelling : Literal.Spelling) : Nat :=
  match Literal.parseUnsignedIntegerLiteral spelling with
  | none => 0
  | some value =>
      if value ≤ 0x7f then 1
      else if value ≤ 0x7fff then 2
      else if value ≤ 0x7fffffff then 4
      else 8

end HitSimple.Sema

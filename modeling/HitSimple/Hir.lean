import HitSimple.View
import HitSimple.Operator
import HitSimple.Literal
import HitSimple.FixedWidth.Bytes

namespace HitSimple.Hir
open HitSimple.Literal FixedWidth

inductive MemoryStorage where
  | global | local | staticLocal
  deriving DecidableEq, Repr

/-- A named storage object: the unique binding name the analyser gave it and its storage. -/
structure Binding where
  bindingName : String
  storage : MemoryStorage
  deriving DecidableEq, Repr

/-- The operation family selected by the analyser. -/
inductive StandardOperationKind where
  | legacy | untemplatedInteger | standardInteger | standardBoolean | standardAddress
  | standardHandle | standardBytesCompare | standardCStringCompare | addressOffset
  deriving DecidableEq, Repr

structure ViewOffsetBounds where
  sourceByteLength : Nat
  resultByteLength : Nat
  deriving DecidableEq, Repr

inductive UnaryOperator where
  | negate | complement | not
  deriving DecidableEq, Repr

def UnaryOperator.text : UnaryOperator → String
  | negate => "-"
  | complement => "~"
  | not => "!"

mutual

inductive Expr where
  | integerLiteral (value : Spelling) (result : ViewSemantics)
  | characterLiteral (bytes : List Byte) (result : ViewSemantics)
  | stringLiteral (bytes : List Byte) (result : ViewSemantics)
  | floatLiteral (value : Spelling) (result : ViewSemantics)
  | variableRef (binding : Binding) (offset : Nat) (result : ViewSemantics)
  | addressOf (binding : Binding) (targetByteLength offset : Nat) (result : ViewSemantics)
  | deref (address : Expr) (result : ViewSemantics)
  | booleanTest (operand : Expr) (result : ViewSemantics)
  | binary (left : Expr) (op : OperatorSpelling) (right : Expr) (result : ViewSemantics)
      (operationKind : StandardOperationKind) (viewOffsetBounds : Option ViewOffsetBounds)
  | unary (op : UnaryOperator) (operand : Expr) (result : ViewSemantics)
  | ternary (condition thenExpr elseExpr : Expr) (result : ViewSemantics)
  | unsigned (operand : Expr) (result : ViewSemantics)
  | integerCast (operand : Expr) (isSigned : Bool) (result : ViewSemantics)
  | templateView (operand : Expr) (result : ViewSemantics)
  | toFloat (operand : Expr) (sourceUnsigned sourceIsFloating : Bool) (result : ViewSemantics)
  | floatBinary (left : Expr) (op : OperatorSpelling) (right : Expr) (result : ViewSemantics)
  | floatCompare (left : Expr) (op : OperatorSpelling) (right : Expr) (operandByteLength : Nat)
      (result : ViewSemantics)
  | call (callee : String) (result : ViewSemantics)
  | assignment (stores : Statement) (result : Expr) (semantics : ViewSemantics)

inductive Statement where
  | integerStore (binding : Binding) (targetByteLength offset : Nat) (value : Expr)
      (source : Option ViewSemantics)
  | pointerStore (address : Expr) (targetByteLength : Nat) (value : Expr)
  | floatStore (binding : Binding) (targetByteLength offset : Nat) (value : Expr)
  | boolStore (binding : Binding) (targetByteLength offset : Nat) (value : Expr)
  | viewCopyStore (binding : Binding) (targetByteLength offset : Nat) (value : Expr)
  | stringStore (binding : Binding) (targetByteLength offset : Nat) (bytes : List Byte)
  | stringCopyStore (binding : Binding) (targetByteLength offset : Nat) (source : Expr)
  | implAssignment (callee : String) (binding : Binding) (targetByteLength offset : Nat)
      (value : Expr)
  | localMemory (binding : Binding) (byteLength : Nat) (templateName : TemplateName)
  | bindingRebind (binding : Binding) (address : Expr)
  | captureView (captureName : String) (source : Expr)
  | sequence (first second : Statement)

end

/-- The View an expression denotes. -/
def Expr.result : Expr → ViewSemantics
  | .integerLiteral _ result | .characterLiteral _ result | .stringLiteral _ result
  | .floatLiteral _ result | .variableRef _ _ result
  | .addressOf _ _ _ result | .deref _ result | .booleanTest _ result
  | .binary _ _ _ result _ _ | .unary _ _ result | .ternary _ _ _ result
  | .unsigned _ result | .integerCast _ _ result | .templateView _ result
  | .toFloat _ _ _ result | .floatBinary _ _ _ result | .floatCompare _ _ _ _ result
  | .call _ result | .assignment _ _ result => result

namespace Expr

def byteLength (expression : Expr) : Nat :=
  expression.result.staticByteLength

def isUnsigned (expression : Expr) : Bool :=
  expression.result.isUnsigned

def isIntegerLiteral : Expr → Bool
  | .integerLiteral .. => true
  | _ => false

end Expr

end HitSimple.Hir

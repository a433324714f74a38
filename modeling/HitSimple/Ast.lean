import HitSimple.Hir

namespace HitSimple.Ast
open HitSimple.Literal

/-- An assignment operator as it is spelled: `=`, `&=`, `%s=`, `%b=`, or a typed operator such as
`%d=` and `%4d+=`. -/
inductive AssignmentSpelling where
  | default
  | rebind
  | string
  | boolean
  | typed (typedPrefix : TypedPrefix) (compound : Option BinaryOperator)
  deriving DecidableEq, Repr

/-- Quoted literals carry their decoded bytes, and a member path names its object and members. -/
inductive Expr where
  | identifier (name : String)
  | integerLiteral (value : Spelling)
  | stringLiteral (bytes : List FixedWidth.Byte)
  | charLiteral (bytes : List FixedWidth.Byte)
  | floatLiteral (value : Spelling)
  | boolLiteral (value : Bool)
  | addressOf (operand : Expr)
  | unary (op : Hir.UnaryOperator) (operand : Expr)
  | binary (left : Expr) (op : OperatorSpelling) (right : Expr)
  | ternary (condition thenExpr elseExpr : Expr)
  | unsigned (operand : Expr) (byteLength : Nat)
  | integerCast (operand : Expr) (byteLength : Nat) (isSigned : Bool)
  | asView (operand : Expr) (templateName : TemplateName)
  | index (base index : Expr)
  | slice (base start stop : Expr) (lengthMode : Bool)
  | member (object : String) (path : List String)
  | sizeofTemplate (templateName : TemplateName)
  | deref (length : Nat) (address : Expr)
  | call (callee : String)
  | assignment (target : Expr) (op : AssignmentSpelling) (unsignedTarget : Bool) (value : Expr)

namespace Expr

def integerSpelling? : Expr → Option Spelling
  | .integerLiteral value => some value
  | _ => none

def isFloatLiteral : Expr → Bool
  | .floatLiteral _ => true
  | _ => false

end Expr

namespace AssignmentSpelling

def text : AssignmentSpelling → String
  | .default => "="
  | .rebind => "&="
  | .string => "%s="
  | .boolean => "%b="
  | .typed typedPrefix none =>
      let width := match typedPrefix.width with
        | none => ""
        | some byteLength => toString byteLength
      let marker := match typedPrefix.marker with
        | .d => "d" | .u => "u" | .f => "f"
      "%" ++ width ++ marker ++ "="
  | .typed typedPrefix (some symbol) =>
      OperatorSpelling.text { typed := some typedPrefix, symbol } ++ "="

/-- The binary operator of a compound assignment: its spelling without the final `=`. -/
def compoundBinaryOperator : AssignmentSpelling → Option OperatorSpelling
  | .typed typedPrefix (some symbol) => some { typed := some typedPrefix, symbol }
  | _ => none

end AssignmentSpelling

end HitSimple.Ast

import Mathlib.Data.List.Basic

namespace HitSimple.CCompat

inductive TokenKind where
  | endOfFile
  | invalid
  | identifier
  | integer
  | float
  | string
  | character
  | newline
  | lparen
  | rparen
  | lbrace
  | rbrace
  | lbracket
  | rbracket
  | comma
  | semicolon
  | colon
  | question
  | dot
  | operator
  deriving DecidableEq, Repr

structure Token where
  kind : TokenKind
  lexeme : String
  deriving DecidableEq, Repr

def endToken : Token :=
  ⟨.endOfFile, ""⟩

inductive UnaryOperator where
  | dereference | address | not | complement | negate | plus
  deriving DecidableEq, Repr

def UnaryOperator.lexeme : UnaryOperator → String
  | dereference => "*"
  | address => "&"
  | not => "!"
  | complement => "~"
  | negate => "-"
  | plus => "+"

/-- `isUnaryOperator`. -/
def unaryOperator : String → Option UnaryOperator
  | "*" => some .dereference
  | "&" => some .address
  | "!" => some .not
  | "~" => some .complement
  | "-" => some .negate
  | "+" => some .plus
  | _ => none

inductive BinaryOperator where
  | logicalOr | logicalAnd | bitOr | bitXor | bitAnd | equal | notEqual
  | less | lessEqual | greater | greaterEqual | shiftLeft | shiftRight
  | add | subtract | multiply | divide | remainder
  deriving DecidableEq, Repr

namespace BinaryOperator

def lexeme : BinaryOperator → String
  | logicalOr => "||"
  | logicalAnd => "&&"
  | bitOr => "|"
  | bitXor => "^"
  | bitAnd => "&"
  | equal => "=="
  | notEqual => "!="
  | less => "<"
  | lessEqual => "<="
  | greater => ">"
  | greaterEqual => ">="
  | shiftLeft => "<<"
  | shiftRight => ">>"
  | add => "+"
  | subtract => "-"
  | multiply => "*"
  | divide => "/"
  | remainder => "%"

/-- `binaryPrecedence` on the operators that have one. -/
def precedence : BinaryOperator → Nat
  | logicalOr => 1
  | logicalAnd => 2
  | bitOr => 3
  | bitXor => 4
  | bitAnd => 5
  | equal | notEqual => 6
  | less | lessEqual | greater | greaterEqual => 7
  | shiftLeft | shiftRight => 8
  | add | subtract => 9
  | multiply | divide | remainder => 10

end BinaryOperator

def binaryOperator : String → Option BinaryOperator
  | "||" => some .logicalOr
  | "&&" => some .logicalAnd
  | "|" => some .bitOr
  | "^" => some .bitXor
  | "&" => some .bitAnd
  | "==" => some .equal
  | "!=" => some .notEqual
  | "<" => some .less
  | "<=" => some .lessEqual
  | ">" => some .greater
  | ">=" => some .greaterEqual
  | "<<" => some .shiftLeft
  | ">>" => some .shiftRight
  | "+" => some .add
  | "-" => some .subtract
  | "*" => some .multiply
  | "/" => some .divide
  | "%" => some .remainder
  | _ => none

theorem binaryOperator_lexeme (op : BinaryOperator) : binaryOperator op.lexeme = some op := by
  cases op <;> rfl

inductive AssignmentOperator where
  | assign | add | subtract | multiply | divide | remainder | shiftLeft | shiftRight
  | bitAnd | bitXor | bitOr
  deriving DecidableEq, Repr

def AssignmentOperator.lexeme : AssignmentOperator → String
  | assign => "="
  | add => "+="
  | subtract => "-="
  | multiply => "*="
  | divide => "/="
  | remainder => "%="
  | shiftLeft => "<<="
  | shiftRight => ">>="
  | bitAnd => "&="
  | bitXor => "^="
  | bitOr => "|="

/-- `isAssignmentOperator`. -/
def assignmentOperator : String → Option AssignmentOperator
  | "=" => some .assign
  | "+=" => some .add
  | "-=" => some .subtract
  | "*=" => some .multiply
  | "/=" => some .divide
  | "%=" => some .remainder
  | "<<=" => some .shiftLeft
  | ">>=" => some .shiftRight
  | "&=" => some .bitAnd
  | "^=" => some .bitXor
  | "|=" => some .bitOr
  | _ => none

inductive BaseType where
  | char | signedChar | unsignedChar | short | unsignedShort | int | unsignedInt
  | long | unsignedLong | longLong | unsignedLongLong | float | double | void
  | struct | typedefName
  deriving DecidableEq, Repr

/-- The name is empty where the base has none. -/
structure CType where
  base : BaseType
  name : String
  isConst : Bool
  isVolatile : Bool
  deriving DecidableEq, Repr

inductive LiteralKind where
  | integer | float | string | character
  deriving DecidableEq, Repr

def LiteralKind.token : LiteralKind → TokenKind
  | integer => .integer
  | float => .float
  | string => .string
  | character => .character

inductive Expr where
  | identifier (name : String)
  | literal (kind : LiteralKind) (value : String)
  | unary (op : UnaryOperator) (operand : Expr)
  | binary (op : BinaryOperator) (left right : Expr)
  | conditional (condition thenExpr elseExpr : Expr)
  | assignment (op : AssignmentOperator) (target value : Expr)
  | cast (type : CType) (pointerDepth : Nat) (operand : Expr)
  | sizeofType (type : CType)
  | sizeofIdentifier (name : String)
  | index (base index : Expr)
  | call (callee : Expr) (arguments : List Expr)
  | member (base : Expr) (name : String) (throughPointer : Bool)
  deriving Repr

end HitSimple.CCompat

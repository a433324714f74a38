namespace HitSimple

inductive BinaryOperator where
  | add | subtract | multiply | divide | modulo | power | shiftLeft | shiftRight
  | bitAnd | bitOr | bitXor
  | equal | notEqual | less | lessEqual | greater | greaterEqual
  | logicalAnd | logicalOr
  deriving DecidableEq, Repr

/-- The letter after `%` and its optional byte count in a typed operator. -/
inductive OperatorMarker where
  | d | u | f
  deriving DecidableEq, Repr

structure TypedPrefix where
  width : Option Nat
  marker : OperatorMarker
  deriving DecidableEq, Repr

/-- A binary operator as it is spelled: `+`, `%d+` or `%4u+`. -/
structure OperatorSpelling where
  typed : Option TypedPrefix
  symbol : BinaryOperator
  deriving DecidableEq, Repr

namespace BinaryOperator

def text : BinaryOperator → String
  | add => "+" | subtract => "-" | multiply => "*" | divide => "/" | modulo => "%"
  | power => "**" | shiftLeft => "<<" | shiftRight => ">>" | bitAnd => "&" | bitOr => "|"
  | bitXor => "^" | equal => "==" | notEqual => "!=" | less => "<" | lessEqual => "<="
  | greater => ">" | greaterEqual => ">=" | logicalAnd => "&&" | logicalOr => "||"

def isLogical (op : BinaryOperator) : Bool :=
  op == logicalAnd || op == logicalOr

def isComparison (op : BinaryOperator) : Bool :=
  op == equal || op == notEqual || op == less || op == lessEqual || op == greater ||
    op == greaterEqual

def isIntegerArithmetic (op : BinaryOperator) : Bool :=
  op == add || op == subtract || op == multiply || op == divide || op == modulo ||
    op == power || op == shiftLeft || op == shiftRight || op == bitAnd || op == bitOr ||
    op == bitXor

def isDivision (op : BinaryOperator) : Bool :=
  op == divide || op == modulo

theorem isComparison_of_isIntegerArithmetic {op : BinaryOperator}
    (arithmetic : op.isIntegerArithmetic = true) : op.isComparison = false := by
  cases op <;> first | rfl | cases arithmetic

theorem isIntegerArithmetic_of_not {op : BinaryOperator} (notLogical : op.isLogical = false)
    (noComparison : op.isComparison = false) : op.isIntegerArithmetic = true := by
  cases op <;> first | rfl | contradiction

theorem isDivision_of_isComparison {op : BinaryOperator} (comparison : op.isComparison = true) :
    op.isDivision = false := by
  cases op <;> first | rfl | cases comparison

end BinaryOperator

namespace OperatorSpelling

def ordinary (symbol : BinaryOperator) : OperatorSpelling :=
  { typed := none, symbol }

def text (op : OperatorSpelling) : String :=
  match op.typed with
  | none => op.symbol.text
  | some typed =>
      let width := match typed.width with
        | none => ""
        | some byteLength => toString byteLength
      let marker := match typed.marker with
        | .d => "d" | .u => "u" | .f => "f"
      "%" ++ width ++ marker ++ op.symbol.text

/-- Every typed spelling starts with `%`, and so does the ordinary remainder. -/
def startsWithPercent (op : OperatorSpelling) : Bool :=
  op.typed.isSome || op.symbol == .modulo

def integerByteLengthForOperator (op : OperatorSpelling) : Option Nat :=
  match op.typed with
  | none => some (if op.symbol.isIntegerArithmetic then 4 else 1)
  | some typed =>
      let byteLength := typed.width.getD 4
      if typed.marker = .f ∨ op.symbol.isLogical then none
      else if byteLength = 1 ∨ byteLength = 2 ∨ byteLength = 4 ∨ byteLength = 8 then
        some byteLength
      else none

def isTypedIntegerOperator (op : OperatorSpelling) : Bool :=
  op.startsWithPercent && op.integerByteLengthForOperator.isSome

def isPlainModulo (op : OperatorSpelling) : Bool :=
  op.typed.isNone && op.symbol == .modulo

/-- Whether the byte count of a typed operator is omitted, as in `%d+`. -/
def omitsWidth (op : OperatorSpelling) : Bool :=
  match op.typed with
  | some { width := none, marker := .d } | some { width := none, marker := .u } => true
  | _ => false

def hasUnsignedMarker (op : OperatorSpelling) : Bool :=
  match op.typed with
  | some { marker := .u, .. } => true
  | _ => false

/-- The operator analysed by the integer rules: the symbol of an accepted typed spelling. -/
def integerSymbol? (op : OperatorSpelling) : Option BinaryOperator :=
  if op.isTypedIntegerOperator || op.typed.isNone then some op.symbol else none

def typedIntegerComputationLength (op : OperatorSpelling) (left right : Nat) : Nat :=
  match op.integerByteLengthForOperator with
  | none => 0
  | some width => if op.omitsWidth then max left right else width

end OperatorSpelling

end HitSimple

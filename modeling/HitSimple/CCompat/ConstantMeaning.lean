import HitSimple.CCompat.ConstantLowering
import HitSimple.FixedWidth.Formats

namespace HitSimple.CCompat
open Literal (Spelling)
open Lexer (digitsValue)
open FixedWidth (IntegerFormat)

/-! ### The operations of C -/

def int32 : IntegerFormat := ⟨32, true⟩
def uint32 : IntegerFormat := ⟨32, false⟩
def long64 : IntegerFormat := ⟨64, true⟩
def unsignedLong64 : IntegerFormat := ⟨64, false⟩

/-- The integer promotions. -/
def promoted (format : IntegerFormat) : IntegerFormat :=
  if format.width < 32 then int32 else format

/-- The usual arithmetic conversions; a wider signed type has all values of an unsigned one. -/
def usual (left right : IntegerFormat) : IntegerFormat :=
  let left := promoted left
  let right := promoted right
  if left.width < right.width then right
  else if right.width < left.width then left
  else ⟨left.width, left.isSigned && right.isSigned⟩

/-- The result of an operation: undefined out of the range of a signed type. -/
def result (format : IntegerFormat) (value : Int) : Option Int :=
  if format.isSigned then if format.Holds value then some value else none
  else some (format.convert value)

def truth (holds : Prop) [Decidable holds] : Int :=
  if holds then 1 else 0

def operate (format : IntegerFormat) (op : BinaryOperator) (left right : Int) : Option Int :=
  match op with
  | .add => result format (left + right)
  | .subtract => result format (left - right)
  | .multiply => result format (left * right)
  | .divide => if right = 0 then none else result format (left.tdiv right)
  | .remainder =>
      if right = 0 then none
      else (result format (left.tdiv right)).bind fun _ => result format (left.tmod right)
  | .bitAnd => some (format.convert ↑(format.pattern left &&& format.pattern right))
  | .bitOr => some (format.convert ↑(format.pattern left ||| format.pattern right))
  | .bitXor => some (format.convert ↑(format.pattern left ^^^ format.pattern right))
  | .equal => some (truth (left = right))
  | .notEqual => some (truth (left ≠ right))
  | .less => some (truth (left < right))
  | .lessEqual => some (truth (left ≤ right))
  | .greater => some (truth (left > right))
  | .greaterEqual => some (truth (left ≥ right))
  | _ => none

/-- A shift; that of a negative value to the right rounds down. -/
def shift (format : IntegerFormat) (op : BinaryOperator) (left count : Int) : Option Int :=
  if count < 0 ∨ format.width ≤ count then none
  else if op = .shiftRight then some (left / 2 ^ count.toNat)
  else if format.isSigned ∧ left < 0 then none
  else result format (left * 2 ^ count.toNat)

/-- The unary operators on the promoted operand. -/
def operateUnary (format : IntegerFormat) (op : UnaryOperator) (operand : Int) : Option Int :=
  match op with
  | .plus => some operand
  | .complement => some (format.convert (-operand - 1))
  | .negate => result format (-operand)
  | _ => none

/-! ### Literals -/

/-- The types that a literal may have, in order. -/
def literalTypes (base : Nat) (suffix : Spelling) : List IntegerFormat :=
  [int32, uint32, long64, unsignedLong64].filter fun format =>
    (format.isSigned || base ≠ 10 || suffix.any isUnsignedMark) &&
      (!format.isSigned || !suffix.any isUnsignedMark) &&
      (format.width = 64 || !suffix.any isLongMark)

/-- A literal has the first of its types that holds its value. -/
def LiteralMeans (text : Spelling) (format : IntegerFormat) (value : Int) : Prop :=
  ∃ base digits numeral suffix, text = numeral ++ suffix ∧ Numeral base digits numeral ∧
    IsSuffix suffix ∧ value = digitsValue base digits ∧
    (literalTypes base suffix).find? (fun candidate => candidate.Holds value) = some format

/-! ### Expressions -/

inductive ValueType where
  | integer (format : IntegerFormat)
  | address
  | floating

/-- The sizes of the integer types. -/
def IsStandard (byteLength : Nat) : Prop :=
  byteLength = 1 ∨ byteLength = 2 ∨ byteLength = 4 ∨ byteLength = 8

instance (byteLength : Nat) : Decidable (IsStandard byteLength) :=
  inferInstanceAs (Decidable (_ ∨ _))

/-- The type of a value that a declaration describes. -/
def describedType (type : TypeInfo) : Option ValueType :=
  match type.abi.kind with
  | .integer =>
      if IsStandard type.abi.byteLength then
        some (.integer ⟨type.abi.byteLength * 8, type.abi.isSigned⟩)
      else none
  | .pointer => some .address
  | .floating => some .floating
  | _ => none

/-- The expressions that read an object, call a function or take an address. -/
def isAccess : Expr → Bool
  | .identifier _ | .index _ _ | .call _ _ | .member _ _ _ => true
  | .unary op _ => op = .dereference || op = .address
  | _ => false

def ValueType.convert : ValueType → Int → Int
  | .integer format, value => format.convert value
  | _, value => unsignedLong64.convert value

section
variable (scope : Scope)

inductive HasType : Expr → ValueType → Prop
  | integer {text : String} {format : IntegerFormat} {value : Int}
      (means : LiteralMeans text.toList format value) :
      HasType (.literal .integer text) (.integer format)
  | float {text : String} : HasType (.literal .float text) .floating
  | string {text : String} : HasType (.literal .string text) .address
  | character {text : String} : HasType (.literal .character text) (.integer int32)
  | access {expression : Expr} {described : TypeInfo} {type : ValueType}
      (accessing : isAccess expression = true)
      (found : scope.access expression = some described)
      (denoted : describedType described = some type) : HasType expression type
  | not {operand : Expr} {type : ValueType} (typed : HasType operand type) :
      HasType (.unary .not operand) (.integer int32)
  | unary {op : UnaryOperator} {operand : Expr} {format : IntegerFormat}
      (arithmetic : op = .plus ∨ op = .negate ∨ op = .complement)
      (typed : HasType operand (.integer format)) :
      HasType (.unary op operand) (.integer (promoted format))
  | truth {op : BinaryOperator} {left right : Expr} {leftType rightType : ValueType}
      (testing : isComparison op = true ∨ isLogical op = true) (leftTyped : HasType left leftType)
      (rightTyped : HasType right rightType) : HasType (.binary op left right) (.integer int32)
  | shift {op : BinaryOperator} {left right : Expr} {leftFormat rightFormat : IntegerFormat}
      (shifting : isShift op = true) (leftTyped : HasType left (.integer leftFormat))
      (rightTyped : HasType right (.integer rightFormat)) :
      HasType (.binary op left right) (.integer (promoted leftFormat))
  | arithmetic {op : BinaryOperator} {left right : Expr} {leftFormat rightFormat : IntegerFormat}
      (plain : isComparison op = false ∧ isLogical op = false ∧ isShift op = false)
      (leftTyped : HasType left (.integer leftFormat))
      (rightTyped : HasType right (.integer rightFormat)) :
      HasType (.binary op left right) (.integer (usual leftFormat rightFormat))
  | floating {op : BinaryOperator} {left right : Expr} (plain : isComparison op = false)
      (leftTyped : HasType left .floating) (rightTyped : HasType right .floating) :
      HasType (.binary op left right) .floating
  | difference {left right : Expr} (leftTyped : HasType left .address)
      (rightTyped : HasType right .address) :
      HasType (.binary .subtract left right) (.integer long64)
  | offset {op : BinaryOperator} {left right : Expr} {format : IntegerFormat}
      (additive : op = .add ∨ op = .subtract) (leftTyped : HasType left .address)
      (rightTyped : HasType right (.integer format)) :
      HasType (.binary op left right) .address
  | offsetRight {left right : Expr} {format : IntegerFormat}
      (leftTyped : HasType left (.integer format)) (rightTyped : HasType right .address) :
      HasType (.binary .add left right) .address
  | conditional {condition thenExpr elseExpr : Expr} {test : ValueType}
      {leftFormat rightFormat : IntegerFormat} (conditionTyped : HasType condition test)
      (leftTyped : HasType thenExpr (.integer leftFormat))
      (rightTyped : HasType elseExpr (.integer rightFormat)) :
      HasType (.conditional condition thenExpr elseExpr) (.integer (usual leftFormat rightFormat))
  | sameBranches {condition thenExpr elseExpr : Expr} {test type : ValueType}
      (conditionTyped : HasType condition test)
      (other : ∀ format, type ≠ .integer format) (leftTyped : HasType thenExpr type)
      (rightTyped : HasType elseExpr type) :
      HasType (.conditional condition thenExpr elseExpr) type
  | assignment {op : AssignmentOperator} {target value : Expr} {described : TypeInfo}
      {type : ValueType} (found : scope.lvalue target = some described)
      (denoted : describedType described = some type) : HasType (.assignment op target value) type
  | cast {source : CType} {pointerDepth : Nat} {operand : Expr} {target : TypeInfo}
      {type : ValueType} (found : scope.declarations.resolveType source pointerDepth = some target)
      (denoted : describedType target = some type) :
      HasType (.cast source pointerDepth operand) type
  | sizeofType {type : CType} : HasType (.sizeofType type) (.integer unsignedLong64)
  | sizeofIdentifier {name : String} :
      HasType (.sizeofIdentifier name) (.integer unsignedLong64)

/-- The values of constants. An address is the number it is converted from; arithmetic with
addresses that are no objects, and with floating values, is left out. -/
inductive Means : Expr → Int → Prop
  | integer {text : String} {format : IntegerFormat} {value : Int}
      (means : LiteralMeans text.toList format value) : Means (.literal .integer text) value
  | not {operand : Expr} {value : Int} (means : Means operand value) :
      Means (.unary .not operand) (truth (value = 0))
  | unary {op : UnaryOperator} {operand : Expr} {format : IntegerFormat} {value outcome : Int}
      (typed : HasType scope operand (.integer format)) (means : Means operand value)
      (computed : operateUnary (promoted format) op value = some outcome) :
      Means (.unary op operand) outcome
  | andLeft {left right : Expr} (means : Means left 0) : Means (.binary .logicalAnd left right) 0
  | andRight {left right : Expr} {value other : Int} (means : Means left value) (nonzero : value ≠ 0)
      (meansRight : Means right other) : Means (.binary .logicalAnd left right) (truth (other ≠ 0))
  | orLeft {left right : Expr} {value : Int} (means : Means left value) (nonzero : value ≠ 0) :
      Means (.binary .logicalOr left right) 1
  | orRight {left right : Expr} {other : Int} (means : Means left 0) (meansRight : Means right other) :
      Means (.binary .logicalOr left right) (truth (other ≠ 0))
  | shift {op : BinaryOperator} {left right : Expr} {format : IntegerFormat}
      {countFormat : IntegerFormat} {value count outcome : Int} (shifting : isShift op = true)
      (typed : HasType scope left (.integer format))
      (countTyped : HasType scope right (.integer countFormat)) (means : Means left value)
      (meansRight : Means right count)
      (computed : shift (promoted format) op value count = some outcome) :
      Means (.binary op left right) outcome
  | arithmetic {op : BinaryOperator} {left right : Expr} {leftFormat rightFormat : IntegerFormat}
      {value other outcome : Int} (leftTyped : HasType scope left (.integer leftFormat))
      (rightTyped : HasType scope right (.integer rightFormat)) (means : Means left value)
      (meansRight : Means right other)
      (computed : operate (usual leftFormat rightFormat) op
        ((usual leftFormat rightFormat).convert value)
        ((usual leftFormat rightFormat).convert other) = some outcome) :
      Means (.binary op left right) outcome
  | thenBranch {condition thenExpr elseExpr : Expr} {type : ValueType} {test value : Int}
      (typed : HasType scope (.conditional condition thenExpr elseExpr) type)
      (means : Means condition test) (nonzero : test ≠ 0) (chosen : Means thenExpr value) :
      Means (.conditional condition thenExpr elseExpr) (type.convert value)
  | elseBranch {condition thenExpr elseExpr : Expr} {type : ValueType} {value : Int}
      (typed : HasType scope (.conditional condition thenExpr elseExpr) type)
      (means : Means condition 0) (chosen : Means elseExpr value) :
      Means (.conditional condition thenExpr elseExpr) (type.convert value)
  | cast {source : CType} {pointerDepth : Nat} {operand : Expr} {type : ValueType} {value : Int}
      (typed : HasType scope (.cast source pointerDepth operand) type) (whole : type ≠ .floating)
      (means : Means operand value) :
      Means (.cast source pointerDepth operand) (type.convert value)
  | sizeof {expression : Expr} {byteLength : Nat} (size : scope.sizeOf expression = .ok byteLength)
      (fits : unsignedLong64.Holds byteLength) : Means expression byteLength

end

end HitSimple.CCompat

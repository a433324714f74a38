import HitSimple.CCompat.Numerals
import HitSimple.CCompat.Tokens
import Mathlib.Data.List.DropRight

namespace HitSimple.CCompat
open Literal (Spelling parseUnsignedIntegerLiteral)

/-- The expressions of the core that a constant can have; the others have no value. -/
inductive CoreExpr where
  | integerLiteral (value : Spelling)
  | unsigned (operand : CoreExpr) (byteLength : Nat)
  | integerCast (operand : CoreExpr) (byteLength : Nat) (isSigned : Bool)
  | unary (op : UnaryOperator) (operand : CoreExpr)
  | binary (left : CoreExpr) (op : String) (right : CoreExpr)
  | ternary (condition thenExpr elseExpr : CoreExpr)
  | other

structure ConstantInteger where
  bits : Nat
  byteLength : Nat
  isSigned : Bool
  deriving DecidableEq

structure TypedIntegerOperator where
  byteLength : Nat
  isSigned : Bool
  symbol : String

/-- An evaluation without a value, or a signed operation of 64 bits that overflows. -/
inductive Stop where
  | noValue
  | overflow
  deriving DecidableEq

abbrev Evaluation := Except Stop

def int64 (value : Int) : Evaluation Int :=
  if -2 ^ 63 ≤ value ∧ value < 2 ^ 63 then .ok value else .error .overflow

def integerMask (byteLength : Nat) : Evaluation Nat :=
  if byteLength ≠ 1 ∧ byteLength ≠ 2 ∧ byteLength ≠ 4 ∧ byteLength ≠ 8 then .error .noValue
  else if byteLength = 8 then .ok (2 ^ 64 - 1)
  else .ok (2 ^ (byteLength * 8) - 1)

def convertConstantInteger (value : ConstantInteger) (byteLength : Nat) (isSigned : Bool) :
    Evaluation ConstantInteger := do
  let mask ← integerMask byteLength
  return ⟨value.bits &&& mask, byteLength, isSigned⟩

def signedConstantValue (value : ConstantInteger) : Evaluation Int :=
  if value.isSigned = false then .error .noValue
  else do
    let mask ← integerMask value.byteLength
    let bits := value.bits &&& mask
    let bitWidth := value.byteLength * 8
    if bits &&& 2 ^ (bitWidth - 1) = 0 then return bits
    else if value.byteLength = 8 then
      let magnitude : Nat := (2 ^ 64 - 1 - bits + 1) % 2 ^ 64
      if magnitude = 2 ^ 63 then return -2 ^ 63
      else int64 (-(magnitude : Int))
    else
      let modulus ← int64 (2 ^ bitWidth)
      int64 (bits - modulus)

/-- `static_cast<std::uint64_t>`. -/
def uint64 (value : Int) : Nat :=
  (value % 2 ^ 64).toNat

def promoteConstantInteger (value : ConstantInteger) : Evaluation ConstantInteger :=
  if 4 ≤ value.byteLength then .ok value
  else do
    let bits ← if value.isSigned then uint64 <$> signedConstantValue value else pure value.bits
    convertConstantInteger ⟨bits, 8, true⟩ 4 true

def isLiteralSuffix (ch : Char) : Bool :=
  ch = 'u' || ch = 'U' || ch = 'l' || ch = 'L'

def parseCIntegerLiteralMagnitude (text : Spelling) : Option Nat :=
  parseUnsignedIntegerLiteral (text.rdropWhile isLiteralSuffix)

def parseTypedIntegerOperator (op : String) : Option TypedIntegerOperator :=
  match op.toList with
  | '%' :: rest =>
      let digits := rest.takeWhile Char.isDigit
      let byteLength :=
        digits.foldl (fun value ch => (value * 10 + (ch.toNat - '0'.toNat)) % 2 ^ 64) 0
      match digits, rest.dropWhile Char.isDigit with
      | _ :: _, kind :: symbol =>
          if (kind ≠ 'd' ∧ kind ≠ 'u') ∨ symbol = [] ∨
              integerMask byteLength = .error .noValue then none
          else some ⟨byteLength, kind = 'd', String.ofList symbol⟩
      | _, _ => none
  | _ => none

/-! ### Operations -/

def ofTruth (result : Bool) : ConstantInteger :=
  ⟨if result then 1 else 0, 1, false⟩

/-- The chain of tests over `==`, `!=`, `<`, `<=`, `>` and `>=`. -/
def compareConstants {α : Type} [LinearOrder α] (op : BinaryOperator) (left right : α) : Bool :=
  match op with
  | .equal => left = right
  | .notEqual => left ≠ right
  | .less => left < right
  | .lessEqual => left ≤ right
  | .greater => left > right
  | _ => left ≥ right

def isComparison : BinaryOperator → Bool
  | .equal | .notEqual | .less | .lessEqual | .greater | .greaterEqual => true
  | _ => false

def isShift : BinaryOperator → Bool
  | .shiftLeft | .shiftRight => true
  | _ => false

/-- The count of a shift, which may not be negative. -/
def shiftCount (right : ConstantInteger) : Evaluation Nat := do
  let promotedRight ← promoteConstantInteger right
  let mask ← integerMask promotedRight.byteLength
  if promotedRight.isSigned then do
    let signedCount ← signedConstantValue promotedRight
    if signedCount < 0 then throw .noValue else return promotedRight.bits &&& mask
  else return promotedRight.bits &&& mask

def shiftRightBits (operation : TypedIntegerOperator) (bits mask count : Nat) : Nat :=
  if operation.isSigned ∧ bits &&& 2 ^ (operation.byteLength * 8 - 1) ≠ 0 then
    bits >>> count ||| (mask ^^^ (mask >>> count))
  else bits >>> count

def evaluateShift (op : BinaryOperator) (operation : TypedIntegerOperator)
    (convertedLeft right : ConstantInteger) : Evaluation ConstantInteger := do
  let count ← shiftCount right
  if operation.byteLength * 8 ≤ count then throw .noValue
  else if op = .shiftLeft then
    let shifted := convertConstantInteger
      ⟨convertedLeft.bits * 2 ^ count % 2 ^ 64, operation.byteLength, operation.isSigned⟩
      operation.byteLength operation.isSigned
    if operation.isSigned then do
      let signedLeft ← signedConstantValue convertedLeft
      if signedLeft < 0 ∨ signedLeft > (2 ^ 63 - 1) / 2 ^ count then throw .noValue else shifted
    else shifted
  else do
    let mask ← integerMask operation.byteLength
    return ⟨shiftRightBits operation convertedLeft.bits mask count &&& mask, operation.byteLength,
      operation.isSigned⟩

def signedMinimum (bitWidth : Nat) : Evaluation Int :=
  if bitWidth = 64 then return -2 ^ 63
  else do
    let power ← int64 (2 ^ (bitWidth - 1))
    int64 (-power)

def signedMaximum (bitWidth : Nat) : Evaluation Int :=
  if bitWidth = 64 then return 2 ^ 63 - 1
  else do
    let power ← int64 (2 ^ (bitWidth - 1))
    int64 (power - 1)

/-! Whether a result leaves the range, found out without computing it. -/

def sumOverflows (minimum maximum left right : Int) : Evaluation Bool :=
  if right > 0 then return left > (← int64 (maximum - right))
  else if right < 0 then return left < (← int64 (minimum - right))
  else return false

def differenceOverflows (minimum maximum left right : Int) : Evaluation Bool :=
  if right > 0 then return left < (← int64 (minimum + right))
  else if right < 0 then return left > (← int64 (maximum + right))
  else return false

def productOverflows (minimum maximum left right : Int) : Evaluation Bool :=
  if left > 0 ∧ right > 0 then return left > (← int64 (maximum.tdiv right))
  else if left > 0 ∧ right < 0 then return right < (← int64 (minimum.tdiv left))
  else if left < 0 ∧ right > 0 then return left < (← int64 (minimum.tdiv right))
  else if left < 0 ∧ right < 0 then return left < (← int64 (maximum.tdiv right))
  else return false

def signedArithmetic (op : BinaryOperator) (minimum maximum left right : Int) : Evaluation Int :=
  match op with
  | .add => do
      if ← sumOverflows minimum maximum left right then throw .noValue else int64 (left + right)
  | .subtract => do
      if ← differenceOverflows minimum maximum left right then throw .noValue
      else int64 (left - right)
  | .multiply =>
      if left = 0 ∨ right = 0 then return 0
      else if (left = -1 ∧ right = minimum) ∨ (right = -1 ∧ left = minimum) then throw .noValue
      else do
        if ← productOverflows minimum maximum left right then throw .noValue
        else int64 (left * right)
  | .divide =>
      if right = 0 ∨ (left = minimum ∧ right = -1) then throw .noValue
      else int64 (left.tdiv right)
  | .remainder =>
      if right = 0 ∨ (left = minimum ∧ right = -1) then throw .noValue
      else int64 (left.tmod right)
  | _ => throw .noValue

def unsignedArithmetic (op : BinaryOperator) (left right : Nat) : Evaluation Nat :=
  match op with
  | .add => return (left + right) % 2 ^ 64
  | .subtract => return (left + (2 ^ 64 - right)) % 2 ^ 64
  | .multiply => return left * right % 2 ^ 64
  | .divide => if right = 0 then throw .noValue else return left / right
  | .remainder => if right = 0 then throw .noValue else return left % right
  | _ => throw .noValue

def bitwiseBits (op : BinaryOperator) (left right : Nat) : Nat :=
  match op with
  | .bitAnd => left &&& right
  | .bitOr => left ||| right
  | _ => left ^^^ right

/-- `evaluateTypedIntegerBinary` behind the evaluation of its operands. -/
def evaluateTyped (operation : TypedIntegerOperator) (left right : ConstantInteger) :
    Evaluation ConstantInteger :=
  match binaryOperator operation.symbol with
  | none => throw .noValue
  | some op =>
      if op = .logicalAnd ∨ op = .logicalOr then throw .noValue
      else do
        let convertedLeft ←
          convertConstantInteger left operation.byteLength operation.isSigned
        if isShift op then evaluateShift op operation convertedLeft right
        else
          let convertedRight ←
            convertConstantInteger right operation.byteLength operation.isSigned
          let mask ← integerMask operation.byteLength
          let leftBits := convertedLeft.bits &&& mask
          let rightBits := convertedRight.bits &&& mask
          if op = .bitAnd ∨ op = .bitOr ∨ op = .bitXor then
            return ⟨bitwiseBits op leftBits rightBits, operation.byteLength, operation.isSigned⟩
          else if operation.isSigned then
            let signedLeft ← signedConstantValue convertedLeft
            let signedRight ← signedConstantValue convertedRight
            let minimum ← signedMinimum (operation.byteLength * 8)
            let maximum ← signedMaximum (operation.byteLength * 8)
            if isComparison op then return ofTruth (compareConstants op signedLeft signedRight)
            else
              let result ← signedArithmetic op minimum maximum signedLeft signedRight
              convertConstantInteger ⟨uint64 result, operation.byteLength, true⟩
                operation.byteLength true
          else if isComparison op then return ofTruth (compareConstants op leftBits rightBits)
          else
            let bits ← unsignedArithmetic op leftBits rightBits
            return ⟨bits &&& mask, operation.byteLength, false⟩

def isTrue (value : ConstantInteger) : Evaluation Bool := do
  let mask ← integerMask value.byteLength
  return value.bits &&& mask ≠ 0

def evaluateUnary (op : UnaryOperator) (operand : ConstantInteger) :
    Evaluation ConstantInteger :=
  match op with
  | .not => do
      let truth ← isTrue operand
      return ofTruth !truth
  | .plus => do
      let promoted ← promoteConstantInteger operand
      let _ ← integerMask promoted.byteLength
      return promoted
  | .complement => do
      let promoted ← promoteConstantInteger operand
      let mask ← integerMask promoted.byteLength
      return ⟨(2 ^ 64 - 1 - promoted.bits) &&& mask, promoted.byteLength, promoted.isSigned⟩
  | .negate => do
      let promoted ← promoteConstantInteger operand
      let mask ← integerMask promoted.byteLength
      if promoted.isSigned = false then
        return ⟨(2 ^ 64 - promoted.bits) % 2 ^ 64 &&& mask, promoted.byteLength, false⟩
      else do
        let signedValue ← signedConstantValue promoted
        if signedValue = -2 ^ 63 then throw .noValue
        else do
          let negated ← int64 (-signedValue)
          convertConstantInteger ⟨uint64 negated, promoted.byteLength, true⟩
            promoted.byteLength true
  | _ => throw .noValue

def evaluateIntegerConstant : CoreExpr → Evaluation ConstantInteger
  | .integerLiteral value =>
      match parseCIntegerLiteralMagnitude value with
      | none => throw .noValue
      | some magnitude =>
          return ⟨magnitude, if magnitude > 2 ^ 31 - 1 then 8 else 4, magnitude ≤ 2 ^ 63 - 1⟩
  | .unsigned operand byteLength => do
      convertConstantInteger (← evaluateIntegerConstant operand) byteLength false
  | .integerCast operand byteLength isSigned => do
      convertConstantInteger (← evaluateIntegerConstant operand) byteLength isSigned
  | .unary op operand => do evaluateUnary op (← evaluateIntegerConstant operand)
  | .binary left op right =>
      if op = "&&" ∨ op = "||" then do
        let leftIsTrue ← isTrue (← evaluateIntegerConstant left)
        if (op = "&&" ∧ !leftIsTrue) ∨ (op = "||" ∧ leftIsTrue) then
          return ofTruth (op = "||")
        else return ofTruth (← isTrue (← evaluateIntegerConstant right))
      else
        match parseTypedIntegerOperator op with
        | none => throw .noValue
        | some operation => do
            let leftValue ← evaluateIntegerConstant left
            let rightValue ← evaluateIntegerConstant right
            evaluateTyped operation leftValue rightValue
  | .ternary condition thenExpr elseExpr => do
      if ← isTrue (← evaluateIntegerConstant condition) then evaluateIntegerConstant thenExpr
      else evaluateIntegerConstant elseExpr
  | .other => throw .noValue

structure ConstantShiftCount where
  isNegative : Bool
  magnitude : Nat
  deriving DecidableEq

/-- The count, at the promoted type of its operand. -/
def constantShiftCount (expression : CoreExpr) (byteLength : Nat) (isSigned : Bool) :
    Evaluation ConstantShiftCount := do
  let value ← evaluateIntegerConstant expression
  let promoted ← promoteConstantInteger value
  let converted ← convertConstantInteger promoted byteLength isSigned
  if converted.isSigned = false then return ⟨false, converted.bits⟩
  else
    let signedValue ← signedConstantValue converted
    if 0 ≤ signedValue then return ⟨false, uint64 signedValue⟩
    else if signedValue = -2 ^ 63 then return ⟨true, 2 ^ 63⟩
    else return ⟨true, uint64 (← int64 (-signedValue))⟩

end HitSimple.CCompat

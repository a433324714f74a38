import HitSimple.Operator
import HitSimple.FixedWidth.SignAgreement

namespace HitSimple.Standard
open FixedWidth

/-- An integer View as the language rules see it: bytes, their number and their interpretation. -/
structure IntegerValue where
  byteLength : Nat
  isUnsigned : Bool
  bits : BitVec (byteLength * 8)
  deriving DecidableEq, Repr

namespace IntegerValue

def value (view : IntegerValue) : Int :=
  reading view.isUnsigned view.bits

/-- The View brought to the width of an operation. -/
def extended (view : IntegerValue) (byteLength : Nat) : BitVec (byteLength * 8) :=
  resize view.isUnsigned (byteLength * 8) view.bits

/-- A negative View that an operation of this width has to sign-extend. -/
def isWidened (view : IntegerValue) (byteLength : Nat) : Prop :=
  view.value < 0 ∧ view.byteLength < byteLength

instance (view : IntegerValue) (byteLength : Nat) : Decidable (view.isWidened byteLength) :=
  inferInstanceAs (Decidable (_ ∧ _))

theorem extended_eq_setWidth {view : IntegerValue} {byteLength : Nat}
    (narrow : ¬view.isWidened byteLength) :
    view.extended byteLength = view.bits.setWidth (byteLength * 8) := by
  obtain ⟨length, isUnsigned, bits⟩ := view
  simp only [isWidened, value, extended, not_and, not_lt] at narrow ⊢
  by_cases shorter : byteLength ≤ length
  · exact resize_of_le isUnsigned bits (by omega)
  cases isUnsigned with
  | true => rfl
  | false =>
      refine BitVec.signExtend_eq_setWidth_of_msb_false ?_
      rw [BitVec.msb_eq_toInt, decide_eq_false_iff_not]
      exact fun negative => shorter (narrow negative)

end IntegerValue

/-- The arithmetic of Standard 8.4 and 11.3 on two operands of one width: the exact result on
their values, reduced modulo the width.  Division by zero, a negative shift count and a negative
exponent have none. -/
def integerOperation (op : BinaryOperator) (isUnsigned : Bool) {width : Nat}
    (left right : BitVec width) : Option (BitVec width) :=
  let l := reading isUnsigned left
  let r := reading isUnsigned right
  match op with
  | .add => some (BitVec.ofInt width (l + r))
  | .subtract => some (BitVec.ofInt width (l - r))
  | .multiply => some (BitVec.ofInt width (l * r))
  | .divide => if r = 0 then none else some (BitVec.ofInt width (l.tdiv r))
  | .modulo => if r = 0 then none else some (BitVec.ofInt width (l.tmod r))
  | .power => if r < 0 then none else some (BitVec.ofInt width (l ^ r.toNat))
  | .shiftLeft => if r < 0 then none else some (BitVec.ofInt width (l * 2 ^ r.toNat))
  | .shiftRight => if r < 0 then none else some (BitVec.ofInt width (l / 2 ^ r.toNat))
  | .bitAnd => some (left &&& right)
  | .bitOr => some (left ||| right)
  | .bitXor => some (left ^^^ right)
  | _ => none

def integerComparison (op : BinaryOperator) (left right : Int) : Bool :=
  match op with
  | .equal => left = right
  | .notEqual => left ≠ right
  | .less => left < right
  | .lessEqual => left ≤ right
  | .greater => right < left
  | _ => right ≤ left

theorem integerComparison_greater (left right : Int) :
    integerComparison .greater left right = integerComparison .less right left := rfl

theorem integerComparison_greaterEqual (left right : Int) :
    integerComparison .greaterEqual left right = integerComparison .lessEqual right left := rfl

inductive Value where
  | integer (view : IntegerValue)
  | boolean (value : Bool)
  deriving DecidableEq, Repr

/-- The width of an integer operation.  A typed width other than 1, 2, 4 or 8 bytes is rejected by
the analyser and has no meaning here. -/
def operationLength (op : OperatorSpelling) (left right : Nat) : Option Nat :=
  match op.typed with
  | none | some { width := none, .. } => some (max left right)
  | some { width := some byteLength, .. } =>
      if byteLength = 1 ∨ byteLength = 2 ∨ byteLength = 4 ∨ byteLength = 8 then some byteLength
      else none

def isUnsignedOperation (op : OperatorSpelling) (left right : Bool) : Bool :=
  match op.typed with
  | none => left || right
  | some typedPrefix => typedPrefix.marker == .u

/-- An operation of a given width and signedness on two Views. -/
def operate (op : BinaryOperator) (byteLength : Nat) (isUnsigned : Bool)
    (left right : IntegerValue) : Option Value :=
  if op.isComparison then
    some (.boolean (integerComparison op (reading isUnsigned (left.extended byteLength))
      (reading isUnsigned (right.extended byteLength))))
  else (integerOperation op isUnsigned (left.extended byteLength)
    (right.extended byteLength)).map fun bits => .integer { byteLength, isUnsigned, bits }

def evaluateIntegers (op : OperatorSpelling) (left right : IntegerValue) : Option Value :=
  match operationLength op left.byteLength right.byteLength with
  | none => none
  | some byteLength => operate op.symbol byteLength
      (isUnsignedOperation op left.isUnsigned right.isUnsigned) left right

def evaluateBooleans (op : OperatorSpelling) (left right : Bool) : Option Value :=
  match op.typed, op.symbol with
  | none, .equal => some (.boolean (left = right))
  | none, .notEqual => some (.boolean (left ≠ right))
  | _, _ => none

def evaluateBinary (op : OperatorSpelling) : Value → Value → Option Value
  | .integer left, .integer right => evaluateIntegers op left right
  | .boolean left, .boolean right => evaluateBooleans op left right
  | _, _ => none

theorem reading_eq_zero_iff (isUnsigned : Bool) {width : Nat} (pattern : BitVec width) :
    reading isUnsigned pattern = 0 ↔ pattern = 0#(width) := by
  constructor
  · intro zero
    rw [← ofInt_reading isUnsigned pattern, zero]
    rfl
  · rintro rfl
    cases isUnsigned <;> simp

theorem toNat_reading_of_nonneg (isUnsigned : Bool) {width : Nat} {pattern : BitVec width}
    (nonneg : 0 ≤ reading isUnsigned pattern) :
    (reading isUnsigned pattern).toNat = pattern.toNat := by
  have difference := toNat_eq_reading_add isUnsigned pattern
  rw [if_neg (not_lt.mpr nonneg), add_zero] at difference
  omega

section Instructions
variable {width : Nat} (left right : BitVec width)

attribute [local simp] integerOperation integerComparison

/-! The exact operations as machine instructions. -/

theorem integerOperation_divide_unsigned :
    integerOperation .divide true left right =
      if right = 0#(width) then none else some (left / right) := by
  simp only [integerOperation, reading_eq_zero_iff, ofInt_tdiv_unsigned]

theorem integerOperation_divide_signed :
    integerOperation .divide false left right =
      if right = 0#(width) then none else some (left.sdiv right) := by
  simp only [integerOperation, reading_eq_zero_iff, ofInt_tdiv_signed]

theorem integerOperation_modulo_unsigned :
    integerOperation .modulo true left right =
      if right = 0#(width) then none else some (left % right) := by
  simp only [integerOperation, reading_eq_zero_iff, ofInt_tmod_unsigned]

theorem integerOperation_modulo_signed :
    integerOperation .modulo false left right =
      if right = 0#(width) then none else some (left.srem right) := by
  simp only [integerOperation, reading_eq_zero_iff, ofInt_tmod_signed]

theorem integerOperation_power (isUnsigned : Bool) :
    integerOperation .power isUnsigned left right =
      if reading isUnsigned right < 0 then none else some (left ^ right.toNat) := by
  simp only [integerOperation]
  split
  · rfl
  · rename_i nonneg
    rw [toNat_reading_of_nonneg isUnsigned (not_lt.mp nonneg), ofInt_reading_pow]

theorem integerOperation_shiftLeft (isUnsigned : Bool) :
    integerOperation .shiftLeft isUnsigned left right =
      if reading isUnsigned right < 0 then none else some (left <<< right.toNat) := by
  simp only [integerOperation]
  split
  · rfl
  · rename_i nonneg
    rw [toNat_reading_of_nonneg isUnsigned (not_lt.mp nonneg), ofInt_reading_mul_two_pow]

theorem integerOperation_shiftRight_unsigned :
    integerOperation .shiftRight true left right = some (left >>> right.toNat) := by
  simp only [integerOperation]
  rw [if_neg (not_lt.mpr (reading_nonneg_of_unsigned right)),
    toNat_reading_of_nonneg true (reading_nonneg_of_unsigned right),
    ofInt_reading_shiftRight_unsigned]

theorem integerOperation_shiftRight_signed :
    integerOperation .shiftRight false left right =
      if reading false right < 0 then none else some (left.sshiftRight right.toNat) := by
  simp only [integerOperation]
  split
  · rfl
  · rename_i nonneg
    rw [toNat_reading_of_nonneg false (not_lt.mp nonneg), ofInt_reading_shiftRight_signed]

theorem integerOperation_add (isUnsigned : Bool) :
    integerOperation .add isUnsigned left right = some (left + right) := by
  simp only [integerOperation, ofInt_reading_add]

theorem integerOperation_subtract (isUnsigned : Bool) :
    integerOperation .subtract isUnsigned left right = some (left - right) := by
  simp only [integerOperation, ofInt_reading_sub]

theorem integerOperation_multiply (isUnsigned : Bool) :
    integerOperation .multiply isUnsigned left right = some (left * right) := by
  simp only [integerOperation, ofInt_reading_mul]

theorem integerComparison_equal (isUnsigned : Bool) :
    integerComparison .equal (reading isUnsigned left) (reading isUnsigned right) =
      (left == right) := by
  rw [Bool.eq_iff_iff]
  simp only [integerComparison, decide_eq_true_eq, beq_iff_eq]
  exact ⟨reading_injective isUnsigned, fun same => by rw [same]⟩

theorem integerComparison_less (isUnsigned : Bool) :
    integerComparison .less (reading isUnsigned left) (reading isUnsigned right) =
      if isUnsigned then left.ult right else left.slt right := by
  cases isUnsigned with
  | false => rfl
  | true => exact decide_eq_decide.mpr Int.ofNat_lt

theorem integerComparison_lessEqual (isUnsigned : Bool) :
    integerComparison .lessEqual (reading isUnsigned left) (reading isUnsigned right) =
      if isUnsigned then left.ule right else left.sle right := by
  cases isUnsigned with
  | false => rfl
  | true => exact decide_eq_decide.mpr Int.ofNat_le

end Instructions

end HitSimple.Standard

import HitSimple.Sema.Folding
import HitSimple.Standard.Integer

namespace HitSimple.Sema
open FixedWidth Standard

/-- A negative value narrower than the 64 bits in which the folder compares. -/
def isStoredPositive (operand : IntegerValue) : Prop :=
  operand.value < 0 ∧ operand.byteLength < 8

/-- The comparison of two operands by their stored patterns. -/
def storedComparison (op : BinaryOperator) (isUnsigned : Bool) (left right : IntegerValue) : Bool :=
  integerComparison op (reading isUnsigned (BitVec.ofNat 64 left.bits.toNat))
    (reading isUnsigned (BitVec.ofNat 64 right.bits.toNat))

/-- When unsigned arithmetic on two patterns of one width is the exact operation on their values. -/
def PatternsFold (op : BinaryOperator) (isUnsigned : Bool) {width : Nat}
    (left right : BitVec width) : Prop :=
  match op with
  | .divide => isUnsigned = true ∨ QuotientIgnoresSign left.toInt right.toInt
  | .modulo => isUnsigned = true ∨ RemainderIgnoresSign width left.toInt right.toInt
  | .power => isUnsigned = true ∨ 0 ≤ right.toInt
  | .shiftLeft => reading isUnsigned right < 0 ∨ right.toNat < width
  | .shiftRight => reading isUnsigned right < 0 ∨
      (right.toNat < width ∧ (isUnsigned = true ∨ 0 ≤ left.toInt ∨ right.toNat = 0))
  | _ => True

/-- When an operation with a negative operand that it has to sign-extend comes out the same on the
zero-extended patterns. -/
def WidenedPatternsFold (op : BinaryOperator) (isUnsigned : Bool) (byteLength : Nat)
    (left right : IntegerValue) : Prop :=
  let leftPattern := left.bits.setWidth (byteLength * 8)
  let rightPattern := right.bits.setWidth (byteLength * 8)
  let coincide := integerOperation op true leftPattern rightPattern =
    integerOperation op isUnsigned (left.extended byteLength) (right.extended byteLength)
  match op with
  | .shiftLeft | .shiftRight => reading isUnsigned (right.extended byteLength) < 0 ∨
      (rightPattern.toNat < byteLength * 8 ∧ coincide)
  | _ => coincide

/-- The condition under which one operation on literals is folded to its value. -/
def FoldsExactly (op : OperatorSpelling) (left right : IntegerValue) : Prop :=
  match operationLength op left.byteLength right.byteLength with
  | none => True
  | some byteLength =>
      let isUnsigned := isUnsignedOperation op left.isUnsigned right.isUnsigned
      if op.symbol.isComparison then
        (isStoredPositive left ∨ isStoredPositive right) →
          storedComparison op.symbol isUnsigned left right =
            integerComparison op.symbol (reading isUnsigned (left.extended byteLength))
              (reading isUnsigned (right.extended byteLength))
      else
        (op.isPlainModulo → right.value ≠ 0 → byteLength = 4 ∧ isUnsigned = false) ∧
        (if left.isWidened byteLength ∨ right.isWidened byteLength then
          WidenedPatternsFold op.symbol isUnsigned byteLength left right
        else PatternsFold op.symbol isUnsigned (left.extended byteLength)
          (right.extended byteLength))

section Patterns
variable {width : Nat} (left right : BitVec width)

attribute [local simp] foldPattern PatternsFold

/-- The folder computes the unsigned operation, and refuses shift counts from the width on. -/
theorem foldPattern_eq_integerOperation (op : BinaryOperator) :
    foldPattern op left right =
      if (op = .shiftLeft ∨ op = .shiftRight) ∧ width ≤ right.toNat then none
      else integerOperation op true left right := by
  have nonneg : ¬reading true right < 0 := not_lt.mpr (reading_nonneg_of_unsigned right)
  cases op with
  | add => simp [integerOperation_add]
  | subtract => simp [integerOperation_subtract]
  | multiply => simp [integerOperation_multiply]
  | divide => simp [integerOperation_divide_unsigned]
  | modulo => simp [integerOperation_modulo_unsigned]
  | power => rw [foldPattern, integerOperation_power, if_neg nonneg]; simp
  | shiftLeft => rw [foldPattern, integerOperation_shiftLeft, if_neg nonneg]; simp
  | shiftRight => simp [integerOperation_shiftRight_unsigned]
  | _ => simp [integerOperation]

private theorem divide_folds_iff (positive : 0 < width) (isUnsigned : Bool) :
    foldPattern .divide left right = integerOperation .divide isUnsigned left right ↔
      PatternsFold .divide isUnsigned left right := by
  cases isUnsigned with
  | true => simp [integerOperation_divide_unsigned]
  | false =>
      simp only [PatternsFold, foldPattern, integerOperation_divide_signed, Bool.false_eq_true,
        false_or]
      rw [← sdiv_eq_udiv_iff positive]
      by_cases zero : right = 0#(width)
      · simp [zero]
      · simp only [if_neg zero, Option.some.injEq]
        exact eq_comm

private theorem modulo_folds_iff (positive : 0 < width) (isUnsigned : Bool) :
    foldPattern .modulo left right = integerOperation .modulo isUnsigned left right ↔
      PatternsFold .modulo isUnsigned left right := by
  cases isUnsigned with
  | true => simp [integerOperation_modulo_unsigned]
  | false =>
      simp only [PatternsFold, foldPattern, integerOperation_modulo_signed, Bool.false_eq_true,
        false_or]
      rw [← srem_eq_umod_iff positive]
      by_cases zero : right = 0#(width)
      · simp [zero]
      · simp only [if_neg zero, Option.some.injEq]
        exact eq_comm

private theorem power_folds_iff (isUnsigned : Bool) :
    foldPattern .power left right = integerOperation .power isUnsigned left right ↔
      PatternsFold .power isUnsigned left right := by
  rw [foldPattern, integerOperation_power, PatternsFold]
  cases isUnsigned with
  | true => rw [if_neg (not_lt.mpr (reading_nonneg_of_unsigned right))]; simp
  | false =>
      rw [reading_false]
      by_cases negative : right.toInt < 0
      · simp [negative]
      · simp [negative, not_lt.mp negative]

private theorem shiftLeft_folds_iff (isUnsigned : Bool) :
    foldPattern .shiftLeft left right = integerOperation .shiftLeft isUnsigned left right ↔
      PatternsFold .shiftLeft isUnsigned left right := by
  rw [foldPattern, integerOperation_shiftLeft, PatternsFold]
  by_cases negative : reading isUnsigned right < 0
  · simp [negative, width_le_toNat_of_negative isUnsigned negative]
  · by_cases wide : width ≤ right.toNat
    · simp [negative, wide]
    · simp [negative, wide, Nat.not_le.mp wide]

private theorem shiftRight_folds_iff (isUnsigned : Bool) :
    foldPattern .shiftRight left right = integerOperation .shiftRight isUnsigned left right ↔
      PatternsFold .shiftRight isUnsigned left right := by
  cases isUnsigned with
  | true =>
      rw [foldPattern, integerOperation_shiftRight_unsigned, PatternsFold,
        or_iff_right (not_lt.mpr (reading_nonneg_of_unsigned right))]
      by_cases wide : width ≤ right.toNat
      · simp [wide]
      · simp [wide, Nat.not_le.mp wide]
  | false =>
      rw [foldPattern, integerOperation_shiftRight_signed, PatternsFold]
      by_cases negative : reading false right < 0
      · rw [if_pos negative, if_pos (width_le_toNat_of_negative false negative)]
        exact iff_of_true rfl (.inl negative)
      · rw [if_neg negative, or_iff_right negative]
        by_cases wide : width ≤ right.toNat
        · simp [wide]
        · rw [if_neg wide, Option.some.injEq, eq_comm, sshiftRight_eq_ushiftRight_iff]
          simp [Nat.not_le.mp wide]

theorem foldPattern_eq_iff (positive : 0 < width) (op : BinaryOperator) (isUnsigned : Bool) :
    foldPattern op left right = integerOperation op isUnsigned left right ↔
      PatternsFold op isUnsigned left right := by
  cases op with
  | add => simp [integerOperation_add]
  | subtract => simp [integerOperation_subtract]
  | multiply => simp [integerOperation_multiply]
  | divide => exact divide_folds_iff left right positive isUnsigned
  | modulo => exact modulo_folds_iff left right positive isUnsigned
  | power => exact power_folds_iff left right isUnsigned
  | shiftLeft => exact shiftLeft_folds_iff left right isUnsigned
  | shiftRight => exact shiftRight_folds_iff left right isUnsigned
  | _ => simp [integerOperation]

end Patterns

section Widths
variable (op : BinaryOperator) (isUnsigned : Bool) (byteLength : Nat) (left right : IntegerValue)

theorem sixtyFour_le_of_widened {view : IntegerValue} (positive : 0 < view.byteLength)
    (widened : view.isWidened byteLength) :
    64 ≤ (view.bits.setWidth (byteLength * 8)).toNat := by
  obtain ⟨negative, shorter⟩ := widened
  have half := two_pow_le_of_negative view.isUnsigned negative
  have modulus : 2 ^ 8 ≤ 2 ^ (view.byteLength * 8) := Nat.pow_le_pow_right (by omega) (by omega)
  rw [BitVec.toNat_setWidth_of_le (by omega)]
  omega

/-- A shift count that is negative at the width of the operation is refused. -/
theorem width_le_of_negative_count (small : byteLength ≤ 8) (positive : 0 < right.byteLength)
    (negative : reading isUnsigned (right.extended byteLength) < 0) :
    byteLength * 8 ≤ (right.bits.setWidth (byteLength * 8)).toNat := by
  by_cases widened : right.isWidened byteLength
  · have large := sixtyFour_le_of_widened byteLength positive widened
    omega
  · rw [← IntegerValue.extended_eq_setWidth widened]
    exact width_le_toNat_of_negative isUnsigned negative

/-- Extending the operands by their own signs gives the unsigned operation on the stored patterns
exactly under the condition above. -/
theorem foldPattern_eq_extended_iff (small : byteLength ≤ 8) (nonempty : 0 < byteLength)
    (positive : 0 < right.byteLength) :
    foldPattern op (left.bits.setWidth (byteLength * 8)) (right.bits.setWidth (byteLength * 8)) =
        integerOperation op isUnsigned (left.extended byteLength) (right.extended byteLength) ↔
      if left.isWidened byteLength ∨ right.isWidened byteLength then
        WidenedPatternsFold op isUnsigned byteLength left right
      else PatternsFold op isUnsigned (left.extended byteLength) (right.extended byteLength) := by
  split
  · rw [foldPattern_eq_integerOperation]
    by_cases shift : op = .shiftLeft ∨ op = .shiftRight
    · have negativeCount := width_le_of_negative_count isUnsigned byteLength right small positive
      have refused : integerOperation op isUnsigned (left.extended byteLength)
          (right.extended byteLength) = none ↔
          reading isUnsigned (right.extended byteLength) < 0 := by
        rcases shift with rfl | rfl <;> simp [integerOperation]
      have condition : WidenedPatternsFold op isUnsigned byteLength left right ↔
          reading isUnsigned (right.extended byteLength) < 0 ∨
            ((right.bits.setWidth (byteLength * 8)).toNat < byteLength * 8 ∧
              integerOperation op true (left.bits.setWidth (byteLength * 8))
                  (right.bits.setWidth (byteLength * 8)) =
                integerOperation op isUnsigned (left.extended byteLength)
                  (right.extended byteLength)) := by
        rcases shift with rfl | rfl <;> rfl
      rw [condition]
      by_cases wide : byteLength * 8 ≤ (right.bits.setWidth (byteLength * 8)).toNat
      · rw [if_pos ⟨shift, wide⟩, eq_comm, refused]
        exact ⟨.inl, fun either => either.resolve_right fun both => absurd both.1 (not_lt.mpr wide)⟩
      · rw [if_neg fun both => wide both.2]
        exact ⟨fun same => .inr ⟨not_le.mp wide, same⟩, fun either =>
          (either.resolve_left fun negative => wide (negativeCount negative)).2⟩
    · rw [if_neg fun both => shift both.1]
      cases op with
      | shiftLeft => exact absurd (.inl rfl) shift
      | shiftRight => exact absurd (.inr rfl) shift
      | _ => rfl
  · rename_i neither
    obtain ⟨leftNarrow, rightNarrow⟩ := not_or.mp neither
    rw [← IntegerValue.extended_eq_setWidth leftNarrow,
      ← IntegerValue.extended_eq_setWidth rightNarrow]
    exact foldPattern_eq_iff _ _ (by omega) op isUnsigned

end Widths
end HitSimple.Sema

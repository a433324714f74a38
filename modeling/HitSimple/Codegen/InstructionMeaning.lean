import HitSimple.Codegen.Instruction
import HitSimple.Standard.Integer

namespace HitSimple.Codegen
open FixedWidth Standard

/-- The report the language rules ask for where an operation has no value. -/
def reportedFault : BinaryOperator → Fault
  | .shiftLeft | .shiftRight => .negativeShift
  | .power => .negativeExponent
  | _ => .divisionByZero

/-- The outcome of an operation by the language rules. -/
def standardOutcome (op : BinaryOperator) (isUnsigned : Bool) {width : Nat}
    (left right : BitVec width) : Except Fault (BitVec width) :=
  match integerOperation op isUnsigned left right with
  | some value => .ok value
  | none => .error (reportedFault op)

/-- In checked mode the outcome is the prescribed one; otherwise only where that is a value. -/
def Meets {α : Type} (checked : Bool) (emitted prescribed : Except Fault α) : Prop :=
  (∀ value, prescribed = .ok value → emitted = .ok value) ∧
    (checked = true → emitted = prescribed)

theorem meets_ok_iff {α : Type} (checked : Bool) (emitted : Except Fault α) (value : α) :
    Meets checked emitted (.ok value) ↔ emitted = .ok value := by
  constructor
  · exact fun meets => meets.1 value rfl
  · rintro rfl
    exact ⟨fun _ same => same, fun _ => rfl⟩

theorem meets_error_iff {α : Type} (checked : Bool) (emitted : Except Fault α) (fault : Fault) :
    Meets checked emitted (.error fault) ↔ (checked = true → emitted = .error fault) := by
  simp [Meets]

section Operations
variable {width : Nat} (left right : BitVec width)

/-- The condition on the operands under which checks and instruction give the prescribed outcome.
`unsignedOperation` and `rightUnsigned` are the emitter's flags, `isUnsigned` is the signedness of
the selected operation. -/
def InstructionIsStandard (checked rightUnsigned unsignedOperation isUnsigned : Bool)
    (op : BinaryOperator) : Prop :=
  match op with
  | .divide => unsignedOperation = isUnsigned ∨ QuotientIgnoresSign left.toInt right.toInt
  | .modulo => unsignedOperation = isUnsigned ∨ RemainderIgnoresSign width left.toInt right.toInt
  | .power => checked = true → right.toInt < 0 → rightUnsigned = isUnsigned
  | .shiftLeft => right.toNat < width ∨
      (right.toInt < 0 ∧ isUnsigned = false ∧ (checked = true → rightUnsigned = false))
  | .shiftRight =>
      (right.toNat < width ∧
        (unsignedOperation = isUnsigned ∨ 0 ≤ left.toInt ∨ right.toNat = 0)) ∨
      (right.toInt < 0 ∧ isUnsigned = false ∧ (checked = true → rightUnsigned = false))
  | _ => True

/-- The same for a comparison at one width. -/
def ComparisonIsStandard (unsignedOperation isUnsigned : Bool) (op : BinaryOperator) : Prop :=
  op = .equal ∨ op = .notEqual ∨ unsignedOperation = isUnsigned ∨
    (left.toInt < 0 ↔ right.toInt < 0)

theorem hasMore_iff (unsignedOperation : Bool) (exponent : BitVec width) :
    hasMore unsignedOperation exponent = true ↔ 0 < reading unsignedOperation exponent := by
  cases unsignedOperation with
  | false => simp [hasMore, BitVec.slt]
  | true => simp [hasMore, BitVec.ult]

theorem reading_sub_one {unsignedOperation : Bool} {exponent : BitVec width}
    (positive : 0 < reading unsignedOperation exponent) :
    0 ≤ reading unsignedOperation (exponent - 1#(width)) := by
  cases unsignedOperation with
  | true => exact reading_nonneg_of_unsigned _
  | false =>
      have nonzero : exponent ≠ 0#(width) := ne_zero_of_hasMore ((hasMore_iff false exponent).mpr positive)
      have step := toNat_sub_one nonzero
      have same := toNat_reading_of_nonneg false (le_of_lt positive)
      have upper : 2 * exponent.toInt < 2 ^ width := BitVec.two_mul_toInt_lt
      rw [reading_false] at positive same ⊢
      have small : 2 * (exponent - 1#(width)).toNat < 2 ^ width := by
        have bound : (2 * exponent.toNat : Int) < 2 ^ width := by omega
        have natural : 2 * exponent.toNat < 2 ^ width := by exact_mod_cast bound
        omega
      rw [BitVec.toInt_eq_toNat_of_lt small]
      exact Int.natCast_nonneg _

/-- The loop runs once for each unit of a nonnegative exponent. -/
theorem powerLoop_eq (unsignedOperation : Bool) (result exponent : BitVec width)
    (nonneg : 0 ≤ reading unsignedOperation exponent) :
    powerLoop unsignedOperation left result exponent = result * left ^ exponent.toNat := by
  induction h : exponent.toNat generalizing result exponent with
  | zero =>
      have zero : exponent = 0#(width) := BitVec.eq_of_toNat_eq (by simpa using h)
      have stops : ¬hasMore unsignedOperation exponent = true := fun more =>
        ne_zero_of_hasMore more zero
      rw [powerLoop, dif_neg stops, BitVec.pow_zero, BitVec.mul_one]
  | succ count ih =>
      have nonzero : exponent ≠ 0#(width) := by
        rintro rfl
        simp at h
      have positive : 0 < reading unsignedOperation exponent :=
        lt_of_le_of_ne nonneg fun zero => nonzero ((reading_eq_zero_iff _ _).mp zero.symm)
      have step := toNat_sub_one nonzero
      rw [powerLoop, dif_pos ((hasMore_iff _ _).mpr positive),
        ih (result * left) (exponent - 1#(width)) (reading_sub_one positive) (by omega),
        BitVec.pow_succ]
      ac_rfl

/-- With the branch for the minimum divided by `-1`, the emitted division is the exact one. -/
theorem arithmetic_divide (unsignedOperation : Bool) {right : BitVec width}
    (nonzero : right ≠ 0#(width)) :
    arithmetic .divide unsignedOperation left right =
      .ok (if unsignedOperation then left / right else left.sdiv right) := by
  cases unsignedOperation with
  | true => simp [arithmetic, nonzero]
  | false =>
      simp only [arithmetic, Bool.false_eq_true, if_false, if_neg nonzero]
      split
      · rename_i special
        rw [special.1, special.2, ← BitVec.neg_one_eq_allOnes, BitVec.intMin_sdiv_neg_one]
      · rfl

theorem intMin_srem_allOnes : (BitVec.intMin width).srem (BitVec.allOnes width) = 0#(width) := by
  apply BitVec.eq_of_toInt_eq
  rw [BitVec.toInt_srem, BitVec.toInt_zero]
  by_cases empty : width = 0
  · subst empty
    rfl
  · rw [BitVec.toInt_allOnes, if_pos (by omega), Int.tmod_neg, Int.tmod_one]

theorem arithmetic_modulo (unsignedOperation : Bool) {right : BitVec width}
    (nonzero : right ≠ 0#(width)) :
    arithmetic .modulo unsignedOperation left right =
      .ok (if unsignedOperation then left % right else left.srem right) := by
  cases unsignedOperation with
  | true => simp [arithmetic, nonzero]
  | false =>
      simp only [arithmetic, Bool.false_eq_true, if_false, if_neg nonzero]
      split
      · rename_i special
        rw [special.1, special.2, intMin_srem_allOnes]
      · rfl

theorem checkOperand_division (checked rightUnsigned : Bool) {op : BinaryOperator}
    (division : op.isDivision = true) {right : BitVec width} :
    checkOperand checked rightUnsigned op right =
      if checked = true ∧ right = 0#(width) then .error .divisionByZero else .ok () := by
  have cases : op = .divide ∨ op = .modulo := by simpa [BinaryOperator.isDivision] using division
  rcases cases with rfl | rfl <;> cases checked <;>
    simp [checkOperand, BinaryOperator.isDivision]

theorem checkOperand_shift (checked rightUnsigned : Bool) {op : BinaryOperator}
    (shift : op = .shiftLeft ∨ op = .shiftRight) {right : BitVec width} :
    checkOperand checked rightUnsigned op right =
      if checked = true ∧ rightUnsigned = false ∧ right.toInt < 0 then .error .negativeShift
      else .ok () := by
  rcases shift with rfl | rfl <;> cases checked <;> cases rightUnsigned <;>
    simp [checkOperand, BinaryOperator.isDivision, BitVec.slt]

theorem checkOperand_power (checked rightUnsigned : Bool) {right : BitVec width} :
    checkOperand checked rightUnsigned .power right =
      if checked = true ∧ rightUnsigned = false ∧ right.toInt < 0 then .error .negativeExponent
      else .ok () := by
  cases checked <;> cases rightUnsigned <;>
    simp [checkOperand, BinaryOperator.isDivision, BitVec.slt]

variable (checked rightUnsigned unsignedOperation isUnsigned : Bool)

private theorem divide_meets_iff (positive : 0 < width) :
    Meets checked (integerInstruction checked rightUnsigned .divide unsignedOperation left right)
        (standardOutcome .divide isUnsigned left right) ↔
      InstructionIsStandard left right checked rightUnsigned unsignedOperation isUnsigned
        .divide := by
  rw [integerInstruction, checkOperand_division _ _ rfl, InstructionIsStandard]
  by_cases zero : right = 0#(width)
  · have undefined : standardOutcome .divide isUnsigned left right = .error .divisionByZero := by
      cases isUnsigned <;> simp [standardOutcome, integerOperation_divide_unsigned,
        integerOperation_divide_signed, zero, reportedFault]
    rw [undefined, meets_error_iff]
    refine iff_of_true (fun reports => ?_) (.inr (.inl ?_))
    · rw [if_pos ⟨reports, zero⟩]
    · rw [zero, BitVec.toInt_zero]
  · have defined : standardOutcome .divide isUnsigned left right =
        .ok (if isUnsigned then left / right else left.sdiv right) := by
      cases isUnsigned <;> simp [standardOutcome, integerOperation_divide_unsigned,
        integerOperation_divide_signed, zero]
    rw [defined, meets_ok_iff, if_neg fun both => zero both.2]
    simp only [arithmetic_divide left unsignedOperation zero, Except.ok.injEq]
    have signs := sdiv_eq_udiv_iff positive left right
    cases unsignedOperation <;> cases isUnsigned <;> simp [← signs, eq_comm]

private theorem modulo_meets_iff (positive : 0 < width) :
    Meets checked (integerInstruction checked rightUnsigned .modulo unsignedOperation left right)
        (standardOutcome .modulo isUnsigned left right) ↔
      InstructionIsStandard left right checked rightUnsigned unsignedOperation isUnsigned
        .modulo := by
  rw [integerInstruction, checkOperand_division _ _ rfl, InstructionIsStandard]
  by_cases zero : right = 0#(width)
  · have undefined : standardOutcome .modulo isUnsigned left right = .error .divisionByZero := by
      cases isUnsigned <;> simp [standardOutcome, integerOperation_modulo_unsigned,
        integerOperation_modulo_signed, zero, reportedFault]
    rw [undefined, meets_error_iff]
    refine iff_of_true (fun reports => ?_) (.inr (.inl ?_))
    · rw [if_pos ⟨reports, zero⟩]
    · rw [zero, BitVec.toInt_zero]
  · have defined : standardOutcome .modulo isUnsigned left right =
        .ok (if isUnsigned then left % right else left.srem right) := by
      cases isUnsigned <;> simp [standardOutcome, integerOperation_modulo_unsigned,
        integerOperation_modulo_signed, zero]
    rw [defined, meets_ok_iff, if_neg fun both => zero both.2]
    simp only [arithmetic_modulo left unsignedOperation zero, Except.ok.injEq]
    have signs := srem_eq_umod_iff positive left right
    cases unsignedOperation <;> cases isUnsigned <;> simp [← signs, eq_comm]

/-- Whether a count or an exponent is negative for the selected operation. -/
private theorem reading_neg_iff :
    reading isUnsigned right < 0 ↔ isUnsigned = false ∧ right.toInt < 0 := by
  cases isUnsigned with
  | true => simp
  | false => simp

private theorem power_meets_iff (signs : isUnsigned = true → unsignedOperation = true) :
    Meets checked (integerInstruction checked rightUnsigned .power unsignedOperation left right)
        (standardOutcome .power isUnsigned left right) ↔
      InstructionIsStandard left right checked rightUnsigned unsignedOperation isUnsigned
        .power := by
  simp only [integerInstruction, checkOperand_power, InstructionIsStandard, standardOutcome,
    integerOperation_power, reading_neg_iff]
  by_cases negative : right.toInt < 0
  · cases isUnsigned with
    | false =>
        simp only [negative, and_self, if_true, meets_error_iff, reportedFault, true_implies,
          and_true]
        cases checked <;> cases rightUnsigned <;> simp [arithmetic]
    | true =>
        have value : powerLoop true left 1#(width) right = left ^ right.toNat := by
          rw [powerLoop_eq left true _ _ (reading_nonneg_of_unsigned right), BitVec.one_mul]
        rw [signs rfl]
        simp only [negative, Bool.true_eq_false, if_false, meets_ok_iff, true_implies, and_true]
        cases checked <;> cases rightUnsigned <;> simp [arithmetic, value]
  · have nonneg : 0 ≤ reading unsignedOperation right :=
      not_lt.mp fun less => negative ((reading_neg_iff right unsignedOperation).mp less).2
    have value : powerLoop unsignedOperation left 1#(width) right = left ^ right.toNat := by
      rw [powerLoop_eq left _ _ _ nonneg, BitVec.one_mul]
    simp [negative, meets_ok_iff, arithmetic, value]

/-- The outcome of an emitted shift and of a shift by the rules, as far as counts go. -/
private theorem shift_meets_iff {op : BinaryOperator} (shift : op = .shiftLeft ∨ op = .shiftRight)
    (value instruction : BitVec width)
    (prescribed : standardOutcome op isUnsigned left right =
      if reading isUnsigned right < 0 then .error .negativeShift else .ok value)
    (emitted : arithmetic op unsignedOperation left right =
      if width ≤ right.toNat then .error .undefined else .ok instruction) :
    Meets checked (integerInstruction checked rightUnsigned op unsignedOperation left right)
        (standardOutcome op isUnsigned left right) ↔
      (right.toNat < width ∧ instruction = value) ∨
        (right.toInt < 0 ∧ isUnsigned = false ∧ (checked = true → rightUnsigned = false)) := by
  rw [prescribed, integerInstruction, checkOperand_shift _ _ shift, emitted]
  simp only [reading_neg_iff]
  by_cases negative : right.toInt < 0
  · have wide : width ≤ right.toNat :=
      width_le_toNat_of_negative false (by rwa [reading_false])
    have notNarrow : ¬right.toNat < width := not_lt.mpr wide
    cases isUnsigned with
    | false =>
        simp only [negative, and_self, if_true, meets_error_iff, notNarrow, false_and, false_or,
          true_and, and_true, wide]
        cases checked <;> cases rightUnsigned <;> simp
    | true =>
        simp only [negative, Bool.true_eq_false, false_and, and_false, if_false, meets_ok_iff,
          notNarrow, false_or, and_true, wide, if_true, iff_false]
        split <;> rename_i failed <;> split at failed <;> simp_all
  · by_cases wide : width ≤ right.toNat
    · simp [negative, wide, meets_ok_iff, not_lt.mpr wide]
    · simp [negative, wide, meets_ok_iff, not_le.mp wide]

private theorem shiftLeft_meets_iff :
    Meets checked (integerInstruction checked rightUnsigned .shiftLeft unsignedOperation left right)
        (standardOutcome .shiftLeft isUnsigned left right) ↔
      InstructionIsStandard left right checked rightUnsigned unsignedOperation isUnsigned
        .shiftLeft := by
  rw [shift_meets_iff left right checked rightUnsigned unsignedOperation isUnsigned (.inl rfl)
    (left <<< right.toNat) (left <<< right.toNat) ?_ rfl]
  · simp [InstructionIsStandard]
  · rw [standardOutcome, integerOperation_shiftLeft]
    split <;> split at * <;> simp_all [reportedFault]

private theorem shiftRight_meets_iff :
    Meets checked
        (integerInstruction checked rightUnsigned .shiftRight unsignedOperation left right)
        (standardOutcome .shiftRight isUnsigned left right) ↔
      InstructionIsStandard left right checked rightUnsigned unsignedOperation isUnsigned
        .shiftRight := by
  rw [shift_meets_iff left right checked rightUnsigned unsignedOperation isUnsigned (.inr rfl)
    (if isUnsigned then left >>> right.toNat else left.sshiftRight right.toNat)
    (if unsignedOperation then left >>> right.toNat else left.sshiftRight right.toNat) ?_ ?_]
  · have signs := sshiftRight_eq_ushiftRight_iff left right.toNat
    rw [InstructionIsStandard]
    cases unsignedOperation <;> cases isUnsigned <;> simp [← signs, eq_comm]
  · cases isUnsigned with
    | true =>
        rw [standardOutcome, integerOperation_shiftRight_unsigned,
          if_neg (not_lt.mpr (reading_nonneg_of_unsigned right))]
        rfl
    | false =>
        rw [standardOutcome, integerOperation_shiftRight_signed]
        split <;> split at * <;> simp_all [reportedFault]
  · cases unsignedOperation <;> rfl

/-- The emitted checks and instruction meet the language rules exactly under the condition. -/
theorem integerInstruction_meets_iff (positive : 0 < width) (op : BinaryOperator)
    (arithmetic : op.isIntegerArithmetic = true)
    (signs : isUnsigned = true → unsignedOperation = true) :
    Meets checked (integerInstruction checked rightUnsigned op unsignedOperation left right)
        (standardOutcome op isUnsigned left right) ↔
      InstructionIsStandard left right checked rightUnsigned unsignedOperation isUnsigned op := by
  cases op with
  | divide =>
      exact divide_meets_iff left right checked rightUnsigned unsignedOperation isUnsigned positive
  | modulo =>
      exact modulo_meets_iff left right checked rightUnsigned unsignedOperation isUnsigned positive
  | power =>
      exact power_meets_iff left right checked rightUnsigned unsignedOperation isUnsigned signs
  | shiftLeft =>
      exact shiftLeft_meets_iff left right checked rightUnsigned unsignedOperation isUnsigned
  | shiftRight =>
      exact shiftRight_meets_iff left right checked rightUnsigned unsignedOperation isUnsigned
  | add => simp [InstructionIsStandard, standardOutcome, integerOperation_add, meets_ok_iff,
      integerInstruction, checkOperand, Codegen.arithmetic, BinaryOperator.isDivision]
  | subtract => simp [InstructionIsStandard, standardOutcome, integerOperation_subtract,
      meets_ok_iff, integerInstruction, checkOperand, Codegen.arithmetic, BinaryOperator.isDivision]
  | multiply => simp [InstructionIsStandard, standardOutcome, integerOperation_multiply,
      meets_ok_iff, integerInstruction, checkOperand, Codegen.arithmetic, BinaryOperator.isDivision]
  | bitAnd | bitOr | bitXor => simp [InstructionIsStandard, standardOutcome, integerOperation,
      meets_ok_iff, integerInstruction, checkOperand, Codegen.arithmetic, BinaryOperator.isDivision]
  | _ => cases arithmetic

private theorem less_eq_iff :
    ((if unsignedOperation then left.ult right else left.slt right) =
        if isUnsigned then left.ult right else left.slt right) ↔
      unsignedOperation = isUnsigned ∨ (left.toInt < 0 ↔ right.toInt < 0) := by
  have signs := slt_eq_ult_iff left right
  cases unsignedOperation <;> cases isUnsigned <;> simp [← signs, eq_comm]

private theorem lessEqual_eq_iff :
    ((if unsignedOperation then left.ule right else left.sle right) =
        if isUnsigned then left.ule right else left.sle right) ↔
      unsignedOperation = isUnsigned ∨ (left.toInt < 0 ↔ right.toInt < 0) := by
  have signs := less_eq_iff right left unsignedOperation isUnsigned
  rw [iff_comm (a := left.toInt < 0), ← signs]
  simp only [BitVec.ule_eq_not_ult, BitVec.sle_eq_not_slt]
  cases unsignedOperation <;> cases isUnsigned <;> simp

/-- An emitted comparison orders its operands by the rules exactly under the condition. -/
theorem comparison_eq_iff (op : BinaryOperator) (comparison : op.isComparison = true) :
    Codegen.comparison op unsignedOperation left right =
        integerComparison op (reading isUnsigned left) (reading isUnsigned right) ↔
      ComparisonIsStandard left right unsignedOperation isUnsigned op := by
  cases op with
  | equal =>
      rw [integerComparison_equal]
      exact iff_of_true rfl (.inl rfl)
  | notEqual =>
      have equal := integerComparison_equal left right isUnsigned
      refine iff_of_true ?_ (.inr (.inl rfl))
      show (left != right) = decide (reading isUnsigned left ≠ reading isUnsigned right)
      rw [bne, ← equal, integerComparison, decide_not]
  | less =>
      rw [integerComparison_less]
      simpa [ComparisonIsStandard, Codegen.comparison] using
        less_eq_iff left right unsignedOperation isUnsigned
  | greater =>
      rw [integerComparison_greater, integerComparison_less]
      simpa [ComparisonIsStandard, Codegen.comparison, iff_comm] using
        less_eq_iff right left unsignedOperation isUnsigned
  | lessEqual =>
      rw [integerComparison_lessEqual]
      simpa [ComparisonIsStandard, Codegen.comparison] using
        lessEqual_eq_iff left right unsignedOperation isUnsigned
  | greaterEqual =>
      rw [integerComparison_greaterEqual, integerComparison_lessEqual]
      simpa [ComparisonIsStandard, Codegen.comparison, iff_comm] using
        lessEqual_eq_iff right left unsignedOperation isUnsigned
  | _ => cases comparison

end Operations

end HitSimple.Codegen

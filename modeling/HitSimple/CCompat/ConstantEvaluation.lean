import HitSimple.CCompat.ConstantArithmetic

namespace HitSimple.CCompat
open Literal (Spelling parseUnsignedIntegerLiteral_le)
open FixedWidth (IntegerFormat)

/-! ### Evaluations -/

theorem gives_integerLiteral {value : Spelling} :
    Gives (evaluateIntegerConstant (.integerLiteral value)) fun literal =>
      literal.Normal ∧ ∃ magnitude : Nat, parseCIntegerLiteralMagnitude value = some magnitude ∧
        literal.reading = magnitude ∧
        literal.format = ⟨if 2 ^ 31 - 1 < magnitude then 64 else 32, magnitude ≤ 2 ^ 63 - 1⟩ := by
  unfold evaluateIntegerConstant
  split
  · exact gives_noValue
  next magnitude parsed =>
    have bound : magnitude < 2 ^ 64 := by
      have small := parseUnsignedIntegerLiteral_le parsed
      unfold Literal.maxUInt64 at small
      omega
    have normal : (⟨magnitude, if magnitude > 2 ^ 31 - 1 then 8 else 4,
        decide (magnitude ≤ 2 ^ 63 - 1)⟩ : ConstantInteger).Normal := by
      constructor
      · dsimp only
        split
        · exact .inr (.inr (.inr rfl))
        · exact .inr (.inr (.inl rfl))
      · dsimp only
        split <;> omega
    refine gives_ok ⟨normal, magnitude, parsed, ?_, ?_⟩
    · rw [normal.reading_eq, if_neg]
      rintro ⟨isSigned, above⟩
      have small := of_decide_eq_true isSigned
      dsimp only at above
      split at above <;> omega
    · simp only [ConstantInteger.format, gt_iff_lt]
      split <;> rfl

theorem gives_evaluate (expression : CoreExpr) :
    Gives (evaluateIntegerConstant expression) ConstantInteger.Normal := by
  induction expression with
  | integerLiteral value => exact gives_integerLiteral.mono fun _ spec => spec.1
  | unsigned operand byteLength ih =>
      exact ih.bind fun _ _ _ => gives_convert.mono fun _ spec => spec.1
  | integerCast operand byteLength isSigned ih =>
      exact ih.bind fun _ _ _ => gives_convert.mono fun _ spec => spec.1
  | unary op operand ih =>
      exact ih.bind fun _ _ normal => (gives_evaluateUnary normal).mono fun _ spec => spec.normal
  | binary left op right ihLeft ihRight =>
      unfold evaluateIntegerConstant
      split
      · refine ihLeft.bind fun leftValue _ normal => (gives_isTrue normal).bind fun holds _ _ => ?_
        split
        · exact gives_ok (normal_ofTruth _).1
        · exact ihRight.bind fun rightValue _ normalRight =>
            (gives_isTrue normalRight).bind fun _ _ _ => gives_ok (normal_ofTruth _).1
      · cases parseTypedIntegerOperator op with
        | none => exact gives_noValue
        | some operation =>
            refine ihLeft.bind fun leftValue _ _ => ihRight.bind fun rightValue _ normal => ?_
            cases found : binaryOperator operation.symbol with
            | none =>
                unfold evaluateTyped
                rw [found]
                exact gives_noValue
            | some op => exact (gives_evaluateTyped found normal).mono fun _ spec => spec.normal
  | ternary condition thenExpr elseExpr ihCondition ihThen ihElse =>
      refine ihCondition.bind fun value _ normal => (gives_isTrue normal).bind fun holds _ _ => ?_
      split
      · exact ihThen
      · exact ihElse
  | other => exact gives_noValue

theorem normal_of_evaluate {expression : CoreExpr} {value : ConstantInteger}
    (evaluated : evaluateIntegerConstant expression = .ok value) : value.Normal :=
  (gives_evaluate expression).meets value evaluated

/-! ### Shift counts -/

section
variable {expression : CoreExpr} {value : ConstantInteger} {byteLength : Nat}

theorem constantShiftCount_eq (isSigned : Bool) (standard : IsStandard byteLength)
    (evaluated : evaluateIntegerConstant expression = .ok value) :
    ∃ promotedValue : ConstantInteger, promotedValue.Normal ∧
      promotedValue.format = promoted value.format ∧ promotedValue.reading = value.reading ∧
      ∀ count : Int, (⟨byteLength * 8, isSigned⟩ : IntegerFormat).convert promotedValue.bits = count →
        constantShiftCount expression byteLength isSigned = .ok ⟨count < 0, count.natAbs⟩ := by
  obtain ⟨promotedValue, promotes, normal, format, same⟩ :=
    promoteConstantInteger_eq (normal_of_evaluate evaluated)
  refine ⟨promotedValue, normal, format, same, ?_⟩
  rintro count rfl
  let converted : ConstantInteger :=
    ⟨promotedValue.bits % 2 ^ (byteLength * 8), byteLength, isSigned⟩
  have isNormal : converted.Normal := ⟨standard, Nat.mod_lt _ (by positivity)⟩
  have reads : converted.reading =
      (⟨byteLength * 8, isSigned⟩ : IntegerFormat).convert promotedValue.bits := reading_masked
  rw [← reads, constantShiftCount, evaluated]
  change (promoteConstantInteger value >>= _) = _
  rw [promotes]
  change (convertConstantInteger promotedValue byteLength isSigned >>= _) = _
  rw [convertConstantInteger_eq standard]
  change (if converted.isSigned = false then _ else _) = _
  split
  next isUnsigned =>
    change Except.ok (⟨false, converted.bits⟩ : ConstantShiftCount) = _
    rw [isNormal.reading_unsigned isUnsigned, Int.natAbs_natCast, decide_eq_false (by omega)]
  next signedFlag =>
    have flag : converted.isSigned = true := by simpa using signedFlag
    have range := signed_range isNormal flag
    have modulus : (2 : Int) ^ 64 = 18446744073709551616 := by norm_num
    rw [signedConstantValue_eq isNormal flag]
    change (if 0 ≤ converted.reading then _ else _) = _
    have magnitude {signed : Int} (nonneg : 0 ≤ signed) (below : signed < 2 ^ 64) :
        uint64 signed = signed.natAbs := by
      rw [uint64, Int.emod_eq_of_lt nonneg below]
      omega
    split
    next nonneg =>
      change Except.ok (⟨false, uint64 converted.reading⟩ : ConstantShiftCount) = _
      rw [magnitude nonneg (by omega), decide_eq_false (by omega)]
    next negative =>
      split
      next least =>
        rw [least]
        rfl
      next =>
        rw [int64_eq (by omega) (by omega)]
        change Except.ok (⟨true, uint64 (-converted.reading)⟩ : ConstantShiftCount) = _
        rw [magnitude (by omega) (by omega), Int.natAbs_neg, decide_eq_true (by omega)]

/-- No evaluation of a shift count overflows. -/
theorem constantShiftCount_safe (expression : CoreExpr) (byteLength : Nat) (isSigned : Bool) :
    constantShiftCount expression byteLength isSigned ≠ .error .overflow := by
  cases evaluated : evaluateIntegerConstant expression with
  | error stop =>
      cases stop with
      | overflow => exact absurd evaluated (gives_evaluate expression).safe
      | noValue =>
          rw [constantShiftCount, evaluated]
          intro same
          cases same
  | ok value =>
      by_cases standard : IsStandard byteLength
      · obtain ⟨_, _, _, _, counted⟩ :=
          constantShiftCount_eq isSigned standard evaluated
        rw [counted _ rfl]
        intro same
        cases same
      · obtain ⟨promotedValue, promotes, _⟩ :=
          promoteConstantInteger_eq (normal_of_evaluate evaluated)
        rw [constantShiftCount, evaluated]
        change (promoteConstantInteger value >>= _) ≠ _
        rw [promotes]
        change ((integerMask byteLength >>= _) >>= _) ≠ _
        rw [integerMask, if_pos (by unfold IsStandard at standard; omega)]
        intro same
        cases same

end

end HitSimple.CCompat

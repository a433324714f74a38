import HitSimple.CCompat.ConstantReading

namespace HitSimple.CCompat
open FixedWidth (IntegerFormat)

/-! ### Signed operations -/

/-- The operands lie in a symmetric range of at most 64 bits, but for its minimum. -/
structure Ranged (minimum maximum left right : Int) : Prop where
  symmetric : minimum = -maximum - 1
  nonneg : 0 ≤ maximum
  fits : maximum < 2 ^ 63
  left : minimum ≤ left ∧ left ≤ maximum
  right : minimum ≤ right ∧ right ≤ maximum

section
variable {minimum maximum left right : Int}

theorem gives_sumOverflows (ranged : Ranged minimum maximum left right) :
    Gives (sumOverflows minimum maximum left right) fun overflows =>
      overflows = false → minimum ≤ left + right ∧ left + right ≤ maximum := by
  obtain ⟨symmetric, nonneg, fits, ⟨leftLower, leftUpper⟩, rightLower, rightUpper⟩ := ranged
  unfold sumOverflows
  split
  · refine (gives_int64 (by omega) (by omega)).bind fun bound _ same => gives_ok fun passed => ?_
    have below := of_decide_eq_false passed
    omega
  split
  · refine (gives_int64 (by omega) (by omega)).bind fun bound _ same => gives_ok fun passed => ?_
    have above := of_decide_eq_false passed
    omega
  · exact gives_ok fun _ => by omega

theorem gives_differenceOverflows (ranged : Ranged minimum maximum left right) :
    Gives (differenceOverflows minimum maximum left right) fun overflows =>
      overflows = false → minimum ≤ left - right ∧ left - right ≤ maximum := by
  obtain ⟨symmetric, nonneg, fits, ⟨leftLower, leftUpper⟩, rightLower, rightUpper⟩ := ranged
  unfold differenceOverflows
  split
  · refine (gives_int64 (by omega) (by omega)).bind fun bound _ same => gives_ok fun passed => ?_
    have above := of_decide_eq_false passed
    omega
  split
  · refine (gives_int64 (by omega) (by omega)).bind fun bound _ same => gives_ok fun passed => ?_
    have below := of_decide_eq_false passed
    omega
  · exact gives_ok fun _ => by omega

theorem natAbs_tdiv_le : (left.tdiv right).natAbs ≤ left.natAbs := by
  rw [Int.natAbs_tdiv]
  exact Nat.div_le_self _ _

theorem le_tdiv_iff (positive : 0 < right) (nonneg : 0 ≤ maximum) :
    left ≤ maximum.tdiv right ↔ left * right ≤ maximum := by
  rw [Int.tdiv_eq_ediv_of_nonneg nonneg, Int.le_ediv_iff_mul_le positive]

/-- Division towards zero is bounded from below as from above. -/
theorem tdiv_le_iff (positive : 0 < right) (nonpos : minimum ≤ 0) :
    minimum.tdiv right ≤ left ↔ minimum ≤ left * right := by
  have mirrored : -left ≤ (-minimum).tdiv right ↔ -left * right ≤ -minimum :=
    le_tdiv_iff positive (by omega)
  rw [Int.neg_tdiv, neg_mul] at mirrored
  omega

/-- Only the minimum divided by `-1` leaves the range. -/
theorem tdiv_lt (ranged : Ranged minimum maximum left right)
    (regular : ¬(left = minimum ∧ right = -1)) : left.tdiv right < 2 ^ 63 := by
  obtain ⟨symmetric, nonneg, fits, ⟨leftLower, leftUpper⟩, rightLower, rightUpper⟩ := ranged
  have magnitude : (left.tdiv right).natAbs ≤ left.natAbs := natAbs_tdiv_le
  by_cases least : left = minimum
  · rcases lt_or_ge right 0 with negative | nonnegative
    · have half : (left.tdiv right).natAbs ≤ left.natAbs / 2 := by
        rw [Int.natAbs_tdiv]
        exact Nat.div_le_div_left (by omega) (by decide)
      omega
    · rcases nonnegative.eq_or_lt with rfl | positive
      · simp
      · have nonpos : left.tdiv right ≤ 0 := (tdiv_le_iff positive (by omega)).mpr (by omega)
        omega
  · omega

theorem gives_productOverflows (ranged : Ranged minimum maximum left right) :
    Gives (productOverflows minimum maximum left right) fun overflows =>
      overflows = false → minimum ≤ left * right ∧ left * right ≤ maximum := by
  obtain ⟨symmetric, nonneg, fits, ⟨leftLower, leftUpper⟩, rightLower, rightUpper⟩ := ranged
  have upperQuotient : (maximum.tdiv right).natAbs ≤ maximum.natAbs := natAbs_tdiv_le
  have nonpos : minimum ≤ 0 := by omega
  have lowerQuotient {divisor : Int} (positive : 0 < divisor) : Gives
      (int64 (minimum.tdiv divisor)) (· = minimum.tdiv divisor) := by
    have magnitude : (minimum.tdiv divisor).natAbs ≤ minimum.natAbs := natAbs_tdiv_le
    have below : minimum.tdiv divisor ≤ 0 := (tdiv_le_iff positive nonpos).mpr (by omega)
    exact gives_int64 (by omega) (by omega)
  unfold productOverflows
  split
  next signs =>
    refine (gives_int64 (by omega) (by omega)).bind fun quotient _ same => gives_ok fun passed => ?_
    have below := of_decide_eq_false passed
    have product := (le_tdiv_iff signs.2 nonneg).mp (by omega : left ≤ maximum.tdiv right)
    have positive := mul_pos signs.1 signs.2
    omega
  split
  next signs =>
    refine (lowerQuotient signs.1).bind fun quotient _ same => gives_ok fun passed => ?_
    have above := of_decide_eq_false passed
    have product := (tdiv_le_iff signs.1 nonpos).mp (by omega : minimum.tdiv left ≤ right)
    have negative := mul_neg_of_pos_of_neg signs.1 signs.2
    rw [mul_comm] at product
    omega
  split
  next signs =>
    refine (lowerQuotient signs.2).bind fun quotient _ same => gives_ok fun passed => ?_
    have above := of_decide_eq_false passed
    have product := (tdiv_le_iff signs.2 nonpos).mp (by omega : minimum.tdiv right ≤ left)
    have negative := mul_neg_of_neg_of_pos signs.1 signs.2
    omega
  split
  next signs =>
    refine (gives_int64 (by omega) (by omega)).bind fun quotient _ same => gives_ok fun passed => ?_
    have above := of_decide_eq_false passed
    have mirrored : maximum.tdiv (-right) = -maximum.tdiv right := Int.tdiv_neg _ _
    have product : -left * -right ≤ maximum :=
      (le_tdiv_iff (neg_pos.mpr signs.2) nonneg).mp (by omega)
    have positive := mul_pos_of_neg_of_neg signs.1 signs.2
    rw [neg_mul_neg] at product
    omega
  · have zero : left * right = 0 := by
      rw [mul_eq_zero]
      omega
    exact gives_ok fun _ => by omega

theorem gives_signedArithmetic (format : IntegerFormat) {op : BinaryOperator}
    (positive : 0 < format.width) (ranged : Ranged minimum maximum left right) :
    Gives (signedArithmetic op minimum maximum left right) fun outcome =>
      ∀ value, operate format op left right = some value → format.convert outcome = value := by
  obtain ⟨symmetric, nonneg, fits, ⟨leftLower, leftUpper⟩, rightLower, rightUpper⟩ := id ranged
  have exactly {outcome exact_ : Int} (same : outcome = exact_) (value : Int)
      (computed : result format exact_ = some value) : format.convert outcome = value := by
    rw [same]
    exact convert_of_result positive computed
  unfold signedArithmetic
  split
  · refine (gives_sumOverflows ranged).bind fun overflows _ passed => ?_
    cases overflows with
    | true => exact gives_noValue
    | false =>
        have range := passed rfl
        exact (gives_int64 (by omega) (by omega)).mono fun _ => exactly
  · refine (gives_differenceOverflows ranged).bind fun overflows _ passed => ?_
    cases overflows with
    | true => exact gives_noValue
    | false =>
        have range := passed rfl
        exact (gives_int64 (by omega) (by omega)).mono fun _ => exactly
  · split
    next zero =>
      refine gives_ok (exactly ?_)
      rcases zero with rfl | rfl <;> simp
    split
    · exact gives_noValue
    · refine (gives_productOverflows ranged).bind fun overflows _ passed => ?_
      cases overflows with
      | true => exact gives_noValue
      | false =>
          have range := passed rfl
          exact (gives_int64 (by omega) (by omega)).mono fun _ => exactly
  · split
    · exact gives_noValue
    next regular =>
      have magnitude : (left.tdiv right).natAbs ≤ left.natAbs := natAbs_tdiv_le
      refine (gives_int64 (by omega) (tdiv_lt ranged (by omega))).mono fun outcome same value computed => ?_
      rw [operate, if_neg (by omega)] at computed
      exact exactly same value computed
  · split
    · exact gives_noValue
    next regular =>
      have magnitude : (left.tmod right).natAbs < right.natAbs := by
        rw [Int.natAbs_tmod]
        exact Nat.mod_lt _ (by omega)
      refine (gives_int64 (by omega) (by omega)).mono fun outcome same value computed => ?_
      rw [operate, if_neg (by omega)] at computed
      obtain ⟨_, _, remains⟩ := Option.bind_eq_some_iff.mp computed
      exact exactly same value remains
  · exact gives_noValue

end

/-! ### Typed operations -/

section
variable {byteLength : Nat}

theorem gives_signedMinimum (standard : IsStandard byteLength) :
    Gives (signedMinimum (byteLength * 8)) (· = -2 ^ (byteLength * 8 - 1)) := by
  rcases standard with rfl | rfl | rfl | rfl <;> exact gives_ok (by decide)

theorem gives_signedMaximum (standard : IsStandard byteLength) :
    Gives (signedMaximum (byteLength * 8)) (· = 2 ^ (byteLength * 8 - 1) - 1) := by
  rcases standard with rfl | rfl | rfl | rfl <;> exact gives_ok (by decide)

end

theorem operate_of_comparison {format : IntegerFormat} {op : BinaryOperator} {left right : Int}
    (comparing : isComparison op = true) :
    operate format op left right = some (truth (compareConstants op left right = true)) := by
  cases op <;> simp [isComparison, operate, compareConstants] at comparing ⊢

theorem compareConstants_natCast {op : BinaryOperator} {left right : Nat} :
    compareConstants op (left : Int) right = compareConstants op left right := by
  cases op <;> simp [compareConstants]

theorem gives_unsignedArithmetic (format : IntegerFormat) {op : BinaryOperator} {left right : Nat}
    (positive : 0 < format.width) (fits : format.width ≤ 64) (bound : right < 2 ^ 64) :
    Gives (unsignedArithmetic op left right) fun bits =>
      ∀ value, operate format op left right = some value → format.convert bits = value := by
  have wrapped {bits : Int} : bits % 2 ^ 64 ≡ bits [ZMOD 2 ^ format.width] :=
    (Int.mod_modEq _ _).of_dvd (pow_dvd_pow 2 fits)
  have exactly {bits : Nat} {exact_ : Int} (same : (bits : Int) ≡ exact_ [ZMOD 2 ^ format.width])
      (value : Int) (computed : result format exact_ = some value) : format.convert bits = value := by
    rw [IntegerFormat.convert_congr same]
    exact convert_of_result positive computed
  unfold unsignedArithmetic
  split
  · refine gives_ok (exactly ?_)
    push_cast
    exact wrapped
  · refine gives_ok (exactly ?_)
    have shifted : ((left + (2 ^ 64 - right) : Nat) : Int) = left - right + 2 ^ 64 := by omega
    have multiple : (2 ^ 64 : Int) ≡ 0 [ZMOD 2 ^ format.width] :=
      Int.modEq_zero_iff_dvd.mpr (pow_dvd_pow 2 fits)
    rw [Int.natCast_mod, shifted]
    refine Int.ModEq.trans wrapped ?_
    simpa using multiple.add_left ((left : Int) - right)
  · refine gives_ok (exactly ?_)
    push_cast
    exact wrapped
  · split
    · exact gives_noValue
    next nonzero =>
      refine gives_ok fun value computed => ?_
      rw [operate, if_neg (by exact_mod_cast nonzero), ← Int.ofNat_tdiv] at computed
      exact exactly rfl value computed
  · split
    · exact gives_noValue
    next nonzero =>
      refine gives_ok fun value computed => ?_
      rw [operate, if_neg (by exact_mod_cast nonzero)] at computed
      obtain ⟨_, _, remains⟩ := Option.bind_eq_some_iff.mp computed
      rw [← Int.ofNat_tmod] at remains
      exact exactly rfl value remains
  · exact gives_noValue

/-- What an operation of C on the operands' bits comes to. -/
structure Computes (operation : TypedIntegerOperator) (op : BinaryOperator)
    (left right outcome : ConstantInteger) : Prop where
  normal : outcome.Normal
  standard : IsStandard operation.byteLength
  format : outcome.format =
    if isComparison op then ⟨8, false⟩ else ⟨operation.byteLength * 8, operation.isSigned⟩
  shifted : isShift op = true → ∀ value,
    shift ⟨operation.byteLength * 8, operation.isSigned⟩ op
      (IntegerFormat.convert ⟨operation.byteLength * 8, operation.isSigned⟩ left.bits)
      right.reading = some value → outcome.reading = value
  operated : ∀ value,
    operate ⟨operation.byteLength * 8, operation.isSigned⟩ op
      (IntegerFormat.convert ⟨operation.byteLength * 8, operation.isSigned⟩ left.bits)
      (IntegerFormat.convert ⟨operation.byteLength * 8, operation.isSigned⟩ right.bits) =
      some value → outcome.reading = value

section
variable {operation : TypedIntegerOperator} {op : BinaryOperator} {left right : ConstantInteger}

/-- The operands of a typed operation, converted to its type. -/
structure Converted (operation : TypedIntegerOperator) (value converted : ConstantInteger) :
    Prop where
  normal : converted.Normal
  length : converted.byteLength = operation.byteLength
  sign : converted.isSigned = operation.isSigned
  reading : converted.reading =
    IntegerFormat.convert ⟨operation.byteLength * 8, operation.isSigned⟩ value.bits

theorem gives_converted {value : ConstantInteger} :
    Gives (convertConstantInteger value operation.byteLength operation.isSigned)
      (Converted operation value) :=
  gives_convert.mono fun _ ⟨normal, length, sign, same⟩ => ⟨normal, length, sign, same⟩

theorem Converted.format {value converted : ConstantInteger}
    (isConverted : Converted operation value converted) :
    converted.format = ⟨operation.byteLength * 8, operation.isSigned⟩ := by
  rw [ConstantInteger.format, isConverted.length, isConverted.sign]

theorem Converted.mask {value converted : ConstantInteger}
    (isConverted : Converted operation value converted) :
    converted.bits &&& (2 ^ (operation.byteLength * 8) - 1) = converted.bits := by
  rw [← isConverted.length]
  exact Nat.and_two_pow_sub_one_of_lt_two_pow isConverted.normal.bound

theorem operate_of_shift {format : IntegerFormat} {value other : Int}
    (shifting : isShift op = true) : operate format op value other = none := by
  cases op <;> simp [isShift, operate] at shifting ⊢

theorem not_comparison_of_shift (shifting : isShift op = true) : isComparison op = false := by
  cases op <;> simp [isShift, isComparison] at shifting ⊢

theorem computes_of_shift {convertedLeft outcome : ConstantInteger} (shifting : isShift op = true)
    (isLeft : Converted operation left convertedLeft) (normal : outcome.Normal)
    (format : outcome.format = convertedLeft.format)
    (shifted : ∀ value, shift convertedLeft.format op convertedLeft.reading right.reading =
      some value → outcome.reading = value) : Computes operation op left right outcome where
  normal := normal
  standard := isLeft.length ▸ isLeft.normal.standard
  format := by rw [not_comparison_of_shift shifting, format, isLeft.format]; rfl
  shifted _ value computed := by
    refine shifted value ?_
    rw [isLeft.format, isLeft.reading]
    exact computed
  operated value computed := by
    rw [operate_of_shift shifting] at computed
    cases computed

theorem computes_bitwise {convertedLeft convertedRight : ConstantInteger}
    (isLeft : Converted operation left convertedLeft)
    (isRight : Converted operation right convertedRight)
    (bitwise : op = .bitAnd ∨ op = .bitOr ∨ op = .bitXor) :
    Computes operation op left right
      ⟨bitwiseBits op convertedLeft.bits convertedRight.bits, operation.byteLength,
        operation.isSigned⟩ := by
  have standard : IsStandard operation.byteLength := isLeft.length ▸ isLeft.normal.standard
  have leftBound := isLeft.normal.bound
  have rightBound := isRight.normal.bound
  have leftPattern := isLeft.normal.pattern_reading
  have rightPattern := isRight.normal.pattern_reading
  rw [isLeft.length] at leftBound
  rw [isRight.length] at rightBound
  rw [isLeft.format, isLeft.reading] at leftPattern
  rw [isRight.format, isRight.reading] at rightPattern
  refine ⟨⟨standard, ?_⟩, standard, ?_, ?_, ?_⟩
  · rcases bitwise with rfl | rfl | rfl
    · exact Nat.and_lt_two_pow _ rightBound
    · exact Nat.or_lt_two_pow leftBound rightBound
    · exact Nat.xor_lt_two_pow leftBound rightBound
  · rcases bitwise with rfl | rfl | rfl <;> rfl
  · rcases bitwise with rfl | rfl | rfl <;> exact nofun
  · intro value computed
    rw [← Option.some_inj, ← computed]
    rcases bitwise with rfl | rfl | rfl <;> rw [operate, leftPattern, rightPattern] <;> rfl

theorem computes_comparison {holds : Bool} (standard : IsStandard operation.byteLength)
    (comparing : isComparison op = true)
    (decided : holds = compareConstants op
      (IntegerFormat.convert ⟨operation.byteLength * 8, operation.isSigned⟩ left.bits)
      (IntegerFormat.convert ⟨operation.byteLength * 8, operation.isSigned⟩ right.bits)) :
    Computes operation op left right (ofTruth holds) where
  normal := (normal_ofTruth holds).1
  standard := standard
  format := by rw [comparing]; exact (normal_ofTruth holds).2.1
  shifted shifting := by
    rw [not_comparison_of_shift shifting] at comparing
    cases comparing
  operated value computed := by
    rw [operate_of_comparison comparing, ← decided] at computed
    rw [(normal_ofTruth holds).2.2]
    exact Option.some.inj computed

theorem computes_arithmetic {outcome : ConstantInteger}
    (standard : IsStandard operation.byteLength) (notShift : ¬isShift op = true)
    (notComparison : ¬isComparison op = true) (normal : outcome.Normal)
    (format : outcome.format = ⟨operation.byteLength * 8, operation.isSigned⟩)
    (computes : ∀ value, operate ⟨operation.byteLength * 8, operation.isSigned⟩ op
      (IntegerFormat.convert ⟨operation.byteLength * 8, operation.isSigned⟩ left.bits)
      (IntegerFormat.convert ⟨operation.byteLength * 8, operation.isSigned⟩ right.bits) =
      some value → outcome.reading = value) : Computes operation op left right outcome where
  normal := normal
  standard := standard
  format := by rw [if_neg notComparison, format]
  shifted shifting := absurd shifting notShift
  operated := computes

theorem ranged_of_signed {minimum maximum : Int} (standard : IsStandard operation.byteLength)
    (isSigned : operation.isSigned = true) (least : minimum = -2 ^ (operation.byteLength * 8 - 1))
    (greatest : maximum = 2 ^ (operation.byteLength * 8 - 1) - 1) :
    Ranged minimum maximum
      (IntegerFormat.convert ⟨operation.byteLength * 8, operation.isSigned⟩ left.bits)
      (IntegerFormat.convert ⟨operation.byteLength * 8, operation.isSigned⟩ right.bits) := by
  have bounds (bits : Nat) : minimum ≤
      IntegerFormat.convert ⟨operation.byteLength * 8, operation.isSigned⟩ bits ∧
      IntegerFormat.convert ⟨operation.byteLength * 8, operation.isSigned⟩ bits ≤ maximum := by
    have holds : IntegerFormat.Holds ⟨operation.byteLength * 8, operation.isSigned⟩
        (IntegerFormat.convert ⟨operation.byteLength * 8, operation.isSigned⟩ bits) :=
      IntegerFormat.holds_convert standard.positive
    rw [IntegerFormat.Holds, if_pos isSigned] at holds
    dsimp only at holds
    omega
  have power : (0 : Int) < 2 ^ (operation.byteLength * 8 - 1) := by positivity
  have wide := standard.le
  have fits : (2 : Int) ^ (operation.byteLength * 8 - 1) ≤ 2 ^ 63 :=
    pow_le_pow_right₀ (by decide) (by omega)
  exact ⟨by omega, by omega, by omega, bounds _, bounds _⟩

theorem gives_evaluateTyped (found : binaryOperator operation.symbol = some op)
    (normalRight : right.Normal) :
    Gives (evaluateTyped operation left right) (Computes operation op left right) := by
  unfold evaluateTyped
  rw [found]
  dsimp only
  split
  · exact gives_noValue
  refine gives_converted.bind fun convertedLeft _ isLeft => ?_
  split
  next shifting =>
    have shifted := gives_shift operation.symbol shifting isLeft.normal normalRight
    rw [isLeft.length, isLeft.sign] at shifted
    exact shifted.mono fun outcome ⟨normal, format, computes⟩ =>
      computes_of_shift shifting isLeft normal format computes
  next notShift =>
    refine gives_converted.bind fun convertedRight _ isRight => ?_
    refine (gives_integerMask _).bind fun mask _ ⟨standard, masked⟩ => ?_
    rw [masked, isLeft.mask, isRight.mask]
    split
    next bitwise => exact gives_ok (computes_bitwise isLeft isRight bitwise)
    split
    next isSigned =>
      refine (gives_signedConstantValue isLeft.normal).bind fun signedLeft _ ⟨_, sameLeft⟩ => ?_
      refine (gives_signedConstantValue isRight.normal).bind fun signedRight _ ⟨_, sameRight⟩ => ?_
      refine (gives_signedMinimum standard).bind fun minimum _ least => ?_
      refine (gives_signedMaximum standard).bind fun maximum _ greatest => ?_
      rw [isLeft.reading] at sameLeft
      rw [isRight.reading] at sameRight
      split
      next comparing =>
        exact gives_ok (computes_comparison standard comparing (by rw [sameLeft, sameRight]))
      next notComparison =>
        rw [sameLeft, sameRight]
        refine (gives_signedArithmetic ⟨operation.byteLength * 8, operation.isSigned⟩ standard.positive
          (ranged_of_signed standard isSigned least greatest)).bind fun computedResult _ computes => ?_
        refine gives_convert.mono fun outcome ⟨normal, length, sign, reads⟩ => ?_
        refine computes_arithmetic standard notShift notComparison normal ?_ fun value defined => ?_
        · rw [ConstantInteger.format, length, sign, isSigned]
        · rw [reads, IntegerFormat.convert_congr (uint64_modEq standard), ← isSigned]
          exact computes value defined
    next isUnsigned =>
      have noSign : operation.isSigned = false := by simpa using isUnsigned
      have readsLeft := isLeft.normal.reading_unsigned (isLeft.sign.trans noSign)
      have readsRight := isRight.normal.reading_unsigned (isRight.sign.trans noSign)
      rw [isLeft.reading] at readsLeft
      rw [isRight.reading] at readsRight
      split
      next comparing =>
        refine gives_ok (computes_comparison standard comparing ?_)
        rw [readsLeft, readsRight, compareConstants_natCast]
      next notComparison =>
        refine (gives_unsignedArithmetic ⟨operation.byteLength * 8, operation.isSigned⟩
          standard.positive standard.le isRight.normal.bits_lt).bind fun bits _ computes => gives_ok ?_
        rw [Nat.and_two_pow_sub_one_eq_mod]
        refine computes_arithmetic standard notShift notComparison
          ⟨standard, Nat.mod_lt _ (by positivity)⟩ ?_ fun value defined => ?_
        · rw [ConstantInteger.format, noSign]
        · rw [readsLeft, readsRight] at defined
          rw [← computes value defined, noSign]
          exact reading_masked

end

/-! ### Unary operators -/

section
variable {operand : ConstantInteger}

/-- What a unary operator comes to at the type that its operand is promoted to. -/
structure ComputesUnary (op : UnaryOperator) (operand outcome : ConstantInteger) : Prop where
  normal : outcome.Normal
  negated : op = .not →
    outcome.format = ⟨8, false⟩ ∧ outcome.reading = truth (operand.reading = 0)
  format : op ≠ .not → outcome.format = promoted operand.format
  operated : op ≠ .not → ∀ value,
    operateUnary outcome.format op operand.reading = some value → outcome.reading = value

theorem computesUnary_of_masked {op : UnaryOperator} {byteLength bits : Nat} {isSigned : Bool}
    (standard : IsStandard byteLength) (notNot : op ≠ .not)
    (format : ⟨byteLength * 8, isSigned⟩ = promoted operand.format)
    (computes : ∀ value,
      operateUnary ⟨byteLength * 8, isSigned⟩ op operand.reading = some value →
        IntegerFormat.convert ⟨byteLength * 8, isSigned⟩ bits = value) :
    ComputesUnary op operand ⟨bits &&& 2 ^ (byteLength * 8) - 1, byteLength, isSigned⟩ where
  normal := by
    rw [Nat.and_two_pow_sub_one_eq_mod]
    exact ⟨standard, Nat.mod_lt _ (by positivity)⟩
  negated same := absurd same notNot
  format _ := format
  operated _ value computed := by
    rw [← computes value computed, Nat.and_two_pow_sub_one_eq_mod]
    exact reading_masked

theorem two_pow_modEq {byteLength : Nat} (standard : IsStandard byteLength) :
    (2 ^ 64 : Int) ≡ 0 [ZMOD 2 ^ (byteLength * 8)] :=
  Int.modEq_zero_iff_dvd.mpr (pow_dvd_pow 2 standard.le)

theorem signed_range (normal : operand.Normal) (isSigned : operand.isSigned = true) :
    -2 ^ 63 ≤ operand.reading ∧ operand.reading < 2 ^ 63 := by
  have holds := normal.holds
  have wide := normal.standard.le
  have power : (2 : Int) ^ (operand.byteLength * 8 - 1) ≤ 2 ^ 63 :=
    pow_le_pow_right₀ (by decide) (by omega)
  rw [ConstantInteger.format, isSigned, IntegerFormat.Holds, if_pos rfl] at holds
  dsimp only at holds
  omega

theorem gives_evaluateUnary {op : UnaryOperator} (normal : operand.Normal) :
    Gives (evaluateUnary op operand) (ComputesUnary op operand) := by
  unfold evaluateUnary
  split
  · refine (gives_isTrue normal).bind fun holds _ decided => gives_ok ?_
    obtain ⟨isNormal, format, reads⟩ := normal_ofTruth !holds
    refine ⟨isNormal, fun _ => ⟨format, ?_⟩, fun notNot => absurd rfl notNot,
      fun notNot => absurd rfl notNot⟩
    rw [reads]
    cases holds <;> simp_all
  · refine (gives_promote normal).bind fun promotedValue _ promoted => ?_
    obtain ⟨isNormal, format, same⟩ := promoted
    refine (gives_integerMask _).bind fun mask _ _ =>
      gives_ok ⟨isNormal, fun other => ?_, fun _ => format, ?_⟩
    · cases other
    intro _ value computed
    rw [same]
    exact Option.some.inj computed
  · refine (gives_promote normal).bind fun promotedValue _ promoted => ?_
    obtain ⟨isNormal, format, same⟩ := promoted
    refine (gives_integerMask _).bind fun mask _ found => gives_ok ?_
    obtain ⟨standard, masked⟩ := found
    rw [masked]
    refine computesUnary_of_masked standard (fun other => ?_) format fun value computed => ?_
    · cases other
    rw [← Option.some.inj computed, ← same]
    refine IntegerFormat.convert_congr ?_
    have below := isNormal.bits_lt
    have flipped : ((2 ^ 64 - 1 - promotedValue.bits : Nat) : Int) =
        2 ^ 64 + (-promotedValue.bits - 1) := by omega
    have bitwise := promotedValue.reading_modEq.symm
    have congruent := (two_pow_modEq standard).add (bitwise.neg.sub_right 1)
    rw [flipped]
    simpa using congruent
  · refine (gives_promote normal).bind fun promotedValue _ promoted => ?_
    obtain ⟨isNormal, format, same⟩ := promoted
    refine (gives_integerMask _).bind fun mask _ found => ?_
    obtain ⟨standard, masked⟩ := found
    split
    next isUnsigned =>
      refine gives_ok ?_
      rw [masked]
      rw [ConstantInteger.format, isUnsigned] at format
      refine computesUnary_of_masked standard (fun other => ?_) format fun value computed => ?_
      · cases other
      rw [← convert_of_result standard.positive computed, ← same]
      refine IntegerFormat.convert_congr ?_
      have below := isNormal.bits_lt
      have flipped : ((2 ^ 64 - promotedValue.bits : Nat) : Int) = 2 ^ 64 + -promotedValue.bits := by
        omega
      have bitwise := promotedValue.reading_modEq.symm
      have congruent := (two_pow_modEq standard).add bitwise.neg
      rw [Int.natCast_mod, flipped]
      refine ((Int.mod_modEq _ _).of_dvd (pow_dvd_pow 2 standard.le)).trans ?_
      simpa using congruent
    next isSigned =>
      refine (gives_signedConstantValue isNormal).bind fun signed _ read => ?_
      obtain ⟨signedFlag, denoted⟩ := read
      split
      · exact gives_noValue
      next notLeast =>
        have range := signed_range isNormal signedFlag
        refine (gives_int64 (by omega) (by omega)).bind fun negated _ equal => ?_
        refine gives_convert.mono fun outcome converted => ?_
        obtain ⟨normalOutcome, length, sign, reads⟩ := converted
        have sameFormat : outcome.format = promotedValue.format := by
          rw [ConstantInteger.format, length, sign, ConstantInteger.format, signedFlag]
        refine ⟨normalOutcome, fun other => ?_, fun _ => sameFormat.trans format,
          fun _ value computed => ?_⟩
        · cases other
        rw [sameFormat, ← same] at computed
        rw [reads, IntegerFormat.convert_congr (uint64_modEq standard), equal, denoted, ← signedFlag]
        exact convert_of_result standard.positive computed
  · exact gives_noValue

end

end HitSimple.CCompat

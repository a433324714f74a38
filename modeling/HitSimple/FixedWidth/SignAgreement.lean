import HitSimple.FixedWidth.Reading

namespace FixedWidth

/-! ## When an operation does not depend on the signedness it is carried out with -/

def QuotientIgnoresSign (left right : Int) : Prop :=
  right = 0 ∨ right = 1 ∨ (0 ≤ left ∧ 0 ≤ right) ∨ (0 ≤ left ∧ left < -right) ∨
    (left < 0 ∧ left = right)

def RemainderIgnoresSign (width : Nat) (left right : Int) : Prop :=
  right = 0 ∨ (0 ≤ left ∧ 0 ≤ right) ∨ (0 ≤ left ∧ left < -right) ∨
    (left < 0 ∧ left = right) ∨ (left < 0 ∧ 0 < right ∧ right ∣ left ∧ right ∣ 2 ^ width)

instance (left right : Int) : Decidable (QuotientIgnoresSign left right) := by
  unfold QuotientIgnoresSign; infer_instance

instance (width : Nat) (left right : Int) : Decidable (RemainderIgnoresSign width left right) := by
  unfold RemainderIgnoresSign; infer_instance

/-- Two integers that differ by less than the modulus are congruent only when equal. -/
theorem modEq_iff_eq_of_lt {first second modulus : Int}
    (below : first - second < modulus) (above : second - first < modulus) :
    first ≡ second [ZMOD modulus] ↔ first = second := by
  constructor
  · intro congruent
    obtain ⟨quotient, difference⟩ := congruent.dvd
    have zero : quotient = 0 := by
      by_contra nonzero
      rcases lt_or_gt_of_ne nonzero with negative | positive
      · nlinarith
      · nlinarith
    rw [zero, mul_zero] at difference
    omega
  · rintro rfl
    rfl

section Readings
variable {half left right : Int}

private theorem quotient_of_negative_divisor (leftNonneg : 0 ≤ left)
    (leftUpper : left < half) (lower : -half ≤ right) (negative : right < 0) :
    left.tdiv right ≡ left / (right + 2 * half) [ZMOD 2 * half] ↔ left < -right := by
  have zero : left / (right + 2 * half) = 0 := Int.ediv_eq_zero_of_lt leftNonneg (by omega)
  have quotient : left.tdiv right = -(left / -right) := by
    rw [← Int.neg_neg right, Int.tdiv_neg, Int.neg_neg, Int.tdiv_eq_ediv_of_nonneg leftNonneg]
  have nonneg : 0 ≤ left / -right := Int.ediv_nonneg leftNonneg (by omega)
  have small : left / -right ≤ left := Int.ediv_le_self _ leftNonneg
  rw [zero, quotient, modEq_iff_eq_of_lt (by omega) (by omega)]
  constructor
  · intro isZero
    by_contra large
    have : 1 ≤ left / -right := (Int.le_ediv_iff_mul_le (by omega)).mpr (by omega)
    omega
  · intro below
    rw [Int.ediv_eq_zero_of_lt leftNonneg below, neg_zero]

private theorem quotient_of_negative_dividend (lower : -half ≤ left)
    (negative : left < 0) (rightPositive : 0 < right) (rightUpper : right < half) :
    left.tdiv right ≡ (left + 2 * half) / right [ZMOD 2 * half] ↔ right = 1 := by
  have quotient : left.tdiv right = -(-left / right) := by
    rw [← Int.tdiv_eq_ediv_of_nonneg (by omega : 0 ≤ -left), Int.neg_tdiv, Int.neg_neg]
  rw [quotient]
  constructor
  · intro congruent
    by_contra notOne
    have two : 2 ≤ right := by omega
    have leftQuotient := Int.ediv_mul_le (-left) (by omega : right ≠ 0)
    have wideQuotient := Int.ediv_mul_le (left + 2 * half) (by omega : right ≠ 0)
    have leftNonneg : 0 ≤ -left / right := Int.ediv_nonneg (by omega) (by omega)
    have atLeastOne : 1 ≤ (left + 2 * half) / right :=
      (Int.le_ediv_iff_mul_le rightPositive).mpr (by omega)
    rw [modEq_iff_eq_of_lt (by nlinarith) (by nlinarith)] at congruent
    omega
  · rintro rfl
    rw [Int.ediv_one, Int.ediv_one, Int.neg_neg]
    exact Int.ModEq.symm Int.add_modEq_right

private theorem quotient_of_negatives (positive : 0 < half) (leftLower : -half ≤ left)
    (leftNegative : left < 0) (rightLower : -half ≤ right) (rightNegative : right < 0) :
    left.tdiv right ≡ (left + 2 * half) / (right + 2 * half) [ZMOD 2 * half] ↔ left = right := by
  have quotient : left.tdiv right = -left / -right := by
    rw [← Int.tdiv_eq_ediv_of_nonneg (by omega : 0 ≤ -left), Int.neg_tdiv, Int.tdiv_neg, Int.neg_neg]
  have nonneg : 0 ≤ -left / -right := Int.ediv_nonneg (by omega) (by omega)
  have small : -left / -right ≤ -left := Int.ediv_le_self _ (by omega)
  rw [quotient]
  rcases lt_trichotomy left right with less | rfl | greater
  · have wide : (left + 2 * half) / (right + 2 * half) = 0 :=
      Int.ediv_eq_zero_of_lt (by omega) (by omega)
    have one : 1 ≤ -left / -right := (Int.le_ediv_iff_mul_le (by omega)).mpr (by omega)
    rw [wide, modEq_iff_eq_of_lt (by omega) (by omega)]
    omega
  · rw [Int.ediv_self (by omega), Int.ediv_self (by omega)]
    simp
  · have wide : (left + 2 * half) / (right + 2 * half) = 1 := by
      have lower : 1 ≤ (left + 2 * half) / (right + 2 * half) :=
        (Int.le_ediv_iff_mul_le (by omega)).mpr (by omega)
      have upper : (left + 2 * half) / (right + 2 * half) < 2 :=
        Int.ediv_lt_of_lt_mul (by omega) (by omega)
      omega
    have zero : -left / -right = 0 := Int.ediv_eq_zero_of_lt (by omega) (by omega)
    rw [wide, zero, modEq_iff_eq_of_lt (by omega) (by omega)]
    omega

private theorem remainder_of_negative_divisor (leftNonneg : 0 ≤ left)
    (leftUpper : left < half) (lower : -half ≤ right) (negative : right < 0) :
    left.tmod right ≡ left % (right + 2 * half) [ZMOD 2 * half] ↔ left < -right := by
  have wide : left % (right + 2 * half) = left := Int.emod_eq_of_lt leftNonneg (by omega)
  have remainder : left.tmod right = left % -right := by
    rw [← Int.tmod_eq_emod_of_nonneg leftNonneg, Int.tmod_neg]
  have nonneg : 0 ≤ left % -right := Int.emod_nonneg _ (by omega)
  have small : left % -right < -right := Int.emod_lt_of_pos _ (by omega)
  rw [wide, remainder, modEq_iff_eq_of_lt (by omega) (by omega)]
  constructor
  · intro same
    omega
  · exact Int.emod_eq_of_lt leftNonneg

private theorem remainder_of_negative_dividend (negative : left < 0) (rightPositive : 0 < right) (rightUpper : right < half) :
    left.tmod right ≡ (left + 2 * half) % right [ZMOD 2 * half] ↔
      right ∣ left ∧ right ∣ 2 * half := by
  have remainder : left.tmod right = -(-left % right) := by
    rw [← Int.tmod_eq_emod_of_nonneg (by omega : 0 ≤ -left), Int.neg_tmod, Int.neg_neg]
  have nonneg : 0 ≤ -left % right := Int.emod_nonneg _ (by omega)
  have small : -left % right < right := Int.emod_lt_of_pos _ rightPositive
  have wideNonneg : 0 ≤ (left + 2 * half) % right := Int.emod_nonneg _ (by omega)
  have wideSmall : (left + 2 * half) % right < right := Int.emod_lt_of_pos _ rightPositive
  rw [remainder, modEq_iff_eq_of_lt (by omega) (by omega)]
  have bothZero : -(-left % right) = (left + 2 * half) % right ↔
      -left % right = 0 ∧ (left + 2 * half) % right = 0 := by omega
  rw [bothZero, ← Int.dvd_iff_emod_eq_zero, ← Int.dvd_iff_emod_eq_zero, Int.dvd_neg]
  constructor
  · rintro ⟨divides, dividesWide⟩
    exact ⟨divides, (Int.dvd_add_right divides).mp dividesWide⟩
  · rintro ⟨divides, dividesModulus⟩
    exact ⟨divides, Int.dvd_add divides dividesModulus⟩

private theorem remainder_of_negatives (leftLower : -half ≤ left)
    (leftNegative : left < 0) (rightLower : -half ≤ right) (rightNegative : right < 0) :
    left.tmod right ≡ (left + 2 * half) % (right + 2 * half) [ZMOD 2 * half] ↔ left = right := by
  have remainder : left.tmod right = -(-left % -right) := by
    rw [← Int.tmod_eq_emod_of_nonneg (by omega : 0 ≤ -left), Int.neg_tmod, Int.tmod_neg,
      Int.neg_neg]
  have nonneg : 0 ≤ -left % -right := Int.emod_nonneg _ (by omega)
  have small : -left % -right < -right := Int.emod_lt_of_pos _ (by omega)
  rw [remainder]
  rcases lt_trichotomy left right with less | rfl | greater
  · have wide : (left + 2 * half) % (right + 2 * half) = left + 2 * half :=
      Int.emod_eq_of_lt (by omega) (by omega)
    rw [wide]
    constructor
    · intro congruent
      have shifted : -(-left % -right) ≡ left [ZMOD 2 * half] :=
        congruent.trans Int.add_modEq_right
      rw [modEq_iff_eq_of_lt (by omega) (by omega)] at shifted
      omega
    · intro same
      omega
  · rw [Int.emod_self, Int.emod_self]
    simp
  · have wide : (left + 2 * half) % (right + 2 * half) = left - right := by
      have shift : left + 2 * half = left - right + (right + 2 * half) := by ring
      rw [shift, Int.add_emod_right]
      exact Int.emod_eq_of_lt (by omega) (by omega)
    have self : -left % -right = -left := Int.emod_eq_of_lt (by omega) (by omega)
    rw [wide, self, modEq_iff_eq_of_lt (by omega) (by omega)]
    omega

end Readings

/-- The half of the range of a width, and where a two's-complement reading lies. -/
theorem toInt_range {width : Nat} (positive : 0 < width) :
    ∃ half : Int, (2 : Int) ^ width = 2 * half ∧ 0 < half ∧
      ∀ pattern : BitVec width, -half ≤ pattern.toInt ∧ pattern.toInt < half := by
  refine ⟨2 ^ (width - 1), ?_, by positivity, fun pattern =>
    ⟨BitVec.le_toInt pattern, BitVec.toInt_lt⟩⟩
  rw [← pow_succ', Nat.sub_add_cancel positive]

theorem sdiv_eq_udiv_iff {width : Nat} (positive : 0 < width) (left right : BitVec width) :
    left.sdiv right = left / right ↔ QuotientIgnoresSign left.toInt right.toInt := by
  obtain ⟨half, modulus, halfPositive, range⟩ := toInt_range positive
  obtain ⟨leftLower, leftUpper⟩ := range left
  obtain ⟨rightLower, rightUpper⟩ := range right
  have leftUnsigned := toNat_eq_reading_add false left
  have rightUnsigned := toNat_eq_reading_add false right
  rw [← ofInt_tdiv_signed, ← ofInt_tdiv_unsigned, ofInt_eq_iff, modulus, reading_true,
    reading_true, leftUnsigned, rightUnsigned, modulus, reading_false, reading_false,
    QuotientIgnoresSign]
  by_cases leftNegative : left.toInt < 0 <;> by_cases rightNegative : right.toInt < 0
  · rw [if_pos leftNegative, if_pos rightNegative, Int.tdiv_eq_ediv_of_nonneg (a := left.toInt + _)
      (by omega), quotient_of_negatives halfPositive leftLower leftNegative rightLower rightNegative]
    omega
  · rw [if_pos leftNegative, if_neg rightNegative, add_zero,
      Int.tdiv_eq_ediv_of_nonneg (a := left.toInt + _) (by omega)]
    rcases eq_or_lt_of_le (not_lt.mp rightNegative) with zero | rightPositive
    · rw [← zero]
      simp
    · rw [quotient_of_negative_dividend leftLower leftNegative rightPositive rightUpper]
      omega
  · rw [if_neg leftNegative, if_pos rightNegative, add_zero,
      Int.tdiv_eq_ediv_of_nonneg (b := right.toInt + _) (by omega),
      quotient_of_negative_divisor (by omega) leftUpper rightLower rightNegative]
    omega
  · rw [if_neg leftNegative, if_neg rightNegative, add_zero, add_zero]
    exact iff_of_true rfl (Or.inr (Or.inr (Or.inl ⟨by omega, by omega⟩)))

theorem srem_eq_umod_iff {width : Nat} (positive : 0 < width) (left right : BitVec width) :
    left.srem right = left % right ↔ RemainderIgnoresSign width left.toInt right.toInt := by
  obtain ⟨half, modulus, halfPositive, range⟩ := toInt_range positive
  obtain ⟨leftLower, leftUpper⟩ := range left
  obtain ⟨rightLower, rightUpper⟩ := range right
  have leftUnsigned := toNat_eq_reading_add false left
  have rightUnsigned := toNat_eq_reading_add false right
  rw [← ofInt_tmod_signed, ← ofInt_tmod_unsigned, ofInt_eq_iff, modulus, reading_true,
    reading_true, leftUnsigned, rightUnsigned, modulus, reading_false, reading_false,
    RemainderIgnoresSign, modulus]
  by_cases leftNegative : left.toInt < 0 <;> by_cases rightNegative : right.toInt < 0
  · rw [if_pos leftNegative, if_pos rightNegative, Int.tmod_eq_emod_of_nonneg (a := left.toInt + _)
      (by omega), remainder_of_negatives leftLower leftNegative rightLower rightNegative]
    omega
  · rw [if_pos leftNegative, if_neg rightNegative, add_zero,
      Int.tmod_eq_emod_of_nonneg (a := left.toInt + _) (by omega)]
    rcases eq_or_lt_of_le (not_lt.mp rightNegative) with zero | rightPositive
    · rw [← zero, Int.tmod_zero, Int.emod_zero]
      exact iff_of_true Int.add_modEq_right.symm (Or.inl rfl)
    · rw [remainder_of_negative_dividend leftNegative rightPositive rightUpper]
      constructor
      · intro divides
        exact Or.inr (Or.inr (Or.inr (Or.inr ⟨leftNegative, rightPositive, divides⟩)))
      · rintro (zero | ⟨nonneg, _⟩ | ⟨nonneg, _⟩ | ⟨_, same⟩ | ⟨_, _, divides⟩)
        · omega
        · omega
        · omega
        · omega
        · exact divides
  · rw [if_neg leftNegative, if_pos rightNegative, add_zero,
      Int.tmod_eq_emod_of_nonneg (b := right.toInt + _) (by omega),
      remainder_of_negative_divisor (by omega) leftUpper rightLower rightNegative]
    omega
  · rw [if_neg leftNegative, if_neg rightNegative, add_zero, add_zero]
    exact iff_of_true rfl (Or.inr (Or.inl ⟨by omega, by omega⟩))

theorem sshiftRight_eq_ushiftRight_iff {width : Nat} (left : BitVec width) (count : Nat) :
    left.sshiftRight count = left >>> count ↔ 0 ≤ left.toInt ∨ count = 0 := by
  have sign : left.msb = decide (left.toInt < 0) := BitVec.msb_eq_toInt
  constructor
  · intro same
    by_contra neither
    obtain ⟨negative, positive⟩ := not_or.mp neither
    have top := congrArg BitVec.msb same
    rw [BitVec.msb_sshiftRight, BitVec.msb_ushiftRight, sign,
      decide_eq_true (not_le.mp negative), decide_eq_true (Nat.pos_of_ne_zero positive)] at top
    cases top
  · rintro (nonneg | rfl)
    · exact BitVec.sshiftRight_eq_of_msb_false (by rw [sign]; simpa using nonneg)
    · rw [BitVec.sshiftRight_zero, BitVec.ushiftRight_zero]

theorem slt_eq_ult_iff {width : Nat} (left right : BitVec width) :
    left.slt right = left.ult right ↔ (left.toInt < 0 ↔ right.toInt < 0) := by
  have leftUnsigned := toNat_eq_reading_add false left
  have rightUnsigned := toNat_eq_reading_add false right
  have leftLower : -2 ^ width ≤ 2 * left.toInt := BitVec.le_two_mul_toInt
  have leftUpper : 2 * left.toInt < 2 ^ width := BitVec.two_mul_toInt_lt
  have rightLower : -2 ^ width ≤ 2 * right.toInt := BitVec.le_two_mul_toInt
  have rightUpper : 2 * right.toInt < 2 ^ width := BitVec.two_mul_toInt_lt
  rw [reading_false] at leftUnsigned rightUnsigned
  rw [BitVec.slt, BitVec.ult, decide_eq_decide]
  split at leftUnsigned <;> split at rightUnsigned <;> omega

end FixedWidth

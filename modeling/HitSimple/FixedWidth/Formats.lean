import Mathlib.Data.Int.ModEq
import Mathlib.Data.Nat.Bitwise
import Mathlib.Tactic.Positivity
import Mathlib.Tactic.Ring

namespace FixedWidth

/-- The integers of a width, in two's complement where they are signed. -/
structure IntegerFormat where
  width : Nat
  isSigned : Bool
  deriving DecidableEq

namespace IntegerFormat

def Holds (format : IntegerFormat) (value : Int) : Prop :=
  if format.isSigned then -2 ^ (format.width - 1) ≤ value ∧ value < 2 ^ (format.width - 1)
  else 0 ≤ value ∧ value < 2 ^ format.width

instance (format : IntegerFormat) (value : Int) : Decidable (format.Holds value) :=
  inferInstanceAs (Decidable (ite _ _ _))

/-- The value of the format that is the same modulo `2 ^ width`. -/
def convert (format : IntegerFormat) (value : Int) : Int :=
  if format.isSigned then value.bmod (2 ^ format.width) else value % 2 ^ format.width

def pattern (format : IntegerFormat) (value : Int) : Nat :=
  (value % 2 ^ format.width).toNat

section
variable {format : IntegerFormat} {value other : Int}

theorem natCast_pattern : (format.pattern value : Int) = value % 2 ^ format.width :=
  Int.toNat_of_nonneg (Int.emod_nonneg _ (by positivity))

theorem convert_congr (same : value ≡ other [ZMOD 2 ^ format.width]) :
    format.convert value = format.convert other := by
  unfold convert
  split
  · refine Int.bmod_eq_bmod_iff_bmod_sub_eq_zero.mpr ?_
    rw [← Int.dvd_iff_bmod_eq_zero]
    push_cast
    exact same.symm.dvd
  · exact same

theorem convert_modEq : format.convert value ≡ value [ZMOD 2 ^ format.width] := by
  unfold convert
  split
  · have same := Int.bmod_emod (x := value) (m := 2 ^ format.width)
    push_cast at same
    exact same
  · exact Int.mod_modEq _ _

@[simp] theorem convert_pattern : format.convert (format.pattern value) = format.convert value := by
  refine convert_congr ?_
  rw [natCast_pattern]
  exact Int.mod_modEq _ _

@[simp] theorem pattern_convert : format.pattern (format.convert value) = format.pattern value := by
  unfold pattern
  rw [convert_modEq.eq]

theorem pattern_natCast {bits : Nat} (bound : bits < 2 ^ format.width) :
    format.pattern bits = bits := by
  have small : (bits : Int) < 2 ^ format.width := by exact_mod_cast bound
  unfold pattern
  rw [Int.emod_eq_of_lt (Int.natCast_nonneg bits) small, Int.toNat_natCast]

theorem two_mul_half (positive : 0 < format.width) :
    2 * 2 ^ (format.width - 1) = (2 ^ format.width : Int) := by
  rw [← pow_succ', Nat.sub_one_add_one positive.ne']

theorem convert_of_holds (positive : 0 < format.width) (holds : format.Holds value) :
    format.convert value = value := by
  have half := two_mul_half positive
  unfold Holds at holds
  unfold convert
  split at holds
  next isSigned =>
    rw [if_pos isSigned]
    exact Int.bmod_eq_of_le_mul_two (by push_cast; omega) (by push_cast; omega)
  next isUnsigned =>
    rw [if_neg isUnsigned]
    exact Int.emod_eq_of_lt holds.1 holds.2

theorem holds_convert (positive : 0 < format.width) : format.Holds (format.convert value) := by
  have half := two_mul_half positive
  have power : (0 : Int) < 2 ^ format.width := by positivity
  unfold Holds convert
  split
  · have lower := Int.le_bmod (x := value) (m := 2 ^ format.width) (by positivity)
    have upper := Int.bmod_lt (x := value) (m := 2 ^ format.width) (by positivity)
    push_cast at lower upper
    omega
  · exact ⟨Int.emod_nonneg _ power.ne', Int.emod_lt_of_pos _ power⟩

theorem Holds.widen {wider : IntegerFormat} (holds : format.Holds value)
    (below : format.width < wider.width) (isSigned : wider.isSigned = true) : wider.Holds value := by
  have upper : (2 : Int) ^ format.width ≤ 2 ^ (wider.width - 1) :=
    pow_le_pow_right₀ (by decide) (by omega)
  have lower : (2 : Int) ^ (format.width - 1) ≤ 2 ^ (wider.width - 1) :=
    pow_le_pow_right₀ (by decide) (by omega)
  have power : (0 : Int) < 2 ^ (wider.width - 1) := by positivity
  rw [Holds, if_pos isSigned]
  unfold Holds at holds
  split at holds <;> omega

/-- Every format holds what lies between zero and one of its values. -/
theorem Holds.between (holds : format.Holds value) (lower : min value 0 ≤ other)
    (upper : other ≤ max value 0) : format.Holds other := by
  have half : (0 : Int) < 2 ^ (format.width - 1) := by positivity
  have power : (0 : Int) < 2 ^ format.width := by positivity
  unfold Holds at holds ⊢
  by_cases isSigned : format.isSigned = true
  · rw [if_pos isSigned] at holds ⊢
    omega
  · rw [if_neg isSigned] at holds ⊢
    omega

theorem Holds.ediv_two_pow (holds : format.Holds value) (count : Nat) :
    format.Holds (value / 2 ^ count) := by
  have one : (1 : Int) ≤ 2 ^ count := by
    have power : (0 : Int) < 2 ^ count := by positivity
    omega
  have power : (0 : Int) < 2 ^ count := by omega
  refine holds.between ((Int.le_ediv_iff_mul_le power).mpr ?_) (Int.ediv_le_of_le_mul power ?_)
  · have above := mul_le_mul_of_nonpos_left one (min_le_right value 0)
    have below := min_le_left value 0
    omega
  · have below := mul_le_mul_of_nonneg_left one (le_max_right value 0)
    have above := le_max_left value 0
    omega

theorem convert_natCast {bits : Nat} (positive : 0 < format.width)
    (bound : bits < 2 ^ format.width) :
    format.convert bits =
      if format.isSigned ∧ 2 ^ (format.width - 1) ≤ bits then (bits : Int) - 2 ^ format.width
      else bits := by
  have half := two_mul_half positive
  have small : (bits : Int) < 2 ^ format.width := by exact_mod_cast bound
  have cast : ((2 ^ (format.width - 1) : Nat) : Int) = 2 ^ (format.width - 1) := by push_cast; rfl
  have same : format.convert bits = format.convert ((bits : Int) - 2 ^ format.width) :=
    convert_congr (by simp [Int.ModEq])
  split
  next negative =>
    rw [same]
    refine convert_of_holds positive ?_
    rw [Holds, if_pos negative.1]
    omega
  next nonneg =>
    refine convert_of_holds positive ?_
    unfold Holds
    split
    next isSigned =>
      have below : ¬2 ^ (format.width - 1) ≤ bits := fun above => nonneg ⟨isSigned, above⟩
      omega
    next => exact ⟨Int.natCast_nonneg bits, small⟩

/-- A pattern that is read as a value of its own, where the value has no sign. -/
theorem natCast_of_convert_nonneg {bits : Nat} (positive : 0 < format.width)
    (bound : bits < 2 ^ format.width) (nonneg : 0 ≤ format.convert bits) :
    format.convert bits = bits := by
  have small : (bits : Int) < 2 ^ format.width := by exact_mod_cast bound
  have below : format.convert bits < 2 ^ format.width := by
    have half := two_mul_half positive
    have holds : format.Holds (format.convert bits) := holds_convert positive
    have power : (0 : Int) < 2 ^ (format.width - 1) := by positivity
    unfold Holds at holds
    split at holds <;> omega
  have same := (convert_modEq : format.convert bits ≡ bits [ZMOD _]).eq
  rwa [Int.emod_eq_of_lt nonneg below, Int.emod_eq_of_lt (Int.natCast_nonneg bits) small] at same

end

end IntegerFormat

/-! ### Sign bits -/

theorem and_top_bit {width bits : Nat} (positive : 0 < width) (bound : bits < 2 ^ width) :
    bits &&& 2 ^ (width - 1) = 0 ↔ bits < 2 ^ (width - 1) := by
  have half : 2 * 2 ^ (width - 1) = 2 ^ width := by
    rw [← pow_succ', Nat.sub_one_add_one positive.ne']
  rw [Nat.and_two_pow]
  constructor
  · intro clear
    by_contra above
    obtain ⟨rest, rfl⟩ := Nat.exists_eq_add_of_le (Nat.le_of_not_lt above)
    rw [Nat.testBit_two_pow_add_eq, Nat.testBit_lt_two_pow (by omega)] at clear
    simp at clear
  · intro below
    rw [Nat.testBit_lt_two_pow below]
    simp

theorem fill_eq {width count : Nat} (below : count ≤ width) :
    (2 ^ width - 1) ^^^ ((2 ^ width - 1) >>> count) = 2 ^ (width - count) * (2 ^ count - 1) := by
  apply Nat.eq_of_testBit_eq
  intro index
  rw [Nat.testBit_xor, Nat.testBit_shiftRight, Nat.testBit_two_pow_sub_one,
    Nat.testBit_two_pow_sub_one, Nat.testBit_two_pow_mul, Nat.testBit_two_pow_sub_one]
  by_cases low : index < width - count
  · have inside : count + index < width := by omega
    have before : ¬width - count ≤ index := by omega
    simp [inside, before, show index < width by omega]
  · by_cases high : index < width
    · simp [high, show ¬count + index < width by omega, show width - count ≤ index by omega,
        show index - (width - count) < count by omega]
    · simp [high, show ¬count + index < width by omega,
        show ¬index - (width - count) < count by omega]

/-- Filling up a shifted pattern from the left adds what is shifted in. -/
theorem or_fill {width count bits : Nat} (below : count ≤ width) (bound : bits < 2 ^ width) :
    bits >>> count ||| ((2 ^ width - 1) ^^^ ((2 ^ width - 1) >>> count)) =
      bits / 2 ^ count + (2 ^ width - 2 ^ (width - count)) := by
  have small : bits / 2 ^ count < 2 ^ (width - count) := by
    rw [Nat.div_lt_iff_lt_mul (by positivity), ← pow_add, Nat.sub_add_cancel below]
    exact bound
  rw [fill_eq below, Nat.shiftRight_eq_div_pow, Nat.lor_comm,
    ← Nat.two_pow_add_eq_or_of_lt small, Nat.add_comm, Nat.mul_sub, mul_one, ← pow_add,
    Nat.sub_add_cancel below]

end FixedWidth

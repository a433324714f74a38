import Mathlib.Data.Int.ModEq
import Mathlib.Tactic.Linarith
import Mathlib.Tactic.Positivity
import Mathlib.Tactic.Ring

namespace FixedWidth

/-- The integer denoted by a bit pattern, read as a natural or in two's complement. -/
def reading (isUnsigned : Bool) {width : Nat} (pattern : BitVec width) : Int :=
  if isUnsigned then pattern.toNat else pattern.toInt

/-- The pattern of another width that keeps the reading when it is wider, and the low bits
when it is narrower. -/
def resize (isUnsigned : Bool) (newWidth : Nat) {width : Nat} (pattern : BitVec width) :
    BitVec newWidth :=
  if isUnsigned then pattern.setWidth newWidth else pattern.signExtend newWidth

@[simp] theorem reading_true {width : Nat} (pattern : BitVec width) :
    reading true pattern = pattern.toNat := rfl

@[simp] theorem reading_false {width : Nat} (pattern : BitVec width) :
    reading false pattern = pattern.toInt := rfl

@[simp] theorem resize_true {width : Nat} (newWidth : Nat) (pattern : BitVec width) :
    resize true newWidth pattern = pattern.setWidth newWidth := rfl

@[simp] theorem resize_false {width : Nat} (newWidth : Nat) (pattern : BitVec width) :
    resize false newWidth pattern = pattern.signExtend newWidth := rfl

@[simp] theorem ofInt_reading (isUnsigned : Bool) {width : Nat} (pattern : BitVec width) :
    BitVec.ofInt width (reading isUnsigned pattern) = pattern := by
  cases isUnsigned with
  | false => simp
  | true => simp

theorem resize_eq_ofInt (isUnsigned : Bool) (newWidth : Nat) {width : Nat}
    (pattern : BitVec width) :
    resize isUnsigned newWidth pattern = BitVec.ofInt newWidth (reading isUnsigned pattern) := by
  cases isUnsigned with
  | false => rfl
  | true =>
      rw [resize_true, reading_true, BitVec.ofInt_natCast]
      exact (BitVec.ofNat_toNat newWidth pattern).symm

@[simp] theorem resize_self (isUnsigned : Bool) {width : Nat} (pattern : BitVec width) :
    resize isUnsigned width pattern = pattern := by
  rw [resize_eq_ofInt, ofInt_reading]

theorem reading_injective (isUnsigned : Bool) {width : Nat} {left right : BitVec width}
    (equal : reading isUnsigned left = reading isUnsigned right) : left = right := by
  rw [← ofInt_reading isUnsigned left, equal, ofInt_reading]

theorem reading_resize_of_le (isUnsigned : Bool) {width newWidth : Nat}
    (pattern : BitVec width) (wider : width ≤ newWidth) :
    reading isUnsigned (resize isUnsigned newWidth pattern) = reading isUnsigned pattern := by
  cases isUnsigned with
  | false => exact BitVec.toInt_signExtend_of_le wider
  | true =>
      simp only [reading_true, resize_true, BitVec.toNat_setWidth]
      rw [Nat.mod_eq_of_lt]
      exact lt_of_lt_of_le pattern.isLt (Nat.pow_le_pow_right (by omega) wider)

/-- Narrowing forgets how the wider pattern was obtained. -/
theorem resize_of_le (isUnsigned : Bool) {width newWidth : Nat} (pattern : BitVec width)
    (narrower : newWidth ≤ width) :
    resize isUnsigned newWidth pattern = pattern.setWidth newWidth := by
  cases isUnsigned with
  | false => exact BitVec.signExtend_eq_setWidth_of_le pattern narrower
  | true => rfl

theorem reading_nonneg_of_unsigned {width : Nat} (pattern : BitVec width) :
    0 ≤ reading true pattern :=
  Int.natCast_nonneg _

/-- The two readings differ by the modulus exactly when the two's-complement one is negative. -/
theorem toNat_eq_reading_add (isUnsigned : Bool) {width : Nat} (pattern : BitVec width) :
    (pattern.toNat : Int) =
      reading isUnsigned pattern + (if reading isUnsigned pattern < 0 then 2 ^ width else 0) := by
  cases isUnsigned with
  | true =>
      rw [if_neg (not_lt.mpr (reading_nonneg_of_unsigned pattern)), add_zero]
      rfl
  | false =>
      have upper : (pattern.toNat : Int) < 2 ^ width := by exact_mod_cast pattern.isLt
      have value := BitVec.toInt_eq_toNat_cond pattern
      show (pattern.toNat : Int) = pattern.toInt + (if pattern.toInt < 0 then 2 ^ width else 0)
      push_cast at value
      split at value <;> split <;> omega

theorem reading_lt_two_pow (isUnsigned : Bool) {width : Nat} (pattern : BitVec width) :
    reading isUnsigned pattern < 2 ^ width := by
  have bound : (pattern.toNat : Int) < 2 ^ width := by exact_mod_cast pattern.isLt
  have positive : (0 : Int) < 2 ^ width := by positivity
  have difference := toNat_eq_reading_add isUnsigned pattern
  split at difference <;> omega

theorem two_mul_le_two_pow (count : Nat) : 2 * count ≤ 2 ^ count := by
  cases count with
  | zero => omega
  | succ count =>
      have below : count < 2 ^ count := Nat.lt_two_pow_self
      rw [Nat.pow_succ]
      omega

/-- A negative pattern has its top bit set. -/
theorem two_pow_le_of_negative (isUnsigned : Bool) {width : Nat}
    {pattern : BitVec width} (negative : reading isUnsigned pattern < 0) :
    2 ^ width ≤ 2 * pattern.toNat := by
  cases isUnsigned with
  | true => exact absurd negative (not_lt.mpr (reading_nonneg_of_unsigned pattern))
  | false =>
      have difference := toNat_eq_reading_add false pattern
      rw [if_pos negative, reading_false] at difference
      have lower : -2 ^ width ≤ 2 * pattern.toInt := BitVec.le_two_mul_toInt
      have doubled : (2 ^ width : Int) ≤ 2 * pattern.toNat := by omega
      exact_mod_cast doubled

theorem width_le_toNat_of_negative (isUnsigned : Bool) {width : Nat}
    {pattern : BitVec width} (negative : reading isUnsigned pattern < 0) :
    width ≤ pattern.toNat := by
  have half := two_pow_le_of_negative isUnsigned negative
  have doubled := two_mul_le_two_pow width
  omega

theorem ofInt_eq_iff {width : Nat} (left right : Int) :
    BitVec.ofInt width left = BitVec.ofInt width right ↔ left ≡ right [ZMOD 2 ^ width] := by
  have positive : (0 : Int) < 2 ^ width := by positivity
  constructor
  · intro equal
    have naturals := congrArg BitVec.toNat equal
    simp only [BitVec.toNat_ofInt] at naturals
    have leftNonneg := Int.emod_nonneg left (ne_of_gt positive)
    have rightNonneg := Int.emod_nonneg right (ne_of_gt positive)
    push_cast at naturals
    show left % 2 ^ width = right % 2 ^ width
    omega
  · intro congruent
    apply BitVec.eq_of_toNat_eq
    simp only [BitVec.toNat_ofInt]
    push_cast
    rw [congruent]

theorem setWidth_ofInt_of_le {width newWidth : Nat} (number : Int) (narrower : newWidth ≤ width) :
    (BitVec.ofInt width number).setWidth newWidth = BitVec.ofInt newWidth number := by
  rw [← resize_of_le true _ narrower, resize_eq_ofInt, ofInt_eq_iff]
  have same : reading true (BitVec.ofInt width number) ≡ number [ZMOD 2 ^ width] :=
    (ofInt_eq_iff _ _).mp (ofInt_reading true _)
  exact same.of_dvd (pow_dvd_pow 2 narrower)

/-- Extending a pattern, or narrowing it, keeps the low bits that stay. -/
theorem setWidth_resize (isUnsigned : Bool) {width middle newWidth : Nat}
    (pattern : BitVec width) (narrower : newWidth ≤ width) (kept : newWidth ≤ middle) :
    (resize isUnsigned middle pattern).setWidth newWidth = pattern.setWidth newWidth := by
  rw [resize_eq_ofInt, setWidth_ofInt_of_le _ kept, ← setWidth_ofInt_of_le _ narrower,
    ofInt_reading]

theorem ofInt_reading_add (isUnsigned : Bool) {width : Nat} (left right : BitVec width) :
    BitVec.ofInt width (reading isUnsigned left + reading isUnsigned right) = left + right := by
  rw [BitVec.ofInt_add, ofInt_reading, ofInt_reading]

theorem ofInt_reading_mul (isUnsigned : Bool) {width : Nat} (left right : BitVec width) :
    BitVec.ofInt width (reading isUnsigned left * reading isUnsigned right) = left * right := by
  rw [BitVec.ofInt_mul, ofInt_reading, ofInt_reading]

theorem ofInt_reading_sub (isUnsigned : Bool) {width : Nat} (left right : BitVec width) :
    BitVec.ofInt width (reading isUnsigned left - reading isUnsigned right) = left - right := by
  rw [sub_eq_add_neg, BitVec.ofInt_add, BitVec.ofInt_neg, ofInt_reading, ofInt_reading,
    BitVec.sub_eq_add_neg]

theorem ofInt_reading_pow (isUnsigned : Bool) {width : Nat} (base : BitVec width)
    (exponent : Nat) :
    BitVec.ofInt width (reading isUnsigned base ^ exponent) = base ^ exponent := by
  induction exponent with
  | zero => simp
  | succ exponent ih => rw [pow_succ, BitVec.ofInt_mul, ih, ofInt_reading, BitVec.pow_succ]

theorem ofInt_tdiv_unsigned {width : Nat} (left right : BitVec width) :
    BitVec.ofInt width ((reading true left).tdiv (reading true right)) = left / right := by
  apply BitVec.eq_of_toNat_eq
  rw [reading_true, reading_true, ← Int.ofNat_tdiv, BitVec.ofInt_natCast, BitVec.toNat_ofNat,
    BitVec.toNat_udiv, Nat.mod_eq_of_lt]
  exact lt_of_le_of_lt (Nat.div_le_self _ _) left.isLt

theorem ofInt_tdiv_signed {width : Nat} (left right : BitVec width) :
    BitVec.ofInt width ((reading false left).tdiv (reading false right)) = left.sdiv right := by
  apply BitVec.eq_of_toInt_eq
  rw [BitVec.toInt_ofInt, BitVec.toInt_sdiv, reading_false, reading_false]

theorem ofInt_tmod_unsigned {width : Nat} (left right : BitVec width) :
    BitVec.ofInt width ((reading true left).tmod (reading true right)) = left % right := by
  apply BitVec.eq_of_toNat_eq
  rw [reading_true, reading_true, ← Int.ofNat_tmod, BitVec.ofInt_natCast, BitVec.toNat_ofNat,
    BitVec.toNat_umod, Nat.mod_eq_of_lt]
  exact lt_of_le_of_lt (Nat.mod_le _ _) left.isLt

theorem ofInt_tmod_signed {width : Nat} (left right : BitVec width) :
    BitVec.ofInt width ((reading false left).tmod (reading false right)) = left.srem right := by
  apply BitVec.eq_of_toInt_eq
  rw [BitVec.toInt_ofInt, reading_false, reading_false, ← BitVec.toInt_srem,
    BitVec.toInt_bmod_cancel]

theorem ofInt_reading_mul_two_pow (isUnsigned : Bool) {width : Nat} (left : BitVec width)
    (count : Nat) :
    BitVec.ofInt width (reading isUnsigned left * 2 ^ count) = left <<< count := by
  rw [BitVec.ofInt_mul, ofInt_reading, BitVec.shiftLeft_eq_mul_twoPow]
  congr 1
  apply BitVec.eq_of_toNat_eq
  have power : ((2 : Int) ^ count) = ((2 ^ count : Nat) : Int) := by push_cast; rfl
  rw [power, BitVec.ofInt_natCast, BitVec.toNat_ofNat, BitVec.toNat_twoPow]

theorem ofInt_reading_shiftRight_unsigned {width : Nat} (left : BitVec width) (count : Nat) :
    BitVec.ofInt width (reading true left / 2 ^ count) = left >>> count := by
  apply BitVec.eq_of_toNat_eq
  have quotient : reading true left / 2 ^ count = ((left.toNat / 2 ^ count : Nat) : Int) := by
    push_cast; rfl
  rw [quotient, BitVec.ofInt_natCast, BitVec.toNat_ofNat, BitVec.toNat_ushiftRight,
    Nat.shiftRight_eq_div_pow, Nat.mod_eq_of_lt]
  exact lt_of_le_of_lt (Nat.div_le_self _ _) left.isLt

theorem ofInt_reading_shiftRight_signed {width : Nat} (left : BitVec width) (count : Nat) :
    BitVec.ofInt width (reading false left / 2 ^ count) = left.sshiftRight count := by
  rw [← ofInt_reading false (left.sshiftRight count), reading_false, reading_false,
    BitVec.toInt_sshiftRight, Int.shiftRight_eq_div_pow]
  push_cast
  rfl

end FixedWidth

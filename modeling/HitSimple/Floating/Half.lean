import HitSimple.Rounding.Binary
import Mathlib.Data.Nat.Bitwise
import Mathlib.Tactic.IntervalCases

namespace HitSimple.Floating
open Rounding

def binary16 : Format := ⟨10, 5, by decide, by decide⟩

def binary32 : Format := ⟨23, 8, by decide, by decide⟩

/-- `hs_f32_to_f16`, on the bits of the `float`. -/
def hsF32ToF16 (bits : BitVec 32) : BitVec 16 :=
  let sign := (bits >>> 16).setWidth 16 &&& 0x8000#16
  let exponent := (bits >>> 23) &&& 0xff#32
  let fraction := bits &&& 0x007fffff#32
  if exponent = 0xff#32 then
    (sign.setWidth 32 ||| 0x7c00#32 |||
      (if fraction = 0#32 then 0#32 else (fraction >>> 13) ||| 1#32)).setWidth 16
  else
    let halfExponent : Int := exponent.toNat - 127 + 15
    if 31 ≤ halfExponent then (sign.setWidth 32 ||| 0x7c00#32).setWidth 16
    else if halfExponent ≤ 0 then
      if halfExponent < -10 then sign
      else
        let mantissa := fraction ||| 0x00800000#32
        let shift := (14 - halfExponent).toNat
        let result := mantissa >>> shift
        let remainder := mantissa &&& ((1#32 <<< shift) - 1#32)
        let halfway := 1#32 <<< (shift - 1)
        let rounded :=
          if halfway < remainder ∨ remainder = halfway ∧ result &&& 1#32 ≠ 0#32 then result + 1#32
          else result
        (sign.setWidth 32 ||| rounded).setWidth 16
    else
      let result := (BitVec.ofInt 32 halfExponent <<< 10) ||| (fraction >>> 13)
      let remainder := fraction &&& 0x1fff#32
      let rounded :=
        if 0x1000#32 < remainder ∨ remainder = 0x1000#32 ∧ result &&& 1#32 ≠ 0#32 then result + 1#32
        else result
      (sign.setWidth 32 ||| rounded).setWidth 16

/-- The loop of `hs_f16_to_f32`, for at most so many rounds. -/
def normalize : Nat → BitVec 32 → Int → Option (BitVec 32 × Int)
  | 0, _, _ => none
  | rounds + 1, normalized, shift =>
      if normalized &&& 0x0400#32 = 0#32 then normalize rounds (normalized <<< 1) (shift - 1)
      else some (normalized, shift)

/-- `hs_f16_to_f32`, the bits of the `float`: none where the loop does not end. -/
def hsF16ToF32 (value : BitVec 16) : Option (BitVec 32) :=
  let sign := (value.setWidth 32 &&& 0x8000#32) <<< 16
  let exponent := (value.setWidth 32 >>> 10) &&& 0x1f#32
  let fraction := value.setWidth 32 &&& 0x03ff#32
  if exponent = 0#32 then
    if fraction = 0#32 then some sign
    else
      (normalize 32 fraction (-1)).map fun (normalized, shift) =>
        sign ||| BitVec.ofInt 32 (127 - 15 + 1 + shift) <<< 23 |||
          (normalized &&& 0x03ff#32) <<< 13
  else if exponent = 0x1f#32 then some (sign ||| 0x7f800000#32 ||| fraction <<< 13)
  else some (sign ||| (exponent + 112#32) <<< 23 ||| fraction <<< 13)

section
variable (bits : BitVec 32)

def exponent32 : ℕ := bits.toNat / 2 ^ 23 % 2 ^ 8

def fraction32 : ℕ := bits.toNat % 2 ^ 23

theorem place32 : place bits = exponent32 bits * 2 ^ 23 + fraction32 bits := by
  unfold place exponent32 fraction32
  omega

theorem exponent32_eq : ((bits >>> 23) &&& 0xff#32).toNat = exponent32 bits := by
  rw [BitVec.toNat_and, BitVec.toNat_ushiftRight, Nat.shiftRight_eq_div_pow]
  exact Nat.and_two_pow_sub_one_eq_mod _ 8

theorem fraction32_eq : (bits &&& 0x007fffff#32).toNat = fraction32 bits := by
  rw [BitVec.toNat_and]
  exact Nat.and_two_pow_sub_one_eq_mod _ 23

theorem sign32 : ((bits >>> 16).setWidth 16 &&& 0x8000#16).toNat = bits.msb.toNat * 2 ^ 15 := by
  rw [BitVec.toNat_and, BitVec.toNat_setWidth, BitVec.toNat_ushiftRight,
    Nat.shiftRight_eq_div_pow, show (0x8000#16).toNat = 2 ^ 15 by rfl, Nat.and_two_pow,
    Nat.testBit_mod_two_pow, Nat.testBit_div_two_pow, BitVec.msb_eq_getLsbD_last]
  rfl

/-- The sign stands over the result. -/
theorem signed_toNat {result : BitVec 32} (short : result.toNat < 2 ^ 15) :
    ((((bits >>> 16).setWidth 16 &&& 0x8000#16).setWidth 32 ||| result).setWidth 16).toNat =
      bits.msb.toNat * 2 ^ 15 + result.toNat := by
  have disjoint : 2 ^ 15 * bits.msb.toNat ||| result.toNat =
      2 ^ 15 * bits.msb.toNat + result.toNat :=
    (Nat.two_pow_add_eq_or_of_lt short _).symm
  have sign : bits.msb.toNat < 2 := Bool.toNat_lt _
  rw [BitVec.toNat_setWidth, BitVec.toNat_or, BitVec.toNat_setWidth, sign32,
    Nat.mod_eq_of_lt (b := 2 ^ 32) (by omega), Nat.mul_comm, disjoint, Nat.mod_eq_of_lt (by omega)]

end

/-- The rounding of both branches: the dropped bits against half of the last one that is kept. -/
theorem rounded_toNat {result remainder halfway : BitVec 32} {above numerator denominator : ℕ}
    (even : above % 2 = 0) (quotient : result.toNat = above + numerator / denominator)
    (rest : remainder.toNat = numerator % denominator) (half : 2 * halfway.toNat = denominator)
    (short : above + numerator / denominator < 2 ^ 31) :
    (if halfway < remainder ∨ remainder = halfway ∧ result &&& 1#32 ≠ 0#32 then result + 1#32
      else result).toNat = above + halfEven numerator denominator := by
  have odd : result &&& 1#32 ≠ 0#32 ↔ numerator / denominator % 2 = 1 := by
    rw [Ne, ← BitVec.toNat_inj, BitVec.toNat_and, quotient]
    change ¬(_ &&& 1 = 0) ↔ _
    rw [Nat.and_one_is_mod]
    omega
  have up : (halfway < remainder ∨ remainder = halfway ∧ result &&& 1#32 ≠ 0#32) ↔
      (denominator < 2 * (numerator % denominator) ∨
        2 * (numerator % denominator) = denominator ∧ numerator / denominator % 2 = 1) := by
    rw [odd, BitVec.lt_def, ← BitVec.toNat_inj, rest]
    omega
  unfold halfEven
  by_cases isUp : denominator < 2 * (numerator % denominator) ∨
      2 * (numerator % denominator) = denominator ∧ numerator / denominator % 2 = 1
  · rw [if_pos (up.mpr isUp), if_pos isUp, BitVec.toNat_add, quotient]
    change (_ + 1) % _ = _
    omega
  · rw [if_neg (mt up.mp isUp), if_neg isUp, quotient]

theorem toNat_one_shiftLeft {count : ℕ} (short : count < 32) :
    (1#32 <<< count).toNat = 2 ^ count := by
  have power : 2 ^ count < 2 ^ 32 := Nat.pow_lt_pow_right (by decide) short
  rw [BitVec.toNat_shiftLeft, Nat.shiftLeft_eq]
  change 1 * 2 ^ count % _ = _
  rw [Nat.one_mul, Nat.mod_eq_of_lt power]

/-- The bits that a mask of so many ones keeps. -/
theorem toNat_and_ones (value : BitVec 32) {count : ℕ} (short : count < 32) :
    (value &&& ((1#32 <<< count) - 1#32)).toNat = value.toNat % 2 ^ count := by
  have power := toNat_one_shiftLeft short
  have positive := Nat.two_pow_pos count
  have mask : ((1#32 <<< count) - 1#32).toNat = 2 ^ count - 1 := by
    rw [BitVec.toNat_sub_of_le, power]
    · rfl
    · rw [BitVec.le_def, power]
      exact positive
  rw [BitVec.toNat_and, mask, Nat.and_two_pow_sub_one_eq_mod]

section
variable (bits : BitVec 32)

/-- What the conversion leaves of a `float` without its sign. -/
def narrowPlace (exponent fraction : ℕ) : ℕ :=
  if exponent = 255 then 31 * 2 ^ 10 + if fraction = 0 then 0 else fraction / 2 ^ 13 ||| 1
  else if 143 ≤ exponent then 31 * 2 ^ 10
  else if exponent ≤ 112 then
    if exponent < 102 then 0 else halfEven (2 ^ 23 + fraction) (2 ^ (126 - exponent))
  else (exponent - 113) * 2 ^ 10 + halfEven (2 ^ 23 + fraction) (2 ^ 13)

theorem fraction32_lt : fraction32 bits < 2 ^ 23 :=
  Nat.mod_lt _ (by decide)

theorem exponent32_lt : exponent32 bits < 2 ^ 8 :=
  Nat.mod_lt _ (by decide)

theorem hsF32ToF16_toNat :
    (hsF32ToF16 bits).toNat =
        bits.msb.toNat * 2 ^ 15 + narrowPlace (exponent32 bits) (fraction32 bits) ∧
      narrowPlace (exponent32 bits) (fraction32 bits) < 2 ^ 15 := by
  have exponentLess := exponent32_lt bits
  have fractionLess := fraction32_lt bits
  have signed {result : BitVec 32} {rung : ℕ} (same : result.toNat = rung) (short : rung < 2 ^ 15) :
      ((((bits >>> 16).setWidth 16 &&& 0x8000#16).setWidth 32 ||| result).setWidth 16).toNat =
        bits.msb.toNat * 2 ^ 15 + rung ∧ rung < 2 ^ 15 := by
    subst same
    exact ⟨signed_toNat bits short, short⟩
  unfold hsF32ToF16 narrowPlace
  dsimp only
  have sign := sign32 bits
  have isExponent := exponent32_eq bits
  have isFraction := fraction32_eq bits
  generalize exponent32 bits = e at *
  generalize fraction32 bits = f at *
  generalize (bits >>> 23) &&& 0xff#32 = exponent at *
  generalize bits &&& 0x007fffff#32 = fraction at *
  have special : exponent = 0xff#32 ↔ e = 255 := by
    rw [← BitVec.toNat_inj, isExponent]
    rfl
  have zero : fraction = 0#32 ↔ f = 0 := by
    rw [← BitVec.toNat_inj, isFraction]
    rfl
  have infinite : (31 : ℤ) ≤ (e : ℤ) - 127 + 15 ↔ 143 ≤ e := by omega
  have subnormal : (e : ℤ) - 127 + 15 ≤ 0 ↔ e ≤ 112 := by omega
  have tiny : (e : ℤ) - 127 + 15 < -10 ↔ e < 102 := by omega
  simp only [isExponent, special, zero, infinite, subnormal, tiny]
  split
  · have quiet : (if f = 0 then 0 else f / 2 ^ 13 ||| 1) < 2 ^ 10 := by
      split
      · decide
      · exact Nat.or_lt_two_pow (by omega) (by decide)
    rw [BitVec.or_assoc]
    refine signed ?_ (by omega)
    rw [BitVec.toNat_or, Nat.mul_comm 31, Nat.two_pow_add_eq_or_of_lt quiet, Nat.mul_comm]
    split
    · rfl
    · rw [BitVec.toNat_or, BitVec.toNat_ushiftRight, isFraction, Nat.shiftRight_eq_div_pow]
      rfl
  split
  · exact signed rfl (by decide)
  split
  · split
    · exact ⟨by rw [sign, Nat.add_zero], by decide⟩
    · have shift : (14 - ((e : ℤ) - 127 + 15)).toNat = 126 - e := by omega
      have mantissa : (fraction ||| 0x00800000#32).toNat = 2 ^ 23 + f := by
        rw [BitVec.toNat_or, isFraction, Nat.or_comm]
        exact (Nat.two_pow_add_eq_or_of_lt fractionLess 1).symm
      have short : halfEven (2 ^ 23 + f) (2 ^ (126 - e)) ≤ 2 ^ 10 := by
        apply halfEven_le (Nat.two_pow_pos _)
        have most : 2 ^ 14 ≤ 2 ^ (126 - e) := Nat.pow_le_pow_right (by decide) (by omega)
        omega
      have quotient : (2 ^ 23 + f) / 2 ^ (126 - e) ≤ 2 ^ 23 + f := Nat.div_le_self _ _
      rw [shift]
      refine signed ?_ (by omega)
      rw [← Nat.zero_add (halfEven _ _)]
      refine rounded_toNat rfl ?_ ?_ ?_ (by omega)
      · rw [BitVec.toNat_ushiftRight, mantissa, Nat.shiftRight_eq_div_pow, Nat.zero_add]
      · rw [toNat_and_ones _ (by omega), mantissa]
      · rw [toNat_one_shiftLeft (by omega), ← pow_succ']
        congr 1
        omega
  · have short : halfEven (2 ^ 23 + f) (2 ^ 13) ≤ 2 ^ 11 := by
      apply halfEven_le (Nat.two_pow_pos _)
      omega
    refine signed ?_ (by omega)
    refine rounded_toNat (by omega) ?_ ?_ rfl (by omega)
    · have kept : f / 2 ^ 13 < 2 ^ 10 := by omega
      have whole : (BitVec.ofInt 32 ((e : ℤ) - 127 + 15) <<< 10).toNat = 2 ^ 10 * (e - 112) := by
        rw [show (e : ℤ) - 127 + 15 = ((e - 112 : ℕ) : ℤ) by omega, BitVec.ofInt_natCast,
          BitVec.toNat_shiftLeft, BitVec.toNat_ofNat, Nat.shiftLeft_eq]
        omega
      rw [BitVec.toNat_or, whole, BitVec.toNat_ushiftRight, isFraction, Nat.shiftRight_eq_div_pow,
        ← Nat.two_pow_add_eq_or_of_lt kept]
      omega
    · rw [show (0x1fff#32) = (1#32 <<< 13) - 1#32 by rfl, toNat_and_ones _ (by decide), isFraction]
      omega

end

section
variable {e f : ℕ}

/-- A `float` in units of the lowest binary16 number. -/
theorem value32_div (rung : ℕ) :
    binary32.value rung / 2 ^ binary16.lowest = (units 23 rung : ℚ) / 2 ^ 125 := by
  have low : binary32.lowest = -149 := rfl
  have low' : binary16.lowest = -24 := rfl
  rw [Format.value, low, low', mul_div_assoc, ← zpow_sub₀ (by norm_num), div_eq_mul_inv,
    ← zpow_natCast, ← zpow_neg]
  rfl

theorem value32_normal (normal : 0 < e) (short : f < 2 ^ 23) :
    binary32.value (e * 2 ^ 23 + f) = (2 ^ 23 + f) * 2 ^ (e - 1) / 2 ^ 149 := by
  have low : binary32.lowest = -149 := rfl
  have whole := binary32.value_normal normal short
  rw [low, zpow_neg, ← div_eq_mul_inv] at whole
  exact whole

theorem value16_normal (normal : 0 < e) (short : f < 2 ^ 10) :
    binary16.value (e * 2 ^ 10 + f) = (2 ^ 10 + f) * 2 ^ (e - 1) / 2 ^ 24 := by
  have low : binary16.lowest = -24 := rfl
  have whole := binary16.value_normal normal short
  rw [low, zpow_neg, ← div_eq_mul_inv] at whole
  exact whole

theorem value16_subnormal (short : f ≤ 2 ^ 10) : binary16.value f = f / 2 ^ 24 := by
  have low : binary16.lowest = -24 := rfl
  rw [binary16.value_subnormal short, low, zpow_neg, ← div_eq_mul_inv]
  rfl

theorem units23_normal (normal : 0 < e) (short : f < 2 ^ 23) :
    units 23 (e * 2 ^ 23 + f) = (2 ^ 23 + f) * 2 ^ (e - 1) := by
  rw [show e * 2 ^ 23 + f = (e - 1) * 2 ^ 23 + (2 ^ 23 + f) by omega]
  exact units_scaled (.inr (by omega)) (by omega)

theorem nearest_tiny (tiny : e < 102) (short : f < 2 ^ 23) :
    Nearest binary16.value (binary32.value (e * 2 ^ 23 + f)) 0 := by
  have less : units 23 (e * 2 ^ 23 + f) < 2 ^ 124 := by
    have most : units 23 (101 * 2 ^ 23 + 2 ^ 23) = 2 ^ 23 * 2 ^ 101 :=
      units_scaled (.inr le_rfl) (by decide)
    calc
      _ < units 23 (101 * 2 ^ 23 + 2 ^ 23) := units_strictMono 23 (by omega)
      _ = 2 ^ 124 := most
  have half : (units 23 (e * 2 ^ 23 + f) : ℚ) / 2 ^ 125 < 1 / 2 := by
    rw [div_lt_iff₀ (by norm_num)]
    calc
      (units 23 (e * 2 ^ 23 + f) : ℚ) < (2 ^ 124 : ℕ) := Nat.cast_lt.mpr less
      _ = 1 / 2 * 2 ^ 125 := by norm_num
  rw [Format.nearest_iff, value32_div]
  refine nearest_of_middles (castUnits_strictMono _) nofun ?_ (fun _ => Even.zero)
  have zero : units binary16.fraction 0 = 0 := rfl
  have one : units binary16.fraction (0 + 1) = 1 := rfl
  rw [zero, one]
  push_cast
  linarith

theorem nearest_subnormal (large : 102 ≤ e) (small : e ≤ 112) (short : f < 2 ^ 23) :
    Nearest binary16.value (binary32.value (e * 2 ^ 23 + f))
      (halfEven (2 ^ 23 + f) (2 ^ (126 - e))) := by
  have power : (2 : ℚ) ^ 125 = 2 ^ (e - 1) * 2 ^ (126 - e) := by
    rw [← pow_add]
    congr 1
    omega
  have quotient : (units 23 (e * 2 ^ 23 + f) : ℚ) / 2 ^ 125 =
      (2 ^ 23 + f : ℕ) / (2 ^ (126 - e) : ℕ) := by
    rw [units23_normal (by omega) short, power]
    push_cast
    field_simp
  have bound : 2 ^ 23 + f ≤ 2 ^ 11 * 2 ^ (126 - e) := by
    have most : 2 ^ 14 ≤ 2 ^ (126 - e) := Nat.pow_le_pow_right (by decide) (by omega)
    omega
  rw [Format.nearest_iff, value32_div, quotient, ← Nat.zero_add (halfEven _ _),
    ← Nat.zero_mul (2 ^ 10)]
  refine nearest_units_of_scaled (by decide) (.inl rfl) ?_ ?_
  · rw [div_le_iff₀ (by positivity), pow_zero, mul_one]
    exact_mod_cast bound
  · rw [pow_zero, div_one]
    exact nearest_halfEven (Nat.two_pow_pos _)

theorem nearest_normal (large : 113 ≤ e) (short : f < 2 ^ 23) :
    Nearest binary16.value (binary32.value (e * 2 ^ 23 + f))
      ((e - 113) * 2 ^ 10 + halfEven (2 ^ 23 + f) (2 ^ 13)) := by
  have power : (2 : ℚ) ^ (e - 1) = 2 ^ (e - 113) * 2 ^ 112 := by
    rw [← pow_add]
    congr 1
    omega
  have quotient : (units 23 (e * 2 ^ 23 + f) : ℚ) / 2 ^ 125 =
      (2 ^ 23 + f : ℕ) / (2 ^ 13 : ℕ) * 2 ^ (e - 113) := by
    rw [units23_normal (by omega) short]
    push_cast
    rw [power]
    ring
  have least : (2 ^ 10 : ℚ) ≤ (2 ^ 23 + f : ℕ) / (2 ^ 13 : ℕ) := by
    rw [le_div_iff₀ (by positivity)]
    norm_cast
    omega
  have most : ((2 ^ 23 + f : ℕ) / (2 ^ 13 : ℕ) : ℚ) ≤ 2 ^ (10 + 1) := by
    rw [div_le_iff₀ (by positivity)]
    norm_cast
    omega
  rw [Format.nearest_iff, value32_div, quotient]
  refine nearest_units_of_scaled (by decide) (.inr ?_) ?_ ?_
  · exact mul_le_mul_of_nonneg_right least (by positivity)
  · exact mul_le_mul_of_nonneg_right most (by positivity)
  · rw [mul_div_cancel_right₀ _ (by positivity)]
    exact nearest_halfEven (Nat.two_pow_pos _)

/-- What is left of a finite `float` is its magnitude, rounded once. -/
theorem narrowPlace_rounds (finite : e < 255) (short : f < 2 ^ 23) :
    binary16.Rounds (binary32.value (e * 2 ^ 23 + f)) (narrowPlace e f) := by
  have top : binary16.infinity = 31 * 2 ^ 10 := rfl
  unfold narrowPlace
  rw [if_neg (by omega)]
  split
  · refine ⟨_, nearest_normal (by omega) short, ?_⟩
    have least : 2 ^ 10 ≤ halfEven (2 ^ 23 + f) (2 ^ 13) :=
      le_halfEven (Nat.two_pow_pos _) (by omega)
    omega
  split
  · split
    · exact ⟨0, nearest_tiny (by omega) short, rfl⟩
    · refine ⟨_, nearest_subnormal (by omega) (by omega) short, ?_⟩
      have most : 2 ^ 14 ≤ 2 ^ (126 - e) := Nat.pow_le_pow_right (by decide) (by omega)
      have bound : halfEven (2 ^ 23 + f) (2 ^ (126 - e)) ≤ 2 ^ 10 :=
        halfEven_le (Nat.two_pow_pos _) (by omega)
      omega
  · refine ⟨_, nearest_normal (by omega) short, ?_⟩
    have bound : halfEven (2 ^ 23 + f) (2 ^ 13) ≤ 2 ^ 11 :=
      halfEven_le (Nat.two_pow_pos _) (by omega)
    omega

end

section
variable (bits : BitVec 32)

theorem hsF32ToF16_pattern : (hsF32ToF16 bits).msb = bits.msb ∧
    place (hsF32ToF16 bits) = narrowPlace (exponent32 bits) (fraction32 bits) :=
  pattern_of_sign (hsF32ToF16_toNat bits).2 (hsF32ToF16_toNat bits).1

/-- The narrowing rounds once, keeps the sign, takes what is too large to infinity and what is too
small to zero. -/
structure Narrows : Prop where
  rounded : binary16.IsRounded (binary32.decode bits) (hsF32ToF16 bits)
  overflow : ∀ negative magnitude, binary32.decode bits = .finite negative magnitude →
    65520 ≤ magnitude → binary16.decode (hsF32ToF16 bits) = .infinite negative
  underflow : ∀ negative magnitude, binary32.decode bits = .finite negative magnitude →
    magnitude ≤ 1 / 2 ^ 25 → binary16.decode (hsF32ToF16 bits) = .finite negative 0

section
variable {bits}
variable {negative : Bool} {magnitude other : ℚ}

theorem rounds_of_decode (finite : binary32.decode bits = .finite negative magnitude) :
    (hsF32ToF16 bits).msb = negative ∧
      binary16.Rounds magnitude (place (hsF32ToF16 bits)) := by
  have top : binary32.infinity = 255 * 2 ^ 23 := rfl
  have split := place32 bits
  obtain ⟨less, rfl, rfl⟩ := Format.decode_eq_finite_iff.mp finite
  rw [(hsF32ToF16_pattern bits).2, split]
  exact ⟨(hsF32ToF16_pattern bits).1, narrowPlace_rounds (by omega) (fraction32_lt bits)⟩

end

/-- From the middle of the largest number and the first power of two above it on. -/
theorem rounds_65520 : binary16.Rounds 65520 binary16.infinity := by
  have rounds := narrowPlace_rounds (e := 142) (f := 8384512) (by decide) (by decide)
  have same : binary32.value (142 * 2 ^ 23 + 8384512) = 65520 := by
    rw [value32_normal (by decide) (by decide)]
    norm_num
  rw [same] at rounds
  exact rounds

theorem rounds_half_lowest : binary16.Rounds (1 / 2 ^ 25) 0 := by
  have rounds := narrowPlace_rounds (e := 102) (f := 0) (by decide) (by decide)
  have same : binary32.value (102 * 2 ^ 23 + 0) = 1 / 2 ^ 25 := by
    rw [value32_normal (by decide) (by decide)]
    norm_num
  rw [same] at rounds
  exact rounds

theorem narrows : Narrows bits where
  rounded := by
    have top : binary32.infinity = 255 * 2 ^ 23 := rfl
    have top' : binary16.infinity = 31 * 2 ^ 10 := rfl
    have split := place32 bits
    have short := fraction32_lt bits
    have large := exponent32_lt bits
    obtain ⟨sign, result⟩ := hsF32ToF16_pattern bits
    rw [narrowPlace] at result
    cases shape : binary32.decode bits with
    | finite negative magnitude => exact rounds_of_decode shape
    | infinite negative =>
        obtain ⟨same, rfl⟩ := Format.decode_eq_infinite_iff.mp shape
        rw [if_pos (by omega), if_pos (by omega)] at result
        exact Format.decode_eq_infinite_iff.mpr ⟨result, sign⟩
    | nan negative =>
        obtain ⟨more, rfl⟩ := Format.decode_eq_nan_iff.mp shape
        rw [if_pos (by omega), if_neg (by omega)] at result
        have quiet : 1 ≤ fraction32 bits / 2 ^ 13 ||| 1 := Nat.right_le_or
        exact Format.decode_eq_nan_iff.mpr ⟨by omega, sign⟩
  overflow negative magnitude finite large := by
    obtain ⟨sign, rounds⟩ := rounds_of_decode finite
    have most : place (hsF32ToF16 bits) ≤ binary16.infinity := by
      obtain ⟨nearest, _, same⟩ := rounds
      omega
    have least := rounds_65520.mono rounds large
    exact Format.decode_eq_infinite_iff.mpr ⟨le_antisymm most least, sign⟩
  underflow negative magnitude finite small := by
    obtain ⟨sign, rounds⟩ := rounds_of_decode finite
    have zero := Nat.le_zero.mp (rounds.mono rounds_half_lowest small)
    exact Format.decode_eq_finite_iff.mpr ⟨by rw [zero]; decide, sign, by rw [zero, Format.value_zero]⟩

end

/-! ### Widening -/

section
variable (value : BitVec 16)

def exponent16 : ℕ := value.toNat / 2 ^ 10 % 2 ^ 5

def fraction16 : ℕ := value.toNat % 2 ^ 10

theorem place16 : place value = exponent16 value * 2 ^ 10 + fraction16 value := by
  unfold place exponent16 fraction16
  omega

theorem exponent16_eq : ((value.setWidth 32 >>> 10) &&& 0x1f#32).toNat = exponent16 value := by
  have less := value.isLt
  rw [BitVec.toNat_and, BitVec.toNat_ushiftRight, BitVec.toNat_setWidth,
    Nat.shiftRight_eq_div_pow, Nat.mod_eq_of_lt (by omega)]
  exact Nat.and_two_pow_sub_one_eq_mod _ 5

theorem fraction16_eq : (value.setWidth 32 &&& 0x03ff#32).toNat = fraction16 value := by
  have less := value.isLt
  rw [BitVec.toNat_and, BitVec.toNat_setWidth, Nat.mod_eq_of_lt (by omega)]
  exact Nat.and_two_pow_sub_one_eq_mod _ 10

theorem sign16 : ((value.setWidth 32 &&& 0x8000#32) <<< 16).toNat = value.msb.toNat * 2 ^ 31 := by
  have less := value.isLt
  have sign : value.msb.toNat < 2 := Bool.toNat_lt _
  have kept : (value.setWidth 32 &&& 0x8000#32).toNat = value.msb.toNat * 2 ^ 15 := by
    rw [BitVec.toNat_and, BitVec.toNat_setWidth, Nat.mod_eq_of_lt (by omega),
      show (0x8000#32).toNat = 2 ^ 15 by rfl, Nat.and_two_pow, BitVec.msb_eq_getLsbD_last]
    rfl
  rw [BitVec.toNat_shiftLeft, kept, Nat.shiftLeft_eq]
  omega

/-- The fields of the result do not overlap. -/
theorem fields_toNat {sign exponent fraction : BitVec 32} {negative : Bool}
    (isSign : sign.toNat = negative.toNat * 2 ^ 31) (short : exponent.toNat < 2 ^ 8)
    (short' : fraction.toNat < 2 ^ 10) :
    (sign ||| exponent <<< 23 ||| fraction <<< 13).toNat =
      negative.toNat * 2 ^ 31 + (exponent.toNat * 2 ^ 23 + fraction.toNat * 2 ^ 13) := by
  have isNegative : negative.toNat < 2 := Bool.toNat_lt _
  have low : (fraction <<< 13).toNat = fraction.toNat * 2 ^ 13 := by
    rw [BitVec.toNat_shiftLeft, Nat.shiftLeft_eq]
    omega
  have middle : (exponent <<< 23).toNat = 2 ^ 23 * exponent.toNat := by
    rw [BitVec.toNat_shiftLeft, Nat.shiftLeft_eq]
    omega
  have lower : 2 ^ 23 * exponent.toNat ||| fraction.toNat * 2 ^ 13 =
      2 ^ 23 * exponent.toNat + fraction.toNat * 2 ^ 13 :=
    (Nat.two_pow_add_eq_or_of_lt (by omega) _).symm
  rw [BitVec.or_assoc, BitVec.toNat_or, BitVec.toNat_or, isSign, middle, low, lower, Nat.mul_comm,
    ← Nat.two_pow_add_eq_or_of_lt (by omega)]
  omega

theorem bit10_iff {normalized : BitVec 32} (short : normalized.toNat < 2 ^ 11) :
    normalized &&& 0x0400#32 = 0#32 ↔ normalized.toNat < 2 ^ 10 := by
  rw [← BitVec.toNat_inj, BitVec.toNat_and, show (0x0400#32).toNat = 2 ^ 10 by rfl,
    Nat.and_two_pow, Nat.testBit_eq_decide_div_mod_eq]
  simp
  omega

/-- The loop shifts the leading one of a fraction to the place of the implicit one. -/
theorem normalize_eq {rounds : ℕ} {normalized : BitVec 32} (shift : ℤ)
    (short : normalized.toNat < 2 ^ 11) (enough : 2 ^ 10 ≤ normalized.toNat * 2 ^ rounds) :
    ∃ (count : ℕ) (result : BitVec 32),
      normalize (rounds + 1) normalized shift = some (result, shift - count) ∧
        result.toNat = normalized.toNat * 2 ^ count ∧ 2 ^ 10 ≤ result.toNat ∧
        result.toNat < 2 ^ 11 := by
  induction rounds generalizing normalized shift with
  | zero =>
      rw [pow_zero, Nat.mul_one] at enough
      refine ⟨0, normalized, ?_, by rw [pow_zero, Nat.mul_one], enough, short⟩
      rw [normalize, if_neg (mt (bit10_iff short).mp enough.not_gt), Nat.cast_zero, sub_zero]
  | succ rounds ih =>
      rw [normalize]
      split
      · rename_i clear
        have less := (bit10_iff short).mp clear
        have doubled : (normalized <<< 1).toNat = normalized.toNat * 2 := by
          rw [BitVec.toNat_shiftLeft, Nat.shiftLeft_eq]
          omega
        obtain ⟨count, result, loop, same, bounds⟩ := @ih (normalized <<< 1) (shift - 1)
          (by omega) (by rw [doubled, Nat.mul_assoc, ← pow_succ']; exact enough)
        refine ⟨count + 1, result, ?_, ?_, bounds⟩
        · rw [loop, sub_sub, Nat.cast_add_one, add_comm]
        · rw [same, doubled, pow_succ', Nat.mul_assoc]
      · rename_i set
        have least := not_lt.mp (mt (bit10_iff short).mpr set)
        exact ⟨0, normalized, by rw [Nat.cast_zero, sub_zero], by rw [pow_zero, Nat.mul_one], least,
          short⟩

/-- What the conversion makes of a binary16 number without its sign. -/
inductive WidePlace : ℕ → ℕ → ℕ → Prop where
  | zero : WidePlace 0 0 0
  | subnormal (fraction count : ℕ) (few : count ≤ 10) (least : 2 ^ 10 ≤ fraction * 2 ^ count)
      (most : fraction * 2 ^ count < 2 ^ 11) :
      WidePlace 0 fraction ((112 - count) * 2 ^ 23 + (fraction * 2 ^ count - 2 ^ 10) * 2 ^ 13)
  | special (fraction : ℕ) : WidePlace 31 fraction (255 * 2 ^ 23 + fraction * 2 ^ 13)
  | normal (exponent fraction : ℕ) (some' : 0 < exponent) (finite : exponent < 31) :
      WidePlace exponent fraction ((exponent + 112) * 2 ^ 23 + fraction * 2 ^ 13)

theorem hsF16ToF32_pattern : ∃ bits rung, hsF16ToF32 value = some bits ∧ bits.msb = value.msb ∧
    place bits = rung ∧ WidePlace (exponent16 value) (fraction16 value) rung := by
  have fractionLess : fraction16 value < 2 ^ 10 := Nat.mod_lt _ (by decide)
  have exponentLess : exponent16 value < 2 ^ 5 := Nat.mod_lt _ (by decide)
  unfold hsF16ToF32
  dsimp only
  have sign := sign16 value
  have isExponent := exponent16_eq value
  have isFraction := fraction16_eq value
  generalize exponent16 value = e at *
  generalize fraction16 value = f at *
  generalize (value.setWidth 32 >>> 10) &&& 0x1f#32 = exponent at *
  generalize value.setWidth 32 &&& 0x03ff#32 = fraction at *
  generalize (value.setWidth 32 &&& 0x8000#32) <<< 16 = sign32 at *
  have zero : exponent = 0#32 ↔ e = 0 := by
    rw [← BitVec.toNat_inj, isExponent]
    rfl
  have special : exponent = 0x1f#32 ↔ e = 31 := by
    rw [← BitVec.toNat_inj, isExponent]
    rfl
  have zero' : fraction = 0#32 ↔ f = 0 := by
    rw [← BitVec.toNat_inj, isFraction]
    rfl
  -- The three fields of a result, of which the lower two are below the sign.
  have fields (exponent' fraction' : BitVec 32) (rung : ℕ) (short : exponent'.toNat < 2 ^ 8)
      (short' : fraction'.toNat < 2 ^ 10)
      (same : exponent'.toNat * 2 ^ 23 + fraction'.toNat * 2 ^ 13 = rung) :
      (sign32 ||| exponent' <<< 23 ||| fraction' <<< 13).msb = value.msb ∧
        place (sign32 ||| exponent' <<< 23 ||| fraction' <<< 13) = rung := by
    subst same
    exact pattern_of_sign (by change _ < 2 ^ 31; omega) (fields_toNat sign short short')
  simp only [zero, special, zero']
  split
  · rename_i isZero
    subst isZero
    split
    · rename_i isZero
      subst isZero
      have isSign : sign32.toNat = value.msb.toNat * 2 ^ (32 - 1) + 0 := by
        rw [sign, Nat.add_zero]
      obtain ⟨msb, same⟩ := pattern_of_sign (Nat.two_pow_pos _) isSign
      exact ⟨sign32, 0, rfl, msb, same, .zero⟩
    · rename_i nonzero
      have enough : 2 ^ 10 ≤ fraction.toNat * 2 ^ 31 := by omega
      obtain ⟨count, result, loop, same, least, most⟩ := normalize_eq (-1)
        (show fraction.toNat < 2 ^ 11 by omega) enough
      have few : count ≤ 10 := by
        by_contra more
        have power : 2 ^ 11 ≤ 2 ^ count := Nat.pow_le_pow_right (by decide) (not_le.mp more)
        have some' : 1 * 2 ^ count ≤ fraction.toNat * 2 ^ count :=
          Nat.mul_le_mul_right _ (by omega)
        omega
      have isExponent : (BitVec.ofInt 32 (127 - 15 + 1 + (-1 - (count : ℤ)))).toNat =
          112 - count := by
        rw [show (127 - 15 + 1 + (-1 - (count : ℤ))) = ((112 - count : ℕ) : ℤ) by omega,
          BitVec.ofInt_natCast, BitVec.toNat_ofNat]
        omega
      have isFraction' : (result &&& 0x03ff#32).toNat = f * 2 ^ count - 2 ^ 10 := by
        rw [BitVec.toNat_and, show (0x03ff#32).toNat = 2 ^ 10 - 1 by rfl,
          Nat.and_two_pow_sub_one_eq_mod, ← isFraction, ← same]
        omega
      rw [isFraction] at same
      obtain ⟨msb, same⟩ := fields _ _ _ (by rw [isExponent]; omega) (by rw [isFraction']; omega)
        (congrArg₂ (· * 2 ^ 23 + · * 2 ^ 13) isExponent isFraction')
      rw [loop]
      exact ⟨_, _, rfl, msb, same, .subnormal f count few (by omega) (by omega)⟩
  split
  · rename_i isSpecial
    subst isSpecial
    obtain ⟨msb, same⟩ := fields 0xff#32 fraction (255 * 2 ^ 23 + f * 2 ^ 13)
      (by decide) (show fraction.toNat < 2 ^ 10 by omega) (by rw [isFraction]; rfl)
    exact ⟨_, _, rfl, msb, same, .special f⟩
  · have isExponent' : (exponent + 112#32).toNat = e + 112 := by
      rw [BitVec.toNat_add, isExponent]
      change (e + 112) % _ = _
      omega
    obtain ⟨msb, same⟩ := fields (exponent + 112#32) fraction
      ((e + 112) * 2 ^ 23 + f * 2 ^ 13) (by omega) (show fraction.toNat < 2 ^ 10 by omega)
      (by rw [isExponent', isFraction])
    exact ⟨_, _, rfl, msb, same, .normal e f (by omega) (by omega)⟩

def IsSubnormal : Prop :=
  0 < place value ∧ place value < 2 ^ 10

instance : Decidable (IsSubnormal value) :=
  inferInstanceAs (Decidable (_ ∧ _))

/-- The conversion gives the exact value, but for a subnormal number half of it: its loop counts one
shift more than it makes. -/
theorem decode_hsF16ToF32 : ∃ bits, hsF16ToF32 value = some bits ∧
    binary32.decode bits =
      if IsSubnormal value then .finite value.msb (binary16.value (place value) / 2)
      else binary16.decode value := by
  have fractionLess : fraction16 value < 2 ^ 10 := Nat.mod_lt _ (by decide)
  have split := place16 value
  have top : binary16.infinity = 31 * 2 ^ 10 := rfl
  have top' : binary32.infinity = 255 * 2 ^ 23 := rfl
  obtain ⟨bits, rung, converted, sign, isPlace, wide⟩ := hsF16ToF32_pattern value
  refine ⟨bits, converted, ?_⟩
  have subnormal : IsSubnormal value ↔ exponent16 value = 0 ∧ 0 < fraction16 value := by
    unfold IsSubnormal
    omega
  simp only [subnormal]
  generalize exponent16 value = e at *
  generalize fraction16 value = f at *
  cases wide with
  | zero =>
      rw [if_neg (by decide), Format.decode_eq_finite_iff.mpr ⟨by omega, sign, rfl⟩,
        Format.decode_eq_finite_iff.mpr ⟨by omega, rfl, rfl⟩, isPlace, split]
      simp
  | subnormal _ count few least most =>
      have positive : 0 < f := Nat.pos_of_ne_zero fun zero => by
        rw [zero, Nat.zero_mul] at least
        omega
      rw [if_pos ⟨rfl, positive⟩, Format.decode_eq_finite_iff]
      refine ⟨by omega, sign, ?_⟩
      have power : (2 : ℚ) ^ 111 = 2 ^ (112 - count - 1) * 2 ^ count := by
        rw [← pow_add]
        congr 1
        omega
      have implicit : (2 : ℚ) ^ 23 + ((f * 2 ^ count - 2 ^ 10) * 2 ^ 13 : ℕ) =
          f * 2 ^ count * 2 ^ 13 := by
        have whole : 2 ^ 23 + (f * 2 ^ count - 2 ^ 10) * 2 ^ 13 = f * 2 ^ count * 2 ^ 13 := by omega
        exact_mod_cast whole
      rw [isPlace, value32_normal (by omega) (by omega), implicit, split, Nat.zero_mul, Nat.zero_add,
        value16_subnormal fractionLess.le]
      have whole : (f : ℚ) * 2 ^ count * 2 ^ 13 * 2 ^ (112 - count - 1) = f * (2 ^ 13 * 2 ^ 111) := by
        rw [power]
        ring
      rw [whole]
      ring
  | special =>
      rw [if_neg (by simp)]
      by_cases zero : f = 0
      · rw [Format.decode_eq_infinite_iff.mpr ⟨by omega, sign⟩,
          Format.decode_eq_infinite_iff.mpr ⟨by omega, rfl⟩]
      · rw [Format.decode_eq_nan_iff.mpr ⟨by omega, sign⟩,
          Format.decode_eq_nan_iff.mpr ⟨by omega, rfl⟩]
  | normal _ _ positive finite =>
      have power : (2 : ℚ) ^ (e + 112 - 1) = 2 ^ (e - 1) * 2 ^ 112 := by
        rw [← pow_add]
        congr 1
        omega
      have same : binary32.value ((e + 112) * 2 ^ 23 + f * 2 ^ 13) =
          binary16.value (e * 2 ^ 10 + f) := by
        rw [value32_normal (by omega) (by omega), value16_normal positive fractionLess, power]
        push_cast
        ring
      rw [if_neg (by omega), Format.decode_eq_finite_iff.mpr ⟨by omega, sign, rfl⟩,
        Format.decode_eq_finite_iff.mpr ⟨by omega, rfl, rfl⟩, isPlace, split, same]

/-- The widening is exact. -/
def Widens : Prop :=
  ∃ bits, hsF16ToF32 value = some bits ∧ binary32.decode bits = binary16.decode value

theorem widens_iff : Widens value ↔ ¬IsSubnormal value := by
  obtain ⟨bits, converted, decoded⟩ := decode_hsF16ToF32 value
  constructor
  · rintro ⟨bits', converted', exact'⟩ subnormal
    cases converted.symm.trans converted'
    have finite : place value < binary16.infinity := subnormal.2.trans (by decide)
    rw [if_pos subnormal, exact', Format.decode_eq_finite_iff.mpr ⟨finite, rfl, rfl⟩] at decoded
    have half := (Datum.finite.inj decoded).2
    have zero : binary16.value (place value) = binary16.value 0 := by
      rw [Format.value_zero]
      linarith
    exact absurd (binary16.value_strictMono.injective zero) subnormal.1.ne'
  · intro other
    rw [if_neg other] at decoded
    exact ⟨bits, converted, decoded⟩

end

section
variable (bits : BitVec 32)

/-- Narrowing and widening give the number back just where it is a binary16 number. -/
def RoundTrips : Prop :=
  place bits ≤ binary32.infinity →
    (hsF16ToF32 (hsF32ToF16 bits) = some bits ↔
      ∃ value : BitVec 16, binary16.decode value = binary32.decode bits)

/-- A binary16 number is narrowed to itself. -/
theorem hsF32ToF16_of_decode {value : BitVec 16} (number : place bits ≤ binary32.infinity)
    (same : binary16.decode value = binary32.decode bits) : hsF32ToF16 bits = value := by
  have rounded := (narrows bits).rounded
  rcases number.lt_or_eq with finite | infinite
  · rw [Format.decode_eq_finite_iff.mpr ⟨finite, rfl, rfl⟩] at rounded same
    obtain ⟨less, sign, magnitude⟩ := Format.decode_eq_finite_iff.mp same
    have exactly := binary16.rounds_value (place value)
    rw [magnitude, Nat.min_eq_left less.le] at exactly
    exact pattern_injective (rounded.1.trans sign.symm) (rounded.2.unique exactly)
  · rw [Format.decode_eq_infinite_iff.mpr ⟨infinite, rfl⟩] at rounded same
    have less := (Format.decode_eq_infinite_iff.mp same).1
    exact (Format.decode_injective less.le (same.trans rounded.symm)).symm

/-- No number is narrowed to a subnormal number of twice its value. -/
theorem not_doubled {value : BitVec 16} (subnormal : IsSubnormal value)
    (narrowed : hsF32ToF16 bits = value) :
    binary32.decode bits ≠ .finite value.msb (binary16.value (place value) / 2) := by
  intro half
  obtain ⟨positive, less⟩ := subnormal
  have rounds := (rounds_of_decode half).2
  obtain ⟨nearest, near, same⟩ := rounds
  have top : binary16.infinity = 31 * 2 ^ 10 := rfl
  obtain ⟨before, next⟩ := Nat.exists_eq_succ_of_ne_zero positive.ne'
  obtain rfl : nearest = before + 1 := by
    rw [narrowed] at same
    omega
  have below := near.below binary16.value_strictMono
  have tie := near.even_of_below binary16.value_strictMono
  rw [next, value16_subnormal (by omega), value16_subnormal (by omega)] at below tie
  have twice : 2 * (((before + 1 : ℕ) : ℚ) / 2 ^ 24 / 2) = (before + 1 : ℕ) / 2 ^ 24 := by ring
  rw [twice, ← add_div] at below tie
  have bound : (before : ℚ) + (before + 1 : ℕ) ≤ (before + 1 : ℕ) := by
    rwa [div_le_div_iff_of_pos_right (by norm_num)] at below
  have zero : before = 0 := by
    have : before + (before + 1) ≤ before + 1 := by exact_mod_cast bound
    omega
  subst zero
  exact absurd (tie (by norm_num)) (by decide)

theorem roundTrips_iff : RoundTrips bits ↔
    ¬∃ value : BitVec 16, IsSubnormal value ∧ binary16.decode value = binary32.decode bits := by
  constructor
  · rintro trips ⟨value, subnormal, same⟩
    have finite : place value < binary16.infinity := subnormal.2.trans (by decide)
    have number : place bits ≤ binary32.infinity := by
      rw [Format.decode_eq_finite_iff.mpr ⟨finite, rfl, rfl⟩] at same
      exact (Format.decode_eq_finite_iff.mp same.symm).1.le
    have narrowed := hsF32ToF16_of_decode bits number same
    have back := (trips number).mpr ⟨value, same⟩
    rw [narrowed] at back
    exact (widens_iff value).mp ⟨bits, back, same.symm⟩ subnormal
  · intro other number
    obtain ⟨wide, converted, decoded⟩ := decode_hsF16ToF32 (hsF32ToF16 bits)
    constructor
    · intro back
      cases converted.symm.trans back
      by_cases subnormal : IsSubnormal (hsF32ToF16 bits)
      · rw [if_pos subnormal] at decoded
        exact absurd decoded (not_doubled bits subnormal rfl)
      · rw [if_neg subnormal] at decoded
        exact ⟨_, decoded.symm⟩
    · rintro ⟨value, same⟩
      have narrowed := hsF32ToF16_of_decode bits number same
      rw [narrowed] at converted decoded ⊢
      rw [if_neg fun subnormal => other ⟨value, subnormal, same⟩, same] at decoded
      rw [converted, Format.decode_injective number decoded.symm]

/-- Both conversions: the narrowing rounds correctly, and the widening is exact and gives a narrowed
binary16 number back just where the binary16 number is not subnormal. -/
theorem half_conversions (bits : BitVec 32) (value : BitVec 16) :
    Narrows bits ∧ (Widens value ↔ ¬IsSubnormal value) ∧
      (RoundTrips bits ↔ ¬∃ value : BitVec 16, IsSubnormal value ∧
        binary16.decode value = binary32.decode bits) :=
  ⟨narrows bits, widens_iff value, roundTrips_iff bits⟩

/-- The lowest number above zero, `2 ^ -24`, is read as `2 ^ -25`. -/
theorem half_conversions_lowest :
    hsF16ToF32 0x0001#16 = some 0x33000000#32 ∧
      ¬∀ (bits : BitVec 32) (value : BitVec 16), Narrows bits ∧ Widens value ∧ RoundTrips bits :=
  ⟨by decide, fun claim => (widens_iff 0x0001#16).mp (claim 0#32 0x0001#16).2.1 (by decide)⟩

end

end HitSimple.Floating

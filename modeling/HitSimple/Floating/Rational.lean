import HitSimple.Rounding.Binary
import Mathlib.Data.Nat.Log

namespace HitSimple.Floating
open Rounding

def binary128 : Rounding.Format := ⟨112, 15, by decide, by decide⟩

abbrev Bits := BitVec 128

def kFractionMask : Bits := (1#128 <<< 112) - 1#128

def kExponentMask : Bits := 0x7fff#128 <<< 112

def kSignMask : Bits := 1#128 <<< 127

def kExponentBias : ℤ := 16383

def quietNaN : Bits := kExponentMask ||| 1#128 <<< 111

/-- The bits of the sign: `negative ? kSignMask : 0`. -/
def signedZero (negative : Bool) : Bits :=
  if negative then kSignMask else 0#128

def bitsFromBigInteger (value : ℕ) : Bits :=
  (BitVec.ofNat 64 (value >>> 64)).setWidth 128 <<< 64 |||
    (BitVec.ofNat 64 (value &&& ((1 <<< 64) - 1))).setWidth 128

def roundRationalToNearestEven (numerator denominator : ℕ) : ℕ :=
  let quotient := numerator / denominator
  let twiceRemainder := (numerator % denominator) <<< 1
  if denominator < twiceRemainder ∨ twiceRemainder = denominator ∧ quotient &&& 1 = 1 then
    quotient + 1
  else quotient

/-- The bits of a number whose exponent is too low for a normal one. -/
def subnormalBits (sign : Bits) (fraction : ℕ) : Bits :=
  if fraction = 0 then sign
  else if 1 <<< 112 ≤ fraction then sign ||| 1#128 <<< 112
  else sign ||| bitsFromBigInteger fraction

/-- The bits of a number with a rounded significand, which may have got one bit too many. -/
def normalBits (sign : Bits) (exponent : ℤ) (significand : ℕ) : Bits :=
  let carried := decide (1 <<< 113 ≤ significand)
  let significand := if carried then significand >>> 1 else significand
  let exponent := if carried then exponent + 1 else exponent
  if carried ∧ 16383 < exponent then sign ||| kExponentMask
  else
    sign ||| BitVec.ofNat 128 (exponent + kExponentBias).toNat <<< 112 |||
      bitsFromBigInteger (significand - 1 <<< 112)

def rationalBinaryExponent (numerator denominator : ℕ) : ℤ :=
  let exponent : ℤ := numerator.log2 - denominator.log2
  if 0 ≤ exponent then
    if numerator < denominator <<< exponent.toNat then exponent - 1 else exponent
  else if numerator <<< (-exponent).toNat < denominator then exponent - 1
  else exponent

def encodeRational (numerator denominator : ℕ) (negative : Bool) : Bits :=
  let sign := signedZero negative
  if numerator = 0 then sign
  else
    let exponent := rationalBinaryExponent numerator denominator
    if 16383 < exponent then sign ||| kExponentMask
    else if exponent < -16382 then
      subnormalBits sign (roundRationalToNearestEven (numerator <<< 16494) denominator)
    else
      let shift := 112 - exponent
      normalBits sign exponent
        (if 0 ≤ shift then roundRationalToNearestEven (numerator <<< shift.toNat) denominator
          else roundRationalToNearestEven numerator (denominator <<< (-shift).toNat))

/-! ### The encoding -/

section
variable {numerator denominator : ℕ}

theorem bitsFromBigInteger_toNat {value : ℕ} (short : value < 2 ^ 128) :
    (bitsFromBigInteger value).toNat = value := by
  have low : value &&& ((1 <<< 64) - 1) = value % 2 ^ 64 := Nat.and_two_pow_sub_one_eq_mod _ 64
  have less : value % 2 ^ 64 < 2 ^ 64 := Nat.mod_lt _ (by decide)
  have high : ((BitVec.ofNat 64 (value >>> 64)).setWidth 128 <<< 64 : Bits).toNat =
      2 ^ 64 * (value / 2 ^ 64) := by
    rw [BitVec.toNat_shiftLeft, BitVec.toNat_setWidth, BitVec.toNat_ofNat,
      Nat.shiftRight_eq_div_pow, Nat.shiftLeft_eq]
    omega
  rw [bitsFromBigInteger, BitVec.toNat_or, high, low, BitVec.toNat_setWidth, BitVec.toNat_ofNat,
    Nat.mod_eq_of_lt less, Nat.mod_eq_of_lt (by omega), ← Nat.two_pow_add_eq_or_of_lt less]
  omega

/-- A sign over a place. -/
theorem signed_pattern (negative : Bool) {bits : Bits} (short : bits.toNat < 2 ^ 127) :
    (signedZero negative ||| bits).msb = negative ∧
      place (signedZero negative ||| bits) = bits.toNat := by
  apply pattern_of_sign short
  have sign : (signedZero negative).toNat = 2 ^ 127 * negative.toNat := by
    cases negative <;> rfl
  rw [BitVec.toNat_or, sign, ← Nat.two_pow_add_eq_or_of_lt short]
  ring

theorem signedZero_pattern (negative : Bool) :
    (signedZero negative).msb = negative ∧ place (signedZero negative) = 0 := by
  have pattern := signed_pattern negative (show (0#128).toNat < 2 ^ 127 by decide)
  rwa [BitVec.or_zero] at pattern

theorem fields128 {exponent fraction : ℕ} (short : exponent < 2 ^ 15) (short' : fraction < 2 ^ 112) :
    (BitVec.ofNat 128 exponent <<< 112 ||| bitsFromBigInteger fraction : Bits).toNat =
      exponent * 2 ^ 112 + fraction := by
  have high : (BitVec.ofNat 128 exponent <<< 112 : Bits).toNat = 2 ^ 112 * exponent := by
    rw [BitVec.toNat_shiftLeft, BitVec.toNat_ofNat, Nat.shiftLeft_eq]
    omega
  rw [BitVec.toNat_or, high, bitsFromBigInteger_toNat (by omega),
    ← Nat.two_pow_add_eq_or_of_lt short', Nat.mul_comm]

theorem infinity_pattern (negative : Bool) :
    (signedZero negative ||| kExponentMask).msb = negative ∧
      place (signedZero negative ||| kExponentMask) = binary128.infinity :=
  signed_pattern negative (by decide)

theorem subnormalBits_pattern (negative : Bool) {fraction : ℕ} (short : fraction ≤ 2 ^ 112) :
    (subnormalBits (signedZero negative) fraction).msb = negative ∧
      place (subnormalBits (signedZero negative) fraction) = fraction := by
  unfold subnormalBits
  split
  · rename_i none
    rw [none]
    exact signedZero_pattern negative
  split
  · rename_i full
    rw [le_antisymm short full]
    exact signed_pattern negative (by decide)
  · have value := bitsFromBigInteger_toNat (show fraction < 2 ^ 128 by omega)
    have pattern := signed_pattern negative
      (show (bitsFromBigInteger fraction).toNat < 2 ^ 127 by omega)
    rwa [value] at pattern

/-- A significand within one stretch, by the stretch: the place goes up to that of infinity. -/
theorem normalBits_pattern (negative : Bool) {scale significand : ℕ} (inRange : scale ≤ 32765)
    (least : 2 ^ 112 ≤ significand) (most : significand ≤ 2 ^ 113) :
    (normalBits (signedZero negative) (scale - 16382) significand).msb = negative ∧
      place (normalBits (signedZero negative) (scale - 16382) significand) =
        scale * 2 ^ 112 + significand := by
  have full : 1 <<< 113 ≤ significand ↔ significand = 2 ^ 113 :=
    ⟨fun least => le_antisymm most least, Eq.ge⟩
  have fields {exponent fraction : ℕ} (short : exponent < 2 ^ 15) (short' : fraction < 2 ^ 112) :
      (signedZero negative ||| BitVec.ofNat 128 exponent <<< 112 |||
          bitsFromBigInteger fraction).msb = negative ∧
        place (signedZero negative ||| BitVec.ofNat 128 exponent <<< 112 |||
          bitsFromBigInteger fraction) = exponent * 2 ^ 112 + fraction := by
    rw [BitVec.or_assoc, ← fields128 short short']
    exact signed_pattern negative (by rw [fields128 short short']; omega)
  unfold normalBits
  simp only [full, decide_eq_true_eq]
  by_cases carried : significand = 2 ^ 113
  · subst carried
    simp only [if_true, true_and]
    split
    · have same : scale * 2 ^ 112 + 2 ^ 113 = binary128.infinity := by
        change _ = 32767 * 2 ^ 112
        omega
      rw [same]
      exact infinity_pattern negative
    · have field : ((scale : ℤ) - 16382 + 1 + kExponentBias).toNat = scale + 2 := by
        unfold kExponentBias
        omega
      have same : scale * 2 ^ 112 + 2 ^ 113 = (scale + 2) * 2 ^ 112 + 0 := by omega
      rw [field, same]
      exact fields (by omega) (by decide)
  · simp only [carried, false_and, if_false]
    have field : ((scale : ℤ) - 16382 + kExponentBias).toNat = scale + 1 := by
      unfold kExponentBias
      omega
    have same : scale * 2 ^ 112 + significand =
        (scale + 1) * 2 ^ 112 + (significand - 1 <<< 112) := by omega
    rw [field, same]
    exact fields (by omega) (by omega)

theorem roundRationalToNearestEven_eq :
    roundRationalToNearestEven numerator denominator = halfEven numerator denominator := by
  have twice : (numerator % denominator) <<< 1 = 2 * (numerator % denominator) := by
    rw [Nat.shiftLeft_eq, Nat.mul_comm]
  rw [roundRationalToNearestEven, halfEven, twice, Nat.and_one_is_mod]

theorem rationalBinaryExponent_eq (positive : 0 < denominator) :
    rationalBinaryExponent numerator denominator =
      if (numerator / denominator : ℚ) < 2 ^ ((numerator.log2 : ℤ) - denominator.log2) then
        (numerator.log2 : ℤ) - denominator.log2 - 1
      else (numerator.log2 : ℤ) - denominator.log2 := by
  have positive' : (0 : ℚ) < denominator := Nat.cast_pos.mpr positive
  unfold rationalBinaryExponent
  generalize (numerator.log2 : ℤ) - denominator.log2 = exponent
  simp only [div_lt_iff₀ positive']
  split
  · rename_i nonneg
    obtain ⟨count, rfl⟩ := Int.eq_ofNat_of_zero_le nonneg
    have test : numerator < denominator <<< (count : ℤ).toNat ↔
        (numerator : ℚ) < 2 ^ (count : ℤ) * denominator := by
      rw [Int.toNat_natCast, Nat.shiftLeft_eq, Nat.mul_comm, zpow_natCast]
      exact_mod_cast Iff.rfl
    simp only [test]
  · rename_i negative
    obtain ⟨count, rfl⟩ := Int.eq_negSucc_of_lt_zero (not_le.mp negative)
    have power : (0 : ℚ) < 2 ^ (count + 1) := by positivity
    have test : numerator <<< (-Int.negSucc count).toNat < denominator ↔
        (numerator : ℚ) < 2 ^ Int.negSucc count * denominator := by
      rw [show (-Int.negSucc count).toNat = count + 1 from rfl, Nat.shiftLeft_eq, zpow_negSucc,
        inv_mul_eq_div, lt_div_iff₀ power]
      exact_mod_cast Iff.rfl
    simp only [test]

/-- The exponent is that of the highest power of two which is not above the quotient. -/
theorem rationalBinaryExponent_bounds (positive : 0 < numerator) (positive' : 0 < denominator) :
    (2 : ℚ) ^ rationalBinaryExponent numerator denominator ≤ numerator / denominator ∧
      (numerator / denominator : ℚ) <
        2 ^ (rationalBinaryExponent numerator denominator + 1) := by
  have cast : (0 : ℚ) < denominator := Nat.cast_pos.mpr positive'
  have least : (2 : ℚ) ^ numerator.log2 ≤ numerator := by
    exact_mod_cast Nat.log2_self_le positive.ne'
  have most : (numerator : ℚ) < 2 ^ (numerator.log2 + 1) := by
    exact_mod_cast Nat.lt_log2_self
  have least' : (2 : ℚ) ^ denominator.log2 ≤ denominator := by
    exact_mod_cast Nat.log2_self_le positive'.ne'
  have most' : (denominator : ℚ) < 2 ^ (denominator.log2 + 1) := by
    exact_mod_cast Nat.lt_log2_self
  have power (count : ℕ) : (0 : ℚ) < 2 ^ count := by positivity
  have quotient (left right : ℕ) : (2 : ℚ) ^ ((left : ℤ) - right) = 2 ^ left / 2 ^ right := by
    rw [zpow_sub₀ two_ne_zero, zpow_natCast, zpow_natCast]
  rw [rationalBinaryExponent_eq positive']
  split
  · rename_i less
    refine ⟨?_, ?_⟩
    · have down : (numerator.log2 : ℤ) - denominator.log2 - 1 =
          (numerator.log2 : ℤ) - (denominator.log2 + 1 : ℕ) := by
        push_cast
        ring
      rw [down, quotient, div_le_div_iff₀ (power _) cast]
      exact mul_le_mul least most'.le cast.le (Nat.cast_nonneg _)
    · rw [sub_add_cancel]
      exact less
  · rename_i notLess
    refine ⟨not_lt.mp notLess, ?_⟩
    have up : (numerator.log2 : ℤ) - denominator.log2 + 1 =
        (numerator.log2 + 1 : ℕ) - (denominator.log2 : ℤ) := by
      push_cast
      ring
    rw [up, quotient, div_lt_div_iff₀ cast (power _)]
    exact mul_lt_mul most least' (power _) (power _).le

theorem shifted_up (numerator denominator count : ℕ) :
    (numerator / denominator / 2 ^ (-(count : ℤ)) : ℚ) =
      (numerator <<< count : ℕ) / denominator := by
  rw [Nat.shiftLeft_eq, zpow_neg, div_inv_eq_mul, zpow_natCast]
  push_cast
  ring

theorem shifted_down (numerator denominator count : ℕ) :
    (numerator / denominator / 2 ^ (count : ℤ) : ℚ) =
      numerator / (denominator <<< count : ℕ) := by
  rw [Nat.shiftLeft_eq, div_div, zpow_natCast]
  push_cast
  rfl

theorem lowest128 : binary128.lowest = -16494 := rfl

theorem infinity128 : binary128.infinity = 32767 * 2 ^ 112 := rfl

/-- The significand of a value by its binary exponent, and the place of the nearest number. -/
theorem nearest_significand {value : ℚ} {scale significand : ℕ}
    (least : 2 ^ ((scale : ℤ) - 16382) ≤ value) (most : value < 2 ^ ((scale : ℤ) - 16382 + 1))
    (near : Nearest (fun place => (place : ℚ)) (value / 2 ^ ((scale : ℤ) - 16494)) significand) :
    2 ^ 112 ≤ significand ∧ significand ≤ 2 ^ 113 ∧
      Nearest binary128.value value (scale * 2 ^ 112 + significand) := by
  have unit : (0 : ℚ) < 2 ^ ((scale : ℤ) - 16494) := by positivity
  have bottom : (2 : ℚ) ^ ((scale : ℤ) - 16382) = 2 ^ 112 * 2 ^ ((scale : ℤ) - 16494) := by
    rw [← zpow_natCast, ← zpow_add₀ two_ne_zero]
    congr 1
    push_cast
    ring
  have top : (2 : ℚ) ^ ((scale : ℤ) - 16382 + 1) = 2 ^ 113 * 2 ^ ((scale : ℤ) - 16494) := by
    rw [zpow_add₀ two_ne_zero, bottom]
    ring
  have exponent : binary128.lowest + binary128.fraction + scale = (scale : ℤ) - 16382 := by
    change (-16494 : ℤ) + 112 + scale = _
    ring
  have distance : binary128.lowest + scale = (scale : ℤ) - 16494 := by
    rw [lowest128]
    ring
  refine ⟨?_, ?_, ?_⟩
  · apply near.rung_le Nat.strictMono_cast
    rw [bottom] at least
    rw [le_div_iff₀ unit]
    exact_mod_cast least
  · apply near.le_rung Nat.strictMono_cast
    rw [top] at most
    rw [div_le_iff₀ unit]
    exact_mod_cast most.le
  · apply Format.nearest_of_scaled
    · rw [exponent]
      exact .inr least
    · rw [exponent]
      exact most.le
    · rwa [distance]

theorem nearest_fraction {value : ℚ} {fraction : ℕ} (small : value ≤ 2 ^ (-16382 : ℤ))
    (near : Nearest (fun place => (place : ℚ)) (value / 2 ^ (-16494 : ℤ)) fraction) :
    fraction ≤ 2 ^ 112 ∧ Nearest binary128.value value fraction := by
  have near' : Nearest binary128.value value (0 * 2 ^ 112 + fraction) := by
    apply Format.nearest_of_scaled (.inl rfl)
    · exact small.trans (zpow_le_zpow_right₀ one_le_two (by rw [lowest128]; decide))
    · rwa [lowest128]
  rw [Nat.zero_mul, Nat.zero_add] at near'
  refine ⟨near'.le_rung binary128.value_strictMono (small.trans_eq ?_), near'⟩
  have top : binary128.value (2 ^ 112) = (2 ^ 112 : ℕ) * 2 ^ binary128.lowest :=
    binary128.value_subnormal le_rfl
  rw [top, Nat.cast_pow, ← zpow_natCast, Nat.cast_ofNat, ← zpow_add₀ two_ne_zero]
  rfl

theorem zero_rounds (negative : Bool) : (signedZero negative).msb = negative ∧
    binary128.Rounds 0 (place (signedZero negative)) := by
  rw [(signedZero_pattern negative).2]
  exact ⟨(signedZero_pattern negative).1, by simpa using binary128.rounds_value 0⟩

/-- Above the highest exponent the result is infinite. -/
theorem infinity_rounds (negative : Bool) {value : ℚ} {exponent : ℤ} (large : 16383 < exponent)
    (least : 2 ^ exponent ≤ value) :
    (signedZero negative ||| kExponentMask).msb = negative ∧
      binary128.Rounds value (place (signedZero negative ||| kExponentMask)) := by
  rw [(infinity_pattern negative).2]
  refine ⟨(infinity_pattern negative).1, Format.rounds_infinity ?_⟩
  rw [Format.value_infinity]
  refine le_trans ?_ least
  exact zpow_le_zpow_right₀ one_le_two (by change (2 ^ 14 : ℤ) ≤ _; omega)

/-- The exact quotient is rounded once. -/
theorem encodeRational_rounds (positive : 0 < denominator) (negative : Bool) :
    (encodeRational numerator denominator negative).msb = negative ∧
      binary128.Rounds (numerator / denominator)
        (place (encodeRational numerator denominator negative)) := by
  unfold encodeRational
  dsimp only
  by_cases none : numerator = 0
  · rw [if_pos none, none, Nat.cast_zero, zero_div]
    exact zero_rounds negative
  rw [if_neg none]
  obtain ⟨least, most⟩ := rationalBinaryExponent_bounds (Nat.pos_of_ne_zero none) positive
  generalize rationalBinaryExponent numerator denominator = exponent at least most
  by_cases large : 16383 < exponent
  · rw [if_pos large]
    exact infinity_rounds negative large least
  rw [if_neg large]
  by_cases small : exponent < -16382
  · have less : (numerator / denominator : ℚ) ≤ 2 ^ (-16382 : ℤ) :=
      most.le.trans (zpow_le_zpow_right₀ one_le_two (by omega))
    have rounded : Nearest (fun place => (place : ℚ)) (numerator / denominator / 2 ^ (-16494 : ℤ))
        (halfEven (numerator <<< 16494) denominator) := by
      have scaled := shifted_up numerator denominator 16494
      rw [show -((16494 : ℕ) : ℤ) = -16494 from rfl] at scaled
      rw [scaled]
      exact nearest_halfEven positive
    obtain ⟨short, near⟩ := nearest_fraction less rounded
    obtain ⟨sign, same⟩ := subnormalBits_pattern negative short
    rw [if_pos small, roundRationalToNearestEven_eq, same]
    exact ⟨sign, _, near, by rw [infinity128]; omega⟩
  · rw [if_neg small]
    obtain ⟨scale, isScale⟩ := Int.eq_ofNat_of_zero_le (show 0 ≤ exponent + 16382 by omega)
    obtain rfl : exponent = scale - 16382 := by omega
    have rounded : Nearest (fun place => (place : ℚ))
        (numerator / denominator / 2 ^ ((scale : ℤ) - 16494))
        (if 0 ≤ 112 - ((scale : ℤ) - 16382) then
            roundRationalToNearestEven (numerator <<< (112 - ((scale : ℤ) - 16382)).toNat) denominator
          else roundRationalToNearestEven numerator
            (denominator <<< (-(112 - ((scale : ℤ) - 16382))).toNat)) := by
      have distance : (scale : ℤ) - 16494 = -(112 - ((scale : ℤ) - 16382)) := by ring
      rw [distance, roundRationalToNearestEven_eq, roundRationalToNearestEven_eq]
      generalize 112 - ((scale : ℤ) - 16382) = shift
      split
      · rename_i nonneg
        obtain ⟨count, rfl⟩ := Int.eq_ofNat_of_zero_le nonneg
        rw [shifted_up]
        exact nearest_halfEven positive
      · rename_i down
        obtain ⟨count, same⟩ := Int.eq_ofNat_of_zero_le (show 0 ≤ -shift by omega)
        rw [same, shifted_down]
        apply nearest_halfEven
        rw [Nat.shiftLeft_eq]
        exact Nat.mul_pos positive (Nat.two_pow_pos _)
    obtain ⟨least', most', near⟩ := nearest_significand least most rounded
    obtain ⟨sign, same⟩ := normalBits_pattern negative (show scale ≤ 32765 by omega) least' most'
    rw [same]
    exact ⟨sign, _, near, by rw [infinity128]; omega⟩

end

end HitSimple.Floating

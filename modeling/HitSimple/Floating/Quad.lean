import HitSimple.Floating.Backend
import Mathlib.Data.Nat.Bitwise

namespace HitSimple.Floating
open Rounding

def bigInteger (value : Bits) : ℕ :=
  ((value >>> 64).toNat % 2 ^ 64) <<< 64 + value.toNat % 2 ^ 64

namespace QuadBackend
variable (backend : QuadBackend)

/-- `roundToNearestEven` of a value that is not negative. -/
def roundToNearestEven (value : backend.Quad) : ℕ :=
  let lower := backend.floor value
  let result := backend.toBigInt lower
  let remainder := backend.sub value lower
  if backend.gt remainder backend.half ∨
      backend.eq remainder backend.half ∧ result &&& 1 = 1 then
    result + 1
  else result

def decode (bits : Bits) : backend.Quad :=
  let negative := decide (bits &&& kSignMask ≠ 0#128)
  let exponent := ((bits &&& kExponentMask) >>> 112).toNat
  let fraction := bits &&& kFractionMask
  let value :=
    if exponent = 0x7fff then
      if fraction = 0#128 then backend.infinity else backend.quietNaN
    else if exponent = 0 then backend.ldexp (backend.ofBigInt (bigInteger fraction)) (-16494)
    else
      let significand := 1 <<< 112 + bigInteger fraction
      backend.ldexp (backend.ofBigInt significand) (exponent - kExponentBias - 112)
  if negative then backend.neg value else value

def encode (input : backend.Quad) : Bits :=
  let negative := backend.signbit input
  let sign := signedZero negative
  let value := if negative then backend.neg input else input
  if backend.isnan value then sign ||| kExponentMask ||| 1#128 <<< 111
  else if backend.isinf value then sign ||| kExponentMask
  else if backend.isZero value then sign
  else
    let mantissa := (backend.frexp value).1
    let exponent := (backend.frexp value).2
    let unbiased := exponent - 1
    if 16383 < unbiased then sign ||| kExponentMask
    else if unbiased < -16382 then
      subnormalBits sign (backend.roundToNearestEven (backend.ldexp value 16494))
    else
      let significand := backend.toBigInt (backend.ldexp mantissa 113)
      let carried := decide (significand = 1 <<< 113)
      let significand := if carried then significand >>> 1 else significand
      let unbiased := if carried then unbiased + 1 else unbiased
      if carried ∧ 16383 < unbiased then sign ||| kExponentMask
      else
        sign ||| BitVec.ofNat 128 (unbiased + kExponentBias).toNat <<< 112 |||
          bitsFromBigInteger (significand - 1 <<< 112)

end QuadBackend

/-! ### Decoding -/

theorem bigInteger_eq (value : Bits) : bigInteger value = value.toNat := by
  have less := value.isLt
  rw [bigInteger, BitVec.toNat_ushiftRight, Nat.shiftRight_eq_div_pow, Nat.shiftLeft_eq]
  omega

section
variable (bits : Bits)

def exponent128 : ℕ := bits.toNat / 2 ^ 112 % 2 ^ 15

def fraction128 : ℕ := bits.toNat % 2 ^ 112

theorem place128 : place bits = exponent128 bits * 2 ^ 112 + fraction128 bits := by
  unfold place exponent128 fraction128
  omega

theorem fraction128_eq : (bits &&& kFractionMask).toNat = fraction128 bits := by
  rw [BitVec.toNat_and]
  exact Nat.and_two_pow_sub_one_eq_mod _ 112

theorem exponent128_eq : ((bits &&& kExponentMask) >>> 112).toNat = exponent128 bits := by
  rw [BitVec.toNat_ushiftRight, BitVec.toNat_and, Nat.shiftRight_and_distrib,
    Nat.shiftRight_eq_div_pow]
  exact Nat.and_two_pow_sub_one_eq_mod _ 15

theorem sign128_eq : decide (bits &&& kSignMask ≠ 0#128) = bits.msb := by
  have kept : (bits &&& kSignMask).toNat = bits.msb.toNat * 2 ^ 127 := by
    rw [BitVec.toNat_and, show kSignMask.toNat = 2 ^ 127 by rfl, Nat.and_two_pow,
      BitVec.msb_eq_getLsbD_last]
    rfl
  have zero : bits &&& kSignMask = 0#128 ↔ bits.msb = false := by
    rw [← BitVec.toNat_inj, kept]
    cases bits.msb <;> simp
  simp only [ne_eq, zero]
  cases bits.msb <;> rfl

theorem value128_normal {exponent fraction : ℕ} (normal : 0 < exponent)
    (short : fraction < 2 ^ 112) :
    binary128.value (exponent * 2 ^ 112 + fraction) =
      (1 <<< 112 + fraction : ℕ) * 2 ^ ((exponent : ℤ) - kExponentBias - 112) := by
  have whole := binary128.value_normal normal short
  have power : (2 : ℚ) ^ (exponent - 1) * 2 ^ binary128.lowest =
      2 ^ ((exponent : ℤ) - kExponentBias - 112) := by
    rw [lowest128, ← zpow_natCast, ← zpow_add₀ two_ne_zero, kExponentBias]
    congr 1
    omega
  rw [mul_assoc, power] at whole
  refine whole.trans ?_
  push_cast
  rfl

theorem value128_subnormal {fraction : ℕ} (short : fraction ≤ 2 ^ 112) :
    binary128.value fraction = fraction * 2 ^ (-16494 : ℤ) :=
  binary128.value_subnormal short

end

section
variable {backend : QuadBackend} {bits : Bits}

/-- The value of a pattern with an exponent in range, before its sign is put on. -/
theorem inQuadRange_value {significand : ℕ} {exponent : ℤ} (few : significand ≤ 2 ^ 113)
    (low : -16494 ≤ exponent) (high : exponent ≤ 16383) :
    InQuadRange (significand * 2 ^ exponent) := by
  rcases Nat.eq_zero_or_pos significand with rfl | positive
  · left
    rw [Nat.cast_zero, zero_mul]
  · right
    constructor
    · calc
        (2 : ℚ) ^ (-20000 : ℤ) ≤ 2 ^ exponent := zpow_le_zpow_right₀ one_le_two (by omega)
        _ ≤ significand * 2 ^ exponent :=
          le_mul_of_one_le_left (by positivity) (by exact_mod_cast positive)
    · calc
        (significand : ℚ) * 2 ^ exponent ≤ 2 ^ (113 : ℤ) * 2 ^ exponent :=
          mul_le_mul_of_nonneg_right (by exact_mod_cast few) (by positivity)
        _ = 2 ^ (113 + exponent) := (zpow_add₀ two_ne_zero _ _).symm
        _ < 2 ^ (20000 : ℤ) := zpow_lt_zpow_right₀ one_lt_two (by omega)

/-- Decoding is exact. -/
theorem decode_datum (laws : backend.Lawful) (number : place bits ≤ binary128.infinity) :
    backend.datum (backend.decode bits) = binary128.decode bits := by
  have fractionLess : fraction128 bits < 2 ^ 112 := Nat.mod_lt _ (by decide)
  have exponentLess : exponent128 bits < 2 ^ 15 := Nat.mod_lt _ (by decide)
  have top : binary128.infinity = 32767 * 2 ^ 112 := rfl
  unfold QuadBackend.decode
  have split := place128 bits
  simp only [sign128_eq, exponent128_eq, bigInteger_eq, fraction128_eq]
  have isFraction := fraction128_eq bits
  have none : bits &&& kFractionMask = 0#128 ↔ fraction128 bits = 0 := by
    rw [← BitVec.toNat_inj, isFraction]
    rfl
  simp only [none]
  generalize exponent128 bits = exponent at *
  generalize fraction128 bits = fraction at *
  -- The sign goes on what the unsigned part stands for.
  have signed {quad : backend.Quad} {magnitude : ℚ}
      (unsigned : backend.datum quad = .finite false magnitude) :
      backend.datum (if bits.msb = true then backend.neg quad else quad) =
        .finite bits.msb magnitude := by
    cases bits.msb with
    | false => exact unsigned
    | true => exact laws.neg quad false magnitude unsigned
  by_cases special : exponent = 0x7fff
  · have zero : fraction = 0 := by omega
    simp only [if_pos special, if_pos zero]
    rw [Format.decode_eq_infinite_iff.mpr ⟨by omega, rfl⟩]
    cases bits.msb with
    | false => exact laws.infinity
    | true => exact laws.neg_infinite _ false laws.infinity
  simp only [if_neg special]
  rw [Format.decode_eq_finite_iff.mpr ⟨by omega, rfl, rfl⟩, split]
  by_cases zero : exponent = 0
  · simp only [if_pos zero]
    rw [zero, Nat.zero_mul, Nat.zero_add, value128_subnormal fractionLess.le]
    exact signed (laws.ldexp _ _ _ _ (laws.ofBigInt _ (by omega))
      (inQuadRange_value (by omega) le_rfl (by decide)))
  · have few : 1 <<< 112 + fraction ≤ 2 ^ 113 := by omega
    simp only [if_neg zero]
    rw [value128_normal (Nat.pos_of_ne_zero zero) fractionLess]
    exact signed (laws.ldexp _ _ _ _ (laws.ofBigInt _ few)
      (inQuadRange_value few (by unfold kExponentBias; omega) (by unfold kExponentBias; omega)))

end

/-! ### Encoding -/

section
variable {value : ℚ}

theorem HasQuadBits.exists_div (bits : HasQuadBits value) : ∃ numerator count : ℕ,
    value = numerator / (2 ^ count : ℕ) ∧ numerator % 2 ^ count ≤ 2 ^ 113 := by
  obtain ⟨significand, exponent, few, rfl⟩ := bits
  rcases Int.le_total 0 exponent with nonneg | negative
  · obtain ⟨count, rfl⟩ := Int.eq_ofNat_of_zero_le nonneg
    refine ⟨significand * 2 ^ count, 0, ?_, ?_⟩
    · push_cast
      rw [zpow_natCast, div_one]
    · rw [pow_zero, Nat.mod_one]
      exact Nat.zero_le _
  · obtain ⟨count, isCount⟩ := Int.eq_ofNat_of_zero_le (show 0 ≤ -exponent by omega)
    obtain rfl : exponent = -count := by omega
    refine ⟨significand, count, ?_, (Nat.mod_le _ _).trans few⟩
    push_cast
    rw [zpow_neg, zpow_natCast, div_eq_mul_inv]

/-- The bits of a value fill a significand, by the power of two that it lies below. -/
theorem HasQuadBits.exists_nat (bits : HasQuadBits value) {exponent : ℤ}
    (least : 2 ^ (exponent - 1) ≤ value) :
    ∃ number : ℕ, value = number * 2 ^ (exponent - 113) := by
  obtain ⟨significand, other, few, rfl⟩ := bits
  have power (exponent : ℤ) : (0 : ℚ) < 2 ^ exponent := zpow_pos two_pos _
  rcases Int.lt_or_le other (exponent - 113) with low | high
  · have cast : (significand : ℚ) ≤ 2 ^ (113 : ℤ) := by exact_mod_cast few
    have most : (2 : ℚ) ^ (exponent - 1) ≤ 2 ^ (113 + other) := by
      rw [zpow_add₀ two_ne_zero]
      exact least.trans (mul_le_mul_of_nonneg_right cast (power other).le)
    have same : other = exponent - 114 := by
      have := (zpow_le_zpow_iff_right₀ (one_lt_two : (1 : ℚ) < 2)).mp most
      omega
    subst same
    have full : (2 : ℚ) ^ (113 : ℤ) ≤ significand := by
      rw [show exponent - 1 = 113 + (exponent - 114) by ring, zpow_add₀ two_ne_zero] at least
      exact le_of_mul_le_mul_right least (power _)
    refine ⟨2 ^ 112, ?_⟩
    rw [le_antisymm cast full, ← zpow_add₀ two_ne_zero, Nat.cast_pow, ← zpow_natCast,
      Nat.cast_ofNat, ← zpow_add₀ two_ne_zero]
    congr 1
    push_cast
    ring
  · obtain ⟨count, isCount⟩ := Int.eq_ofNat_of_zero_le (show 0 ≤ other - (exponent - 113) by omega)
    obtain rfl : other = count + (exponent - 113) := by omega
    refine ⟨significand * 2 ^ count, ?_⟩
    rw [zpow_add₀ two_ne_zero, zpow_natCast]
    push_cast
    ring

end

section
variable {backend : QuadBackend} {quad : backend.Quad} {negative : Bool} {magnitude : ℚ}

theorem roundToNearestEven_nearest (laws : backend.Lawful)
    (isValue : backend.datum quad = .finite false magnitude) (bits : HasQuadBits magnitude) :
    Nearest (fun place => (place : ℚ)) magnitude (backend.roundToNearestEven quad) := by
  obtain ⟨numerator, count, rfl, few⟩ := bits.exists_div
  have positive : 0 < 2 ^ count := Nat.two_pow_pos count
  have cast : (0 : ℚ) < (2 ^ count : ℕ) := Nat.cast_pos.mpr positive
  have floored : ⌊(numerator / (2 ^ count : ℕ) : ℚ)⌋₊ = numerator / 2 ^ count :=
    Nat.floor_div_eq_div _ _
  have lower := laws.floor quad _ isValue (by positivity)
  rw [floored] at lower
  have rest : (numerator / (2 ^ count : ℕ) : ℚ) - (numerator / 2 ^ count : ℕ) =
      (numerator % 2 ^ count : ℕ) / (2 ^ count : ℕ) := by
    rw [eq_div_iff cast.ne', sub_mul, div_mul_cancel₀ _ cast.ne', sub_eq_iff_eq_add]
    exact_mod_cast (Nat.mod_add_div' numerator (2 ^ count)).symm
  have difference : (numerator / 2 ^ count : ℕ) ≤ (numerator / (2 ^ count : ℕ) : ℚ) := by
    rw [← sub_nonneg, rest]
    positivity
  have remainder := laws.sub quad _ _ _ isValue lower difference (by
    refine ⟨numerator % 2 ^ count, -count, few, ?_⟩
    rw [rest, zpow_neg, zpow_natCast, div_eq_mul_inv]
    push_cast
    rfl)
  rw [rest] at remainder
  have above := laws.gt _ _ _ _ remainder laws.half
  have same := laws.eq _ _ _ _ remainder laws.half
  rw [div_lt_div_iff₀ two_pos cast] at above
  rw [div_eq_div_iff cast.ne' two_ne_zero] at same
  have isResult := laws.toBigInt _ _ lower
  have rounded : backend.roundToNearestEven quad = halfEven numerator (2 ^ count) := by
    unfold QuadBackend.roundToNearestEven halfEven
    dsimp only
    rw [isResult, Nat.and_one_is_mod]
    have up : (backend.gt (backend.sub quad (backend.floor quad)) backend.half = true ∨
        backend.eq (backend.sub quad (backend.floor quad)) backend.half = true ∧
          numerator / 2 ^ count % 2 = 1) ↔
        (2 ^ count < 2 * (numerator % 2 ^ count) ∨
          2 * (numerator % 2 ^ count) = 2 ^ count ∧ numerator / 2 ^ count % 2 = 1) := by
      rw [above, same]
      norm_cast
      rw [Nat.one_mul, Nat.mul_comm 2]
    simp only [up]
  rw [rounded]
  exact nearest_halfEven positive

/-- What the encoder goes on with: the number without its sign. -/
theorem unsigned_datum (laws : backend.Lawful)
    (isValue : backend.datum quad = .finite negative magnitude) :
    backend.signbit quad = negative ∧
      backend.datum (if negative = true then backend.neg quad else quad) =
        .finite false magnitude := by
  refine ⟨by rw [laws.signbit, isValue]; rfl, ?_⟩
  cases negative with
  | false => exact isValue
  | true => exact laws.neg quad true magnitude isValue

/-- The significand that the encoder reads is all of the number. -/
theorem significand_eq {mantissa : ℚ} {exponent : ℤ} {number : ℕ}
    (split : magnitude = mantissa * 2 ^ exponent)
    (isNumber : magnitude = number * 2 ^ (exponent - 113)) :
    mantissa * 2 ^ (113 : ℤ) = number := by
  have power (exponent : ℤ) : (2 : ℚ) ^ exponent ≠ 0 := (zpow_pos two_pos exponent).ne'
  rw [split, zpow_sub₀ two_ne_zero, ← mul_div_assoc, eq_div_iff (power _), mul_right_comm] at isNumber
  exact mul_right_cancel₀ (power exponent) isNumber

theorem inQuadRange_of_bounds {value : ℚ} {low high : ℤ} (least : 2 ^ low ≤ value)
    (most : value < 2 ^ high) (low' : -20000 ≤ low) (high' : high ≤ 20000) : InQuadRange value :=
  .inr ⟨(zpow_le_zpow_right₀ one_le_two low').trans least,
    most.trans_le (zpow_le_zpow_right₀ one_le_two high')⟩

/-- The encoder rounds once, to the place of the nearest number. -/
theorem encode_rounds (laws : backend.Lawful)
    (isValue : backend.datum quad = .finite negative magnitude)
    (bits : magnitude < 2 ^ (16384 : ℤ) → HasQuadBits magnitude)
    (low : magnitude = 0 ∨ 2 ^ (-20000 : ℤ) ≤ magnitude) :
    (backend.encode quad).msb = negative ∧
      binary128.Rounds magnitude (place (backend.encode quad)) := by
  obtain ⟨sign, isUnsigned⟩ := unsigned_datum laws isValue
  rw [QuadBackend.encode, sign]
  dsimp only
  generalize (if negative = true then backend.neg quad else quad) = value at isUnsigned
  have notNan : ¬backend.isnan value = true := by
    rw [laws.isnan, isUnsigned]
    exact nofun
  have notInf : ¬backend.isinf value = true := by
    rw [laws.isinf, isUnsigned]
    exact nofun
  have isZero : backend.isZero value = true ↔ magnitude = 0 := by
    rw [laws.isZero, isUnsigned]
    simp
  rw [if_neg notNan, if_neg notInf]
  simp only [isZero]
  by_cases none : magnitude = 0
  · rw [if_pos none, none]
    exact zero_rounds negative
  rw [if_neg none]
  replace low := low.resolve_left none
  have positive : 0 < magnitude := (zpow_pos two_pos _).trans_le low
  obtain ⟨mantissa, isMantissa, half, one, split⟩ :=
    laws.frexp value false magnitude isUnsigned positive
  revert isMantissa split
  generalize backend.frexp value = parts
  obtain ⟨quadMantissa, exponent⟩ := parts
  dsimp only
  intro isMantissa split
  have power (exponent : ℤ) : (0 : ℚ) < 2 ^ exponent := zpow_pos two_pos _
  have least : (2 : ℚ) ^ (exponent - 1) ≤ magnitude := by
    rw [split, zpow_sub_one₀ two_ne_zero, mul_comm]
    exact mul_le_mul_of_nonneg_right (by rwa [← one_div]) (power exponent).le
  have most : magnitude < 2 ^ exponent := by
    rw [split]
    exact mul_lt_of_lt_one_left (power exponent) one
  by_cases large : 16383 < exponent - 1
  · rw [if_pos large]
    exact infinity_rounds negative large least
  rw [if_neg large]
  have hasBits : HasQuadBits magnitude :=
    bits (most.trans_le (zpow_le_zpow_right₀ one_le_two (by omega)))
  by_cases small : exponent - 1 < -16382
  · rw [if_pos small]
    have less : magnitude < 2 ^ (-16382 : ℤ) :=
      most.trans_le (zpow_le_zpow_right₀ one_le_two (by omega))
    have scaled : magnitude / 2 ^ (-16494 : ℤ) = magnitude * 2 ^ (16494 : ℤ) := by
      rw [zpow_neg, div_inv_eq_mul]
    have shifted (exponent : ℤ) : (2 : ℚ) ^ (exponent + 16494) = 2 ^ exponent * 2 ^ (16494 : ℤ) :=
      zpow_add₀ two_ne_zero _ _
    have range : InQuadRange (magnitude * 2 ^ (16494 : ℤ)) := by
      refine @inQuadRange_of_bounds _ (-20000 + 16494) (-16382 + 16494) ?_ ?_ (by decide)
        (by decide)
      · rw [shifted]
        exact mul_le_mul_of_nonneg_right low (power _).le
      · rw [shifted]
        exact mul_lt_mul_of_pos_right less (power _)
    have isScaled := laws.ldexp value 16494 false magnitude isUnsigned range
    have bits' : HasQuadBits (magnitude * 2 ^ (16494 : ℤ)) := by
      obtain ⟨significand, other, few, rfl⟩ := hasBits
      exact ⟨significand, other + 16494, few, by rw [shifted, mul_assoc]⟩
    have rounded := roundToNearestEven_nearest laws isScaled bits'
    rw [← scaled] at rounded
    obtain ⟨short, near⟩ := nearest_fraction less.le rounded
    obtain ⟨sign, same⟩ := subnormalBits_pattern negative short
    rw [same]
    exact ⟨sign, _, near, by rw [infinity128]; omega⟩
  · rw [if_neg small]
    obtain ⟨number, isNumber⟩ := hasBits.exists_nat least
    have scaled := significand_eq split isNumber
    have bottom : (2 : ℚ) ^ (112 : ℤ) ≤ mantissa * 2 ^ (113 : ℤ) := by
      have twice : (2 : ℚ) ^ (113 : ℤ) = 2 ^ (112 : ℤ) * 2 := zpow_add_one₀ two_ne_zero 112
      linarith [mul_le_mul_of_nonneg_right half (power 113).le]
    have top : mantissa * 2 ^ (113 : ℤ) < 2 ^ (113 : ℤ) := mul_lt_of_lt_one_left (power _) one
    have isScaled := laws.ldexp quadMantissa 113 false mantissa isMantissa
      (inQuadRange_of_bounds bottom top (by decide) (by decide))
    rw [scaled] at isScaled bottom top
    rw [laws.toBigInt _ _ isScaled]
    have short : number < 2 ^ 113 := by exact_mod_cast top
    have full : number = 1 <<< 113 ↔ 1 <<< 113 ≤ number := ⟨Eq.ge, le_antisymm short.le⟩
    simp only [full]
    obtain ⟨scale, isScale⟩ := Int.eq_ofNat_of_zero_le (show 0 ≤ exponent + 16381 by omega)
    obtain rfl : exponent = scale - 16381 := by omega
    rw [show (scale : ℤ) - 16381 - 1 = scale - 16382 by ring] at least ⊢
    rw [show (scale : ℤ) - 16381 - 113 = scale - 16494 by ring] at isNumber
    rw [show (scale : ℤ) - 16381 = scale - 16382 + 1 by ring] at most
    have rounded : Nearest (fun place => (place : ℚ)) (magnitude / 2 ^ ((scale : ℤ) - 16494))
        number := by
      rw [isNumber, mul_div_cancel_right₀ _ (power _).ne']
      exact nearest_rung Nat.strictMono_cast number
    obtain ⟨least', most', near⟩ := nearest_significand least most rounded
    obtain ⟨sign, same⟩ := normalBits_pattern negative (show scale ≤ 32765 by omega) least' most'
    rw [← normalBits, same]
    exact ⟨sign, _, near, by rw [infinity128]; omega⟩

end

/-! ### Storing what was loaded -/

section
variable {backend : QuadBackend} {quad : backend.Quad} {negative : Bool}

theorem encode_infinite (laws : backend.Lawful)
    (isInfinite : backend.datum quad = .infinite negative) :
    backend.encode quad = signedZero negative ||| kExponentMask := by
  have sign : backend.signbit quad = negative := by
    rw [laws.signbit, isInfinite]
    rfl
  have unsigned : backend.datum (if negative = true then backend.neg quad else quad) =
      .infinite false := by
    cases negative with
    | false => exact isInfinite
    | true => exact laws.neg_infinite quad true isInfinite
  rw [QuadBackend.encode, sign]
  dsimp only
  rw [if_neg, if_pos ((laws.isinf _).mpr ⟨_, unsigned⟩)]
  rw [laws.isnan, unsigned]
  exact nofun

theorem encode_nan (laws : backend.Lawful) (isNan : backend.datum quad = .nan negative) :
    backend.encode quad = signedZero negative ||| quietNaN := by
  have sign : backend.signbit quad = negative := by
    rw [laws.signbit, isNan]
    rfl
  have unsigned : ∃ other,
      backend.datum (if negative = true then backend.neg quad else quad) = .nan other := by
    cases negative with
    | false => exact ⟨false, isNan⟩
    | true => exact laws.neg_nan quad true isNan
  rw [QuadBackend.encode, sign]
  dsimp only
  rw [if_pos ((laws.isnan _).mpr unsigned), BitVec.or_assoc]
  rfl

theorem decode_nan {bits : Bits} (laws : backend.Lawful) (negates : backend.NegatesNan)
    (isNan : binary128.infinity < place bits) :
    backend.datum (backend.decode bits) = .nan bits.msb := by
  have split := place128 bits
  rw [split, infinity128] at isNan
  have fractionLess : fraction128 bits < 2 ^ 112 := Nat.mod_lt _ (by decide)
  have exponentLess : exponent128 bits < 2 ^ 15 := Nat.mod_lt _ (by decide)
  have special : exponent128 bits = 0x7fff := by omega
  have some' : ¬bits &&& kFractionMask = 0#128 := by
    rw [← BitVec.toNat_inj, fraction128_eq]
    change ¬fraction128 bits = 0
    omega
  unfold QuadBackend.decode
  simp only [sign128_eq, exponent128_eq, if_pos special, if_neg some']
  cases bits.msb with
  | false => exact laws.quietNaN
  | true => exact negates _ _ laws.quietNaN

theorem value128_scaled {scale significand : ℕ} (low : scale = 0 ∨ 2 ^ 112 ≤ significand)
    (high : significand ≤ 2 ^ 113) :
    binary128.value (scale * 2 ^ 112 + significand) = significand * 2 ^ ((scale : ℤ) - 16494) := by
  have whole : binary128.value (scale * 2 ^ 112 + significand) =
      (significand * 2 ^ scale : ℕ) * 2 ^ binary128.lowest :=
    congrArg (fun unit : ℕ => (unit : ℚ) * 2 ^ binary128.lowest) (units_scaled low high)
  rw [whole, lowest128, sub_eq_add_neg, zpow_add₀ two_ne_zero, zpow_natCast, Nat.cast_mul,
    Nat.cast_pow, Nat.cast_ofNat, mul_assoc]

theorem value_pattern {bits : Bits} {scale significand : ℕ} (low : scale = 0 ∨ 2 ^ 112 ≤ significand)
    (high : significand ≤ 2 ^ 113) (same : place bits = scale * 2 ^ 112 + significand) :
    binary128.value (place bits) = significand * 2 ^ ((scale : ℤ) - 16494) := by
  rw [same, value128_scaled low high]

theorem hasQuadBits_value (place : ℕ) : HasQuadBits (binary128.value place) := by
  obtain ⟨scale, significand, rfl, high, low⟩ := exists_scaled 112 place
  exact ⟨significand, scale - 16494, high.le, value128_scaled low high.le⟩

theorem value128_low (place : ℕ) :
    binary128.value place = 0 ∨ 2 ^ (-16494 : ℤ) ≤ binary128.value place := by
  rcases Nat.eq_zero_or_pos place with rfl | positive
  · exact .inl binary128.value_zero
  · right
    have first : binary128.value 1 = 2 ^ (-16494 : ℤ) := by
      rw [value128_subnormal (by decide), Nat.cast_one, one_mul]
    rw [← first]
    exact binary128.value_strictMono.monotone positive

/-- Storing what was loaded changes nothing, but for the fraction of what is not a number. -/
theorem encode_decode (laws : backend.Lawful) (negates : backend.NegatesNan) (bits : Bits) :
    ((∀ negative, binary128.decode bits ≠ .nan negative) →
      backend.encode (backend.decode bits) = bits) ∧
    ∀ negative, binary128.decode bits = .nan negative →
      binary128.decode (backend.encode (backend.decode bits)) = .nan negative ∧
        (backend.encode (backend.decode bits)).getLsbD 111 = true := by
  constructor
  · intro notNan
    have number : place bits ≤ binary128.infinity := by
      by_contra more
      exact notNan bits.msb (Format.decode_eq_nan_iff.mpr ⟨not_le.mp more, rfl⟩)
    have isDatum := decode_datum laws number
    apply Format.eq_of_isRounded number
    rcases number.lt_or_eq with finite | infinite
    · rw [Format.decode_eq_finite_iff.mpr ⟨finite, rfl, rfl⟩] at isDatum ⊢
      have low := (value128_low (place bits)).imp_right
        (zpow_le_zpow_right₀ (one_le_two : (1 : ℚ) ≤ 2) (show (-20000 : ℤ) ≤ -16494 by decide)).trans
      exact encode_rounds laws isDatum (fun _ => hasQuadBits_value (place bits)) low
    · rw [Format.decode_eq_infinite_iff.mpr ⟨infinite, rfl⟩] at isDatum ⊢
      rw [encode_infinite laws isDatum]
      exact Format.decode_eq_infinite_iff.mpr (infinity_pattern bits.msb).symm
  · intro negative isNan
    obtain ⟨large, rfl⟩ := Format.decode_eq_nan_iff.mp isNan
    obtain ⟨sign, same⟩ := signed_pattern bits.msb (show quietNaN.toNat < 2 ^ 127 by decide)
    rw [encode_nan laws (decode_nan laws negates large)]
    refine ⟨Format.decode_eq_nan_iff.mpr ⟨?_, sign⟩, ?_⟩
    · rw [same]
      decide
    · cases bits.msb <;> decide

theorem encode_decode_subnormal :
    rationalBackend.encode (rationalBackend.decode (kSignMask ||| 1#128)) = kSignMask ||| 1#128 ∧
      (rationalBackend.encode (rationalBackend.decode (kSignMask ||| kExponentMask ||| 1#128))).msb =
        true := by
  have number : place (kSignMask ||| 1#128) ≤ binary128.infinity := by decide
  have isNan : binary128.decode (kSignMask ||| kExponentMask ||| 1#128) = .nan true :=
    Format.decode_eq_nan_iff.mpr (by decide)
  have kept := (encode_decode rationalBackend_lawful rationalBackend_negatesNan
    (kSignMask ||| 1#128)).1 fun negative nan =>
      absurd (Format.decode_eq_nan_iff.mp nan).1 (not_lt.mpr number)
  have quiet := (encode_decode rationalBackend_lawful rationalBackend_negatesNan
    (kSignMask ||| kExponentMask ||| 1#128)).2 true isNan
  exact ⟨kept, (Format.decode_eq_nan_iff.mp quiet.1).2⟩

end

end HitSimple.Floating

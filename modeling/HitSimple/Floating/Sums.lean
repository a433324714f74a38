import HitSimple.Floating.Products

namespace Rounding

/-- A magnitude with its sign. -/
def signed (negative : Bool) (magnitude : ℚ) : ℚ :=
  if negative then -magnitude else magnitude

/-- The sum before it is rounded, with the sign that IEEE 754 gives it when numbers are rounded to
the nearest. -/
def exactSum : Datum → Datum → Datum
  | .nan negative, _ | _, .nan negative => .nan negative
  | .infinite negative, .infinite other =>
      if negative = other then .infinite negative else .nan false
  | .infinite negative, .finite _ _ | .finite _ _, .infinite negative => .infinite negative
  | .finite negative magnitude, .finite other magnitude' =>
      let sum := signed negative magnitude + signed other magnitude'
      .finite (if sum = 0 then negative && other else decide (sum < 0)) |sum|

section
variable {magnitude : ℚ}

theorem signed_eq_zero_iff {negative : Bool} : signed negative magnitude = 0 ↔ magnitude = 0 := by
  cases negative with
  | false => exact Iff.rfl
  | true => exact neg_eq_zero

theorem abs_signed (negative : Bool) (positive : 0 < magnitude) :
    |signed negative magnitude| = magnitude := by
  cases negative with
  | false => exact abs_of_pos positive
  | true => exact (abs_neg magnitude).trans (abs_of_pos positive)

theorem signed_lt_zero (negative : Bool) (positive : 0 < magnitude) :
    decide (signed negative magnitude < 0) = negative := by
  cases negative with
  | false => exact decide_eq_false (not_lt.mpr positive.le)
  | true => exact decide_eq_true (neg_lt_zero.mpr positive)

theorem exactSum_zero_left (zero negative : Bool) (positive : 0 < magnitude) :
    exactSum (.finite zero 0) (.finite negative magnitude) = .finite negative magnitude := by
  have none : signed zero 0 = 0 := signed_eq_zero_iff.mpr rfl
  have some' : signed negative magnitude ≠ 0 := mt signed_eq_zero_iff.mp positive.ne'
  simp only [exactSum, none, zero_add, if_neg some', signed_lt_zero negative positive,
    abs_signed negative positive]

theorem exactSum_zero_right (zero negative : Bool) (positive : 0 < magnitude) :
    exactSum (.finite negative magnitude) (.finite zero 0) = .finite negative magnitude := by
  have none : signed zero 0 = 0 := signed_eq_zero_iff.mpr rfl
  have some' : signed negative magnitude ≠ 0 := mt signed_eq_zero_iff.mp positive.ne'
  simp only [exactSum, none, add_zero, if_neg some', signed_lt_zero negative positive,
    abs_signed negative positive]

theorem exactSum_neg {minuend subtrahend : ℚ} (order : subtrahend ≤ minuend) :
    exactSum (.finite false minuend) (Datum.neg (.finite false subtrahend)) =
      .finite false (minuend - subtrahend) := by
  have nonneg := sub_nonneg.mpr order
  have difference : signed false minuend + signed (!false) subtrahend = minuend - subtrahend :=
    (sub_eq_add_neg minuend subtrahend).symm
  simp only [exactSum, Datum.neg, difference, abs_of_nonneg nonneg, not_lt.mpr nonneg,
    decide_false, Bool.false_and, ite_self]

theorem exactSum_zeros (negative other : Bool) :
    exactSum (.finite negative 0) (.finite other 0) = .finite (negative && other) 0 := by
  have none (negative : Bool) : signed negative 0 = 0 := signed_eq_zero_iff.mpr rfl
  simp only [exactSum, none, add_zero, if_true, abs_zero]

end

end Rounding

namespace HitSimple.Floating
open Rounding

/-! ### Addition and subtraction -/

/-- The library with its sums. -/
structure QuadSums extends QuadBackend where
  add : Quad → Quad → Quad

def isNaN (value : Bits) : Bool :=
  value &&& kExponentMask = kExponentMask && value &&& kFractionMask ≠ 0#128

def negate (value : Bits) : Bits :=
  value ^^^ kSignMask

section
variable (backend : QuadSums)

def hs_f128_add (left right : Bits) : Bits :=
  if isZero left && isZero right then
    signedZero (left &&& kSignMask ≠ 0#128 && right &&& kSignMask ≠ 0#128)
  else if isZero left && !isNaN right then right
  else if isZero right && !isNaN left then left
  else binary backend.toQuadBackend left right backend.add

def hs_f128_sub (left right : Bits) : Bits :=
  if isZero left && isZero right then
    signedZero (left &&& kSignMask ≠ 0#128 && right &&& kSignMask = 0#128)
  else if isZero left && !isNaN right then negate right
  else if isZero right && !isNaN left then left
  else binary backend.toQuadBackend left right backend.sub

end

/-- What the library makes of a sum: it leaves open the sign of what is not a number, and the sign
of the zero to which two numbers cancel. -/
def QuadSum (exact result : Datum) : Prop :=
  match exact with
  | .nan _ => ∃ negative, result = .nan negative
  | .infinite negative => result = .infinite negative
  | .finite negative magnitude =>
      if magnitude = 0 then ∃ other, result = .finite other 0
      else QuadRounded negative magnitude result

/-- The sums of numbers of binary128 are those of the documentation. -/
structure QuadSums.Lawful (backend : QuadSums) : Prop extends backend.toQuadBackend.Lawful where
  negates : backend.NegatesNan
  sum : ∀ quad quad' (left right : Bits), backend.datum quad = binary128.decode left →
    backend.datum quad' = binary128.decode right →
    QuadSum (exactSum (binary128.decode left) (binary128.decode right))
      (backend.datum (backend.add quad quad'))
  difference : ∀ quad quad' (left right : Bits), backend.datum quad = binary128.decode left →
    backend.datum quad' = binary128.decode right →
    QuadSum (exactSum (binary128.decode left) (binary128.decode right).neg)
      (backend.datum (backend.sub quad quad'))

/-- What the runtime stores for a sum: the exact sum rounded once, and a zero of either sign where
two numbers that are not zero cancel. -/
def IsSum (left right : Datum) (result : Bits) : Prop :=
  match exactSum left right with
  | .nan _ => ∃ negative, binary128.decode result = .nan negative
  | .infinite negative => binary128.decode result = .infinite negative
  | .finite negative magnitude =>
      if magnitude = 0 then
        ∃ other, binary128.decode result = .finite other 0 ∧
          (left = .finite left.negative 0 → other = negative)
      else binary128.IsRounded (.finite negative magnitude) result

/-! ### The tests of the runtime -/

section
variable {bits : Bits}

theorem isZero_iff : isZero bits = true ↔ place bits = 0 := by
  have kept : (bits &&& ~~~kSignMask).toNat = place bits := by
    rw [BitVec.toNat_and]
    exact Nat.and_two_pow_sub_one_eq_mod _ 127
  rw [isZero, decide_eq_true_iff, ← BitVec.toNat_inj, kept]
  rfl

theorem exponent_full_iff : bits &&& kExponentMask = kExponentMask ↔ exponent128 bits = 0x7fff := by
  have exponent := exponent128_eq bits
  constructor
  · intro full
    rw [full] at exponent
    exact exponent.symm
  · intro full
    have field : (bits &&& kExponentMask) >>> 112 = 0x7fff#128 :=
      BitVec.eq_of_toNat_eq (exponent.trans full)
    have back : ((bits &&& kExponentMask) >>> 112) <<< 112 = bits &&& kExponentMask := by
      apply BitVec.eq_of_getLsbD_eq
      intro index inside
      rw [kExponentMask, BitVec.getLsbD_shiftLeft, BitVec.getLsbD_ushiftRight, BitVec.getLsbD_and,
        BitVec.getLsbD_and, BitVec.getLsbD_shiftLeft, BitVec.getLsbD_shiftLeft]
      by_cases low : index < 112
      · simp only [low, decide_true, Bool.not_true, Bool.and_false, Bool.false_and]
      · have high : 112 + (index - 112) = index := by omega
        simp only [high, inside, low, decide_true, decide_false, Bool.not_false, Bool.true_and]
    rw [← back, field]
    rfl

theorem isNaN_iff : isNaN bits = true ↔ binary128.infinity < place bits := by
  have split := place128 bits
  have fraction : bits &&& kFractionMask = 0#128 ↔ fraction128 bits = 0 := by
    rw [← BitVec.toNat_inj, fraction128_eq]
    rfl
  have exponentLess : exponent128 bits < 2 ^ 15 := Nat.mod_lt _ (by decide)
  have fractionLess : fraction128 bits < 2 ^ 112 := Nat.mod_lt _ (by decide)
  unfold isNaN
  rw [Bool.and_eq_true, decide_eq_true_iff, decide_eq_true_iff, exponent_full_iff, ne_eq, fraction,
    split, infinity128]
  generalize exponent128 bits = exponent at *
  generalize fraction128 bits = fraction at *
  omega

theorem negate_pattern (bits : Bits) :
    (negate bits).msb = !bits.msb ∧ place (negate bits) = place bits := by
  have set : kSignMask.msb = true := by decide
  have none : kSignMask.toNat % 2 ^ (128 - 1) = 0 := by decide
  constructor
  · rw [negate, BitVec.msb_xor, set, Bool.xor_true]
  · rw [place, place, negate, BitVec.toNat_xor, Nat.xor_mod_two_pow, none, Nat.xor_zero]

theorem decode_negate (bits : Bits) :
    binary128.decode (negate bits) = (binary128.decode bits).neg := by
  obtain ⟨sign, same⟩ := negate_pattern bits
  unfold Format.decode
  rw [sign, same]
  split
  · rfl
  split <;> rfl

end

theorem decode_of_place {negative : Bool} {bits : Bits} (sign : bits.msb = negative)
    (first : place bits = 0) : binary128.decode bits = .finite negative 0 :=
  Format.decode_eq_finite_iff.mpr ⟨first ▸ by decide, sign, first ▸ binary128.value_zero⟩

theorem decode_of_isZero {bits : Bits} (zero : isZero bits = true) :
    binary128.decode bits = .finite bits.msb 0 :=
  decode_of_place rfl (isZero_iff.mp zero)

theorem positive_of_decode {bits : Bits} {negative : Bool} {magnitude : ℚ}
    (isDatum : binary128.decode bits = .finite negative magnitude) (notZero : isZero bits = false) :
    0 < magnitude := by
  obtain ⟨-, -, rfl⟩ := Format.decode_eq_finite_iff.mp isDatum
  rw [← binary128.value_zero]
  refine binary128.value_strictMono (Nat.pos_of_ne_zero fun none => ?_)
  rw [isZero_iff.mpr none] at notZero
  cases notZero

/-! ### Rounding a sum -/

/-- A sum of numbers of binary128 is a multiple of the lowest one, and so never near the middle of
two subnormal numbers. -/
theorem not_nearMiddle_multiple (count : ℕ) : ¬NearMiddle (count * 2 ^ (-16494 : ℤ)) := by
  rintro ⟨below, inside, -, near⟩
  have unit : (0 : ℚ) < 2 ^ (-16495 : ℤ) := zpow_pos two_pos _
  have double : (2 : ℚ) ^ (-16494 : ℤ) = 2 * 2 ^ (-16495 : ℤ) :=
    zpow_one_add₀ two_ne_zero (-16495)
  have distance : (count : ℚ) * 2 ^ (-16494 : ℤ) - middle below =
      ((2 * count - (2 * below + 1) : ℤ) : ℚ) * 2 ^ (-16495 : ℤ) := by
    rw [double, middle]
    generalize (2 : ℚ) ^ (-16495 : ℤ) = unit
    push_cast
    ring
  have apart : 2 ^ (-16495 : ℤ) ≤ |(count : ℚ) * 2 ^ (-16494 : ℤ) - middle below| := by
    have one : 1 ≤ |(2 * count - (2 * below + 1) : ℤ)| := Int.one_le_abs (by omega)
    rw [distance, abs_mul, abs_of_pos unit]
    refine le_mul_of_one_le_left unit.le ?_
    exact_mod_cast one
  have small : reach below < 2 ^ (-16495 : ℤ) := by
    have odd : ((2 * below + 1 : ℕ) : ℚ) < 2 ^ 113 := by
      exact_mod_cast (show 2 * below + 1 < 2 ^ 113 by omega)
    calc
      reach below ≤ middle below / 2 ^ 113 := reach_le below
      _ = (2 * below + 1 : ℕ) / 2 ^ 113 * 2 ^ (-16495 : ℤ) := by rw [middle, div_mul_eq_mul_div]
      _ < 2 ^ (-16495 : ℤ) :=
        mul_lt_of_lt_one_left unit ((div_lt_one (by positivity)).mpr odd)
  rcases near with less | ⟨same, -⟩
  · exact absurd (apart.trans_lt less) (not_lt.mpr small.le)
  · exact absurd (apart.trans_eq same) (not_le.mpr small)

/-- The magnitude of a sum in units of the lowest number. -/
theorem exists_multiple (negative other : Bool) (rung rung' : ℕ) : ∃ count : ℕ,
    |signed negative (binary128.value rung) + signed other (binary128.value rung')| =
      count * 2 ^ (-16494 : ℤ) := by
  have whole (negative : Bool) (rung : ℕ) : ∃ number : ℤ,
      signed negative (binary128.value rung) = number * 2 ^ (-16494 : ℤ) := by
    cases negative with
    | false => exact ⟨units 112 rung, by rw [Int.cast_natCast]; rfl⟩
    | true => exact ⟨-units 112 rung, by rw [Int.cast_neg, Int.cast_natCast, neg_mul]; rfl⟩
  obtain ⟨number, left⟩ := whole negative rung
  obtain ⟨number', right⟩ := whole other rung'
  have unit : (0 : ℚ) < 2 ^ (-16494 : ℤ) := zpow_pos two_pos _
  refine ⟨(number + number').natAbs, ?_⟩
  rw [left, right, ← add_mul, abs_mul, abs_of_pos unit, Nat.cast_natAbs, Int.cast_abs,
    Int.cast_add]

section
variable {backend : QuadSums}

theorem decode_all (laws : backend.Lawful) (bits : Bits) :
    backend.datum (backend.decode bits) = binary128.decode bits := by
  rcases Nat.lt_or_ge binary128.infinity (place bits) with isNan | number
  · rw [decode_nan laws.toLawful laws.negates isNan, Format.decode_eq_nan_iff.mpr ⟨isNan, rfl⟩]
  · exact decode_datum laws.toLawful number

theorem exactSum_multiple {left right : Bits} {negative : Bool} {magnitude : ℚ}
    (exact : exactSum (binary128.decode left) (binary128.decode right) =
      .finite negative magnitude) :
    ∃ count : ℕ, magnitude = count * 2 ^ (-16494 : ℤ) := by
  cases leftIs : binary128.decode left with
  | nan _ =>
      rw [leftIs] at exact
      cases exact
  | infinite sign =>
      cases rightIs : binary128.decode right with
      | nan _ | finite _ _ =>
          rw [leftIs, rightIs] at exact
          cases exact
      | infinite other =>
          rw [leftIs, rightIs] at exact
          simp only [exactSum] at exact
          split at exact <;> cases exact
  | finite sign value =>
      cases rightIs : binary128.decode right with
      | nan _ | infinite _ =>
          rw [leftIs, rightIs] at exact
          cases exact
      | finite other value' =>
          rw [leftIs, rightIs] at exact
          obtain ⟨-, -, rfl⟩ := Format.decode_eq_finite_iff.mp leftIs
          obtain ⟨-, -, rfl⟩ := Format.decode_eq_finite_iff.mp rightIs
          obtain ⟨count, same⟩ := exists_multiple sign other (place left) (place right)
          cases exact
          exact ⟨count, same⟩

/-- The encoder rounds a sum once. -/
theorem isSum_encode (laws : backend.Lawful) {quad : backend.Quad} {left right : Bits}
    (notZero : isZero left = true → isNaN right = true)
    (sum : QuadSum (exactSum (binary128.decode left) (binary128.decode right)) (backend.datum quad)) :
    IsSum (binary128.decode left) (binary128.decode right) (backend.encode quad) := by
  unfold IsSum
  cases exact : exactSum (binary128.decode left) (binary128.decode right) with
  | nan _ =>
      rw [exact] at sum
      obtain ⟨negative, isNan⟩ := sum
      obtain ⟨sign, same⟩ := signed_pattern negative (show quietNaN.toNat < 2 ^ 127 by decide)
      rw [encode_nan laws.toLawful isNan]
      exact ⟨negative, Format.decode_eq_nan_iff.mpr ⟨by rw [same]; decide, sign⟩⟩
  | infinite negative =>
      rw [exact] at sum
      rw [encode_infinite laws.toLawful sum]
      exact Format.decode_eq_infinite_iff.mpr (infinity_pattern negative).symm
  | finite negative magnitude =>
      obtain ⟨count, multiple⟩ := exactSum_multiple exact
      rw [exact] at sum
      simp only [QuadSum] at sum
      split at sum
      · rename_i none
        obtain ⟨other, cancelled⟩ := sum
        obtain ⟨sign, rounds⟩ := encode_rounds laws.toLawful cancelled
          (fun _ => ⟨0, 0, Nat.zero_le _, by simp⟩) (.inl rfl)
        have rounded := rounds.unique (binary128.value_zero ▸ binary128.rounds_value 0)
        have first : place (backend.encode quad) = 0 := rounded.trans (Nat.zero_min _)
        simp only [if_pos none]
        refine ⟨other, decode_of_place sign first, fun zero => ?_⟩
        obtain ⟨-, -, value⟩ := Format.decode_eq_finite_iff.mp zero
        have isFirst := binary128.value_strictMono.injective (value.trans binary128.value_zero.symm)
        have isNan := isNaN_iff.mp (notZero (isZero_iff.mpr isFirst))
        rw [zero, Format.decode_eq_nan_iff.mpr ⟨isNan, rfl⟩] at exact
        cases exact
      · rename_i notCancelled
        simp only [if_neg notCancelled]
        rw [isRounded_encode_iff laws.toLawful sum, multiple]
        exact not_nearMiddle_multiple count

end

/-! ### The runtime functions -/

/-- Both functions: the operands are looked at before the library is asked. -/
def sumBits (left right whole : Bits) : Bits :=
  if isZero left && isZero right then signedZero (left.msb && right.msb)
  else if isZero left && !isNaN right then right
  else if isZero right && !isNaN left then left
  else whole

/-- A sum that is one of its operands. -/
theorem isSum_of_exact {left right : Datum} {result : Bits}
    (exact : exactSum left right = binary128.decode result) (notZero : isZero result = false) :
    IsSum left right result := by
  unfold IsSum
  rw [exact]
  cases isDatum : binary128.decode result with
  | nan negative => exact ⟨negative, rfl⟩
  | infinite negative => rfl
  | finite negative magnitude =>
      obtain ⟨finite, sign, rfl⟩ := Format.decode_eq_finite_iff.mp isDatum
      have some' : ¬binary128.value (place result) = 0 := by
        rw [← binary128.value_zero, binary128.value_strictMono.injective.eq_iff, ← isZero_iff,
          notZero]
        decide
      simp only [if_neg some']
      have rounds := binary128.rounds_value (place result)
      rw [Nat.min_eq_left finite.le] at rounds
      exact ⟨sign, rounds⟩

theorem exactSum_isZero_left {left right : Bits} (zero : isZero left = true)
    (notZero : isZero right = false) (number : isNaN right = false) :
    exactSum (binary128.decode left) (binary128.decode right) = binary128.decode right := by
  rw [decode_of_isZero zero]
  cases isDatum : binary128.decode right with
  | nan negative =>
      have isNan := (Format.decode_eq_nan_iff.mp isDatum).1
      rw [isNaN_iff.mpr isNan] at number
      cases number
  | infinite negative => rfl
  | finite negative magnitude => exact exactSum_zero_left _ _ (positive_of_decode isDatum notZero)

theorem exactSum_isZero_right {left right : Bits} (zero : isZero right = true)
    (notZero : isZero left = false) :
    exactSum (binary128.decode left) (binary128.decode right) = binary128.decode left := by
  rw [decode_of_isZero zero]
  cases isDatum : binary128.decode left with
  | nan negative => rfl
  | infinite negative => rfl
  | finite negative magnitude => exact exactSum_zero_right _ _ (positive_of_decode isDatum notZero)

theorem isSum_sumBits {left right whole : Bits}
    (rest : (isZero left = true → isNaN right = true) →
      IsSum (binary128.decode left) (binary128.decode right) whole) :
    IsSum (binary128.decode left) (binary128.decode right) (sumBits left right whole) := by
  unfold sumBits
  split
  · rename_i zeros
    obtain ⟨zero, zero'⟩ := Bool.and_eq_true_iff.mp zeros
    obtain ⟨sign, first⟩ := signedZero_pattern (left.msb && right.msb)
    unfold IsSum
    rw [decode_of_isZero zero, decode_of_isZero zero', exactSum_zeros]
    simp only [if_true]
    exact ⟨_, decode_of_place sign first, fun _ => rfl⟩
  rename_i notZeros
  split
  · rename_i first
    obtain ⟨zero, number⟩ := Bool.and_eq_true_iff.mp first
    have notZero : isZero right = false := by simpa [zero] using notZeros
    have number : isNaN right = false := by simpa using number
    exact isSum_of_exact (exactSum_isZero_left zero notZero number) notZero
  rename_i notFirst
  split
  · rename_i second
    obtain ⟨zero, _⟩ := Bool.and_eq_true_iff.mp second
    have notZero : isZero left = false := by simpa [zero] using notZeros
    exact isSum_of_exact (exactSum_isZero_right zero notZero) notZero
  · exact rest (by simpa using notFirst)

section
variable (backend : QuadSums) (left right : Bits)

theorem hs_f128_add_eq : hs_f128_add backend left right =
    sumBits left right (binary backend.toQuadBackend left right backend.add) := by
  rw [hs_f128_add, sign128_eq, sign128_eq, sumBits]

theorem hs_f128_sub_eq : hs_f128_sub backend left right =
    sumBits left (negate right) (binary backend.toQuadBackend left right backend.sub) := by
  obtain ⟨sign, same⟩ := negate_pattern right
  have zero : isZero (negate right) = isZero right := by
    rw [Bool.eq_iff_iff, isZero_iff, isZero_iff, same]
  have nan : isNaN (negate right) = isNaN right := by
    rw [Bool.eq_iff_iff, isNaN_iff, isNaN_iff, same]
  have clear : decide (right &&& kSignMask = 0#128) = !right.msb := by
    rw [← sign128_eq, decide_not, Bool.not_not]
  rw [hs_f128_sub, sign128_eq, clear, sumBits, zero, nan, sign]

end

/-- Sums and differences of all patterns are rounded once, signed zeros, infinities and NaN
included. -/
theorem sums_isSum {backend : QuadSums} (laws : backend.Lawful) (left right : Bits) :
    IsSum (binary128.decode left) (binary128.decode right) (hs_f128_add backend left right) ∧
      IsSum (binary128.decode left) (binary128.decode right).neg
        (hs_f128_sub backend left right) := by
  rw [hs_f128_add_eq, hs_f128_sub_eq, ← decode_negate]
  constructor
  · apply isSum_sumBits
    intro notZero
    exact isSum_encode laws notZero
      (laws.sum _ _ left right (decode_all laws left) (decode_all laws right))
  · apply isSum_sumBits
    intro notZero
    apply isSum_encode laws notZero
    rw [decode_negate]
    exact laws.difference _ _ left right (decode_all laws left) (decode_all laws right)

/-! ### The sums of rational numbers -/

/-- A sum with 113 bits in the range of the library, and the sum itself outside. -/
def quadSum (exact : Datum) : Datum :=
  match exact with
  | .finite negative magnitude =>
      if magnitude < 2 ^ (-20000 : ℤ) ∨ 2 ^ (19999 : ℤ) ≤ magnitude then .finite negative magnitude
      else quadRound negative magnitude
  | other => other

def rationalSums : QuadSums :=
  { rationalBackend with
    sub := fun left right => quadSum (exactSum left right.neg)
    add := fun left right => quadSum (exactSum left right) }

theorem exists_quadLadder {value : ℚ} (bits : HasQuadBits value) (low : 2 ^ (-20000 : ℤ) ≤ value) :
    ∃ rung, quadLadder rung = value := by
  have positive : 0 < value := (zpow_pos two_pos _).trans_le low
  have least : (2 : ℚ) ^ Int.log 2 value ≤ value := Int.zpow_log_le_self one_lt_two positive
  have most : value < (2 : ℚ) ^ (Int.log 2 value + 1) := Int.lt_zpow_succ_log_self one_lt_two value
  generalize Int.log 2 value = exponent at least most
  obtain ⟨number, same⟩ := @HasQuadBits.exists_nat value bits (exponent + 1)
    (by rwa [add_sub_cancel_right])
  have above : -20000 < exponent + 1 :=
    (zpow_lt_zpow_iff_right₀ (one_lt_two : (1 : ℚ) < 2)).mp (low.trans_lt most)
  obtain ⟨scale, isScale⟩ := Int.eq_ofNat_of_zero_le (show 0 ≤ exponent + 20000 by omega)
  obtain rfl : exponent = scale - 20000 := by omega
  have unit : (0 : ℚ) < 2 ^ ((scale : ℤ) - 20112) := zpow_pos two_pos _
  rw [show (scale : ℤ) - 20000 + 1 - 113 = scale - 20112 by ring] at same
  rw [same, show (scale : ℤ) - 20000 = 112 + (scale - 20112) by ring, zpow_add₀ two_ne_zero,
    mul_le_mul_iff_left₀ unit] at least
  rw [same, show (scale : ℤ) - 20000 + 1 = 113 + (scale - 20112) by ring, zpow_add₀ two_ne_zero,
    mul_lt_mul_iff_left₀ unit] at most
  refine ⟨scale * 2 ^ 112 + number, ?_⟩
  rw [same, quadLadder_scaled (.inr (by exact_mod_cast least)) (by exact_mod_cast most.le)]

/-- A sum that has 113 bits is itself. -/
theorem quadSum_of_bits {value : ℚ} (bits : HasQuadBits value) :
    quadSum (.finite false value) = .finite false value := by
  rw [quadSum]
  split
  · rfl
  rename_i inRange
  obtain ⟨notTiny, notHuge⟩ := not_or.mp inRange
  have rounded := quadRounded_quadRound false value
  unfold QuadRounded at rounded
  rw [if_neg notTiny, if_neg notHuge] at rounded
  obtain ⟨place, near, same⟩ := rounded
  obtain ⟨rung, rfl⟩ := exists_quadLadder bits (not_lt.mp notTiny)
  rw [same, near.unique (nearest_rung quadLadder_strictMono rung) quadLadder_strictMono]

theorem quadSum_exactSum (left right : Bits) :
    QuadSum (exactSum (binary128.decode left) (binary128.decode right))
      (quadSum (exactSum (binary128.decode left) (binary128.decode right))) := by
  cases exact : exactSum (binary128.decode left) (binary128.decode right) with
  | nan negative => exact ⟨negative, rfl⟩
  | infinite negative => rfl
  | finite negative magnitude =>
      obtain ⟨count, rfl⟩ := exactSum_multiple exact
      simp only [QuadSum]
      split
      · rename_i none
        have tiny : (0 : ℚ) < 2 ^ (-20000 : ℤ) := zpow_pos two_pos _
        exact ⟨negative, by rw [none, quadSum, if_pos (.inl tiny)]⟩
      rename_i some'
      have unit : (0 : ℚ) < 2 ^ (-16494 : ℤ) := zpow_pos two_pos _
      have one : (1 : ℚ) ≤ count := by
        refine Nat.one_le_cast.mpr (Nat.one_le_iff_ne_zero.mpr fun none => some' ?_)
        rw [none, Nat.cast_zero, zero_mul]
      have notTiny : ¬(count : ℚ) * 2 ^ (-16494 : ℤ) < 2 ^ (-20000 : ℤ) := by
        refine not_lt.mpr (le_trans ?_ (le_mul_of_one_le_left unit.le one))
        exact zpow_le_zpow_right₀ one_le_two (by decide)
      rw [quadSum, QuadRounded, if_neg notTiny]
      by_cases huge : 2 ^ (19999 : ℤ) ≤ (count : ℚ) * 2 ^ (-16494 : ℤ)
      · rw [if_pos huge, if_pos (.inr huge)]
        exact .inr ⟨_, huge, rfl⟩
      · have rounded := quadRounded_quadRound negative ((count : ℚ) * 2 ^ (-16494 : ℤ))
        unfold QuadRounded at rounded
        rw [if_neg notTiny, if_neg huge] at rounded
        rw [if_neg huge, if_neg (not_or.mpr ⟨notTiny, huge⟩)]
        exact rounded

theorem rationalSums_lawful : rationalSums.Lawful where
  toLawful := { rationalBackend_lawful with
    sub := by
      rintro left right minuend subtrahend rfl rfl order bits
      exact (congrArg quadSum (exactSum_neg order)).trans (quadSum_of_bits bits) }
  negates := rationalBackend_negatesNan
  sum := by
    rintro quad quad' left right rfl rfl
    exact quadSum_exactSum left right
  difference := by
    rintro quad quad' left right rfl rfl
    have same := quadSum_exactSum left (negate right)
    rwa [decode_negate] at same

/-- `1 + 1` and `1 - 1`. -/
theorem sums_isSum_one :
    IsSum (binary128.decode one128) (binary128.decode one128)
        (hs_f128_add rationalSums one128 one128) ∧
      IsSum (binary128.decode one128) (binary128.decode one128).neg
        (hs_f128_sub rationalSums one128 one128) :=
  sums_isSum rationalSums_lawful one128 one128

end HitSimple.Floating

import HitSimple.Floating.Quad
import HitSimple.Rounding.Twice

namespace HitSimple.Floating
open Rounding

def isZero (value : Bits) : Bool :=
  value &&& ~~~kSignMask = 0#128

def isInfinity (value : Bits) : Bool :=
  value &&& kExponentMask = kExponentMask && value &&& kFractionMask = 0#128

section
variable (backend : QuadBackend)

def binary (left right : Bits) (function : backend.Quad → backend.Quad → backend.Quad) : Bits :=
  backend.encode (function (backend.decode left) (backend.decode right))

def hs_f128_mul (left right : Bits) : Bits :=
  if isZero left && isInfinity right || isInfinity left && isZero right then quietNaN
  else if isZero left || isZero right then
    signedZero (decide ((left ^^^ right) &&& kSignMask ≠ 0#128))
  else binary backend left right backend.mul

def hs_f128_div (left right : Bits) : Bits :=
  if isZero left && isZero right || isInfinity left && isInfinity right then quietNaN
  else if isZero left || isInfinity right then
    signedZero (decide ((left ^^^ right) &&& kSignMask ≠ 0#128))
  else binary backend left right backend.div

end

/-! ### The middles of the subnormal numbers -/

/-- The middle of a subnormal number and the next one. -/
def middle (below : ℕ) : ℚ :=
  (2 * below + 1 : ℕ) * 2 ^ (-16495 : ℤ)

/-- How far from the middle the numbers lie whose 113 bits are the middle. -/
def reach (below : ℕ) : ℚ :=
  2 ^ (((2 * below + 1).log2 : ℤ) - 16608)

/-- The value is so close to the middle of two subnormal numbers, on the side of the odd one, that
the 113 bits of the value are the middle. -/
def NearMiddle (value : ℚ) : Prop :=
  ∃ below < 2 ^ 112, (value < middle below ∧ Odd below ∨ middle below < value ∧ Even below) ∧
    (|value - middle below| < reach below ∨
      |value - middle below| = reach below ∧ below < 2 ^ 111)

section
variable {below : ℕ}

theorem quadLadder_strictMono : StrictMono quadLadder :=
  binaryLadder_strictMono 112 (-20112)

theorem quadLadder_scaled {scale significand : ℕ} (low : scale = 0 ∨ 2 ^ 112 ≤ significand)
    (high : significand ≤ 2 ^ 113) :
    quadLadder (scale * 2 ^ 112 + significand) = significand * 2 ^ ((scale : ℤ) - 20112) :=
  binaryLadder_scaled low high

theorem halfStep_eq (below : ℕ) : halfStep 112 (2 * below + 1) (-16495) = reach below := by
  have same : -16495 + ((2 * below + 1).log2 : ℤ) - (112 : ℕ) - 1 = (2 * below + 1).log2 - 16608 := by
    omega
  rw [halfStep, reach, same]

section
variable (below : ℕ)

theorem odd_below : Odd (2 * below + 1) :=
  odd_two_mul_add_one below

theorem short_below (inside : below < 2 ^ 112) : 2 * below + 1 < 2 ^ (112 + 1) := by omega

theorem normal_below : (-20112 : ℤ) + (112 : ℕ) ≤ -16495 + ((2 * below + 1).log2 : ℤ) := by omega

end

/-- A value on one side of a middle, which its 113 bits are. -/
theorem nearest_middle_iff {value : ℚ} (inside : below < 2 ^ 112)
    (side : value < middle below ∧ Odd below ∨ middle below < value ∧ Even below) :
    (∃ rung, Nearest quadLadder value rung ∧ quadLadder rung = middle below) ↔
      |value - middle below| < reach below ∨
        |value - middle below| = reach below ∧ below < 2 ^ 111 := by
  have side' : value < middle below ∧ 2 * below + 1 ≠ 1 ∨ middle below < value := by
    refine side.imp (And.imp_right fun odd => ?_) And.left
    have := odd.pos
    omega
  have low : 2 * below + 1 < 2 ^ 112 ↔ below < 2 ^ 111 := by omega
  rw [← halfStep_eq, ← low]
  exact nearest_odd_iff (odd_below below) (by decide) (short_below below inside)
    (normal_below below) side'

theorem isMiddle_iff {between : ℚ} (inside : below < 2 ^ 112) :
    2 * between = binary128.value below + binary128.value (below + 1) ↔
      between = middle below := by
  have double : (2 : ℚ) ^ (-16494 : ℤ) = 2 * 2 ^ (-16495 : ℤ) :=
    zpow_one_add₀ two_ne_zero (-16495)
  have sum : binary128.value below + binary128.value (below + 1) = 2 * middle below := by
    rw [value128_subnormal inside.le, value128_subnormal (by omega), double, middle]
    generalize (2 : ℚ) ^ (-16495 : ℤ) = unit
    push_cast
    ring
  rw [sum, mul_right_inj' two_ne_zero]

/-- What the condition means: the first of two roundings misleads the second one. -/
theorem nearMiddle_iff {value : ℚ} : NearMiddle value ↔ ∃ rung, Nearest quadLadder value rung ∧
    ∃ below < 2 ^ 112, MisledAt binary128.value value (quadLadder rung) below := by
  constructor
  · rintro ⟨below, inside, side, close⟩
    obtain ⟨rung, near, isMiddle⟩ := (nearest_middle_iff inside side).mpr close
    refine ⟨rung, near, below, inside, (isMiddle_iff inside).mpr isMiddle, ?_⟩
    rwa [isMiddle, Nat.not_even_iff_odd]
  · rintro ⟨rung, near, below, inside, misled⟩
    have isMiddle := (isMiddle_iff inside).mp misled.isMiddle
    have side := misled.side
    rw [isMiddle, Nat.not_even_iff_odd] at side
    exact ⟨below, inside, side, (nearest_middle_iff inside side).mp ⟨rung, near, isMiddle⟩⟩

theorem reach_le (below : ℕ) : reach below ≤ middle below / 2 ^ 113 := by
  have least := Nat.log2_self_le (Nat.succ_ne_zero (2 * below))
  have split : reach below = 2 ^ (2 * below + 1).log2 * 2 ^ (-16608 : ℤ) := by
    rw [reach, sub_eq_add_neg, zpow_add₀ two_ne_zero, zpow_natCast]
  have down : (2 : ℚ) ^ (-16495 : ℤ) / 2 ^ 113 = 2 ^ (-16608 : ℤ) := by
    rw [← zpow_natCast, ← zpow_sub₀ two_ne_zero]
    rfl
  rw [middle, mul_div_assoc, down, split]
  exact mul_le_mul_of_nonneg_right (by exact_mod_cast least) (zpow_pos two_pos _).le

/-- Only values below the normal numbers, and not far below the lowest number, are near a middle. -/
theorem NearMiddle.bounds {value : ℚ} (close : NearMiddle value) :
    2 ^ (-20000 : ℤ) ≤ value ∧ value < 2 ^ (-16382 : ℤ) := by
  obtain ⟨below, inside, side, near⟩ := close
  have distance : |value - middle below| ≤ reach below := near.elim le_of_lt fun tie => tie.1.le
  have small := reach_le below
  obtain ⟨lower, upper⟩ := abs_le.mp distance
  have unit : (0 : ℚ) < 2 ^ (-16495 : ℤ) := zpow_pos two_pos _
  have normal : (2 : ℚ) ^ (-16382 : ℤ) = 2 ^ 113 * 2 ^ (-16495 : ℤ) := by
    rw [← zpow_natCast, ← zpow_add₀ two_ne_zero]
    rfl
  have isMiddle : middle below = (2 * below + 1 : ℕ) * 2 ^ (-16495 : ℤ) := rfl
  constructor
  · have first : (1 : ℚ) ≤ (2 * below + 1 : ℕ) := by exact_mod_cast Nat.le_add_left 1 (2 * below)
    have lowest : (2 : ℚ) ^ (-16496 : ℤ) * 2 = 2 ^ (-16495 : ℤ) :=
      (zpow_add_one₀ two_ne_zero (-16496)).symm
    have order : (2 : ℚ) ^ (-20000 : ℤ) ≤ 2 ^ (-16496 : ℤ) :=
      zpow_le_zpow_right₀ one_le_two (by decide)
    have least := mul_le_mul_of_nonneg_right first unit.le
    rw [one_mul, ← isMiddle] at least
    linarith
  · rw [normal]
    rcases side with ⟨less, -⟩ | ⟨-, even⟩
    · have most : ((2 * below + 1 : ℕ) : ℚ) ≤ 2 ^ 113 := by
        exact_mod_cast (show 2 * below + 1 ≤ 2 ^ 113 by omega)
      have bound := mul_le_mul_of_nonneg_right most unit.le
      rw [← isMiddle] at bound
      linarith
    · have notLast : below ≠ 2 ^ 112 - 1 := by
        rintro rfl
        exact absurd even (by decide)
      have most : ((2 * below + 1 : ℕ) : ℚ) + 2 ≤ 2 ^ 113 := by
        exact_mod_cast (show 2 * below + 1 + 2 ≤ 2 ^ 113 by omega)
      have bound := mul_le_mul_of_nonneg_right most unit.le
      rw [add_mul, ← isMiddle] at bound
      have inner : middle below / 2 ^ 113 ≤ 2 ^ (-16495 : ℤ) := by
        rw [div_le_iff₀ (by positivity)]
        linarith
      linarith

end

/-! ### The two roundings -/

/-- Where the numbers are normal, both ladders have the same rungs. -/
theorem quadLadder_shift {place : ℕ} (normal : 2 ^ 112 ≤ place) :
    quadLadder (place + 3618 * 2 ^ 112) = binary128.value place := by
  obtain ⟨scale, significand, rfl, high, low⟩ := exists_scaled 112 place
  have full : 2 ^ 112 ≤ significand := by omega
  have same : scale * 2 ^ 112 + significand + 3618 * 2 ^ 112 =
      (scale + 3618) * 2 ^ 112 + significand := by ring
  have exponent : ((scale + 3618 : ℕ) : ℤ) - 20112 = scale - 16494 := by omega
  rw [same, quadLadder_scaled (.inr full) high.le, value128_scaled low high.le, exponent]

theorem hasQuadBits_quadLadder (place : ℕ) : HasQuadBits (quadLadder place) := by
  obtain ⟨scale, significand, rfl, high, low⟩ := exists_scaled 112 place
  exact ⟨significand, scale - 20112, high.le, quadLadder_scaled low high.le⟩

theorem value128_normalFirst : binary128.value (2 ^ 112) = 2 ^ (-16382 : ℤ) := by
  have first := @value128_scaled 0 (2 ^ 112) (.inl rfl) (by decide)
  rw [Nat.zero_mul, Nat.zero_add] at first
  rw [first, Nat.cast_pow, Nat.cast_ofNat, ← zpow_natCast, ← zpow_add₀ two_ne_zero]
  rfl

/-- The wide ladder has the subnormal numbers and their middles. -/
theorem quadLadder_refines : Refines quadLadder binary128.value (2 ^ 112) where
  rung place inside := by
    have unit : binary128.value place = (place * 2 ^ 3618 : ℕ) * 2 ^ (-20112 : ℤ) := by
      rw [value128_subnormal inside, Nat.cast_mul, Nat.cast_pow, Nat.cast_ofNat, mul_assoc,
        ← zpow_natCast, ← zpow_add₀ two_ne_zero]
      rfl
    obtain ⟨other, same⟩ := exists_units 112 3618 place (by omega)
    exact ⟨other, by rw [quadLadder, same, unit]⟩
  middle place inside := by
    obtain ⟨before, isMiddle, -⟩ := exists_odd_rung (odd_below place) (by decide)
      (short_below place inside) (normal_below place)
    exact ⟨before + 1, (isMiddle_iff inside).mpr isMiddle⟩

section
variable {backend : QuadBackend} {quad : backend.Quad} {negative : Bool} {exact : ℚ}

/-- Rounding an exact result to 113 bits and then to binary128 is rounding it once, but near the
middles of the subnormal numbers. -/
theorem rounds_iff {rung place : ℕ} (near : Nearest quadLadder exact rung)
    (rounds : binary128.Rounds (quadLadder rung) place) :
    binary128.Rounds exact place ↔ ¬NearMiddle exact := by
  obtain ⟨second, near', rfl⟩ := rounds
  have strict := binary128.value_strictMono
  rcases le_total exact (binary128.value (2 ^ 112)) with low | high
  · rw [nearMiddle_iff]
    refine (Nearest.capped_iff near near' quadLadder_strictMono strict quadLadder_refines low
      binary128.infinity).trans (not_congr ?_)
    constructor
    · rintro ⟨below, -, misled⟩
      have most := near.le_limit quadLadder_strictMono quadLadder_refines low
      have inside : below < 2 ^ 112 := by
        by_contra high
        have order := strict (Nat.lt_succ_self below)
        linarith [strict.monotone (not_lt.mp high), misled.isMiddle]
      exact ⟨rung, near, below, inside, misled⟩
    · rintro ⟨other, near'', below, inside, misled⟩
      rw [near''.unique near quadLadder_strictMono] at misled
      have subnormal : 2 ^ 112 ≤ binary128.infinity := by decide
      exact ⟨below, inside.trans_le subnormal, misled⟩
  · have notClose : ¬NearMiddle exact := fun close =>
      absurd (value128_normalFirst ▸ close.bounds.2) (not_lt.mpr high)
    have least : 2 ^ 112 + 3618 * 2 ^ 112 ≤ rung := by
      apply near.rung_le quadLadder_strictMono
      rwa [quadLadder_shift le_rfl]
    obtain ⟨place, rfl⟩ := Nat.exists_eq_add_of_le' (show 3618 * 2 ^ 112 ≤ rung by omega)
    have normal : 2 ^ 112 ≤ place := by omega
    rw [quadLadder_shift normal] at near'
    obtain rfl := near'.unique (nearest_rung strict place) strict
    have once := near.of_shift strict quadLadder_strictMono (by decide)
      (fun other => quadLadder_shift) high normal
    exact iff_of_true ⟨_, once, rfl⟩ notClose

theorem rounds_underflow {value : ℚ} (tiny : value ≤ 2 ^ (-20000 : ℤ)) : binary128.Rounds value 0 := by
  apply Format.rounds_zero
  have order : (2 : ℚ) ^ (-20000 : ℤ) < 2 ^ (-16495 : ℤ) :=
    zpow_lt_zpow_right₀ one_lt_two (by decide)
  have double : (2 : ℚ) ^ (-16494 : ℤ) = 2 * 2 ^ (-16495 : ℤ) :=
    zpow_one_add₀ two_ne_zero (-16495)
  rw [lowest128]
  linarith

theorem rounds_overflow {value : ℚ} (huge : 2 ^ (19999 : ℤ) ≤ value) :
    binary128.Rounds value binary128.infinity := by
  apply Format.rounds_infinity
  rw [Format.value_infinity]
  refine le_trans ?_ huge
  exact zpow_le_zpow_right₀ one_le_two (by decide)

/-- An operation of the library and the encoder: the result is the exact one rounded once, but near
the middles of the subnormal numbers. -/
theorem isRounded_encode_iff (laws : backend.Lawful)
    (rounded : QuadRounded negative exact (backend.datum quad)) :
    binary128.IsRounded (.finite negative exact) (backend.encode quad) ↔ ¬NearMiddle exact := by
  unfold QuadRounded at rounded
  split at rounded
  · rename_i tiny
    have notClose : ¬NearMiddle exact := fun close => absurd close.bounds.1 (not_le.mpr tiny)
    have zero {value : ℚ} (isValue : backend.datum quad = .finite negative value)
        (bits : HasQuadBits value) (low : value = 0 ∨ 2 ^ (-20000 : ℤ) ≤ value)
        (most : value ≤ 2 ^ (-20000 : ℤ)) :
        binary128.IsRounded (.finite negative exact) (backend.encode quad) := by
      obtain ⟨sign, rounds⟩ := encode_rounds laws isValue (fun _ => bits) low
      refine ⟨sign, ?_⟩
      rw [rounds.unique (rounds_underflow most)]
      exact rounds_underflow tiny.le
    refine iff_of_true ?_ notClose
    have unit : (0 : ℚ) < 2 ^ (-20000 : ℤ) := zpow_pos two_pos _
    rcases rounded with isZero | isLowest
    · exact zero isZero ⟨0, 0, by decide, by simp⟩ (.inl rfl) unit.le
    · exact zero isLowest ⟨1, -20000, by decide, by simp⟩ (.inr le_rfl) le_rfl
  rename_i notTiny
  split at rounded
  · rename_i huge
    have notClose : ¬NearMiddle exact := by
      intro close
      have order : (2 : ℚ) ^ (-16382 : ℤ) ≤ 2 ^ (19999 : ℤ) :=
        zpow_le_zpow_right₀ one_le_two (by decide)
      exact absurd close.bounds.2 (not_lt.mpr (order.trans huge))
    refine iff_of_true ?_ notClose
    rcases rounded with isInfinite | ⟨magnitude, large, isValue⟩
    · obtain ⟨sign, same⟩ := infinity_pattern negative
      rw [encode_infinite laws isInfinite]
      exact ⟨sign, same ▸ rounds_overflow huge⟩
    · have tooLarge : ¬magnitude < 2 ^ (16384 : ℤ) :=
        not_lt.mpr ((zpow_le_zpow_right₀ one_le_two (by decide)).trans large)
      have low : (2 : ℚ) ^ (-20000 : ℤ) ≤ magnitude :=
        (zpow_le_zpow_right₀ one_le_two (by decide)).trans large
      obtain ⟨sign, rounds⟩ :=
        encode_rounds laws isValue (fun less => absurd less tooLarge) (.inr low)
      refine ⟨sign, ?_⟩
      rw [rounds.unique (rounds_overflow large)]
      exact rounds_overflow huge
  · obtain ⟨rung, near, isValue⟩ := rounded
    have lowest : quadLadder (0 * 2 ^ 112 + 2 ^ 112) = 2 ^ (-20000 : ℤ) := by
      rw [quadLadder_scaled (.inl rfl) (by decide), Nat.cast_pow, Nat.cast_ofNat, ← zpow_natCast,
        ← zpow_add₀ two_ne_zero]
      rfl
    have least : (2 : ℚ) ^ (-20000 : ℤ) ≤ quadLadder rung := by
      rw [← lowest]
      apply quadLadder_strictMono.monotone
      apply near.rung_le quadLadder_strictMono
      rw [lowest]
      exact not_lt.mp notTiny
    obtain ⟨sign, rounds⟩ :=
      encode_rounds laws isValue (fun _ => hasQuadBits_quadLadder rung) (.inr least)
    rw [← rounds_iff near rounds]
    exact and_iff_right sign

/-! ### Multiplication and division -/

/-- A pattern of a number that is neither zero nor infinite. -/
def IsFiniteNonzero (bits : Bits) : Prop :=
  0 < place bits ∧ place bits < binary128.infinity

theorem not_isZero {bits : Bits} (finite : IsFiniteNonzero bits) : isZero bits = false := by
  have kept : (bits &&& ~~~kSignMask).toNat = place bits := by
    rw [BitVec.toNat_and]
    exact Nat.and_two_pow_sub_one_eq_mod _ 127
  refine decide_eq_false fun zero => ?_
  rw [zero] at kept
  exact finite.1.ne kept

theorem not_isInfinity {bits : Bits} (finite : IsFiniteNonzero bits) : isInfinity bits = false := by
  refine Bool.eq_false_iff.mpr fun infinite => ?_
  unfold isInfinity at infinite
  rw [Bool.and_eq_true, decide_eq_true_iff, decide_eq_true_iff] at infinite
  have exponent := exponent128_eq bits
  have fraction := fraction128_eq bits
  rw [infinite.1] at exponent
  rw [infinite.2] at fraction
  have full : exponent128 bits = 0x7fff := exponent.symm
  have none : fraction128 bits = 0 := fraction.symm
  have split := place128 bits
  have less := finite.2
  rw [infinity128] at less
  omega

section
variable {backend : QuadBackend} {left right : Bits} (finite : IsFiniteNonzero left)
  (finite' : IsFiniteNonzero right)
include finite finite'

theorem hs_f128_mul_eq :
    hs_f128_mul backend left right = binary backend left right backend.mul := by
  rw [hs_f128_mul, not_isZero finite, not_isZero finite', not_isInfinity finite,
    not_isInfinity finite']
  rfl

theorem hs_f128_div_eq :
    hs_f128_div backend left right = binary backend left right backend.div := by
  rw [hs_f128_div, not_isZero finite, not_isZero finite', not_isInfinity finite,
    not_isInfinity finite']
  rfl

/-- Both operations on the numbers that the patterns stand for. -/
theorem binary_isRounded_iff (laws : backend.Lawful)
    {function : backend.Quad → backend.Quad → backend.Quad} {operation : ℚ → ℚ → ℚ}
    (lawful : ∀ left right negative other magnitude magnitude',
      backend.datum left = .finite negative magnitude →
      backend.datum right = .finite other magnitude' → 0 < magnitude → 0 < magnitude' →
      QuadRounded (negative ^^ other) (operation magnitude magnitude')
        (backend.datum (function left right))) :
    binary128.IsRounded (.finite (left.msb ^^ right.msb)
        (operation (binary128.value (place left)) (binary128.value (place right))))
      (binary backend left right function) ↔
    ¬NearMiddle (operation (binary128.value (place left)) (binary128.value (place right))) := by
  have isValue {bits : Bits} (finite : IsFiniteNonzero bits) :
      backend.datum (backend.decode bits) = .finite bits.msb (binary128.value (place bits)) := by
    rw [decode_datum laws finite.2.le]
    exact Format.decode_eq_finite_iff.mpr ⟨finite.2, rfl, rfl⟩
  have positive {bits : Bits} (finite : IsFiniteNonzero bits) :
      0 < binary128.value (place bits) := by
    rw [← binary128.value_zero]
    exact binary128.value_strictMono finite.1
  exact isRounded_encode_iff laws (lawful _ _ _ _ _ _ (isValue finite) (isValue finite')
    (positive finite) (positive finite'))

end

/-- Products and quotients are rounded once exactly where the exact result is not near the middle of
two subnormal numbers. -/
theorem products_isRounded_iff {backend : QuadBackend} (laws : backend.Lawful) {left right : Bits}
    (finite : IsFiniteNonzero left) (finite' : IsFiniteNonzero right) :
    (binary128.IsRounded (.finite (left.msb ^^ right.msb)
        (binary128.value (place left) * binary128.value (place right)))
        (hs_f128_mul backend left right) ↔
      ¬NearMiddle (binary128.value (place left) * binary128.value (place right))) ∧
    (binary128.IsRounded (.finite (left.msb ^^ right.msb)
        (binary128.value (place left) / binary128.value (place right)))
        (hs_f128_div backend left right) ↔
      ¬NearMiddle (binary128.value (place left) / binary128.value (place right))) := by
  rw [hs_f128_mul_eq finite finite', hs_f128_div_eq finite finite']
  exact ⟨binary_isRounded_iff finite finite' laws laws.mul,
    binary_isRounded_iff finite finite' laws laws.div⟩

def one128 : Bits := 0x3fff#128 <<< 112

theorem products_isRounded_one :
    binary128.IsRounded (.finite (one128.msb ^^ one128.msb)
        (binary128.value (place one128) * binary128.value (place one128)))
      (hs_f128_mul rationalBackend one128 one128) := by
  have finite : IsFiniteNonzero one128 := by unfold IsFiniteNonzero; decide
  have one : binary128.value (place one128) = 1 := by
    rw [@value_pattern one128 16382 (2 ^ 112) (.inr le_rfl) (by decide) (by decide), Nat.cast_pow,
      Nat.cast_ofNat, ← zpow_natCast, ← zpow_add₀ two_ne_zero]
    exact zpow_zero 2
  have notClose : ¬NearMiddle (binary128.value (place one128) * binary128.value (place one128)) := by
    intro close
    have small := close.bounds.2
    have power : (2 : ℚ) ^ (-16382 : ℤ) ≤ 1 := zpow_le_one_of_nonpos₀ one_le_two (by decide)
    rw [one, one_mul] at small
    linarith
  exact (products_isRounded_iff rationalBackend_lawful finite finite).1.mpr notClose

/-- The factors of a product that lies above the middle of an even subnormal number and the next
one, and the dividend and the divisor of a quotient below the middle of an odd one and the next. -/
def lowFactor : Bits := 0x1fff0000000000000000000000000001#128

def highFactor : Bits := 0x20000000000000000000000000000004#128

def dividend : Bits := 0x00018000000000000000000000000001#128

def divisor : Bits := 0x406f0000000000000000000000000001#128

theorem nearMiddle_product :
    NearMiddle (binary128.value (place lowFactor) * binary128.value (place highFactor)) := by
  have low := @value_pattern lowFactor 8190 (2 ^ 112 + 1) (.inr (by decide)) (by decide) (by decide)
  have high := @value_pattern highFactor 8191 (2 ^ 112 + 4) (.inr (by decide)) (by decide)
    (by decide)
  have unit : (0 : ℚ) < 2 ^ (-16607 : ℤ) := zpow_pos two_pos _
  have product : (2 : ℚ) ^ (((8190 : ℕ) : ℤ) - 16494) * 2 ^ (((8191 : ℕ) : ℤ) - 16494) =
      2 ^ (-16607 : ℤ) := (zpow_add₀ two_ne_zero _ _).symm
  have isMiddle : (2 : ℚ) ^ (-16495 : ℤ) = 2 ^ 112 * 2 ^ (-16607 : ℤ) := by
    rw [← zpow_natCast, ← zpow_add₀ two_ne_zero]
    rfl
  have isReach : reach (2 ^ 111 + 2) = 2 ^ 111 * 2 ^ (-16607 : ℤ) := by
    have bits : (2 * (2 ^ 111 + 2) + 1).log2 = 112 := by decide
    rw [reach, bits, ← zpow_natCast, ← zpow_add₀ two_ne_zero]
    rfl
  have value : binary128.value (place lowFactor) * binary128.value (place highFactor) =
      middle (2 ^ 111 + 2) + 4 * 2 ^ (-16607 : ℤ) := by
    rw [low, high, mul_mul_mul_comm, product, middle, isMiddle]
    generalize (2 : ℚ) ^ (-16607 : ℤ) = step
    push_cast
    ring
  refine ⟨2 ^ 111 + 2, by decide, .inr ⟨?_, by decide⟩, .inl ?_⟩
  · rw [value]
    linarith
  · rw [value, add_sub_cancel_left, isReach, abs_of_pos (by positivity)]
    exact mul_lt_mul_of_pos_right (by norm_num) unit

theorem nearMiddle_quotient :
    NearMiddle (binary128.value (place dividend) / binary128.value (place divisor)) := by
  have above := @value_pattern dividend 0 (2 ^ 112 + 2 ^ 111 + 1) (.inl rfl) (by decide) (by decide)
  have under := @value_pattern divisor 16494 (2 ^ 112 + 1) (.inr (by decide)) (by decide) (by decide)
  have unit : (0 : ℚ) < 2 ^ (-16607 : ℤ) := zpow_pos two_pos _
  have lowest : (2 : ℚ) ^ (((0 : ℕ) : ℤ) - 16494) = 2 ^ 113 * 2 ^ (-16607 : ℤ) := by
    rw [← zpow_natCast, ← zpow_add₀ two_ne_zero]
    rfl
  have one : (2 : ℚ) ^ (((16494 : ℕ) : ℤ) - 16494) = 1 := zpow_zero 2
  have isMiddle : (2 : ℚ) ^ (-16495 : ℤ) = 2 ^ 112 * 2 ^ (-16607 : ℤ) := by
    rw [← zpow_natCast, ← zpow_add₀ two_ne_zero]
    rfl
  have isReach : reach 1 = 2 ^ (-16607 : ℤ) := rfl
  have value : binary128.value (place dividend) / binary128.value (place divisor) =
      middle 1 - 2 ^ 112 / (2 ^ 112 + 1) * 2 ^ (-16607 : ℤ) := by
    rw [above, under, lowest, one, mul_one, middle, isMiddle, div_eq_iff (by positivity)]
    generalize (2 : ℚ) ^ (-16607 : ℤ) = step
    push_cast
    ring
  have part : (0 : ℚ) < 2 ^ 112 / (2 ^ 112 + 1) * 2 ^ (-16607 : ℤ) := by positivity
  refine ⟨1, by decide, .inl ⟨?_, by decide⟩, .inl ?_⟩
  · rw [value]
    linarith
  · rw [value, sub_sub_cancel_left, abs_neg, abs_of_pos part, isReach]
    exact mul_lt_of_lt_one_left unit ((div_lt_one (by positivity)).mpr (lt_add_one _))

theorem products_not_isRounded :
    (IsFiniteNonzero lowFactor ∧ IsFiniteNonzero highFactor ∧
      ¬binary128.IsRounded (.finite (lowFactor.msb ^^ highFactor.msb)
        (binary128.value (place lowFactor) * binary128.value (place highFactor)))
        (hs_f128_mul rationalBackend lowFactor highFactor)) ∧
    IsFiniteNonzero dividend ∧ IsFiniteNonzero divisor ∧
      ¬binary128.IsRounded (.finite (dividend.msb ^^ divisor.msb)
        (binary128.value (place dividend) / binary128.value (place divisor)))
        (hs_f128_div rationalBackend dividend divisor) := by
  have first : IsFiniteNonzero lowFactor := by unfold IsFiniteNonzero; decide
  have second : IsFiniteNonzero highFactor := by unfold IsFiniteNonzero; decide
  have third : IsFiniteNonzero dividend := by unfold IsFiniteNonzero; decide
  have fourth : IsFiniteNonzero divisor := by unfold IsFiniteNonzero; decide
  refine ⟨⟨first, second, ?_⟩, third, fourth, ?_⟩
  · rw [hs_f128_mul_eq first second,
      binary_isRounded_iff first second rationalBackend_lawful rationalBackend_lawful.mul, not_not]
    exact nearMiddle_product
  · rw [hs_f128_div_eq third fourth,
      binary_isRounded_iff third fourth rationalBackend_lawful rationalBackend_lawful.div, not_not]
    exact nearMiddle_quotient

end

end HitSimple.Floating

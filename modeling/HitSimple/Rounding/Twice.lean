import HitSimple.Rounding.Binary
import Mathlib.Data.Int.Log
import Mathlib.Data.Nat.Prime.Basic
import Mathlib.Data.Rat.Floor

namespace Rounding

/-- The rungs with so many bits behind the leading one, from a lowest power of two on. -/
def binaryLadder (fraction : ℕ) (lowest : ℤ) (place : ℕ) : ℚ :=
  units fraction place * 2 ^ lowest

section
variable {fraction odd : ℕ} {lowest exponent : ℤ} {value : ℚ}

theorem binaryLadder_strictMono (fraction : ℕ) (lowest : ℤ) :
    StrictMono (binaryLadder fraction lowest) :=
  fun _ _ order => mul_lt_mul_of_pos_right (castUnits_strictMono fraction order) (zpow_pos two_pos _)

theorem binaryLadder_scaled {scale significand : ℕ} (low : scale = 0 ∨ 2 ^ fraction ≤ significand)
    (high : significand ≤ 2 ^ (fraction + 1)) :
    binaryLadder fraction lowest (scale * 2 ^ fraction + significand) =
      significand * 2 ^ (scale + lowest) := by
  rw [binaryLadder, units_scaled low high, Nat.cast_mul, Nat.cast_pow, Nat.cast_ofNat,
    zpow_add₀ two_ne_zero, zpow_natCast, mul_assoc]

/-- Half the distance of the rungs from an odd number times a power of two on. -/
def halfStep (fraction odd : ℕ) (exponent : ℤ) : ℚ :=
  2 ^ (exponent + odd.log2 - fraction - 1)

/-- An odd number times a power of two is a rung, and the neighbours are two half steps away. -/
theorem exists_odd_rung (isOdd : Odd odd) (positive : 0 < fraction)
    (short : odd < 2 ^ (fraction + 1)) (normal : lowest + fraction ≤ exponent + odd.log2) :
    ∃ before, binaryLadder fraction lowest (before + 1) = odd * 2 ^ exponent ∧
      binaryLadder fraction lowest (before + 1 + 1) =
        odd * 2 ^ exponent + 2 * halfStep fraction odd exponent ∧
      (odd ≠ 1 → binaryLadder fraction lowest before =
        odd * 2 ^ exponent - 2 * halfStep fraction odd exponent) ∧
      (Even (before + 1) ↔ odd < 2 ^ fraction) := by
  have nonzero : odd ≠ 0 := isOdd.pos.ne'
  have notEven : ¬Even odd := Nat.not_even_iff_odd.mpr isOdd
  have least := Nat.log2_self_le nonzero
  have most : odd < 2 ^ (odd.log2 + 1) := Nat.lt_log2_self
  have bits : odd.log2 ≤ fraction := Nat.lt_succ_iff.mp ((Nat.log2_lt nonzero).mpr short)
  have half : odd < 2 ^ fraction ↔ odd.log2 < fraction := (Nat.log2_lt nonzero).symm
  obtain ⟨count, isCount⟩ := Nat.exists_eq_add_of_le bits
  obtain ⟨scale, isScale⟩ :=
    Int.eq_ofNat_of_zero_le (show 0 ≤ exponent - count - lowest by omega)
  -- The bits of the odd number, filled up with zeros.
  have filled : (odd : ℚ) * 2 ^ exponent = (odd * 2 ^ count : ℕ) * 2 ^ (scale + lowest) := by
    have split : exponent = count + (scale + lowest) := by omega
    rw [split, zpow_add₀ two_ne_zero, zpow_natCast, Nat.cast_mul, Nat.cast_pow, Nat.cast_ofNat,
      mul_assoc]
  have isStep : 2 * halfStep fraction odd exponent = 2 ^ (scale + lowest) := by
    have split : 1 + (exponent + odd.log2 - fraction - 1) = scale + lowest := by omega
    rw [halfStep, ← zpow_one_add₀ two_ne_zero, split]
  have full : 2 ^ fraction ≤ odd * 2 ^ count := by
    rw [isCount, pow_add]
    exact Nat.mul_le_mul_right _ least
  have tight : odd * 2 ^ count < 2 ^ (fraction + 1) := by
    rw [show fraction + 1 = odd.log2 + 1 + count by omega, pow_add]
    exact Nat.mul_lt_mul_of_pos_right most (Nat.two_pow_pos _)
  have parity : Even (odd * 2 ^ count) ↔ odd < 2 ^ fraction := by
    rw [Nat.even_mul, Nat.even_pow, or_iff_right notEven, and_iff_right even_two, half]
    omega
  have above (notOne : odd ≠ 1) : 2 ^ fraction < odd * 2 ^ count :=
    lt_of_le_of_ne full fun equal =>
      notOne ((isOdd.coprime_two_right.pow_right fraction).eq_one_of_dvd ⟨2 ^ count, equal⟩)
  rw [filled, isStep]
  generalize odd * 2 ^ count = significand at *
  obtain ⟨before, isBefore⟩ := Nat.exists_eq_succ_of_ne_zero
    (show scale * 2 ^ fraction + significand ≠ 0 by
      have := Nat.two_pow_pos fraction
      omega)
  refine ⟨before, ?_, ?_, ?_, ?_⟩
  · rw [← Nat.succ_eq_add_one, ← isBefore, binaryLadder_scaled (.inr full) tight.le]
  · rw [← Nat.succ_eq_add_one before, ← isBefore, Nat.add_assoc,
      binaryLadder_scaled (.inr (by omega)) tight]
    push_cast
    ring
  · intro notOne
    have more := above notOne
    have same : before = scale * 2 ^ fraction + (significand - 1) := by omega
    rw [same, binaryLadder_scaled (.inr (by omega)) (by omega), Nat.cast_sub (by omega)]
    push_cast
    ring
  · rw [← Nat.succ_eq_add_one, ← isBefore, ← parity, Nat.even_add]
    exact iff_true_left ((even_two.pow_of_ne_zero positive.ne').mul_left _)

/-- Which values on one side of a rung are nearest to it. -/
theorem nearest_odd_iff (isOdd : Odd odd) (positive : 0 < fraction)
    (short : odd < 2 ^ (fraction + 1)) (normal : lowest + fraction ≤ exponent + odd.log2)
    (side : value < odd * 2 ^ exponent ∧ odd ≠ 1 ∨ odd * 2 ^ exponent < value) :
    (∃ rung, Nearest (binaryLadder fraction lowest) value rung ∧
        binaryLadder fraction lowest rung = odd * 2 ^ exponent) ↔
      |value - odd * 2 ^ exponent| < halfStep fraction odd exponent ∨
        |value - odd * 2 ^ exponent| = halfStep fraction odd exponent ∧ odd < 2 ^ fraction := by
  obtain ⟨before, isRung, isAfter, isBefore, parity⟩ := exists_odd_rung isOdd positive short normal
  have strict := binaryLadder_strictMono fraction lowest
  have away : 0 < halfStep fraction odd exponent := zpow_pos two_pos _
  have order := strict (Nat.lt_succ_self before)
  have located : (∃ rung, Nearest (binaryLadder fraction lowest) value rung ∧
        binaryLadder fraction lowest rung = odd * 2 ^ exponent) ↔
      Nearest (binaryLadder fraction lowest) value (before + 1) := by
    constructor
    · rintro ⟨rung, near, same⟩
      rwa [← strict.injective (same.trans isRung.symm)]
    · exact fun near => ⟨_, near, isRung⟩
  rw [located, nearest_inner_iff strict, parity, isAfter, isRung]
  rw [Nat.succ_eq_add_one, isRung] at order
  generalize (odd : ℚ) * 2 ^ exponent = middle at *
  rcases side with ⟨less, notOne⟩ | more
  · rw [isBefore notOne, abs_of_neg (sub_neg.mpr less)]
    constructor
    · rintro ⟨⟨least, onTie⟩, -⟩
      rcases least.lt_or_eq with inner | tie
      · exact .inl (by linarith)
      · exact .inr ⟨by linarith, onTie tie.symm⟩
    · rintro (inner | ⟨tie, even⟩)
      · exact ⟨⟨by linarith, fun equal => by linarith⟩, by linarith, fun equal => by linarith⟩
      · exact ⟨⟨by linarith, fun _ => even⟩, by linarith, fun equal => by linarith⟩
  · rw [abs_of_pos (sub_pos.mpr more)]
    constructor
    · rintro ⟨-, most, onTie⟩
      rcases most.lt_or_eq with inner | tie
      · exact .inl (by linarith)
      · exact .inr ⟨by linarith, onTie tie⟩
    · rintro (inner | ⟨tie, even⟩)
      · exact ⟨⟨by linarith, fun equal => by linarith⟩, by linarith, fun equal => by linarith⟩
      · exact ⟨⟨by linarith, fun equal => by linarith⟩, by linarith, fun _ => even⟩

end

namespace Format

/-- The middle of a rung and the next one. -/
def middle (format : Format) (below : ℕ) : ℚ :=
  (format.value below + format.value (below + 1)) / 2

/-- The value is so close to the middle of two rungs of the narrow format, on the side of the odd
one, that the wide format has no rung between them. -/
def NearMiddle (wide narrow : Format) (value : ℚ) : Prop :=
  ∃ below < narrow.infinity,
    (value < narrow.middle below ∧ Odd below ∨ narrow.middle below < value ∧ Even below) ∧
      |value - narrow.middle below| ≤ 2 ^ (Int.log 2 (narrow.middle below) - wide.fraction - 1)

/-- A format whose normal numbers have all numbers and middles of a narrow one. -/
structure Wider (wide narrow : Format) : Prop where
  fraction : narrow.fraction + 2 ≤ wide.fraction
  lowest : wide.lowest + wide.fraction + 1 ≤ narrow.lowest
  exponent : narrow.exponent < wide.exponent

end Format

section
variable {wide narrow : Format} {value : ℚ} {below rung place : ℕ}

/-- A middle is an odd number times a power of two. -/
theorem exists_odd_middle (wider : wide.Wider narrow) (below : ℕ) : ∃ (odd : ℕ) (exponent : ℤ), Odd odd ∧
    odd < 2 ^ wide.fraction ∧ wide.lowest + wide.fraction ≤ exponent + odd.log2 ∧
      narrow.middle below = odd * 2 ^ exponent ∧ (odd = 1 → below = 0) := by
  obtain ⟨scale, significand, rfl, high, low⟩ := exists_scaled narrow.fraction below
  refine ⟨2 * significand + 1, scale + narrow.lowest - 1, odd_two_mul_add_one _, ?_, ?_, ?_, ?_⟩
  · have more : 2 ^ (narrow.fraction + 2) ≤ 2 ^ wide.fraction :=
      Nat.pow_le_pow_right (by decide) wider.fraction
    rw [pow_succ] at more
    omega
  · have := wider.lowest
    omega
  · have lower := @binaryLadder_scaled _ narrow.lowest _ _ low high.le
    have upper := @binaryLadder_scaled _ narrow.lowest _ _ (low.imp_right Nat.le_succ_of_le) high
    have unit : (2 : ℚ) ^ (scale + narrow.lowest - 1) * 2 = 2 ^ (scale + narrow.lowest) := by
      rw [← zpow_add_one₀ two_ne_zero, sub_add_cancel]
    change (binaryLadder _ _ _ + binaryLadder _ _ _) / 2 = _
    rw [Nat.add_assoc, lower, upper, ← unit]
    push_cast
    ring
  · intro one
    have positive := Nat.two_pow_pos narrow.fraction
    obtain rfl : significand = 0 := by omega
    obtain rfl : scale = 0 := by omega
    rw [Nat.zero_mul]

theorem log_odd {odd : ℕ} {exponent : ℤ} (positive : 0 < odd) :
    Int.log 2 ((odd : ℚ) * 2 ^ exponent) = exponent + odd.log2 := by
  have cast : (0 : ℚ) < odd := Nat.cast_pos.mpr positive
  have power : (0 : ℚ) < 2 ^ exponent := zpow_pos two_pos _
  have least : (2 : ℚ) ^ (odd.log2 : ℤ) ≤ odd := by
    rw [zpow_natCast]
    exact_mod_cast Nat.log2_self_le positive.ne'
  have most : (odd : ℚ) < 2 ^ (odd.log2 + 1 : ℤ) := by
    have more : (odd : ℚ) < 2 ^ (odd.log2 + 1) := by exact_mod_cast Nat.lt_log2_self
    exact_mod_cast more
  have nonzero := mul_pos cast power
  apply le_antisymm
  · rw [← Int.lt_add_one_iff, ← Int.lt_zpow_iff_log_lt one_lt_two nonzero, add_assoc,
      Nat.cast_ofNat, zpow_add₀ two_ne_zero, mul_comm (2 ^ exponent)]
    exact mul_lt_mul_of_pos_right most power
  · rw [← Int.zpow_le_iff_le_log one_lt_two nonzero, Nat.cast_ofNat, zpow_add₀ two_ne_zero,
      mul_comm (2 ^ exponent)]
    exact mul_le_mul_of_nonneg_right least power.le

/-- What the condition means: the first of two roundings misleads the second one. -/
theorem nearMiddle_iff (wider : wide.Wider narrow) :
    wide.NearMiddle narrow value ↔ ∃ rung, Nearest wide.value value rung ∧
      ∃ below < narrow.infinity, MisledAt narrow.value value (wide.value rung) below := by
  have step (below : ℕ)
      (side : value < narrow.middle below ∧ Odd below ∨ narrow.middle below < value ∧ Even below) :
      |value - narrow.middle below| ≤ 2 ^ (Int.log 2 (narrow.middle below) - wide.fraction - 1) ↔
        ∃ rung, Nearest wide.value value rung ∧ wide.value rung = narrow.middle below := by
    obtain ⟨odd, exponent, isOdd, short, normal, isMiddle, first⟩ := exists_odd_middle wider below
    have short' : odd < 2 ^ (wide.fraction + 1) :=
      short.trans (Nat.pow_lt_pow_right (by decide) (Nat.lt_succ_self _))
    have side' : value < odd * 2 ^ exponent ∧ odd ≠ 1 ∨ odd * 2 ^ exponent < value := by
      rw [← isMiddle]
      refine side.imp (And.imp_right fun odd' one => ?_) And.left
      rw [first one] at odd'
      exact absurd odd' (by decide)
    have near := nearest_odd_iff isOdd wide.fraction_pos short' normal side'
    rw [and_iff_left short, ← le_iff_lt_or_eq, ← isMiddle] at near
    rw [isMiddle, log_odd isOdd.pos, ← isMiddle]
    exact near.symm
  have middles (between : ℚ) (below : ℕ) :
      2 * between = narrow.value below + narrow.value (below + 1) ↔
        between = narrow.middle below := by
    rw [Format.middle, eq_div_iff two_ne_zero, mul_comm]
  constructor
  · rintro ⟨below, inside, side, close⟩
    obtain ⟨rung, near, isMiddle⟩ := (step below side).mp close
    refine ⟨rung, near, below, inside, (middles _ _).mpr isMiddle, ?_⟩
    rwa [isMiddle, Nat.not_even_iff_odd]
  · rintro ⟨rung, near, below, inside, misled⟩
    have isMiddle := (middles _ _).mp misled.isMiddle
    have side := misled.side
    rw [isMiddle, Nat.not_even_iff_odd] at side
    exact ⟨below, inside, side, (step below side).mpr ⟨rung, near, isMiddle⟩⟩

theorem Format.Wider.refines (wider : wide.Wider narrow) (limit : ℕ) :
    Refines wide.value narrow.value limit := by
  have more := wider.fraction
  have lower := wider.lowest
  obtain ⟨drop, isDrop⟩ :=
    Int.eq_ofNat_of_zero_le (show 0 ≤ narrow.lowest - wide.lowest - 1 by omega)
  have scaled (place : ℕ) :
      narrow.value place = units narrow.fraction place * 2 ^ (drop + 1) * 2 ^ wide.lowest := by
    have split : narrow.lowest = (drop + 1 : ℕ) + wide.lowest := by omega
    rw [Format.value, split, zpow_add₀ two_ne_zero, zpow_natCast, mul_assoc]
  have refines := @units_refines ℚ _ wide.fraction narrow.fraction drop (by omega) limit
  constructor
  · intro place inside
    obtain ⟨other, same⟩ := refines.rung place inside
    exact ⟨other, by rw [scaled, ← same]; rfl⟩
  · intro place inside
    obtain ⟨other, same⟩ := refines.middle place inside
    exact ⟨other, by rw [scaled, scaled, ← add_mul, ← same, mul_assoc]; rfl⟩

theorem Format.Wider.infinity_lt (wider : wide.Wider narrow) :
    narrow.value narrow.infinity < wide.value wide.infinity := by
  rw [Format.value_infinity, Format.value_infinity]
  apply zpow_lt_zpow_right₀ one_lt_two
  apply pow_lt_pow_right₀ one_lt_two
  have more := wider.exponent
  have positive := narrow.exponent_pos
  omega

/-- From the first value without a number of its own on, the wide format rounds to such values. -/
theorem Format.Wider.rung_ge (wider : wide.Wider narrow) (near : Nearest wide.value value rung)
    (large : narrow.value narrow.infinity ≤ value) :
    narrow.value narrow.infinity ≤ wide.value rung := by
  obtain ⟨other, same⟩ := (wider.refines narrow.infinity).rung narrow.infinity le_rfl
  rw [← same] at large ⊢
  exact wide.value_strictMono.monotone (near.rung_le wide.value_strictMono large)

theorem Format.Wider.not_nearMiddle (wider : wide.Wider narrow)
    (large : narrow.value narrow.infinity ≤ value) : ¬wide.NearMiddle narrow value := by
  rw [nearMiddle_iff wider]
  rintro ⟨rung, near, below, inside, misled⟩
  have isMiddle := misled.isMiddle
  have least := wider.rung_ge near large
  have next : narrow.value (below + 1) ≤ narrow.value narrow.infinity :=
    narrow.value_strictMono.monotone inside
  have step : narrow.value below < narrow.value (below + 1) :=
    narrow.value_strictMono (Nat.lt_succ_self below)
  linarith

/-- Rounding to a wide format and then to a narrow one is rounding once, but near the middles of the
narrow format. -/
theorem Format.Wider.isRounded_iff (wider : wide.Wider narrow) {width width' : ℕ}
    {wideBits : BitVec width} {bits : BitVec width'} {negative : Bool}
    (first : wide.IsRounded (.finite negative value) wideBits)
    (second : narrow.IsRounded (wide.decode wideBits) bits) :
    narrow.IsRounded (.finite negative value) bits ↔ ¬wide.NearMiddle narrow value := by
  obtain ⟨sign, rung, near, same⟩ := first
  have ofFinite (finite : rung < wide.infinity) :
      bits.msb = negative ∧ narrow.Rounds (wide.value rung) (place bits) := by
    have isPlace : place wideBits = rung := same.trans (Nat.min_eq_left finite.le)
    rwa [Format.decode_eq_finite_iff.mpr ⟨isPlace ▸ finite, sign, rfl⟩, isPlace] at second
  rcases le_total value (narrow.value narrow.infinity) with low | high
  · have most := near.le_limit wide.value_strictMono (wider.refines narrow.infinity) low
    have finite : rung < wide.infinity :=
      wide.value_strictMono.lt_iff_lt.mp (most.trans_lt wider.infinity_lt)
    obtain ⟨sign', nearest, near', same'⟩ := ofFinite finite
    have once : narrow.Rounds value (place bits) ↔ ¬wide.NearMiddle narrow value := by
      rw [same', nearMiddle_iff wider]
      refine (Nearest.capped_iff near near' wide.value_strictMono narrow.value_strictMono
        (wider.refines narrow.infinity) low narrow.infinity).trans (not_congr ?_)
      constructor
      · exact fun misled => ⟨rung, near, misled⟩
      · rintro ⟨other, near'', misled⟩
        rwa [near''.unique near wide.value_strictMono] at misled
    exact (and_iff_right sign').trans once
  · have infinite : bits.msb = negative ∧ place bits = narrow.infinity := by
      rcases Nat.lt_or_ge rung wide.infinity with finite | large
      · obtain ⟨sign', rounds⟩ := ofFinite finite
        exact ⟨sign', rounds.unique (Format.rounds_infinity (wider.rung_ge near high))⟩
      · have isPlace : place wideBits = wide.infinity := same.trans (Nat.min_eq_right large)
        rw [Format.decode_eq_infinite_iff.mpr ⟨isPlace, sign⟩] at second
        exact (Format.decode_eq_infinite_iff.mp second).symm
    refine iff_of_true ⟨infinite.1, ?_⟩ (wider.not_nearMiddle high)
    rw [infinite.2]
    exact Format.rounds_infinity high

end

end Rounding

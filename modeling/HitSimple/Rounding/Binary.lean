import HitSimple.Rounding.Ladder
import Mathlib.Algebra.Order.Field.Power
import Mathlib.Data.Nat.Cast.Order.Field
import Mathlib.Data.Rat.Cast.Order
import Mathlib.Order.Interval.Set.Basic
import Mathlib.Tactic.FieldSimp
import Mathlib.Tactic.NormNum
import Mathlib.Tactic.Positivity

namespace Rounding

/-- The quotient, rounded to the nearest natural number, on a tie to the even one. -/
def halfEven (numerator denominator : ℕ) : ℕ :=
  if denominator < 2 * (numerator % denominator) ∨
      2 * (numerator % denominator) = denominator ∧ numerator / denominator % 2 = 1 then
    numerator / denominator + 1
  else numerator / denominator

/-- The rungs of the binary numbers with so many bits behind the leading one, in units of the lowest
rung: the places `0`, `1`, .. below two powers are the numbers themselves, and the distance of the
rungs doubles at each power of two from there on. -/
def units (fraction place : ℕ) : ℕ :=
  if place / 2 ^ fraction = 0 then place
  else (2 ^ fraction + place % 2 ^ fraction) * 2 ^ (place / 2 ^ fraction - 1)

section
variable {fraction scale significand place : ℕ}

theorem units_scaled (low : scale = 0 ∨ 2 ^ fraction ≤ significand)
    (high : significand ≤ 2 ^ (fraction + 1)) :
    units fraction (scale * 2 ^ fraction + significand) = significand * 2 ^ scale := by
  have positive : 0 < 2 ^ fraction := Nat.two_pow_pos fraction
  have double : 2 ^ (fraction + 1) = 2 ^ fraction + 2 ^ fraction := by rw [pow_succ]; ring
  rw [double] at high
  unfold units
  rcases Nat.lt_or_ge significand (2 ^ fraction) with small | large
  · obtain rfl : scale = 0 := by omega
    rw [Nat.zero_mul, Nat.zero_add, Nat.div_eq_of_lt small, if_pos rfl, pow_zero, Nat.mul_one]
  rcases high.lt_or_eq with less | rfl
  · have split : scale * 2 ^ fraction + significand =
        (scale + 1) * 2 ^ fraction + (significand - 2 ^ fraction) := by
      rw [Nat.add_mul, Nat.one_mul]
      omega
    have rest : significand - 2 ^ fraction < 2 ^ fraction := by omega
    rw [split, Nat.add_comm, Nat.add_mul_div_right _ _ positive, Nat.div_eq_of_lt rest,
      Nat.add_mul_mod_self_right, Nat.mod_eq_of_lt rest, if_neg (by omega)]
    congr 2 <;> omega
  · have split : scale * 2 ^ fraction + (2 ^ fraction + 2 ^ fraction) =
        (scale + 2) * 2 ^ fraction := by ring
    rw [split, Nat.mul_div_cancel _ positive, Nat.mul_mod_left, if_neg (by omega), Nat.add_zero,
      show scale + 2 - 1 = scale + 1 by omega, pow_succ]
    ring

/-- Every place lies in one stretch of even distances. -/
theorem exists_scaled (fraction place : ℕ) : ∃ scale significand,
    place = scale * 2 ^ fraction + significand ∧ significand < 2 ^ (fraction + 1) ∧
      (scale = 0 ∨ 2 ^ fraction ≤ significand) := by
  have split := Nat.div_add_mod place (2 ^ fraction)
  have rest := Nat.mod_lt place (Nat.two_pow_pos fraction)
  have double : 2 ^ (fraction + 1) = 2 ^ fraction + 2 ^ fraction := by rw [pow_succ]; ring
  rw [Nat.mul_comm] at split
  cases exponent : place / 2 ^ fraction with
  | zero =>
      rw [exponent] at split
      exact ⟨0, place, by omega, by omega, .inl rfl⟩
  | succ scale =>
      rw [exponent, Nat.add_mul, Nat.one_mul] at split
      exact ⟨scale, 2 ^ fraction + place % 2 ^ fraction, by omega, by omega, .inr (by omega)⟩

theorem units_strictMono (fraction : ℕ) : StrictMono (units fraction) := by
  apply strictMono_nat_of_lt_succ
  intro place
  obtain ⟨scale, significand, rfl, high, low⟩ := exists_scaled fraction place
  rw [Nat.add_assoc, units_scaled low high.le, units_scaled (low.imp_right Nat.le_succ_of_le) high]
  exact Nat.mul_lt_mul_of_pos_right (Nat.lt_succ_self _) (Nat.two_pow_pos _)

/-- Each number with few enough bits is a rung, also times a power of two. -/
theorem exists_units (fraction scale significand : ℕ) (short : significand ≤ 2 ^ (fraction + 1)) :
    ∃ place, units fraction place = significand * 2 ^ scale := by
  induction scale generalizing significand with
  | zero => exact ⟨_, units_scaled (show 0 = 0 ∨ _ from .inl rfl) short⟩
  | succ scale ih =>
      rcases Nat.lt_or_ge significand (2 ^ fraction) with small | large
      · obtain ⟨place, same⟩ := ih (2 * significand) (by rw [pow_succ]; omega)
        exact ⟨place, by rw [same, pow_succ]; ring⟩
      · exact ⟨_, units_scaled (.inr large) short⟩

end

section
variable {K : Type*} [Field K] [LinearOrder K] [IsStrictOrderedRing K]
variable {fraction scale significand : ℕ} {value : K}

theorem castUnits_strictMono (fraction : ℕ) :
    StrictMono fun place => (units fraction place : K) :=
  fun _ _ order => Nat.cast_lt.mpr (units_strictMono fraction order)

theorem nearest_halfEven {numerator denominator : ℕ} (positive : 0 < denominator) :
    Nearest (fun place => (place : K)) (numerator / denominator) (halfEven numerator denominator) := by
  have positive' : (0 : K) < denominator := Nat.cast_pos.mpr positive
  have split := Nat.div_add_mod numerator denominator
  have rest := Nat.mod_lt numerator positive
  -- The value by the whole and the remainder of the division.
  have middle (whole : ℕ) : (2 * (numerator / denominator : K) ≤ whole + (whole + 1) ↔
      2 * numerator ≤ (2 * whole + 1) * denominator) ∧
      ((whole : K) + (whole + 1) ≤ 2 * (numerator / denominator : K) ↔
      (2 * whole + 1) * denominator ≤ 2 * numerator) := by
    have same : (whole : K) + (whole + 1) = ((2 * whole + 1) * denominator : ℕ) / denominator := by
      push_cast
      field_simp
      ring
    rw [same, ← mul_div_assoc, div_le_div_iff_of_pos_right positive',
      div_le_div_iff_of_pos_right positive']
    norm_cast
  have equal (whole : ℕ) : 2 * (numerator / denominator : K) = whole + (whole + 1) ↔
      2 * numerator = (2 * whole + 1) * denominator := by
    rw [le_antisymm_iff, (middle whole).1, (middle whole).2, ← le_antisymm_iff]
  have whole : (2 * (numerator / denominator) + 1) * denominator =
      2 * (denominator * (numerator / denominator)) + denominator := by ring
  have previous (before : ℕ) (next : before + 1 = numerator / denominator) :
      (2 * before + 1) * denominator + denominator =
        2 * (denominator * (numerator / denominator)) := by
    rw [← next]
    ring
  have following : (2 * (numerator / denominator + 1) + 1) * denominator =
      2 * (denominator * (numerator / denominator)) + 3 * denominator := by ring
  have even (number : ℕ) : Even number ↔ number % 2 = 0 := Nat.even_iff
  unfold halfEven
  split
  · rename_i up
    refine nearest_of_middles Nat.strictMono_cast ?_ ?_ ?_
    · intro before next
      obtain rfl : before = numerator / denominator := by omega
      rw [Nat.cast_add_one, (middle _).2, equal, even]
      omega
    · rw [Nat.cast_add_one (numerator / denominator + 1), (middle _).1]
      omega
    · rw [Nat.cast_add_one (numerator / denominator + 1), equal]
      omega
  · rename_i down
    refine nearest_of_middles Nat.strictMono_cast ?_ ?_ ?_
    · intro before next
      have lower := previous before next
      rw [← next, Nat.cast_add_one, (middle _).2, equal, even]
      omega
    · rw [Nat.cast_add_one, (middle _).1]
      omega
    · rw [Nat.cast_add_one, equal, even]
      omega

theorem halfEven_le {numerator denominator most : ℕ} (positive : 0 < denominator)
    (bound : numerator ≤ most * denominator) : halfEven numerator denominator ≤ most := by
  apply (nearest_halfEven (K := ℚ) positive).le_rung Nat.strictMono_cast
  rw [div_le_iff₀ (Nat.cast_pos.mpr positive)]
  exact_mod_cast bound

theorem le_halfEven {numerator denominator least : ℕ} (positive : 0 < denominator)
    (bound : least * denominator ≤ numerator) : least ≤ halfEven numerator denominator := by
  apply (nearest_halfEven (K := ℚ) positive).rung_le Nat.strictMono_cast
  rw [le_div_iff₀ (Nat.cast_pos.mpr positive)]
  exact_mod_cast bound

/-- Rounding within a stretch of even distances is rounding to a multiple of the distance. -/
theorem nearest_units_of_scaled (positive : 0 < fraction)
    (low : scale = 0 ∨ 2 ^ fraction * 2 ^ scale ≤ value)
    (high : value ≤ 2 ^ (fraction + 1) * 2 ^ scale)
    (nearest : Nearest (fun place => (place : K)) (value / 2 ^ scale) significand) :
    Nearest (fun place => (units fraction place : K)) value
      (scale * 2 ^ fraction + significand) := by
  have power : (0 : K) < 2 ^ scale := by positivity
  let spaced (place : ℕ) : K := place * 2 ^ scale
  have strict : StrictMono spaced := fun _ _ order =>
    mul_lt_mul_of_pos_right (Nat.cast_lt.mpr order) power
  have spacedNearest : Nearest spaced value significand := by
    rw [← div_mul_cancel₀ value power.ne']
    exact (nearest_mul_iff power).mpr nearest
  have most : significand ≤ 2 ^ (fraction + 1) :=
    spacedNearest.le_rung strict (by simpa [spaced] using high)
  have least : scale = 0 ∨ 2 ^ fraction ≤ significand :=
    low.imp_right fun low => spacedNearest.rung_le strict (by simpa [spaced] using low)
  have evenPower : Even (scale * 2 ^ fraction) :=
    ((Nat.even_pow' positive.ne').mpr even_two).mul_left scale
  have even : Even (scale * 2 ^ fraction + significand) ↔ Even significand := by
    rw [Nat.even_add]
    tauto
  have strictUnits : StrictMono fun place => (units fraction place : K) :=
    castUnits_strictMono fraction
  have rung {whole : ℕ} (bottom : scale = 0 ∨ 2 ^ fraction ≤ whole)
      (top : whole ≤ 2 ^ (fraction + 1)) :
      (units fraction (scale * 2 ^ fraction + whole) : K) = spaced whole := by
    rw [units_scaled bottom top]
    push_cast
    rfl
  refine nearest_of_middles strictUnits ?_ ?_ ?_
  · intro before next
    rw [rung least most, even]
    by_cases first : ∃ whole, whole + 1 = significand ∧ (scale = 0 ∨ 2 ^ fraction ≤ whole)
    · obtain ⟨whole, rfl, bottom⟩ := first
      obtain rfl : before = scale * 2 ^ fraction + whole := by omega
      rw [rung bottom (by omega)]
      exact ⟨spacedNearest.below strict, spacedNearest.even_of_below strict⟩
    · -- The rung is the first of its stretch, and the value is not below it.
      have bottom : spaced significand ≤ value := by
        rcases low with rfl | low
        · exact absurd ⟨before, by omega, .inl rfl⟩ first
        · have lower := least.resolve_left fun zero => first ⟨significand - 1, by
            subst zero
            omega, .inl zero⟩
          have start : significand = 2 ^ fraction := by
            by_contra other
            exact first ⟨significand - 1, by omega, .inr (by omega)⟩
          rw [start]
          simpa [spaced] using low
      have order : (units fraction before : K) < spaced significand := by
        rw [← rung least most]
        exact strictUnits (by omega)
      exact ⟨by linarith, fun equal => by linarith⟩
  · rw [rung least most]
    rcases most.lt_or_eq with less | last
    · rw [Nat.add_assoc, rung (least.imp_right Nat.le_succ_of_le) less]
      exact spacedNearest.above strict
    · have top : value ≤ spaced significand := by
        rw [last]
        simpa [spaced] using high
      have order : spaced significand <
          (units fraction (scale * 2 ^ fraction + significand + 1) : K) := by
        rw [← rung least most]
        exact strictUnits (by omega)
      linarith
  · rw [rung least most, even]
    rcases most.lt_or_eq with less | last
    · rw [Nat.add_assoc, rung (least.imp_right Nat.le_succ_of_le) less]
      exact spacedNearest.even_of_above strict
    · intro _
      rw [last]
      exact (Nat.even_pow' (by omega)).mpr even_two

/-- The nearest rung to a quotient. -/
def roundPlace (fraction numerator denominator : ℕ) : ℕ :=
  let scale := (numerator / denominator).log2 - fraction
  scale * 2 ^ fraction + halfEven numerator (denominator * 2 ^ scale)

theorem nearest_roundPlace {numerator denominator : ℕ} (positive : 0 < fraction)
    (positive' : 0 < denominator) :
    Nearest (fun place => (units fraction place : K)) (numerator / denominator)
      (roundPlace fraction numerator denominator) := by
  have cast : (0 : K) < denominator := Nat.cast_pos.mpr positive'
  have most (count : ℕ) (less : numerator / denominator < 2 ^ count) :
      (numerator / denominator : K) ≤ 2 ^ count := by
    rw [div_le_iff₀ cast]
    rw [Nat.div_lt_iff_lt_mul positive'] at less
    exact_mod_cast less.le
  unfold roundPlace
  dsimp only
  generalize scaled : (numerator / denominator).log2 - fraction = scale
  have bound : numerator / denominator < 2 ^ (fraction + 1 + scale) := by
    calc
      numerator / denominator < 2 ^ ((numerator / denominator).log2 + 1) := Nat.lt_log2_self
      _ ≤ 2 ^ (fraction + 1 + scale) := Nat.pow_le_pow_right (by decide) (by omega)
  refine nearest_units_of_scaled positive ?_ ?_ ?_
  · rcases Nat.eq_zero_or_pos scale with zero | some'
    · exact .inl zero
    · right
      have nonzero : numerator / denominator ≠ 0 := by
        intro zero
        rw [zero, Nat.log2_zero] at scaled
        omega
      have least := Nat.log2_self_le nonzero
      rw [show (numerator / denominator).log2 = fraction + scale by omega,
        Nat.le_div_iff_mul_le positive'] at least
      rw [← pow_add, le_div_iff₀ cast]
      exact_mod_cast least
  · rw [← pow_add]
    exact most _ bound
  · have same : (numerator / denominator / 2 ^ scale : K) =
        numerator / (denominator * 2 ^ scale : ℕ) := by
      push_cast
      rw [div_div]
    rw [same]
    exact nearest_halfEven (Nat.mul_pos positive' (Nat.two_pow_pos _))

omit [LinearOrder K] [IsStrictOrderedRing K] in
/-- A ladder of more bits and a lower lowest rung has the rungs and the middles of another one. -/
theorem units_refines {narrow drop : ℕ} (wider : narrow + 1 ≤ fraction) (limit : ℕ) :
    Refines (fun place => (units fraction place : K))
      (fun place => (units narrow place : K) * 2 ^ (drop + 1)) limit where
  rung place _ := by
    obtain ⟨scale, significand, rfl, high, low⟩ := exists_scaled narrow place
    have short : significand ≤ 2 ^ (fraction + 1) :=
      high.le.trans (Nat.pow_le_pow_right (by decide) (by omega))
    obtain ⟨other, same⟩ := exists_units fraction (scale + (drop + 1)) significand short
    refine ⟨other, ?_⟩
    rw [same, units_scaled low high.le, pow_add]
    push_cast
    ring
  middle place _ := by
    obtain ⟨scale, significand, rfl, high, low⟩ := exists_scaled narrow place
    have short : 2 * significand + 1 ≤ 2 ^ (fraction + 1) := by
      have more : 2 ^ (narrow + 2) ≤ 2 ^ (fraction + 1) :=
        Nat.pow_le_pow_right (by decide) (by omega)
      have double : 2 ^ (narrow + 2) = 2 ^ (narrow + 1) * 2 := pow_succ 2 (narrow + 1)
      omega
    obtain ⟨other, same⟩ := exists_units fraction (scale + drop) (2 * significand + 1) short
    refine ⟨other, ?_⟩
    rw [same, Nat.add_assoc, units_scaled low high.le,
      units_scaled (low.imp_right Nat.le_succ_of_le) high, pow_add, pow_succ]
    push_cast
    ring

end

/-- A binary format: the bits of the fraction and of the exponent. -/
structure Format where
  fraction : ℕ
  exponent : ℕ
  fraction_pos : 0 < fraction
  exponent_pos : 0 < exponent

namespace Format
variable (format : Format)

/-- The exponent of the lowest rung above zero. -/
def lowest : ℤ :=
  2 - 2 ^ (format.exponent - 1) - format.fraction

def value (place : ℕ) : ℚ :=
  units format.fraction place * 2 ^ format.lowest

/-- The place that stands for infinity: all bits of the exponent, and none of the fraction. -/
def infinity : ℕ :=
  (2 ^ format.exponent - 1) * 2 ^ format.fraction

/-- What a value that is not negative is rounded to: the nearest rung, on a tie the even one, and
infinity from the first rung on that has no place of its own. -/
def Rounds (value : ℚ) (place : ℕ) : Prop :=
  ∃ nearest, Nearest format.value value nearest ∧ place = min nearest format.infinity

end Format

/-- What a bit pattern stands for: a magnitude with a sign, also for zero, or none. -/
inductive Datum where
  | nan (negative : Bool)
  | infinite (negative : Bool)
  | finite (negative : Bool) (magnitude : ℚ)
  deriving DecidableEq

def Datum.negative : Datum → Bool
  | .nan negative | .infinite negative | .finite negative _ => negative

section
variable {width : ℕ}

/-- The pattern without its sign. -/
def place (bits : BitVec width) : ℕ :=
  bits.toNat % 2 ^ (width - 1)

namespace Format
variable (format : Format)

def decode (bits : BitVec width) : Datum :=
  if format.infinity < place bits then .nan bits.msb
  else if place bits = format.infinity then .infinite bits.msb
  else .finite bits.msb (format.value (place bits))

/-- The pattern is that of the datum, rounded once. -/
def IsRounded (datum : Datum) (bits : BitVec width) : Prop :=
  match datum with
  | .nan negative => format.decode bits = .nan negative
  | .infinite negative => format.decode bits = .infinite negative
  | .finite negative magnitude => bits.msb = negative ∧ format.Rounds magnitude (place bits)

end Format
end

section
variable {format : Format} {value other : ℚ} {width rung nearest : ℕ} {bits : BitVec width}

theorem Format.unit_pos (format : Format) : (0 : ℚ) < 2 ^ format.lowest := by
  positivity

theorem Format.value_strictMono (format : Format) : StrictMono format.value :=
  fun _ _ order => mul_lt_mul_of_pos_right (castUnits_strictMono _ order) format.unit_pos

@[simp] theorem Format.value_zero (format : Format) : format.value 0 = 0 := by
  rw [value, show units format.fraction 0 = 0 from if_pos (Nat.zero_div _)]
  simp

/-- The value of a pattern with an exponent of zero. -/
theorem Format.value_subnormal (format : Format) {fraction : ℕ}
    (short : fraction ≤ 2 ^ format.fraction) :
    format.value fraction = fraction * 2 ^ format.lowest := by
  have low := units_scaled (show 0 = 0 ∨ _ from .inl rfl)
    (short.trans (Nat.pow_le_pow_right (by decide) (Nat.le_succ _)))
  rw [Nat.zero_mul, Nat.zero_add, pow_zero, Nat.mul_one] at low
  rw [value, low]

/-- The value of a pattern with an exponent above zero. -/
theorem Format.value_normal (format : Format) {exponent fraction : ℕ} (normal : 0 < exponent)
    (short : fraction < 2 ^ format.fraction) :
    format.value (exponent * 2 ^ format.fraction + fraction) =
      (2 ^ format.fraction + fraction) * 2 ^ (exponent - 1) * 2 ^ format.lowest := by
  obtain ⟨scale, rfl⟩ := Nat.exists_eq_succ_of_ne_zero normal.ne'
  have split : (scale + 1) * 2 ^ format.fraction + fraction =
      scale * 2 ^ format.fraction + (2 ^ format.fraction + fraction) := by ring
  have high : 2 ^ format.fraction + fraction ≤ 2 ^ (format.fraction + 1) := by
    rw [pow_succ]
    omega
  rw [value, split, units_scaled (.inr (Nat.le_add_right _ _)) high]
  push_cast
  rfl

theorem toNat_num_div_den (nonneg : 0 ≤ value) : value = (value.num.toNat : ℚ) / value.den := by
  conv_lhs => rw [← Rat.num_div_den value]
  congr 1
  exact_mod_cast (Int.toNat_of_nonneg (Rat.num_nonneg.mpr nonneg)).symm

/-- The nearest rung of a ladder whose lowest distance is a power of two. -/
theorem nearest_scaled {fraction : ℕ} {lowest : ℤ} (positive : 0 < fraction) (nonneg : 0 ≤ value) :
    Nearest (fun place => (units fraction place : ℚ) * 2 ^ lowest) value
      (roundPlace fraction (value / 2 ^ lowest).num.toNat (value / 2 ^ lowest).den) := by
  have unit : (0 : ℚ) < 2 ^ lowest := zpow_pos two_pos _
  have near : Nearest (fun place => (units fraction place : ℚ)) (value / 2 ^ lowest)
      (roundPlace fraction (value / 2 ^ lowest).num.toNat (value / 2 ^ lowest).den) := by
    conv in (value / 2 ^ lowest) => rw [toNat_num_div_den (div_nonneg nonneg unit.le)]
    exact nearest_roundPlace positive (Rat.den_pos _)
  have scaled := (nearest_mul_iff unit).mpr near
  rwa [div_mul_cancel₀ _ unit.ne'] at scaled

theorem Format.nearest_iff :
    Nearest format.value value rung ↔
      Nearest (fun place => (units format.fraction place : ℚ)) (value / 2 ^ format.lowest) rung := by
  rw [← @nearest_mul_iff _ _ _ _ (fun place => (units format.fraction place : ℚ)) _ _ _
    format.unit_pos, div_mul_cancel₀ _ format.unit_pos.ne']
  rfl

/-- The nearest rung by the stretch of the value: its distances are this power of two. -/
theorem Format.nearest_of_scaled {scale significand : ℕ}
    (low : scale = 0 ∨ 2 ^ (format.lowest + format.fraction + scale) ≤ value)
    (high : value ≤ 2 ^ (format.lowest + format.fraction + scale + 1))
    (near : Nearest (fun place => (place : ℚ)) (value / 2 ^ (format.lowest + scale)) significand) :
    Nearest format.value value (scale * 2 ^ format.fraction + significand) := by
  have unit := format.unit_pos
  have power (count : ℕ) : (2 : ℚ) ^ (format.lowest + count) = 2 ^ count * 2 ^ format.lowest := by
    rw [zpow_add₀ two_ne_zero, zpow_natCast, mul_comm]
  have exponent : format.lowest + format.fraction + scale =
      format.lowest + (format.fraction + scale : ℕ) := by
    push_cast
    ring
  have exponent' : format.lowest + format.fraction + scale + 1 =
      format.lowest + (format.fraction + 1 + scale : ℕ) := by
    push_cast
    ring
  rw [exponent, power, pow_add] at low
  rw [exponent', power, pow_add] at high
  rw [power, mul_comm, ← div_div] at near
  rw [Format.nearest_iff]
  refine nearest_units_of_scaled format.fraction_pos (low.imp_right fun low => ?_) ?_ near
  · rwa [le_div_iff₀ unit]
  · rwa [div_le_iff₀ unit]

/-- The place of the nearest rung. -/
def Format.round (format : Format) (value : ℚ) : ℕ :=
  roundPlace format.fraction (value / 2 ^ format.lowest).num.toNat (value / 2 ^ format.lowest).den

theorem Format.nearest_round (format : Format) (nonneg : 0 ≤ value) :
    Nearest format.value value (format.round value) :=
  nearest_scaled format.fraction_pos nonneg

theorem Format.value_infinity (format : Format) :
    format.value format.infinity = 2 ^ (2 ^ (format.exponent - 1) : ℤ) := by
  have split : (2 : ℤ) ^ format.exponent = 2 ^ (format.exponent - 1) * 2 := by
    rw [← pow_succ, Nat.sub_add_cancel format.exponent_pos]
  have some' : 1 < 2 ^ format.exponent :=
    Nat.one_lt_two_pow format.exponent_pos.ne'
  have normal := @Format.value_normal format (2 ^ format.exponent - 1) 0 (by omega)
    (Nat.two_pow_pos format.fraction)
  rw [Nat.add_zero, Nat.cast_zero, add_zero] at normal
  rw [infinity, normal, lowest, ← zpow_natCast, ← zpow_natCast, ← zpow_add₀ two_ne_zero,
    ← zpow_add₀ two_ne_zero]
  congr 1
  have whole : ((2 ^ format.exponent - 1 - 1 : ℕ) : ℤ) = 2 ^ format.exponent - 2 := by
    rw [Nat.sub_sub, Nat.cast_sub some']
    push_cast
    ring
  rw [whole, split]
  ring

theorem Format.rounds_infinity (large : format.value format.infinity ≤ value) :
    format.Rounds value format.infinity := by
  have zero : 0 ≤ format.value format.infinity := by
    rw [Format.value_infinity]
    positivity
  have near := format.nearest_round (zero.trans large)
  have least := near.rung_le format.value_strictMono large
  exact ⟨_, near, (Nat.min_eq_right least).symm⟩

theorem Format.rounds_zero (small : 2 * value < 2 ^ format.lowest) : format.Rounds value 0 := by
  have first : format.value (0 + 1) = 2 ^ format.lowest := by
    rw [Nat.zero_add, format.value_subnormal (Nat.one_le_two_pow), Nat.cast_one, one_mul]
  refine ⟨0, nearest_of_middles format.value_strictMono nofun ?_ (fun _ => Even.zero), by simp⟩
  rw [first, Format.value_zero, zero_add]
  exact small.le

theorem Format.Rounds.unique {second : ℕ} (rounds : format.Rounds value rung)
    (rounds' : format.Rounds value second) : rung = second := by
  obtain ⟨nearest, near, rfl⟩ := rounds
  obtain ⟨nearest', near', rfl⟩ := rounds'
  rw [near.unique near' format.value_strictMono]

theorem Format.Rounds.mono {second : ℕ} (rounds : format.Rounds value rung)
    (rounds' : format.Rounds other second) (order : value ≤ other) : rung ≤ second := by
  obtain ⟨nearest, near, rfl⟩ := rounds
  obtain ⟨nearest', near', rfl⟩ := rounds'
  have places := near.mono near' format.value_strictMono order
  omega

theorem Format.rounds_value (format : Format) (rung : ℕ) :
    format.Rounds (format.value rung) (min rung format.infinity) :=
  ⟨rung, nearest_rung format.value_strictMono rung, rfl⟩

/-- A pattern with a sign and a place. -/
theorem pattern_of_sign {negative : Bool} (short : rung < 2 ^ (width - 1))
    (same : bits.toNat = negative.toNat * 2 ^ (width - 1) + rung) :
    bits.msb = negative ∧ place bits = rung := by
  constructor
  · rw [BitVec.msb_eq_decide, same]
    cases negative
    · simpa using short
    · simp
  · rw [place, same, Nat.add_comm, Nat.add_mul_mod_self_right, Nat.mod_eq_of_lt short]

theorem pattern_toNat (bits : BitVec width) :
    bits.toNat = bits.msb.toNat * 2 ^ (width - 1) + place bits := by
  rcases Nat.eq_zero_or_pos width with rfl | positive
  · rw [BitVec.eq_nil bits]
    rfl
  · have split := Nat.div_add_mod bits.toNat (2 ^ (width - 1))
    have double : 2 ^ width = 2 ^ (width - 1) * 2 := by
      rw [← pow_succ]
      congr 1
      omega
    have less : bits.toNat / 2 ^ (width - 1) < 2 := by
      rw [Nat.div_lt_iff_lt_mul (Nat.two_pow_pos _), Nat.mul_comm, ← double]
      exact bits.isLt
    have sign : bits.msb.toNat = bits.toNat / 2 ^ (width - 1) := by
      rw [BitVec.msb_eq_decide]
      by_cases set : 2 ^ (width - 1) ≤ bits.toNat
      · have one := Nat.div_pos set (Nat.two_pow_pos _)
        rw [decide_eq_true set, Bool.toNat_true]
        omega
      · rw [decide_eq_false set, Nat.div_eq_of_lt (not_le.mp set)]
        rfl
    rw [sign, place, Nat.mul_comm]
    exact split.symm

theorem pattern_injective {bits' : BitVec width} (sign : bits.msb = bits'.msb)
    (same : place bits = place bits') : bits = bits' := by
  apply BitVec.eq_of_toNat_eq
  rw [pattern_toNat bits, pattern_toNat bits', sign, same]

theorem Format.decode_eq_nan_iff {negative : Bool} :
    format.decode bits = .nan negative ↔ format.infinity < place bits ∧ bits.msb = negative := by
  unfold decode
  split_ifs with nan infinite
  · simp [nan]
  · simp [nan]
  · simp [nan]

theorem Format.decode_eq_infinite_iff {negative : Bool} :
    format.decode bits = .infinite negative ↔
      place bits = format.infinity ∧ bits.msb = negative := by
  unfold decode
  split_ifs with nan infinite
  · simp [nan.ne']
  · simp [infinite]
  · simp [infinite]

theorem Format.decode_eq_finite_iff {negative : Bool} {magnitude : ℚ} :
    format.decode bits = .finite negative magnitude ↔
      place bits < format.infinity ∧ bits.msb = negative ∧
        format.value (place bits) = magnitude := by
  unfold decode
  split_ifs with nan infinite
  · simp [nan.le]
  · simp [infinite]
  · have finite : place bits < format.infinity := by omega
    simp [finite]

/-- Two patterns of the same datum, which is a number or an infinity, are the same pattern. -/
theorem Format.decode_injective {bits' : BitVec width}
    (number : place bits ≤ format.infinity) (same : format.decode bits = format.decode bits') :
    bits = bits' := by
  rcases number.lt_or_eq with finite | infinite
  · obtain ⟨_, sign, magnitude⟩ :=
      Format.decode_eq_finite_iff.mp (same.symm.trans (decode_eq_finite_iff.mpr ⟨finite, rfl, rfl⟩))
    exact pattern_injective sign.symm (format.value_strictMono.injective magnitude).symm
  · obtain ⟨infinite', sign⟩ :=
      decode_eq_infinite_iff.mp (same.symm.trans (decode_eq_infinite_iff.mpr ⟨infinite, rfl⟩))
    exact pattern_injective sign.symm (infinite.trans infinite'.symm)

/-- The pattern of a datum, rounded once. -/
def Format.encode (format : Format) (width : ℕ) : Datum → BitVec width
  | .nan negative =>
    BitVec.ofNat width (negative.toNat * 2 ^ (width - 1) + (format.infinity + 1))
  | .infinite negative =>
    BitVec.ofNat width (negative.toNat * 2 ^ (width - 1) + format.infinity)
  | .finite negative magnitude =>
    BitVec.ofNat width
      (negative.toNat * 2 ^ (width - 1) + min (format.round magnitude) format.infinity)

theorem Format.isRounded_encode (format : Format) (room : format.infinity + 1 < 2 ^ (width - 1))
    {datum : Datum} (nonneg : ∀ negative magnitude, datum = .finite negative magnitude →
      0 ≤ magnitude) : format.IsRounded datum (format.encode width datum) := by
  have pattern (negative : Bool) {rung : ℕ} (short : rung < 2 ^ (width - 1)) :
      (BitVec.ofNat width (negative.toNat * 2 ^ (width - 1) + rung)).msb = negative ∧
        place (BitVec.ofNat width (negative.toNat * 2 ^ (width - 1) + rung)) = rung := by
    apply pattern_of_sign short
    have wide : 1 ≤ width := by
      by_contra none
      obtain rfl : width = 0 := by omega
      simp at room
    have double : 2 ^ width = 2 ^ (width - 1) * 2 := by
      rw [← pow_succ, Nat.sub_add_cancel wide]
    rw [BitVec.toNat_ofNat, Nat.mod_eq_of_lt]
    rw [double]
    cases negative <;> simp <;> omega
  cases datum with
  | nan negative =>
      obtain ⟨sign, same⟩ := pattern negative room
      exact decode_eq_nan_iff.mpr ⟨by rw [encode, same]; exact Nat.lt_succ_self _, sign⟩
  | infinite negative =>
      obtain ⟨sign, same⟩ := pattern negative ((Nat.lt_succ_self _).trans room)
      exact decode_eq_infinite_iff.mpr ⟨same, sign⟩
  | finite negative magnitude =>
      have short : min (format.round magnitude) format.infinity < 2 ^ (width - 1) := by omega
      obtain ⟨sign, same⟩ := pattern negative short
      exact ⟨sign, format.round magnitude, format.nearest_round (nonneg _ _ rfl), same⟩

/-- A number that is in the format is rounded to itself. -/
theorem Format.eq_of_isRounded {bits' : BitVec width} (number : place bits ≤ format.infinity)
    (rounded : format.IsRounded (format.decode bits) bits') : bits' = bits := by
  rcases number.lt_or_eq with finite | infinite
  · rw [decode_eq_finite_iff.mpr ⟨finite, rfl, rfl⟩] at rounded
    obtain ⟨sign, rounds⟩ := rounded
    have same := rounds.unique (format.rounds_value (place bits))
    exact pattern_injective sign (same.trans (Nat.min_eq_left number))
  · rw [decode_eq_infinite_iff.mpr ⟨infinite, rfl⟩] at rounded
    obtain ⟨same, sign⟩ := decode_eq_infinite_iff.mp rounded
    exact pattern_injective sign (same.trans infinite.symm)

end

end Rounding

import HitSimple.Floating.Rational
import Mathlib.Algebra.Order.Floor.Semifield
import Mathlib.Data.Rat.Floor

namespace Rounding

/-- A datum as a number, where it is one. -/
def Datum.rational : Datum → Option ℚ
  | .finite negative magnitude => some (if negative then -magnitude else magnitude)
  | _ => none

/-- A number with the sign of its own. -/
def Datum.ofRational (value : ℚ) : Datum :=
  .finite (decide (value < 0)) |value|

def Datum.neg : Datum → Datum
  | .nan negative => .nan !negative
  | .infinite negative => .infinite !negative
  | .finite negative magnitude => .finite (!negative) magnitude

theorem Datum.ofRational_of_nonneg {value : ℚ} (nonneg : 0 ≤ value) :
    Datum.ofRational value = .finite false value := by
  rw [Datum.ofRational, decide_eq_false (not_lt.mpr nonneg), abs_of_nonneg nonneg]

theorem Datum.rational_eq_zero_iff {datum : Datum} :
    datum.rational = some 0 ↔ ∃ negative, datum = .finite negative 0 := by
  cases datum with
  | nan negative | infinite negative => simp [Datum.rational]
  | finite negative magnitude => cases negative <;> simp [Datum.rational]

end Rounding

namespace HitSimple.Floating
open Rounding

/-- The numbers of the multiprecision library, by the operations that the runtime calls. -/
structure QuadBackend where
  Quad : Type
  ofBigInt : ℕ → Quad
  half : Quad
  infinity : Quad
  quietNaN : Quad
  neg : Quad → Quad
  sub : Quad → Quad → Quad
  mul : Quad → Quad → Quad
  div : Quad → Quad → Quad
  ldexp : Quad → ℤ → Quad
  frexp : Quad → Quad × ℤ
  floor : Quad → Quad
  toBigInt : Quad → ℕ
  gt : Quad → Quad → Bool
  eq : Quad → Quad → Bool
  isZero : Quad → Bool
  signbit : Quad → Bool
  isnan : Quad → Bool
  isinf : Quad → Bool
  /-- What a number of the library stands for. -/
  datum : Quad → Datum

/-- The significand of the value has at most 113 bits. -/
def HasQuadBits (value : ℚ) : Prop :=
  ∃ (significand : ℕ) (exponent : ℤ), significand ≤ 2 ^ 113 ∧ value = significand * 2 ^ exponent

/-- The exponent of the value is one of the library. -/
def InQuadRange (value : ℚ) : Prop :=
  value = 0 ∨ 2 ^ (-20000 : ℤ) ≤ value ∧ value < 2 ^ (20000 : ℤ)

/-- The numbers with 113 bits from `2 ^ -20000` on. -/
def quadLadder (place : ℕ) : ℚ :=
  units 112 place * 2 ^ (-20112 : ℤ)

/-- What an operation with this exact result gives: the result with 113 bits, or what is left of it
at the ends of the range. -/
def QuadRounded (negative : Bool) (exact : ℚ) (result : Datum) : Prop :=
  if exact < 2 ^ (-20000 : ℤ) then
    result = .finite negative 0 ∨ result = .finite negative (2 ^ (-20000 : ℤ))
  else if 2 ^ (19999 : ℤ) ≤ exact then
    result = .infinite negative ∨
      ∃ magnitude, 2 ^ (19999 : ℤ) ≤ magnitude ∧ result = .finite negative magnitude
  else ∃ place, Nearest quadLadder exact place ∧ result = .finite negative (quadLadder place)

/-- The operations are those of the documentation. -/
structure QuadBackend.Lawful (backend : QuadBackend) : Prop where
  ofBigInt : ∀ number ≤ 2 ^ 113, backend.datum (backend.ofBigInt number) = .finite false number
  half : backend.datum backend.half = .finite false (1 / 2)
  infinity : backend.datum backend.infinity = .infinite false
  quietNaN : backend.datum backend.quietNaN = .nan false
  neg : ∀ quad negative magnitude, backend.datum quad = .finite negative magnitude →
    backend.datum (backend.neg quad) = .finite (!negative) magnitude
  neg_infinite : ∀ quad negative, backend.datum quad = .infinite negative →
    backend.datum (backend.neg quad) = .infinite (!negative)
  neg_nan : ∀ quad negative, backend.datum quad = .nan negative →
    ∃ other, backend.datum (backend.neg quad) = .nan other
  sub : ∀ left right minuend subtrahend, backend.datum left = .finite false minuend →
    backend.datum right = .finite false subtrahend → subtrahend ≤ minuend →
    HasQuadBits (minuend - subtrahend) →
    backend.datum (backend.sub left right) = .finite false (minuend - subtrahend)
  ldexp : ∀ quad exponent negative magnitude, backend.datum quad = .finite negative magnitude →
    InQuadRange (magnitude * 2 ^ exponent) →
    backend.datum (backend.ldexp quad exponent) = .finite negative (magnitude * 2 ^ exponent)
  frexp : ∀ quad negative magnitude, backend.datum quad = .finite negative magnitude →
    0 < magnitude → ∃ mantissa, backend.datum (backend.frexp quad).1 = .finite negative mantissa ∧
      1 / 2 ≤ mantissa ∧ mantissa < 1 ∧ magnitude = mantissa * 2 ^ (backend.frexp quad).2
  floor : ∀ quad magnitude, backend.datum quad = .finite false magnitude → 0 ≤ magnitude →
    backend.datum (backend.floor quad) = .finite false ⌊magnitude⌋₊
  toBigInt : ∀ quad (number : ℕ), backend.datum quad = .finite false number →
    backend.toBigInt quad = number
  gt : ∀ left right magnitude other, backend.datum left = .finite false magnitude →
    backend.datum right = .finite false other → (backend.gt left right = true ↔ other < magnitude)
  eq : ∀ left right magnitude other, backend.datum left = .finite false magnitude →
    backend.datum right = .finite false other → (backend.eq left right = true ↔ magnitude = other)
  isZero : ∀ quad, backend.isZero quad = true ↔
    ∃ negative, backend.datum quad = .finite negative 0
  signbit : ∀ quad, backend.signbit quad = (backend.datum quad).negative
  isnan : ∀ quad, backend.isnan quad = true ↔ ∃ negative, backend.datum quad = .nan negative
  isinf : ∀ quad, backend.isinf quad = true ↔ ∃ negative, backend.datum quad = .infinite negative
  mul : ∀ left right negative other magnitude magnitude',
    backend.datum left = .finite negative magnitude →
    backend.datum right = .finite other magnitude' → 0 < magnitude → 0 < magnitude' →
    QuadRounded (negative ^^ other) (magnitude * magnitude')
      (backend.datum (backend.mul left right))
  div : ∀ left right negative other magnitude magnitude',
    backend.datum left = .finite negative magnitude →
    backend.datum right = .finite other magnitude' → 0 < magnitude → 0 < magnitude' →
    QuadRounded (negative ^^ other) (magnitude / magnitude')
      (backend.datum (backend.div left right))

/-- Negation changes the sign of what is not a number too. -/
def QuadBackend.NegatesNan (backend : QuadBackend) : Prop :=
  ∀ quad negative, backend.datum quad = .nan negative →
    backend.datum (backend.neg quad) = .nan (!negative)

/-! ### A library of rational numbers -/

/-- The result with 113 bits, by the exact one. -/
def quadRound (negative : Bool) (exact : ℚ) : Datum :=
  if exact < 2 ^ (-20000 : ℤ) then .finite negative 0
  else if 2 ^ (19999 : ℤ) ≤ exact then .infinite negative
  else
    .finite negative (quadLadder (roundPlace 112 (exact / 2 ^ (-20112 : ℤ)).num.toNat
      (exact / 2 ^ (-20112 : ℤ)).den))

def quadOperation (operation : ℚ → ℚ → ℚ) : Datum → Datum → Datum
  | .finite negative magnitude, .finite negative' magnitude' =>
    quadRound (negative ^^ negative') (operation magnitude magnitude')
  | _, _ => .nan false

/-- The library whose numbers are rational, for the operations on numbers that are not infinite. -/
def rationalBackend : QuadBackend where
  Quad := Datum
  ofBigInt number := .finite false number
  half := .finite false (1 / 2)
  infinity := .infinite false
  quietNaN := .nan false
  neg := Datum.neg
  sub left right :=
    match left.rational, right.rational with
    | some minuend, some subtrahend => Datum.ofRational (minuend - subtrahend)
    | _, _ => .nan false
  mul := quadOperation (· * ·)
  div := quadOperation (· / ·)
  ldexp quad exponent :=
    match quad with
    | .finite negative magnitude => .finite negative (magnitude * 2 ^ exponent)
    | other => other
  frexp quad :=
    match quad with
    | .finite negative magnitude =>
      let exponent := rationalBinaryExponent magnitude.num.toNat magnitude.den + 1
      (.finite negative (magnitude / 2 ^ exponent), exponent)
    | other => (other, 0)
  floor quad :=
    match quad.rational with
    | some value => Datum.ofRational ⌊value⌋
    | none => quad
  toBigInt quad := ((quad.rational.getD 0).floor).toNat
  gt left right :=
    match left.rational, right.rational with
    | some value, some other => decide (other < value)
    | _, _ => false
  eq left right :=
    match left.rational, right.rational with
    | some value, some other => decide (value = other)
    | _, _ => false
  isZero quad := decide (quad.rational = some 0)
  signbit := Datum.negative
  isnan quad := quad matches .nan _
  isinf quad := quad matches .infinite _
  datum := id

theorem quadRounded_quadRound (negative : Bool) (exact : ℚ) :
    QuadRounded negative exact (quadRound negative exact) := by
  unfold QuadRounded quadRound
  split
  · exact .inl rfl
  rename_i notSmall
  split
  · exact .inl rfl
  · refine ⟨_, nearest_scaled (by decide) ?_, rfl⟩
    exact (zpow_pos two_pos _).le.trans (not_lt.mp notSmall)

/-- The mantissa lies between a half and one. -/
theorem mantissa_bounds {magnitude : ℚ} (positive : 0 < magnitude) :
    1 / 2 ≤ magnitude /
        2 ^ (rationalBinaryExponent magnitude.num.toNat magnitude.den + 1) ∧
      magnitude / 2 ^ (rationalBinaryExponent magnitude.num.toNat magnitude.den + 1) < 1 ∧
      magnitude = magnitude / 2 ^ (rationalBinaryExponent magnitude.num.toNat magnitude.den + 1) *
        2 ^ (rationalBinaryExponent magnitude.num.toNat magnitude.den + 1) := by
  have number : 0 < magnitude.num.toNat := Int.pos_iff_toNat_pos.mp (Rat.num_pos.mpr positive)
  obtain ⟨least, most⟩ := rationalBinaryExponent_bounds number (Rat.den_pos magnitude)
  rw [← toNat_num_div_den positive.le] at least most
  generalize rationalBinaryExponent magnitude.num.toNat magnitude.den = exponent at least most
  have power : (0 : ℚ) < 2 ^ (exponent + 1) := zpow_pos two_pos _
  refine ⟨?_, (div_lt_one power).mpr most, (div_mul_cancel₀ _ power.ne').symm⟩
  rw [le_div_iff₀ power, zpow_add_one₀ two_ne_zero]
  linarith

theorem rationalBackend_lawful : rationalBackend.Lawful where
  ofBigInt _ _ := rfl
  half := rfl
  infinity := rfl
  quietNaN := rfl
  neg := by
    rintro quad negative magnitude rfl
    rfl
  neg_infinite := by
    rintro quad negative rfl
    rfl
  neg_nan := by
    rintro quad negative rfl
    exact ⟨_, rfl⟩
  sub := by
    rintro left right minuend subtrahend rfl rfl order _
    exact Datum.ofRational_of_nonneg (sub_nonneg.mpr order)
  ldexp := by
    rintro quad exponent negative magnitude rfl _
    rfl
  frexp := by
    rintro quad negative magnitude rfl positive
    exact ⟨_, rfl, mantissa_bounds positive⟩
  floor := by
    rintro quad magnitude rfl nonneg
    have same : ((⌊magnitude⌋ : ℤ) : ℚ) = (⌊magnitude⌋₊ : ℕ) :=
      (natCast_floor_eq_intCast_floor nonneg).symm
    change Datum.ofRational ((⌊magnitude⌋ : ℤ) : ℚ) = _
    rw [same]
    exact Datum.ofRational_of_nonneg (Nat.cast_nonneg _)
  toBigInt := by
    rintro quad number rfl
    exact Int.toNat_natCast number ▸ congrArg Int.toNat (Int.floor_natCast (R := ℚ) number)
  gt := by
    rintro left right magnitude other rfl rfl
    exact decide_eq_true_iff
  eq := by
    rintro left right magnitude other rfl rfl
    exact decide_eq_true_iff
  isZero quad := decide_eq_true_iff.trans Datum.rational_eq_zero_iff
  signbit _ := rfl
  isnan quad := by cases quad <;> simp [rationalBackend]
  isinf quad := by cases quad <;> simp [rationalBackend]
  mul := by
    rintro left right negative other magnitude magnitude' rfl rfl _ _
    exact quadRounded_quadRound _ _
  div := by
    rintro left right negative other magnitude magnitude' rfl rfl _ _
    exact quadRounded_quadRound _ _

theorem rationalBackend_negatesNan : rationalBackend.NegatesNan := by
  rintro quad negative rfl
  rfl

end HitSimple.Floating

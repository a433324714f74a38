import HitSimple.CCompat.ConstantMeaning

namespace HitSimple.CCompat
open FixedWidth (IntegerFormat)

/-! ### Evaluations that do not overflow -/

/-- The evaluation does not overflow, and a value that it gives meets a condition. -/
structure Gives {α : Type} (evaluation : Evaluation α) (post : α → Prop) : Prop where
  safe : evaluation ≠ .error .overflow
  meets : ∀ value, evaluation = .ok value → post value

section
variable {α β : Type} {evaluation : Evaluation α} {post : α → Prop}

theorem gives_ok {value : α} (holds : post value) : Gives (.ok value) post :=
  ⟨nofun, by rintro _ ⟨⟩; exact holds⟩

theorem gives_noValue : Gives (.error .noValue) post :=
  ⟨nofun, nofun⟩

theorem Gives.bind {next : α → Evaluation β} {then_ : β → Prop} (first : Gives evaluation post)
    (second : ∀ value, evaluation = .ok value → post value → Gives (next value) then_) :
    Gives (evaluation >>= next) then_ := by
  cases evaluated : evaluation with
  | ok value => exact second value evaluated (first.meets value evaluated)
  | error stop =>
      cases stop with
      | noValue => exact gives_noValue
      | overflow => exact absurd evaluated first.safe

theorem Gives.mono {weaker : α → Prop} (gives : Gives evaluation post)
    (implies : ∀ value, post value → weaker value) : Gives evaluation weaker :=
  ⟨gives.safe, fun value evaluated => implies value (gives.meets value evaluated)⟩

theorem int64_eq {value : Int} (lower : -2 ^ 63 ≤ value) (upper : value < 2 ^ 63) :
    int64 value = .ok value :=
  if_pos ⟨lower, upper⟩

theorem gives_int64 {value : Int} (lower : -2 ^ 63 ≤ value) (upper : value < 2 ^ 63) :
    Gives (int64 value) (· = value) := by
  rw [int64_eq lower upper]
  exact gives_ok rfl

end

/-! ### Values and their readings -/

theorem integerMask_eq {byteLength : Nat} (standard : IsStandard byteLength) :
    integerMask byteLength = .ok (2 ^ (byteLength * 8) - 1) := by
  rcases standard with rfl | rfl | rfl | rfl <;> rfl

theorem gives_integerMask (byteLength : Nat) :
    Gives (integerMask byteLength) fun mask =>
      IsStandard byteLength ∧ mask = 2 ^ (byteLength * 8) - 1 := by
  by_cases standard : IsStandard byteLength
  · rw [integerMask_eq standard]
    exact gives_ok ⟨standard, rfl⟩
  · rw [integerMask, if_pos (by unfold IsStandard at standard; omega)]
    exact gives_noValue

theorem IsStandard.positive {byteLength : Nat} (standard : IsStandard byteLength) :
    0 < byteLength * 8 := by
  unfold IsStandard at standard
  omega

theorem IsStandard.le {byteLength : Nat} (standard : IsStandard byteLength) :
    byteLength * 8 ≤ 64 := by
  unfold IsStandard at standard
  omega

namespace ConstantInteger

def format (value : ConstantInteger) : IntegerFormat :=
  ⟨value.byteLength * 8, value.isSigned⟩

/-- The value that the bits denote. -/
def reading (value : ConstantInteger) : Int :=
  value.format.convert value.bits

/-- No bit is set beyond the width. -/
structure Normal (value : ConstantInteger) : Prop where
  standard : IsStandard value.byteLength
  bound : value.bits < 2 ^ (value.byteLength * 8)

/-- The value is not negative where it is made wider. -/
def KeepsSign (value : ConstantInteger) (byteLength : Nat) : Prop :=
  value.byteLength < byteLength → 0 ≤ value.reading

variable {value : ConstantInteger}

theorem Normal.reading_eq_bits (normal : value.Normal) (nonneg : 0 ≤ value.reading) :
    value.reading = value.bits :=
  IntegerFormat.natCast_of_convert_nonneg normal.standard.positive normal.bound nonneg

theorem Normal.reading_eq (normal : value.Normal) :
    value.reading = if value.isSigned = true ∧ 2 ^ (value.byteLength * 8 - 1) ≤ value.bits then
      (value.bits : Int) - 2 ^ (value.byteLength * 8) else value.bits :=
  IntegerFormat.convert_natCast normal.standard.positive normal.bound

theorem Normal.reading_unsigned (normal : value.Normal) (isUnsigned : value.isSigned = false) :
    value.reading = value.bits := by
  rw [normal.reading_eq, if_neg]
  rintro ⟨isSigned, _⟩
  exact Bool.false_ne_true (isUnsigned.symm.trans isSigned)

theorem Normal.holds (normal : value.Normal) : value.format.Holds value.reading :=
  IntegerFormat.holds_convert normal.standard.positive

theorem Normal.pattern_reading (normal : value.Normal) :
    value.format.pattern value.reading = value.bits := by
  rw [reading, IntegerFormat.pattern_convert, IntegerFormat.pattern_natCast normal.bound]

theorem Normal.bits_lt (normal : value.Normal) : value.bits < 2 ^ 64 :=
  lt_of_lt_of_le normal.bound (Nat.pow_le_pow_right (by decide) normal.standard.le)

theorem Normal.reading_eq_zero (normal : value.Normal) : value.reading = 0 ↔ value.bits = 0 := by
  constructor
  · intro zero
    have same := normal.reading_eq_bits zero.ge
    omega
  · intro zero
    rw [reading, zero]
    unfold IntegerFormat.convert
    split <;> simp

theorem reading_modEq (value : ConstantInteger) : value.reading ≡ value.bits [ZMOD 2 ^ (value.byteLength * 8)] :=
  IntegerFormat.convert_modEq

theorem convert_bits {byteLength : Nat} (isSigned : Bool) (normal : value.Normal)
    (keeps : value.KeepsSign byteLength) :
    (⟨byteLength * 8, isSigned⟩ : IntegerFormat).convert value.bits =
      (⟨byteLength * 8, isSigned⟩ : IntegerFormat).convert value.reading := by
  by_cases wider : value.byteLength < byteLength
  · rw [normal.reading_eq_bits (keeps wider)]
  · refine IntegerFormat.convert_congr ((reading_modEq value).symm.of_dvd ?_)
    exact pow_dvd_pow 2 (Nat.mul_le_mul_right 8 (Nat.le_of_not_lt wider))

end ConstantInteger

open ConstantInteger

section
variable {value : ConstantInteger}

theorem convertConstantInteger_eq {byteLength : Nat} {isSigned : Bool}
    (standard : IsStandard byteLength) :
    convertConstantInteger value byteLength isSigned =
      .ok ⟨value.bits % 2 ^ (byteLength * 8), byteLength, isSigned⟩ := by
  rw [convertConstantInteger, integerMask_eq standard, ← Nat.and_two_pow_sub_one_eq_mod]
  rfl

theorem reading_masked {bits byteLength : Nat} {isSigned : Bool} :
    (⟨bits % 2 ^ (byteLength * 8), byteLength, isSigned⟩ : ConstantInteger).reading =
      (⟨byteLength * 8, isSigned⟩ : IntegerFormat).convert bits := by
  refine IntegerFormat.convert_congr ?_
  push_cast
  exact Int.mod_modEq _ _

theorem gives_convert {byteLength : Nat} {isSigned : Bool} :
    Gives (convertConstantInteger value byteLength isSigned) fun converted =>
      converted.Normal ∧ converted.byteLength = byteLength ∧ converted.isSigned = isSigned ∧
        converted.reading = (⟨byteLength * 8, isSigned⟩ : IntegerFormat).convert value.bits := by
  refine (gives_integerMask byteLength).bind fun mask _ ⟨standard, masked⟩ => gives_ok ?_
  rw [masked, Nat.and_two_pow_sub_one_eq_mod]
  exact ⟨⟨standard, Nat.mod_lt _ (by positivity)⟩, rfl, rfl, reading_masked⟩

theorem signedConstantValue_eq (normal : value.Normal) (isSigned : value.isSigned = true) :
    signedConstantValue value = .ok value.reading := by
  have bound := normal.bound
  have top := FixedWidth.and_top_bit normal.standard.positive bound
  rw [signedConstantValue, if_neg (by rw [isSigned]; exact nofun), integerMask_eq normal.standard]
  change (if _ then _ else _ : Evaluation Int) = _
  rw [Nat.and_two_pow_sub_one_of_lt_two_pow bound]
  split
  next clear =>
    rw [normal.reading_eq, if_neg fun negative => negative.2.not_gt (top.mp clear)]
    rfl
  next set =>
    have above : 2 ^ (value.byteLength * 8 - 1) ≤ value.bits :=
      Nat.le_of_not_lt fun below => set (top.mpr below)
    have denoted := normal.reading_eq
    rw [if_pos ⟨isSigned, above⟩] at denoted
    rw [denoted]
    split
    next eight =>
      rw [eight] at bound above ⊢
      dsimp only
      split
      next least =>
        refine congrArg Except.ok ?_
        omega
      next =>
        rw [int64_eq (by omega) (by omega)]
        refine congrArg Except.ok ?_
        omega
    next narrow =>
      have small : value.byteLength * 8 ≤ 32 := by
        have standard := normal.standard
        unfold IsStandard at standard
        omega
      have power : (2 : Int) ^ (value.byteLength * 8) ≤ 2 ^ 32 :=
        pow_le_pow_right₀ (by decide) small
      have positive : (0 : Int) < 2 ^ (value.byteLength * 8) := by positivity
      have castBound : (value.bits : Int) < 2 ^ (value.byteLength * 8) := by exact_mod_cast bound
      rw [int64_eq (by omega) (by omega)]
      exact int64_eq (by omega) (by omega)

theorem gives_signedConstantValue (normal : value.Normal) :
    Gives (signedConstantValue value) fun signed =>
      value.isSigned = true ∧ signed = value.reading := by
  cases isSigned : value.isSigned with
  | true =>
      rw [signedConstantValue_eq normal isSigned]
      exact gives_ok ⟨rfl, rfl⟩
  | false =>
      rw [signedConstantValue, if_pos isSigned]
      exact gives_noValue

theorem natCast_uint64 {signed : Int} : (uint64 signed : Int) = signed % 2 ^ 64 :=
  Int.toNat_of_nonneg (Int.emod_nonneg _ (by decide))

theorem uint64_modEq {signed : Int} {byteLength : Nat} (standard : IsStandard byteLength) :
    (uint64 signed : Int) ≡ signed [ZMOD 2 ^ (byteLength * 8)] := by
  rw [natCast_uint64]
  exact (Int.mod_modEq _ _).of_dvd (pow_dvd_pow 2 standard.le)

theorem promoteConstantInteger_eq (normal : value.Normal) :
    ∃ promotedValue, promoteConstantInteger value = .ok promotedValue ∧ promotedValue.Normal ∧
      promotedValue.format = promoted value.format ∧ promotedValue.reading = value.reading := by
  unfold promoteConstantInteger
  split
  next wide =>
    refine ⟨value, rfl, normal, ?_, rfl⟩
    rw [promoted, if_neg]
    simp only [ConstantInteger.format]
    omega
  next narrow =>
    have below : value.format.width < 32 := by
      simp only [ConstantInteger.format]
      omega
    have fits : IntegerFormat.Holds ⟨4 * 8, true⟩ value.reading := normal.holds.widen below rfl
    have four : IsStandard 4 := .inr (.inr (.inl rfl))
    have finish (bits : Nat) (congruent : (bits : Int) ≡ value.reading [ZMOD 2 ^ (4 * 8)]) :
        ∃ promotedValue, convertConstantInteger ⟨bits, 8, true⟩ 4 true = .ok promotedValue ∧
          promotedValue.Normal ∧ promotedValue.format = promoted value.format ∧
            promotedValue.reading = value.reading := by
      refine ⟨_, convertConstantInteger_eq four, ⟨four, Nat.mod_lt _ (by positivity)⟩, ?_, ?_⟩
      · rw [promoted, if_pos below]
        rfl
      · rw [reading_masked, IntegerFormat.convert_congr congruent]
        exact IntegerFormat.convert_of_holds (by decide) fits
    dsimp only
    split
    next isSigned =>
      have bits : uint64 <$> signedConstantValue value = .ok (uint64 value.reading) := by
        rw [signedConstantValue_eq normal isSigned]
        rfl
      rw [bits]
      refine finish (uint64 value.reading) ?_
      exact uint64_modEq (.inr (.inr (.inl rfl)))
    next isUnsigned =>
      refine finish value.bits ?_
      rw [normal.reading_unsigned (by simpa using isUnsigned)]

theorem gives_promote (normal : value.Normal) :
    Gives (promoteConstantInteger value) fun promotedValue =>
      promotedValue.Normal ∧ promotedValue.format = promoted value.format ∧
        promotedValue.reading = value.reading := by
  obtain ⟨promotedValue, evaluated, spec⟩ := promoteConstantInteger_eq normal
  rw [evaluated]
  exact gives_ok spec

theorem gives_isTrue (normal : value.Normal) :
    Gives (isTrue value) fun holds => holds = true ↔ value.reading ≠ 0 := by
  refine (gives_integerMask _).bind fun mask _ ⟨_, masked⟩ => gives_ok ?_
  rw [masked, Nat.and_two_pow_sub_one_of_lt_two_pow normal.bound, decide_eq_true_iff,
    Ne, ← normal.reading_eq_zero]

end

/-! ### Operators -/

theorem convert_of_result {format : IntegerFormat} {value outcome : Int}
    (positive : 0 < format.width) (computed : result format value = some outcome) :
    format.convert value = outcome := by
  unfold result at computed
  split at computed
  · split at computed
    next holds =>
      cases computed
      exact IntegerFormat.convert_of_holds positive holds
    next => cases computed
  · exact Option.some.inj computed

theorem normal_ofTruth (holds : Bool) :
    (ofTruth holds).Normal ∧ (ofTruth holds).format = ⟨8, false⟩ ∧
      (ofTruth holds).reading = truth (holds = true) := by
  cases holds <;> exact ⟨⟨.inl rfl, by decide⟩, rfl, rfl⟩

section
variable {op : BinaryOperator} {operation : TypedIntegerOperator} {left right : ConstantInteger}

theorem gives_shiftCount (normal : right.Normal) :
    Gives (shiftCount right) fun count => right.reading = count := by
  refine (gives_promote normal).bind fun promotedRight _ ⟨isNormal, _, same⟩ => ?_
  refine (gives_integerMask _).bind fun mask _ ⟨_, masked⟩ => ?_
  rw [masked, Nat.and_two_pow_sub_one_of_lt_two_pow isNormal.bound, ← same]
  split
  next isSigned =>
    refine (gives_signedConstantValue isNormal).bind fun signed _ ⟨_, denoted⟩ => ?_
    split
    · exact gives_noValue
    next nonneg => exact gives_ok (isNormal.reading_eq_bits (by omega))
  next isUnsigned => exact gives_ok (isNormal.reading_unsigned (by simpa using isUnsigned))

theorem reading_shiftRight (symbol : String) {count : Nat} (normal : left.Normal)
    (below : count < left.byteLength * 8) :
    left.format.convert (shiftRightBits ⟨left.byteLength, left.isSigned, symbol⟩ left.bits
        (2 ^ (left.byteLength * 8) - 1) count) =
      left.reading / 2 ^ count := by
  have positive := normal.standard.positive
  have holds : left.format.Holds (left.reading / 2 ^ count) := normal.holds.ediv_two_pow count
  rw [← IntegerFormat.convert_of_holds positive holds]
  refine IntegerFormat.convert_congr ?_
  have top := FixedWidth.and_top_bit positive normal.bound
  rw [normal.reading_eq]
  unfold shiftRightBits
  dsimp only
  by_cases negative : left.isSigned = true ∧ 2 ^ (left.byteLength * 8 - 1) ≤ left.bits
  · have quotient : ((left.bits : Int) - 2 ^ (left.byteLength * 8)) / 2 ^ count =
        left.bits / 2 ^ count - 2 ^ (left.byteLength * 8 - count) := by
      have powers : (2 : Int) ^ (left.byteLength * 8) =
          2 ^ (left.byteLength * 8 - count) * 2 ^ count := by
        rw [← pow_add, Nat.sub_add_cancel below.le]
      rw [powers, Int.sub_mul_ediv_right _ _ (by positivity)]
    have powers : 2 ^ (left.byteLength * 8 - count) ≤ 2 ^ (left.byteLength * 8) :=
      Nat.pow_le_pow_right (by decide) (Nat.sub_le _ _)
    rw [if_pos ⟨negative.1, by omega⟩, if_pos negative, FixedWidth.or_fill below.le normal.bound,
      quotient]
    push_cast [Nat.cast_sub powers]
    refine Int.modEq_iff_dvd.mpr ⟨-1, ?_⟩
    simp only [ConstantInteger.format]
    ring
  · rw [if_neg fun set => negative ⟨set.1, by omega⟩, if_neg negative, Nat.shiftRight_eq_div_pow]
    push_cast
    rfl

theorem gives_shift (symbol : String) (shifting : isShift op = true) (normalLeft : left.Normal)
    (normalRight : right.Normal) :
    Gives (evaluateShift op ⟨left.byteLength, left.isSigned, symbol⟩ left right) fun outcome =>
      outcome.Normal ∧ outcome.format = left.format ∧
        ∀ value, shift left.format op left.reading right.reading = some value →
          outcome.reading = value := by
  refine (gives_shiftCount normalRight).bind fun count _ same => ?_
  rw [same]
  dsimp only
  split
  · exact gives_noValue
  next below =>
    have inRange : ¬((count : Int) < 0 ∨ left.format.width ≤ (count : Int)) := by
      simp only [ConstantInteger.format]
      omega
    split
    next isLeft =>
      have shifted : Gives (convertConstantInteger
          ⟨left.bits * 2 ^ count % 2 ^ 64, left.byteLength, left.isSigned⟩
          left.byteLength left.isSigned) fun outcome =>
          outcome.Normal ∧ outcome.format = left.format ∧
            ∀ value, shift left.format op left.reading count = some value →
              outcome.reading = value := by
        refine gives_convert.mono ?_
        rintro outcome ⟨normal, byteLength, isSigned, denoted⟩
        refine ⟨normal, by rw [ConstantInteger.format, byteLength, isSigned]; rfl, ?_⟩
        intro value computed
        rw [shift, if_neg inRange, isLeft, if_neg nofun] at computed
        have exact_ : result left.format (left.reading * 2 ^ count) = some value := by
          split at computed
          · cases computed
          · exact computed
        rw [denoted, ← convert_of_result normalLeft.standard.positive exact_]
        refine IntegerFormat.convert_congr ?_
        push_cast
        have wrapped : (left.bits : Int) * 2 ^ count % 2 ^ 64 ≡ left.bits * 2 ^ count
            [ZMOD 2 ^ (left.byteLength * 8)] :=
          (Int.mod_modEq _ _).of_dvd (pow_dvd_pow 2 normalLeft.standard.le)
        exact wrapped.trans ((reading_modEq left).symm.mul_right _)
      split
      next isSigned =>
        refine (gives_signedConstantValue normalLeft).bind fun signed _ _ => ?_
        split
        · exact gives_noValue
        · exact shifted
      next => exact shifted
    next isRight =>
      refine (gives_integerMask _).bind fun mask _ ⟨standard, masked⟩ => gives_ok ?_
      rw [masked, Nat.and_two_pow_sub_one_eq_mod]
      refine ⟨⟨standard, Nat.mod_lt _ (by positivity)⟩, rfl, fun value computed => ?_⟩
      have toRight : op = .shiftRight := by
        cases op <;> first | rfl | exact absurd rfl isRight | cases shifting
      rw [shift, if_neg inRange, if_pos toRight, Int.toNat_natCast] at computed
      cases computed
      rw [← reading_shiftRight symbol normalLeft (Nat.lt_of_not_le below)]
      exact reading_masked

end

end HitSimple.CCompat

import HitSimple.Floating.Decimal
import HitSimple.Floating.Half
import HitSimple.Floating.Quad
import HitSimple.Rounding.Twice

namespace HitSimple.Floating
open FixedWidth Rounding HitSimple.Runtime
open HitSimple.Scan (skipSign skipSign_sign Sign)

def binary64 : Rounding.Format := ⟨52, 11, by decide, by decide⟩

/-- The types of the floating-point values that are not binary128. -/
inductive FloatType where
  | half | float | double
  deriving DecidableEq, Repr

def FloatType.width : FloatType → ℕ
  | .half => 16
  | .float => 32
  | .double => 64

def FloatType.format : FloatType → Rounding.Format
  | .half => binary16
  | .float => binary32
  | .double => binary64

/-- What `strtod` and `strtof` give: the value, how much of the text they read, and `ERANGE`. -/
structure ParsedFloat (width : ℕ) where
  value : BitVec width
  length : ℕ
  rangeError : Bool

/-- The conversions of the C library, of LLVM and of the binary128 library. -/
structure Conversions where
  /-- The sign and the magnitude that a text stands for, in the language of `strtod`. -/
  number : List Byte → Option (Bool × ℚ)
  strtod : List Byte → ParsedFloat 64
  strtof : List Byte → ParsedFloat 32
  constantFP : (type : FloatType) → BitVec 64 → BitVec type.width
  fpTrunc : BitVec 32 → BitVec 16
  hsF128ToF32 : Bits → BitVec 32
  hsF128ToF64 : Bits → BitVec 64

/-- Each conversion is rounded correctly for its own format. -/
structure Conversions.Lawful (conversions : Conversions) : Prop where
  decimal : ∀ text negative magnitude, DecimalText text negative magnitude →
    conversions.number text = some (negative, magnitude)
  strtod : ∀ text negative magnitude, conversions.number text = some (negative, magnitude) →
    binary64.IsRounded (.finite negative magnitude) (conversions.strtod text).value ∧
      (conversions.strtod text).length = text.length
  strtof : ∀ text negative magnitude, conversions.number text = some (negative, magnitude) →
    binary32.IsRounded (.finite negative magnitude) (conversions.strtof text).value ∧
      (conversions.strtof text).length = text.length
  constantFP : ∀ (type : FloatType) (bits : BitVec 64), place bits ≤ binary64.infinity →
    type.format.IsRounded (binary64.decode bits) (conversions.constantFP type bits)
  fpTrunc : ∀ bits, place bits ≤ binary32.infinity →
    binary16.IsRounded (binary32.decode bits) (conversions.fpTrunc bits)
  hsF128ToF32 : ∀ bits, place bits ≤ binary128.infinity →
    binary32.IsRounded (binary128.decode bits) (conversions.hsF128ToF32 bits)
  hsF128ToF64 : ∀ bits, place bits ≤ binary128.infinity →
    binary64.IsRounded (binary128.decode bits) (conversions.hsF128ToF64 bits)

def eraseUnderscores (text : List Byte) : List Byte :=
  text.filter (· ≠ letter '_')

namespace Conversions
variable (conversions : Conversions)

/-- `emitFloatValue` of a literal. -/
def emitFloatLiteral (type : FloatType) (value : List Byte) :
    Except (List Byte) (BitVec type.width) :=
  let text := eraseUnderscores value
  let parsed := conversions.strtod text
  if parsed.length = text.length then .ok (conversions.constantFP type parsed.value)
  else .error ("invalid float literal '".toList.map letter ++ value ++ [letter '\''])

/-- `convertFloatValue` of a binary128 value. -/
def convertFloatValue : (type : FloatType) → Bits → BitVec type.width
  | .half, value => conversions.fpTrunc (conversions.hsF128ToF32 value)
  | .float, value => conversions.hsF128ToF32 value
  | .double, value => conversions.hsF128ToF64 value

/-- The test that a scanned token was a number in range. -/
def accepts {width : ℕ} (token : List Byte) (parsed : ParsedFloat width) : Bool :=
  parsed.length ≠ 0 && parsed.length = token.length && !parsed.rangeError

/-- The branch of `hs_scan_input` for a float, on its token. -/
def scanFloat : (type : FloatType) → List Byte → Option (BitVec type.width)
  | .half, token =>
    let parsed := conversions.strtof token
    if accepts token parsed then some (hsF32ToF16 parsed.value) else none
  | .float, token =>
    let parsed := conversions.strtof token
    if accepts token parsed then some parsed.value else none
  | .double, token =>
    let parsed := conversions.strtod token
    if accepts token parsed then some parsed.value else none

theorem scanFloat_half {token : List Byte}
    (accepted : accepts token (conversions.strtof token) = true) :
    conversions.scanFloat .half token = some (hsF32ToF16 (conversions.strtof token).value) :=
  if_pos accepted

end Conversions

/-! ### Two roundings -/

theorem wider_64_32 : binary64.Wider binary32 := ⟨by decide, by decide, by decide⟩

theorem wider_64_16 : binary64.Wider binary16 := ⟨by decide, by decide, by decide⟩

theorem wider_32_16 : binary32.Wider binary16 := ⟨by decide, by decide, by decide⟩

section
variable {format : Rounding.Format} {width : ℕ} {bits : BitVec width} {negative : Bool}
  {magnitude : ℚ}

/-- A rounded number is not a NaN. -/
theorem place_of_isRounded (rounded : format.IsRounded (.finite negative magnitude) bits) :
    place bits ≤ format.infinity := by
  obtain ⟨-, nearest, -, same⟩ := rounded
  rw [same]
  exact Nat.min_le_right _ _

end

section
variable {conversions : Conversions} {negative : Bool} {magnitude : ℚ}

theorem literal_isRounded_iff (laws : conversions.Lawful) (type : FloatType) {text : List Byte}
    (isNumber : conversions.number (eraseUnderscores text) = some (negative, magnitude)) :
    ∃ bits, conversions.emitFloatLiteral type text = .ok bits ∧
      (type.format.IsRounded (.finite negative magnitude) bits ↔
        (type ≠ .double → ¬binary64.NearMiddle type.format magnitude)) := by
  obtain ⟨rounded, all⟩ := laws.strtod _ _ _ isNumber
  refine ⟨_, if_pos all, ?_⟩
  have number := place_of_isRounded rounded
  have second := laws.constantFP type _ number
  cases type with
  | half =>
      rw [imp_iff_right (by decide)]
      exact wider_64_16.isRounded_iff rounded second
  | float =>
      rw [imp_iff_right (by decide)]
      exact wider_64_32.isRounded_iff rounded second
  | double =>
      refine iff_of_true ?_ (fun other => absurd rfl other)
      have same := Format.eq_of_isRounded number second
      rw [same]
      exact rounded

theorem convert_isRounded_iff (laws : conversions.Lawful) (type : FloatType) {value : Bits}
    (isNumber : binary128.decode value = .finite negative magnitude) :
    type.format.IsRounded (.finite negative magnitude) (conversions.convertFloatValue type value) ↔
      (type = .half → ¬binary32.NearMiddle binary16 magnitude) := by
  obtain ⟨finite, -⟩ := Format.decode_eq_finite_iff.mp isNumber
  have single := laws.hsF128ToF32 value finite.le
  have double := laws.hsF128ToF64 value finite.le
  rw [isNumber] at single double
  cases type with
  | half =>
      rw [imp_iff_right rfl]
      exact wider_32_16.isRounded_iff single (laws.fpTrunc _ (place_of_isRounded single))
  | float => exact iff_of_true single nofun
  | double => exact iff_of_true double nofun

theorem scan_isRounded_iff (laws : conversions.Lawful) (type : FloatType) {token : List Byte}
    {bits : BitVec type.width} (isNumber : conversions.number token = some (negative, magnitude))
    (scanned : conversions.scanFloat type token = some bits) :
    type.format.IsRounded (.finite negative magnitude) bits ↔
      (type = .half → ¬binary32.NearMiddle binary16 magnitude) := by
  obtain ⟨single, -⟩ := laws.strtof _ _ _ isNumber
  obtain ⟨double, -⟩ := laws.strtod _ _ _ isNumber
  cases type with
  | half =>
      obtain ⟨-, same⟩ := Option.ite_none_right_eq_some.mp scanned
      cases same
      rw [imp_iff_right rfl]
      exact wider_32_16.isRounded_iff single (narrows _).rounded
  | float =>
      obtain ⟨-, same⟩ := Option.ite_none_right_eq_some.mp scanned
      cases same
      exact iff_of_true single nofun
  | double =>
      obtain ⟨-, same⟩ := Option.ite_none_right_eq_some.mp scanned
      cases same
      exact iff_of_true double nofun

end

/-! ### Conversions by exact numbers -/

def exponentValue : List Byte → Option ℤ
  | [] => some 0
  | marker :: rest =>
    let (negative, digits) := skipSign rest
    if (marker = letter 'e' ∨ marker = letter 'E') ∧ digits ≠ [] ∧
        digits.all Format.isDigit = true then
      some (if negative then -(decimalNumber digits : ℤ) else decimalNumber digits)
    else none

/-- The number of a decimal text. -/
def decimalOf (text : List Byte) : Option (Bool × ℚ) :=
  let (negative, body) := skipSign text
  let scanned := scanDigits false body
  if scanned.digits = [] then none
  else
    (exponentValue scanned.rest).map fun (exponent : ℤ) =>
      (negative, decimalNumber scanned.digits * 10 ^ (exponent - scanned.fractionalDigits))

def parseDecimal (format : Rounding.Format) (width : ℕ) (text : List Byte) : ParsedFloat width :=
  match decimalOf text with
  | some (negative, magnitude) =>
    ⟨format.encode width (.finite negative magnitude), text.length,
      decide (format.infinity ≤ format.round magnitude)⟩
  | none => ⟨0, 0, false⟩

/-- Conversions that round exact numbers, with decimal texts for those that `strtod` takes. -/
def exactConversions : Conversions where
  number := decimalOf
  strtod := parseDecimal binary64 64
  strtof := parseDecimal binary32 32
  constantFP type bits := type.format.encode type.width (binary64.decode bits)
  fpTrunc bits := binary16.encode 16 (binary32.decode bits)
  hsF128ToF32 bits := binary32.encode 32 (binary128.decode bits)
  hsF128ToF64 bits := binary64.encode 64 (binary128.decode bits)

theorem exponentValue_of_text {text : List Byte} {exponent : ℤ}
    (isExponent : ExponentText text exponent) : exponentValue text = some exponent := by
  cases isExponent with
  | none => rfl
  | @some marker sign digits negative isMarker isSign nonempty all =>
      have skip := skipSign_sign isSign (unsigned_digits all)
      have digits' : digits.all Format.isDigit = true := List.all_eq_true.mpr all
      rw [exponentValue, skip]
      exact if_pos ⟨isMarker, nonempty, digits'⟩

theorem decimalOf_of_text {text : List Byte} {negative : Bool} {magnitude : ℚ}
    (isNumber : DecimalText text negative magnitude) :
    decimalOf text = some (negative, magnitude) := by
  cases isNumber with
  | @number sign whole point fraction tail _ exponent isSign isPoint all nonempty isExponent =>
      have skip := skipSign_sign isSign (@unsigned_number _ _ _ tail isPoint all nonempty)
      rw [decimalOf, skip]
      dsimp only
      rw [scanDigits_number isPoint all isExponent, if_neg nonempty,
        exponentValue_of_text isExponent]
      rfl

theorem decimalOf_nonneg {text : List Byte} {negative : Bool} {magnitude : ℚ}
    (isNumber : decimalOf text = some (negative, magnitude)) : 0 ≤ magnitude := by
  unfold decimalOf at isNumber
  dsimp only at isNumber
  split at isNumber
  · cases isNumber
  · obtain ⟨exponent, -, same⟩ := Option.map_eq_some_iff.mp isNumber
    cases same
    positivity

theorem parseDecimal_isRounded {format : Rounding.Format} {width : ℕ}
    (room : format.infinity + 1 < 2 ^ (width - 1)) {text : List Byte} {negative : Bool}
    {magnitude : ℚ} (isNumber : decimalOf text = some (negative, magnitude)) :
    format.IsRounded (.finite negative magnitude) (parseDecimal format width text).value ∧
      (parseDecimal format width text).length = text.length := by
  have nonneg := decimalOf_nonneg isNumber
  rw [parseDecimal, isNumber]
  refine ⟨Format.isRounded_encode format room ?_, rfl⟩
  rintro _ _ ⟨⟩
  exact nonneg

theorem isRounded_encode_decode {format wide : Rounding.Format} {width width' : ℕ}
    (room : format.infinity + 1 < 2 ^ (width - 1)) (bits : BitVec width') :
    format.IsRounded (wide.decode bits) (format.encode width (wide.decode bits)) := by
  apply Format.isRounded_encode format room
  intro negative magnitude isNumber
  obtain ⟨-, -, rfl⟩ := Format.decode_eq_finite_iff.mp isNumber
  rw [← wide.value_zero]
  exact wide.value_strictMono.monotone (Nat.zero_le _)

theorem exactConversions_lawful : exactConversions.Lawful where
  decimal _ _ _ := decimalOf_of_text
  strtod _ _ _ := parseDecimal_isRounded (by decide)
  strtof _ _ _ := parseDecimal_isRounded (by decide)
  constantFP type bits _ := isRounded_encode_decode (by cases type <;> decide) bits
  fpTrunc bits _ := isRounded_encode_decode (by decide) bits
  hsF128ToF32 bits _ := isRounded_encode_decode (by decide) bits
  hsF128ToF64 bits _ := isRounded_encode_decode (by decide) bits

/-! ### Values above the middle of one and the next binary16 number -/

theorem middle_one : binary16.middle 15360 = 2049 * 2 ^ (-11 : ℤ) := by
  have one := @value16_normal 15 0 (by decide) (by decide)
  have next := @value16_normal 15 1 (by decide) (by decide)
  rw [Format.middle, show 15360 = 15 * 2 ^ 10 + 0 by decide, one,
    show 15 * 2 ^ 10 + 0 + 1 = 15 * 2 ^ 10 + 1 by decide, next]
  norm_num

theorem nearMiddle_above_one {wide : Rounding.Format} {value : ℚ}
    (above : 2049 * 2 ^ (-11 : ℤ) < value)
    (close : value - 2049 * 2 ^ (-11 : ℤ) ≤ 2 ^ (-(wide.fraction : ℤ) - 1)) :
    wide.NearMiddle binary16 value := by
  have exponent : Int.log 2 ((2049 : ℕ) * 2 ^ (-11 : ℤ) : ℚ) = 0 := by
    rw [log_odd (by decide)]
    decide
  refine ⟨15360, by decide, .inr ⟨?_, by decide⟩, ?_⟩
  · rwa [middle_one]
  · rw [middle_one, abs_of_pos (sub_pos.mpr above), show (2049 : ℚ) = (2049 : ℕ) by norm_num,
      exponent, zero_sub]
    exact close

/-- `1.00048828125000000001` -/
def closeText : List Byte := "1.00048828125000000001".toList.map letter

def closeNumber : ℚ := 100048828125000000001 / 10 ^ 20

/-- `1 + 2 ^ -11 + 2 ^ -40` -/
def closeBits : Bits := 0x3fff0020000001000000000000000000#128

theorem closeText_number : DecimalText closeText false closeNumber := by
  have digits : decimalNumber ("1".toList.map letter ++ "00048828125000000001".toList.map letter) =
      100048828125000000001 := by decide
  have number := @DecimalText.number [] ("1".toList.map letter) [letter '.']
    ("00048828125000000001".toList.map letter) [] false 0 .none (.inr rfl) (by decide) (by decide)
    .none
  have same : ((100048828125000000001 : ℕ) : ℚ) *
      10 ^ ((0 : ℤ) - ("00048828125000000001".toList.map letter).length) = closeNumber := by
    change _ * (10 : ℚ) ^ (-20 : ℤ) = _
    norm_num [closeNumber]
  rw [digits, same] at number
  exact number

theorem closeNumber_near {wide : Rounding.Format} (short : wide.fraction ≤ 60) :
    wide.NearMiddle binary16 closeNumber := by
  apply nearMiddle_above_one
  · norm_num [closeNumber]
  · calc
      closeNumber - 2049 * 2 ^ (-11 : ℤ) ≤ 2 ^ (-61 : ℤ) := by norm_num [closeNumber]
      _ ≤ 2 ^ (-(wide.fraction : ℤ) - 1) := zpow_le_zpow_right₀ one_le_two (by omega)

theorem closeBits_decode :
    binary128.decode closeBits = .finite false (2049 * 2 ^ (-11 : ℤ) + 2 ^ (-40 : ℤ)) := by
  refine Format.decode_eq_finite_iff.mpr ⟨by decide, by decide, ?_⟩
  rw [@value_pattern closeBits 16382 (2 ^ 112 + 2 ^ 101 + 2 ^ 72) (.inr (by decide)) (by decide)
    (by decide)]
  norm_num

theorem closeText_accepted :
    Conversions.accepts closeText (exactConversions.strtof closeText) = true := by
  have near := binary32.nearest_round (show 0 ≤ closeNumber by norm_num [closeNumber])
  have two := @value32_normal 128 0 (by decide) (by decide)
  have small : binary32.round closeNumber ≤ 128 * 2 ^ 23 + 0 := by
    apply near.le_rung binary32.value_strictMono
    rw [two]
    norm_num [closeNumber]
  have inRange : ¬binary32.infinity ≤ binary32.round closeNumber := by
    rw [show binary32.infinity = 255 * 2 ^ 23 from rfl]
    omega
  change Conversions.accepts closeText (parseDecimal binary32 32 closeText) = true
  rw [parseDecimal, decimalOf_of_text closeText_number]
  dsimp only
  rw [decide_eq_false inRange]
  decide

/-- Each path rounds once exactly where the value is not near a middle of the narrow format, as the
format in between sees it. -/
theorem floats_isRounded_iff {conversions : Conversions} (laws : conversions.Lawful)
    (type : FloatType) (negative : Bool) (magnitude : ℚ) :
    (∀ text, conversions.number (eraseUnderscores text) = some (negative, magnitude) →
      ∃ bits, conversions.emitFloatLiteral type text = .ok bits ∧
        (type.format.IsRounded (.finite negative magnitude) bits ↔
          (type ≠ .double → ¬binary64.NearMiddle type.format magnitude))) ∧
    (∀ value : Bits, binary128.decode value = .finite negative magnitude →
      (type.format.IsRounded (.finite negative magnitude)
          (conversions.convertFloatValue type value) ↔
        (type = .half → ¬binary32.NearMiddle binary16 magnitude))) ∧
    ∀ token bits, conversions.number token = some (negative, magnitude) →
      conversions.scanFloat type token = some bits →
      (type.format.IsRounded (.finite negative magnitude) bits ↔
        (type = .half → ¬binary32.NearMiddle binary16 magnitude)) :=
  ⟨fun _ => literal_isRounded_iff laws type, fun _ => convert_isRounded_iff laws type,
    fun _ _ => scan_isRounded_iff laws type⟩

theorem floats_isRounded_close : ∃ bits,
    exactConversions.emitFloatLiteral .double closeText = .ok bits ∧
      binary64.IsRounded (.finite false closeNumber) bits := by
  obtain ⟨literal, -⟩ := floats_isRounded_iff exactConversions_lawful .double false closeNumber
  have same : eraseUnderscores closeText = closeText := by decide
  obtain ⟨bits, emitted, rounded⟩ :=
    literal closeText (same ▸ decimalOf_of_text closeText_number)
  exact ⟨bits, emitted, rounded.mpr fun other => absurd rfl other⟩

theorem floats_not_isRounded :
    (∃ bits, exactConversions.emitFloatLiteral .half closeText = .ok bits ∧
      ¬binary16.IsRounded (.finite false closeNumber) bits) ∧
    ¬binary16.IsRounded (binary128.decode closeBits)
      (exactConversions.convertFloatValue .half closeBits) ∧
    ∃ bits, exactConversions.scanFloat .half closeText = some bits ∧
      ¬binary16.IsRounded (.finite false closeNumber) bits := by
  have isNumber : exactConversions.number closeText = some (false, closeNumber) :=
    decimalOf_of_text closeText_number
  refine ⟨?_, ?_, ?_⟩
  · have same : eraseUnderscores closeText = closeText := by decide
    obtain ⟨bits, emitted, rounded⟩ :=
      literal_isRounded_iff exactConversions_lawful .half (same ▸ isNumber)
    refine ⟨bits, emitted, fun once => ?_⟩
    exact rounded.mp once (by decide) (closeNumber_near (by decide))
  · rw [closeBits_decode]
    intro once
    refine (convert_isRounded_iff exactConversions_lawful .half closeBits_decode).mp once rfl ?_
    apply nearMiddle_above_one
    · exact lt_add_of_pos_right _ (by positivity)
    · rw [add_sub_cancel_left]
      exact zpow_le_zpow_right₀ one_le_two (by decide)
  · have scanned := exactConversions.scanFloat_half closeText_accepted
    refine ⟨_, scanned, fun once => ?_⟩
    exact (scan_isRounded_iff exactConversions_lawful .half isNumber scanned).mp once rfl
      (closeNumber_near (by decide))

end HitSimple.Floating

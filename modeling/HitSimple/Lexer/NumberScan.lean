import HitSimple.Lexer.Numbers
import Mathlib.Data.List.TakeWhile

namespace HitSimple.Lexer
open Literal (Spelling)
open Lexing

theorem isNumberContinue_of_isDigit {ch : Char} (digit : isDigit ch = true) :
    isNumberContinue ch = true := by
  simp [isNumberContinue, isIdentContinue, digit]

theorem isNumberContinue_of_isAlpha {ch : Char} (alpha : isAlpha ch = true) :
    isNumberContinue ch = true := by
  simp [isNumberContinue, isIdentContinue, alpha]

/-- A digit test of one of the branches. -/
structure IsDigitTest (isValidDigit : Char → Bool) : Prop where
  separator : isValidDigit '_' = false
  continues : ∀ ch, isValidDigit ch = true → isNumberContinue ch = true

theorem isDigitTest_decimal : IsDigitTest isDigit where
  separator := by decide
  continues _ := isNumberContinue_of_isDigit

theorem isDigitTest_hex : IsDigitTest isHexDigit where
  separator := by decide
  continues ch digit := by
    simp only [isHexDigit, isDigit, Bool.or_eq_true, decide_eq_true_eq] at digit
    rcases digit with (digit | lower) | upper
    · exact isNumberContinue_of_isDigit (decide_eq_true digit)
    · apply isNumberContinue_of_isAlpha
      have : ch ≤ 'z' := Char.le_trans lower.2 (show 'f' ≤ 'z' by decide)
      simp [isAlpha, lower.1, this]
    · apply isNumberContinue_of_isAlpha
      have : ch ≤ 'Z' := Char.le_trans upper.2 (show 'F' ≤ 'Z' by decide)
      simp [isAlpha, upper.1, this]

theorem isDigitTest_binary : IsDigitTest isBinaryDigit where
  separator := by decide
  continues ch digit := by
    simp only [isBinaryDigit, decide_eq_true_eq] at digit
    rcases digit with rfl | rfl <;> decide

theorem isDigitTest_octal : IsDigitTest isOctalDigit where
  separator := by decide
  continues ch digit := by
    simp only [isOctalDigit, decide_eq_true_eq] at digit
    apply isNumberContinue_of_isDigit
    have : ch ≤ '9' := Char.le_trans digit.2 (show '7' ≤ '9' by decide)
    simp [isDigit, digit.1, this]

theorem Radix.isDigitTest {marker : Char} {isValidDigit : Char → Bool}
    (radix : Radix marker isValidDigit) : IsDigitTest isValidDigit := by
  cases radix with
  | hex => exact isDigitTest_hex
  | upperHex => exact isDigitTest_hex
  | short radix =>
      cases radix with
      | binary | upperBinary => exact isDigitTest_binary
      | octal | upperOctal => exact isDigitTest_octal

section
variable {isValidDigit : Char → Bool}

theorem consumeDigits_append {run rest : Spelling} (digits : IsOptional (Digits isValidDigit) run)
    (stops : ∀ ch, rest.head? = some ch → isDigitOrSeparator isValidDigit ch = false) :
    consumeDigits isValidDigit (run ++ rest) = (run, rest) := by
  have accepted : ∀ ch ∈ run, isDigitOrSeparator isValidDigit ch = true := by
    rcases digits with rfl | digits
    · exact fun _ member => absurd member List.not_mem_nil
    · intro ch member
      rcases digits.mem ch member with digit | separator
      · simp [isDigitOrSeparator, digit]
      · simp [isDigitOrSeparator, separator]
  obtain ⟨taken, dropped⟩ := takeWhile_append accepted stops
  rw [consumeDigits, taken, dropped]

theorem consumeDigits_join (text : Spelling) :
    (consumeDigits isValidDigit text).1 ++ (consumeDigits isValidDigit text).2 = text :=
  List.takeWhile_append_dropWhile

theorem consumeDigits_stops (text : Spelling) {ch : Char}
    (first : (consumeDigits isValidDigit text).2.head? = some ch) :
    isDigitOrSeparator isValidDigit ch = false :=
  head?_dropWhile text first

theorem numberRun_continues {run rest : Spelling}
    (continues : ∀ ch ∈ run, isNumberContinue ch = true) (more : NumberRun rest) :
    NumberRun (run ++ rest) := by
  induction run with
  | nil => exact more
  | cons ch run ih =>
      exact .step (continues ch List.mem_cons_self)
        (ih fun other member => continues other (List.mem_cons_of_mem _ member))

theorem numberRun_append {run rest : Spelling} (test : IsDigitTest isValidDigit)
    (accepted : ∀ ch ∈ run, isDigitOrSeparator isValidDigit ch = true) (more : NumberRun rest) :
    NumberRun (run ++ rest) := by
  apply numberRun_continues _ more
  intro ch member
  have here := accepted ch member
  simp only [isDigitOrSeparator, Bool.or_eq_true, decide_eq_true_eq] at here
  rcases here with digit | rfl
  · exact test.continues ch digit
  · decide

theorem mem_consumeDigits (text : Spelling) :
    ∀ ch ∈ (consumeDigits isValidDigit text).1, isDigitOrSeparator isValidDigit ch = true :=
  fun _ => List.mem_takeWhile_imp

end

/-- What a valid mantissa reads as. -/
inductive Mantissa : Spelling → Bool → Prop where
  | fraction {digits : Spelling} (valid : Digits isDigit digits) : Mantissa ('.' :: digits) true
  | radix {marker : Char} {isValidDigit : Char → Bool} {digits : Spelling}
      (radix : ShortRadix marker isValidDigit) (valid : Digits isValidDigit digits) :
      Mantissa ('0' :: marker :: digits) false
  | whole {digits : Spelling} (valid : PlainDigits digits) : Mantissa digits false
  | point {digits fraction : Spelling} (valid : PlainDigits digits)
      (fractionValid : IsOptional (Digits isDigit) fraction) :
      Mantissa (digits ++ '.' :: fraction) true

def IsHexLiteral (text : Spelling) : Prop :=
  ∃ marker digits, (marker = 'x' ∨ marker = 'X') ∧ Digits isHexDigit digits ∧
    text = '0' :: marker :: digits

/-- What the scanners of the mantissa keep. Hexadecimal digits take an exponent marker with
them. -/
structure ScansMantissa (text : Spelling) (scan : Scan) : Prop where
  joins : scan.lexeme ++ scan.rest = text
  runs : ∀ rest, NumberRun rest → NumberRun (scan.lexeme ++ rest)
  reads : scan.valid = true → Mantissa scan.lexeme scan.isFloat ∨
    (IsHexLiteral scan.lexeme ∧ scan.isFloat = false ∧
      ∀ ch, scan.rest.head? = some ch → isExponentMarker ch = false)

theorem scansMantissa_fraction (text : Spelling) :
    ScansMantissa ('.' :: text) (scanFraction text) where
  joins := congrArg (List.cons '.') (consumeDigits_join text)
  runs rest more := .step (by decide) (numberRun_append isDigitTest_decimal (mem_consumeDigits text) more)
  reads valid := .inl (.fraction ((validSeparatedDigits_iff isDigitTest_decimal.separator _).mp valid))

theorem scansMantissa_radix {marker : Char} {isValidDigit : Char → Bool}
    (radix : ShortRadix marker isValidDigit) (text : Spelling) :
    ScansMantissa ('0' :: marker :: text) (scanRadix isValidDigit '0' marker text) where
  joins := congrArg (List.cons '0' <| List.cons marker ·) (consumeDigits_join text)
  runs rest more := by
    refine .step (by decide) (.step ?_ (numberRun_append (Radix.short radix).isDigitTest
      (mem_consumeDigits text) more))
    cases radix <;> decide
  reads valid := .inl (.radix radix
    ((validSeparatedDigits_iff (Radix.short radix).isDigitTest.separator _).mp valid))

theorem scansMantissa_hex {marker : Char} (hex : marker = 'x' ∨ marker = 'X') (text : Spelling) :
    ScansMantissa ('0' :: marker :: text) (scanRadix isHexDigit '0' marker text) where
  joins := congrArg (List.cons '0' <| List.cons marker ·) (consumeDigits_join text)
  runs rest more := by
    refine .step (by decide) (.step ?_ (numberRun_append isDigitTest_hex (mem_consumeDigits text) more))
    rcases hex with rfl | rfl <;> decide
  reads valid := by
    refine .inr ⟨⟨marker, _, hex, ?_, rfl⟩, rfl, ?_⟩
    · exact (validSeparatedDigits_iff isDigitTest_hex.separator _).mp valid
    · intro ch first
      have stopped := consumeDigits_stops text first
      by_contra exponent
      simp only [isExponentMarker, Bool.not_eq_false, decide_eq_true_eq] at exponent
      rcases exponent with rfl | rfl <;> exact absurd stopped (by decide)

theorem plainDigits_iff {digits rest : Spelling} :
    (validSeparatedDigits isDigit digits &&
        !((digits ++ rest).head? = some '0' && digits.length ≠ 1)) = true ↔
      PlainDigits digits := by
  rw [Bool.and_eq_true, validSeparatedDigits_iff isDigitTest_decimal.separator, PlainDigits]
  apply and_congr_right
  intro valid
  obtain ⟨first, more, rfl, _⟩ := valid.head
  by_cases zero : first = '0'
  · subst zero
    simp
  · simp [zero]

theorem scansMantissa_decimal (text : Spelling) : ScansMantissa text (scanDecimal text) := by
  have joins := @consumeDigits_join isDigit text
  have members := @mem_consumeDigits isDigit text
  unfold scanDecimal
  generalize consumed : consumeDigits isDigit text = parts at joins members
  obtain ⟨digits, rest⟩ := parts
  dsimp only at joins members ⊢
  have plain := @plainDigits_iff digits rest
  rw [joins] at plain
  split
  · rename_i fractionText
    refine ⟨?_, ?_, ?_⟩
    · dsimp only
      rw [List.append_assoc, List.cons_append, consumeDigits_join, joins]
    · intro more run
      dsimp only
      rw [List.append_assoc]
      refine numberRun_append isDigitTest_decimal members (.step (by decide) ?_)
      exact numberRun_append isDigitTest_decimal (mem_consumeDigits _) run
    · intro valid
      dsimp only at valid ⊢
      rw [Bool.and_eq_true, plain, Bool.or_eq_true,
        validSeparatedDigits_iff isDigitTest_decimal.separator, List.isEmpty_iff] at valid
      exact .inl (.point valid.1 valid.2)
  · refine ⟨joins, ?_, ?_⟩
    · intro more run
      exact numberRun_append isDigitTest_decimal members run
    · intro valid
      exact .inl (.whole (plain.mp valid))

theorem scansMantissa (text : Spelling) : ScansMantissa text (scanMantissa text) := by
  unfold scanMantissa
  split
  · exact scansMantissa_fraction _
  · exact scansMantissa_hex (.inl rfl) _
  · exact scansMantissa_hex (.inr rfl) _
  · exact scansMantissa_radix .binary _
  · exact scansMantissa_radix .upperBinary _
  · exact scansMantissa_radix .octal _
  · exact scansMantissa_radix .upperOctal _
  · exact scansMantissa_decimal _

/-- What the whole scan keeps: behind the mantissa an exponent, and nothing more. -/
structure ScansNumber (text : Spelling) (scan : Scan) : Prop where
  joins : scan.lexeme ++ scan.rest = text
  runs : ∀ rest, NumberRun rest → NumberRun (scan.lexeme ++ rest)
  reads : scan.valid = true →
    (∃ mantissa exponent isFloat, Mantissa mantissa isFloat ∧ IsOptional IsExponent exponent ∧
      scan.lexeme = mantissa ++ exponent ∧
      scan.isFloat = (isFloat || !exponent.isEmpty)) ∨
    (IsHexLiteral scan.lexeme ∧ scan.isFloat = false)

theorem splitSign_join (text : Spelling) : (splitSign text).1 ++ (splitSign text).2 = text := by
  unfold splitSign
  split <;> rfl

theorem isSign_splitSign (text : Spelling) : IsSign (splitSign text).1 := by
  unfold splitSign
  split
  · exact .inr (.inl rfl)
  · exact .inr (.inr rfl)
  · exact .inl rfl

theorem numberRun_exponent {marker : Char} (exponent : isExponentMarker marker = true)
    {sign rest : Spelling} (signed : IsSign sign) (run : NumberRun rest) :
    NumberRun (marker :: (sign ++ rest)) := by
  rcases signed with rfl | rfl | rfl
  · refine .step ?_ run
    simp only [isExponentMarker, decide_eq_true_eq] at exponent
    rcases exponent with rfl | rfl <;> decide
  · exact .sign exponent (.inl rfl) run
  · exact .sign exponent (.inr rfl) run

/-- A scan that finds no exponent. -/
theorem ScansMantissa.scansNumber {text : Spelling} {scan : Scan}
    (scans : ScansMantissa text scan) : ScansNumber text scan where
  joins := scans.joins
  runs := scans.runs
  reads read := by
    rcases scans.reads read with mantissa | ⟨hex, integer, _⟩
    · exact .inl ⟨scan.lexeme, [], scan.isFloat, mantissa, .inl rfl, (List.append_nil _).symm,
        by simp⟩
    · exact .inr ⟨hex, integer⟩

theorem scansNumber_exponent {text : Spelling} {scan : Scan} (scans : ScansMantissa text scan) :
    ScansNumber text (scanExponent scan) := by
  obtain ⟨lexeme, rest, valid, isFloat⟩ := scan
  unfold scanExponent
  split
  · exact scans.scansNumber
  rename_i marker rest same
  dsimp only at same
  subst same
  split
  · rename_i exponent
    have split := splitSign_join rest
    have signed := isSign_splitSign rest
    generalize splitSign rest = parts at split signed
    obtain ⟨sign, tail⟩ := parts
    have consumed := @consumeDigits_join isDigit tail
    have members := @mem_consumeDigits isDigit tail
    dsimp only at split signed ⊢
    refine ⟨?_, ?_, ?_⟩
    · rw [← scans.joins, ← split, ← consumed]
      simp only [List.append_assoc, List.cons_append, consumed]
    · intro more run
      rw [List.append_assoc, List.cons_append, List.append_assoc]
      apply scans.runs
      exact numberRun_exponent exponent signed (numberRun_append isDigitTest_decimal members run)
    · intro read
      rw [Bool.and_eq_true, validSeparatedDigits_iff isDigitTest_decimal.separator] at read
      rcases scans.reads read.1 with mantissa | ⟨_, _, other⟩
      · exact .inl ⟨lexeme, _, isFloat, mantissa,
          .inr ⟨marker, sign, _, exponent, signed, read.2, rfl⟩, rfl, by simp⟩
      · rw [other marker rfl] at exponent
        cases exponent
  · exact scans.scansNumber

theorem ScansNumber.trailing {text : Spelling} {scan : Scan} (scans : ScansNumber text scan) :
    ScansNumber text (scanTrailing scan) := by
  unfold scanTrailing
  refine ⟨?_, ?_, ?_⟩
  · dsimp only
    rw [List.append_assoc, List.takeWhile_append_dropWhile, scans.joins]
  · intro more run
    dsimp only
    rw [List.append_assoc]
    apply scans.runs
    exact numberRun_continues (fun _ => List.mem_takeWhile_imp) run
  · intro read
    dsimp only at read ⊢
    rw [Bool.and_eq_true, List.isEmpty_iff] at read
    rw [read.2, List.append_nil]
    exact scans.reads read.1

theorem scanNumber_scans (text : Spelling) :
    ScansNumber text (scanTrailing (scanExponent (scanMantissa text))) :=
  (scansNumber_exponent (scansMantissa text)).trailing

theorem scanNumber_stops (text : Spelling) : Stops (scanNumber text).rest :=
  fun _ first => head?_dropWhile _ first

/-- A number token of a kind is a literal of that kind, or a binary or octal literal with an
exponent. -/
theorem literal_of_scanNumber (text : Spelling) :
    ((scanNumber text).kind = .integer → IsIntegerLiteral PlainDigits (scanNumber text).lexeme) ∧
    ((scanNumber text).kind = .float → IsFloatLiteral PlainDigits (scanNumber text).lexeme ∨
      IsRadixExponent (scanNumber text).lexeme) := by
  have scans := scanNumber_scans text
  unfold scanNumber
  generalize scanTrailing (scanExponent (scanMantissa text)) = scan at scans
  obtain ⟨lexeme, rest, valid, isFloat⟩ := scan
  cases valid with
  | false => simp
  | true =>
      rcases scans.reads rfl with ⟨mantissa, exponent, mantissaFloat, read, optional, rfl, kind⟩ |
        ⟨⟨marker, digits, prefixed, valid, rfl⟩, rfl⟩
      · dsimp only at kind ⊢
        subst kind
        cases read with
        | fraction digits =>
            refine ⟨by simp, fun _ => .inl (.inl ⟨_, exponent, digits, optional, rfl⟩)⟩
        | @radix marker isValidDigit digits radix valid =>
            rcases optional with rfl | present
            · refine ⟨fun _ => .inr ⟨marker, isValidDigit, digits, .short radix, valid, ?_⟩, by simp⟩
              simp
            · refine ⟨?_, fun _ => .inr ⟨marker, isValidDigit, digits, exponent, radix, valid,
                present, rfl⟩⟩
              obtain ⟨_, _, _, _, _, _, rfl⟩ := present
              simp
        | whole digits =>
            rcases optional with rfl | present
            · refine ⟨fun _ => .inl ?_, by simp⟩
              rwa [List.append_nil]
            · refine ⟨?_, fun _ => .inl (.inr (.inr ⟨mantissa, exponent, digits, present, rfl⟩))⟩
              obtain ⟨_, _, _, _, _, _, rfl⟩ := present
              simp
        | @point digits fraction valid fractionValid =>
            refine ⟨by simp, fun _ => .inl (.inr (.inl ⟨digits, fraction, exponent, valid,
              fractionValid, optional, ?_⟩))⟩
            simp
      · refine ⟨fun _ => .inr ?_, by simp⟩
        rcases prefixed with rfl | rfl
        · exact ⟨_, _, digits, .hex, valid, rfl⟩
        · exact ⟨_, _, digits, .upperHex, valid, rfl⟩

end HitSimple.Lexer

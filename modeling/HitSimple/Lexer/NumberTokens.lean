import HitSimple.Lexer.NumberScan

namespace HitSimple.Lexer
open Literal (Spelling)
open Lexing

theorem isNumberContinue_of_isExponentMarker {ch : Char} (marker : isExponentMarker ch = true) :
    isNumberContinue ch = true := by
  simp only [isExponentMarker, decide_eq_true_eq] at marker
  rcases marker with rfl | rfl <;> decide

theorem Stops.not_digit {rest : Spelling} (stops : Stops rest) {isValidDigit : Char → Bool}
    (test : IsDigitTest isValidDigit) :
    ∀ ch, rest.head? = some ch → isDigitOrSeparator isValidDigit ch = false := by
  intro ch first
  have stopped := stops ch first
  by_contra accepted
  simp only [isDigitOrSeparator, Bool.not_eq_false, Bool.or_eq_true, decide_eq_true_eq] at accepted
  rcases accepted with digit | rfl
  · rw [test.continues ch digit] at stopped
    cases stopped
  · exact absurd stopped (by decide)

/-- What may follow a decimal mantissa: an exponent or the end of the number. -/
def Ends (tail : Spelling) : Prop :=
  ∀ ch, tail.head? = some ch → isNumberContinue ch = false ∨ isExponentMarker ch = true

theorem Stops.ends {rest : Spelling} (stops : Stops rest) : Ends rest :=
  fun ch first => .inl (stops ch first)

theorem ends_exponent {exponent rest : Spelling} (optional : IsOptional IsExponent exponent)
    (stops : Stops rest) : Ends (exponent ++ rest) := by
  rcases optional with rfl | ⟨marker, sign, digits, isMarker, _, _, rfl⟩
  · exact stops.ends
  · intro ch first
    cases first
    exact .inr isMarker

theorem Ends.not_digit {tail : Spelling} (ends : Ends tail) :
    ∀ ch, tail.head? = some ch → isDigitOrSeparator isDigit ch = false := by
  intro ch first
  rcases ends ch first with stops | marker
  · by_contra accepted
    simp only [isDigitOrSeparator, Bool.not_eq_false, Bool.or_eq_true,
      decide_eq_true_eq] at accepted
    rcases accepted with digit | rfl
    · rw [isNumberContinue_of_isDigit digit] at stops
      cases stops
    · exact absurd stops (by decide)
  · simp only [isExponentMarker, decide_eq_true_eq] at marker
    rcases marker with rfl | rfl <;> decide

theorem scanFraction_append {fraction tail : Spelling} (digits : Digits isDigit fraction)
    (ends : Ends tail) :
    scanFraction (fraction ++ tail) = ⟨'.' :: fraction, tail, true, true⟩ := by
  rw [scanFraction, consumeDigits_append (.inr digits) ends.not_digit]
  dsimp only
  rw [(validSeparatedDigits_iff isDigitTest_decimal.separator _).mpr digits]

theorem scanRadix_append {isValidDigit : Char → Bool} (test : IsDigitTest isValidDigit)
    {digits rest : Spelling} (valid : Digits isValidDigit digits) (stops : Stops rest)
    (zero marker : Char) :
    scanRadix isValidDigit zero marker (digits ++ rest) =
      ⟨zero :: marker :: digits, rest, true, false⟩ := by
  rw [scanRadix, consumeDigits_append (.inr valid) (stops.not_digit test)]
  dsimp only
  rw [(validSeparatedDigits_iff test.separator _).mpr valid]

theorem scanMantissa_radix {marker : Char} {isValidDigit : Char → Bool}
    (radix : Radix marker isValidDigit) (text : Spelling) :
    scanMantissa ('0' :: marker :: text) = scanRadix isValidDigit '0' marker text := by
  cases radix with
  | hex | upperHex => rfl
  | short radix => cases radix <;> rfl

theorem scanMantissa_decimal {digits tail : Spelling} (plain : PlainDigits digits)
    (unprefixed : ∀ ch, tail.head? = some ch → ch ∉ ['x', 'X', 'b', 'B', 'o', 'O']) :
    scanMantissa (digits ++ tail) = scanDecimal (digits ++ tail) := by
  obtain ⟨valid, alone⟩ := plain
  obtain ⟨first, more, rfl, digit⟩ := valid.head
  have notPoint : first ≠ '.' := by
    rintro rfl
    exact absurd digit (by decide)
  by_cases zero : first = '0'
  · subst zero
    have single := alone rfl
    obtain rfl : more = [] := by simpa using single
    cases tail with
    | nil => rfl
    | cons ch tail =>
        have other := unprefixed ch rfl
        simp only [List.mem_cons, List.not_mem_nil, or_false, not_or] at other
        unfold scanMantissa
        split <;> simp_all
  · unfold scanMantissa
    split <;> simp_all

theorem ends_unprefixed {tail : Spelling} (ends : Ends tail) :
    ∀ ch, tail.head? = some ch → ch ∉ ['x', 'X', 'b', 'B', 'o', 'O'] := by
  intro ch first member
  simp only [List.mem_cons, List.not_mem_nil, or_false] at member
  have ended := ends ch first
  rcases member with rfl | rfl | rfl | rfl | rfl | rfl <;> exact absurd ended (by decide)

theorem scanMantissa_whole {digits tail : Spelling} (plain : PlainDigits digits)
    (ends : Ends tail) : scanMantissa (digits ++ tail) = ⟨digits, tail, true, false⟩ := by
  rw [scanMantissa_decimal plain (ends_unprefixed ends), scanDecimal,
    consumeDigits_append (.inr plain.1) ends.not_digit]
  dsimp only
  rw [plainDigits_iff.mpr plain]
  split
  · rename_i rest
    have ended := ends '.' rfl
    exact absurd ended (by decide)
  · rfl

theorem scanMantissa_point {digits fraction tail : Spelling} (plain : PlainDigits digits)
    (optional : IsOptional (Digits isDigit) fraction) (ends : Ends tail) :
    scanMantissa (digits ++ '.' :: (fraction ++ tail)) =
      ⟨digits ++ '.' :: fraction, tail, true, true⟩ := by
  have point : ∀ ch, ('.' :: (fraction ++ tail)).head? = some ch →
      isDigitOrSeparator isDigit ch = false := by
    intro ch first
    cases first
    decide
  rw [scanMantissa_decimal plain, scanDecimal, consumeDigits_append (.inr plain.1) point]
  · dsimp only
    rw [plainDigits_iff.mpr plain]
    simp only [consumeDigits_append optional ends.not_digit]
    rcases optional with rfl | valid
    · rfl
    · rw [(validSeparatedDigits_iff isDigitTest_decimal.separator _).mpr valid, Bool.or_true]
      rfl
  · intro ch first
    cases first
    decide

theorem splitSign_append {sign digits : Spelling} (signed : IsSign sign)
    (valid : Digits isDigit digits) (rest : Spelling) :
    splitSign (sign ++ digits ++ rest) = (sign, digits ++ rest) := by
  rcases signed with rfl | rfl | rfl
  · obtain ⟨first, more, rfl, digit⟩ := valid.head
    rw [List.nil_append, List.cons_append, splitSign]
    · rintro rest same
      cases same
      exact absurd digit (by decide)
    · rintro rest same
      cases same
      exact absurd digit (by decide)
  · rfl
  · rfl

theorem scanExponent_append {exponent rest : Spelling} (present : IsExponent exponent)
    (stops : Stops rest) (lexeme : Spelling) (isFloat : Bool) :
    scanExponent ⟨lexeme, exponent ++ rest, true, isFloat⟩ =
      ⟨lexeme ++ exponent, rest, true, true⟩ := by
  obtain ⟨marker, sign, digits, isMarker, signed, valid, rfl⟩ := present
  rw [scanExponent, List.cons_append]
  dsimp only
  rw [if_pos isMarker, splitSign_append signed valid]
  dsimp only
  rw [consumeDigits_append (.inr valid) (stops.not_digit isDigitTest_decimal)]
  dsimp only
  rw [(validSeparatedDigits_iff isDigitTest_decimal.separator _).mpr valid]
  rfl

theorem scanExponent_stops {rest : Spelling} (stops : Stops rest) (lexeme : Spelling)
    (valid isFloat : Bool) :
    scanExponent ⟨lexeme, rest, valid, isFloat⟩ = ⟨lexeme, rest, valid, isFloat⟩ := by
  unfold scanExponent
  split
  · rfl
  · rename_i marker tail same
    dsimp only at same
    subst same
    apply if_neg
    intro exponent
    have stopped := stops marker rfl
    rw [isNumberContinue_of_isExponentMarker exponent] at stopped
    cases stopped

theorem scanTrailing_stops {rest : Spelling} (stops : Stops rest) (lexeme : Spelling)
    (valid isFloat : Bool) :
    scanTrailing ⟨lexeme, rest, valid, isFloat⟩ = ⟨lexeme, rest, valid, isFloat⟩ := by
  have accepted : ∀ ch ∈ ([] : Spelling), isNumberContinue ch = true := by simp
  obtain ⟨taken, dropped⟩ := takeWhile_append accepted stops
  rw [List.nil_append] at taken dropped
  rw [scanTrailing]
  dsimp only
  rw [taken, dropped, List.append_nil]
  simp

/-- A literal in front of a text that does not continue it is read as one token. -/
theorem scanNumber_integer {text rest : Spelling} (literal : IsIntegerLiteral PlainDigits text)
    (stops : Stops rest) : scanNumber (text ++ rest) = ⟨.integer, text, rest⟩ := by
  rcases literal with plain | ⟨marker, isValidDigit, digits, radix, valid, rfl⟩
  · rw [scanNumber, scanMantissa_whole plain stops.ends, scanExponent_stops stops,
      scanTrailing_stops stops]
    rfl
  · rw [scanNumber, List.cons_append, List.cons_append, scanMantissa_radix radix,
      scanRadix_append radix.isDigitTest valid stops, scanExponent_stops stops,
      scanTrailing_stops stops]
    rfl

theorem scanExponent_optional {exponent rest : Spelling}
    (optional : IsOptional IsExponent exponent) (stops : Stops rest) (lexeme : Spelling) :
    scanExponent ⟨lexeme, exponent ++ rest, true, true⟩ =
      ⟨lexeme ++ exponent, rest, true, true⟩ := by
  rcases optional with rfl | present
  · rw [List.nil_append, List.append_nil, scanExponent_stops stops]
  · exact scanExponent_append present stops lexeme true

theorem scanNumber_float {text rest : Spelling} (literal : IsFloatLiteral PlainDigits text)
    (stops : Stops rest) : scanNumber (text ++ rest) = ⟨.float, text, rest⟩ := by
  rcases literal with ⟨fraction, exponent, valid, optional, rfl⟩ |
    ⟨whole, fraction, exponent, plain, optionalFraction, optional, rfl⟩ |
    ⟨whole, exponent, plain, present, rfl⟩
  · have mantissa : scanMantissa ('.' :: (fraction ++ (exponent ++ rest))) =
        ⟨'.' :: fraction, exponent ++ rest, true, true⟩ :=
      scanFraction_append valid (ends_exponent optional stops)
    rw [scanNumber, List.cons_append, List.cons_append, List.append_assoc, mantissa,
      scanExponent_optional optional stops, scanTrailing_stops stops]
    rfl
  · rw [scanNumber, List.append_assoc, List.append_assoc, List.cons_append,
      scanMantissa_point plain optionalFraction (ends_exponent optional stops),
      scanExponent_optional optional stops, scanTrailing_stops stops, List.append_assoc]
    rfl
  · rw [scanNumber, List.append_assoc,
      scanMantissa_whole plain (ends_exponent (.inr present) stops),
      scanExponent_append present stops, scanTrailing_stops stops]
    rfl

theorem scanNumber_join (text : Spelling) :
    (scanNumber text).lexeme ++ (scanNumber text).rest = text :=
  (scanNumber_scans text).joins

theorem scanNumber_kind_of_integer {text : Spelling}
    (literal : IsIntegerLiteral PlainDigits (scanNumber text).lexeme) :
    (scanNumber text).kind = .integer := by
  have again := scanNumber_integer literal (scanNumber_stops text)
  rw [scanNumber_join] at again
  exact congrArg NumberToken.kind again

theorem scanNumber_kind_of_float {text : Spelling}
    (literal : IsFloatLiteral PlainDigits (scanNumber text).lexeme) :
    (scanNumber text).kind = .float := by
  have again := scanNumber_float literal (scanNumber_stops text)
  rw [scanNumber_join] at again
  exact congrArg NumberToken.kind again

section
variable {base : Nat} {isValidDigit : Char → Bool}

/-- The digits of a branch have values below its base. -/
def DigitsBelow (isValidDigit : Char → Bool) (base : Nat) : Prop :=
  ∀ ch, isValidDigit ch = true → ∃ digit, Literal.digitValue ch = some digit ∧ digit < base

theorem digitsBelow_decimal : DigitsBelow isDigit 10 := by
  intro ch digit
  simp only [isDigit, decide_eq_true_eq] at digit
  refine ⟨ch.toNat - '0'.toNat, by rw [Literal.digitValue, if_pos digit], ?_⟩
  have upper : ch.toNat ≤ '9'.toNat := digit.2
  have nine : '9'.toNat = 57 := rfl
  have zero : '0'.toNat = 48 := rfl
  omega

theorem digitsBelow_octal : DigitsBelow isOctalDigit 8 := by
  intro ch digit
  simp only [isOctalDigit, decide_eq_true_eq] at digit
  have decimal : '0' ≤ ch ∧ ch ≤ '9' :=
    ⟨digit.1, Char.le_trans digit.2 (show '7' ≤ '9' by decide)⟩
  refine ⟨ch.toNat - '0'.toNat, by rw [Literal.digitValue, if_pos decimal], ?_⟩
  have upper : ch.toNat ≤ '7'.toNat := digit.2
  have seven : '7'.toNat = 55 := rfl
  have zero : '0'.toNat = 48 := rfl
  omega

theorem digitsBelow_binary : DigitsBelow isBinaryDigit 2 := by
  intro ch digit
  simp only [isBinaryDigit, decide_eq_true_eq] at digit
  rcases digit with rfl | rfl
  · exact ⟨0, by decide, by decide⟩
  · exact ⟨1, by decide, by decide⟩

theorem digitsBelow_hex : DigitsBelow isHexDigit 16 := by
  intro ch digit
  unfold Literal.digitValue
  simp only [isHexDigit, isDigit, Bool.or_eq_true, decide_eq_true_eq] at digit
  have nine : '9'.toNat = 57 := rfl
  have zero : '0'.toNat = 48 := rfl
  have a : 'a'.toNat = 97 := rfl
  have f : 'f'.toNat = 102 := rfl
  have A : 'A'.toNat = 65 := rfl
  have F : 'F'.toNat = 70 := rfl
  split
  · rename_i decimal
    have upper : ch.toNat ≤ '9'.toNat := decimal.2
    exact ⟨_, rfl, by omega⟩
  split
  · rename_i lower
    have upper : ch.toNat ≤ 'f'.toNat := lower.2
    exact ⟨_, rfl, by omega⟩
  split
  · rename_i capital
    have upper : ch.toNat ≤ 'F'.toNat := capital.2
    exact ⟨_, rfl, by omega⟩
  · rename_i notDecimal notLower notUpper
    rcases digit with (decimal | lower) | capital
    · exact absurd decimal notDecimal
    · exact absurd lower notLower
    · exact absurd capital notUpper

/-- The value of the digits read so far and of those ahead. -/
def valueFrom (base : Nat) : Nat → Spelling → Nat
  | value, [] => value
  | value, ch :: rest =>
      if ch = '_' then valueFrom base value rest
      else valueFrom base (value * base + (Literal.digitValue ch).getD 0) rest

theorem le_valueFrom (positive : 0 < base) (text : Spelling) (value : Nat) :
    value ≤ valueFrom base value text := by
  induction text generalizing value with
  | nil => exact le_rfl
  | cons ch rest ih =>
      rw [valueFrom]
      split
      · exact ih value
      · have grown : value ≤ value * base := Nat.le_mul_of_pos_right value positive
        exact le_trans (le_trans grown (Nat.le_add_right _ _)) (ih _)

theorem valueFrom_eq (text : Spelling) (value : Nat) :
    valueFrom base value text =
      value * base ^ (text.filter (· ≠ '_')).length + digitsValue base text := by
  induction text generalizing value with
  | nil => simp [valueFrom, digitsValue]
  | cons ch rest ih =>
      rw [valueFrom]
      split
      · rename_i separator
        subst separator
        rw [ih]
        simp [digitsValue]
      · rename_i digit
        rw [ih]
        simp only [digitsValue, digit, ne_eq, not_false_eq_true, decide_true, List.filter_cons_of_pos,
          List.length_cons, List.reverse_cons, List.map_append, List.map_cons, List.map_nil,
          Nat.ofDigits_append, List.length_map, List.length_reverse, Nat.ofDigits_singleton]
        ring

/-- The literal parser reads the value of its digits, unless that does not fit. -/
theorem parseDigits_eq (positive : 0 < base) (baseFits : base ≤ Literal.maxUInt64)
    (below : DigitsBelow isValidDigit base)
    (text : Spelling) (accepted : ∀ ch ∈ text, isValidDigit ch = true ∨ ch = '_') (value : Nat)
    (hasDigit : Bool) (fits : value ≤ Literal.maxUInt64)
    (read : hasDigit = true ∨ ∃ ch ∈ text, ch ≠ '_') :
    Literal.parseDigits base text value hasDigit =
      if valueFrom base value text ≤ Literal.maxUInt64 then some (valueFrom base value text)
      else none := by
  induction text generalizing value hasDigit with
  | nil =>
      rcases read with rfl | ⟨ch, member, _⟩
      · rw [Literal.parseDigits, valueFrom, if_pos rfl, if_pos fits]
      · cases member
  | cons ch rest ih =>
      have others : ∀ other ∈ rest, isValidDigit other = true ∨ other = '_' :=
        fun other member => accepted other (List.mem_cons_of_mem _ member)
      rw [Literal.parseDigits, valueFrom]
      by_cases separator : ch = '_'
      · rw [if_pos separator, if_pos separator]
        refine ih others value hasDigit fits ?_
        rcases read with read | ⟨other, member, digit⟩
        · exact .inl read
        · rcases List.mem_cons.mp member with rfl | member
          · exact absurd separator digit
          · exact .inr ⟨other, member, digit⟩
      rw [if_neg separator, if_neg separator]
      have valid := (accepted ch List.mem_cons_self).resolve_right separator
      obtain ⟨digit, decoded, small⟩ := below ch valid
      rw [decoded]
      dsimp only [Option.getD_some]
      rw [if_neg (Nat.not_le.mpr small)]
      split
      · rename_i overflow
        rw [Nat.div_lt_iff_lt_mul positive] at overflow
        have large := le_valueFrom positive rest (value * base + digit)
        rw [if_neg (by omega)]
      · rename_i room
        rw [Nat.div_lt_iff_lt_mul positive, Nat.not_lt] at room
        exact ih others _ true (by omega) (.inl rfl)

theorem parseDigits_digits (positive : 0 < base) (baseFits : base ≤ Literal.maxUInt64)
    (below : DigitsBelow isValidDigit base) (separator : isValidDigit '_' = false)
    {digits : Spelling} (valid : Digits isValidDigit digits) :
    Literal.parseDigits base digits 0 false =
      if digitsValue base digits ≤ Literal.maxUInt64 then some (digitsValue base digits)
      else none := by
  have value : valueFrom base 0 digits = digitsValue base digits := by
    rw [valueFrom_eq, Nat.zero_mul, Nat.zero_add]
  rw [← value]
  refine parseDigits_eq positive baseFits below digits valid.mem 0 false (Nat.zero_le _) (.inr ?_)
  obtain ⟨first, more, rfl, digit⟩ := valid.head
  refine ⟨first, List.mem_cons_self, ?_⟩
  rintro rfl
  rw [separator] at digit
  cases digit

end

/-- The literal parser agrees with the lexer on the integer literals. -/
theorem parseUnsignedIntegerLiteral_eq {text : Spelling}
    (literal : IsIntegerLiteral PlainDigits text) :
    Literal.parseUnsignedIntegerLiteral text =
      if integerValue text ≤ Literal.maxUInt64 then some (integerValue text) else none := by
  rcases literal with ⟨valid, alone⟩ | ⟨marker, isValidDigit, digits, radix, valid, rfl⟩
  · have decimal := @parseDigits_digits 10 _ (by decide) (by decide) digitsBelow_decimal
      isDigitTest_decimal.separator _ valid
    obtain ⟨first, more, rfl, digit⟩ := valid.head
    by_cases zero : first = '0'
    · subst zero
      obtain rfl : more = [] := by simpa using alone rfl
      exact decimal
    · have parsed : Literal.parseUnsignedIntegerLiteral (first :: more) =
          Literal.parseDigits 10 (first :: more) 0 false := by
        unfold Literal.parseUnsignedIntegerLiteral
        split <;> simp_all
      have value : integerValue (first :: more) = digitsValue 10 (first :: more) := by
        unfold integerValue
        split <;> simp_all
      rw [parsed, value, decimal]
  · cases radix with
    | hex | upperHex =>
        exact parseDigits_digits (by decide) (by decide) digitsBelow_hex isDigitTest_hex.separator
          valid
    | short radix =>
        cases radix with
        | binary | upperBinary =>
            exact parseDigits_digits (by decide) (by decide) digitsBelow_binary
              isDigitTest_binary.separator valid
        | octal | upperOctal =>
            exact parseDigits_digits (by decide) (by decide) digitsBelow_octal
              isDigitTest_octal.separator valid

/-- A number token is the maximal run of a number. It is an integer just when its text is an
integer literal without a superfluous leading zero, and then the literal parser reads its value.
Apart from binary and octal literals with an exponent it is a float just when its text is a
floating-point literal without a superfluous leading zero, and invalid otherwise. -/
theorem scanNumber_accepts (text : Spelling) :
    (scanNumber text).lexeme ++ (scanNumber text).rest = text ∧
    NumberRun (scanNumber text).lexeme ∧ Stops (scanNumber text).rest ∧
    ((scanNumber text).kind = .integer ↔
      IsIntegerLiteral PlainDigits (scanNumber text).lexeme) ∧
    (¬IsRadixExponent (scanNumber text).lexeme →
      ((scanNumber text).kind = .float ↔ IsFloatLiteral PlainDigits (scanNumber text).lexeme) ∧
      ((scanNumber text).kind = .invalid ↔
        ¬IsIntegerLiteral PlainDigits (scanNumber text).lexeme ∧
        ¬IsFloatLiteral PlainDigits (scanNumber text).lexeme)) ∧
    ((scanNumber text).kind = .integer →
      Literal.parseUnsignedIntegerLiteral (scanNumber text).lexeme =
        if integerValue (scanNumber text).lexeme ≤ Literal.maxUInt64 then
          some (integerValue (scanNumber text).lexeme)
        else none) := by
  obtain ⟨integerLiteral, floatLiteral⟩ := literal_of_scanNumber text
  have run := (scanNumber_scans text).runs [] .nil
  rw [List.append_nil] at run
  refine ⟨scanNumber_join text, run, scanNumber_stops text,
    ⟨integerLiteral, scanNumber_kind_of_integer⟩, fun plain => ⟨⟨?_, scanNumber_kind_of_float⟩, ?_⟩,
    fun integer => parseUnsignedIntegerLiteral_eq (integerLiteral integer)⟩
  · exact fun float => (floatLiteral float).resolve_right plain
  · constructor
    · intro invalid
      refine ⟨fun literal => ?_, fun literal => ?_⟩
      · rw [scanNumber_kind_of_integer literal] at invalid
        cases invalid
      · rw [scanNumber_kind_of_float literal] at invalid
        cases invalid
    · rintro ⟨notInteger, notFloat⟩
      cases kind : (scanNumber text).kind with
      | integer => exact absurd (integerLiteral kind) notInteger
      | float => exact absurd ((floatLiteral kind).resolve_right plain) notFloat
      | invalid => rfl

/-- A superfluous leading zero makes the token of a literal invalid. -/
theorem scanNumber_leadingZero :
    startsNumber "0755".toList = true ∧
    scanNumber "0755".toList = ⟨.invalid, "0755".toList, []⟩ ∧
    IsIntegerLiteral (Digits isDigit) "0755".toList ∧
    startsNumber "01.5".toList = true ∧
    scanNumber "01.5".toList = ⟨.invalid, "01.5".toList, []⟩ ∧
    IsFloatLiteral (Digits isDigit) "01.5".toList := by
  refine ⟨by decide, by decide, .inl ?_, by decide, by decide, .inr (.inl ⟨['0', '1'], ['5'], [],
    ?_, .inr ?_, .inl rfl, by decide⟩)⟩
  · exact (validSeparatedDigits_iff (by decide) _).mp (by decide)
  · exact (validSeparatedDigits_iff (by decide) _).mp (by decide)
  · exact (validSeparatedDigits_iff (by decide) _).mp (by decide)

end HitSimple.Lexer

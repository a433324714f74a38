import HitSimple.Literal
import HitSimple.Lexing.Separated

namespace HitSimple.Lexer
open Literal (Spelling)
open Lexing

def isDigit (ch : Char) : Bool :=
  '0' ≤ ch ∧ ch ≤ '9'

def isOctalDigit (ch : Char) : Bool :=
  '0' ≤ ch ∧ ch ≤ '7'

def isBinaryDigit (ch : Char) : Bool :=
  ch = '0' ∨ ch = '1'

def isHexDigit (ch : Char) : Bool :=
  isDigit ch || ('a' ≤ ch ∧ ch ≤ 'f') || ('A' ≤ ch ∧ ch ≤ 'F')

def isAlpha (ch : Char) : Bool :=
  ('a' ≤ ch ∧ ch ≤ 'z') || ('A' ≤ ch ∧ ch ≤ 'Z')

def isIdentContinue (ch : Char) : Bool :=
  isAlpha ch || isDigit ch || ch = '_'

def isNumberContinue (ch : Char) : Bool :=
  isIdentContinue ch || ch = '.'

/-- The loop of `validSeparatedDigits`. -/
def separatedFrom (isValidDigit : Char → Bool) : Bool → Spelling → Bool
  | _, [] => true
  | previousUnderscore, ch :: rest =>
      if ch = '_' then
        if previousUnderscore then false else separatedFrom isValidDigit true rest
      else if isValidDigit ch then separatedFrom isValidDigit false rest
      else false

def validSeparatedDigits (isValidDigit : Char → Bool) (text : Spelling) : Bool :=
  if text.isEmpty || text.head? = some '_' || text.getLast? = some '_' then false
  else separatedFrom isValidDigit false text

def isDigitOrSeparator (isValidDigit : Char → Bool) (ch : Char) : Bool :=
  isValidDigit ch || ch = '_'

/-- The digits consumed and the text behind them. -/
def consumeDigits (isValidDigit : Char → Bool) (text : Spelling) : Spelling × Spelling :=
  (text.takeWhile (isDigitOrSeparator isValidDigit),
    text.dropWhile (isDigitOrSeparator isValidDigit))

inductive NumberKind where
  | integer
  | float
  | invalid
  deriving DecidableEq, Repr

/-- The state of `scanNumber`: the text between `begin` and `it`, the text from `it` on and the
two flags. -/
structure Scan where
  lexeme : Spelling
  rest : Spelling
  valid : Bool
  isFloat : Bool
  deriving DecidableEq

def scanFraction (text : Spelling) : Scan :=
  let (fraction, rest) := consumeDigits isDigit text
  ⟨'.' :: fraction, rest, validSeparatedDigits isDigit fraction, true⟩

def scanRadix (isValidDigit : Char → Bool) (zero marker : Char) (text : Spelling) : Scan :=
  let (digits, rest) := consumeDigits isValidDigit text
  ⟨zero :: marker :: digits, rest, validSeparatedDigits isValidDigit digits, false⟩

def scanDecimal (text : Spelling) : Scan :=
  let leadingZero := text.head? = some '0'
  let (digits, rest) := consumeDigits isDigit text
  let valid := validSeparatedDigits isDigit digits && !(leadingZero && digits.length ≠ 1)
  match rest with
  | '.' :: rest =>
      let (fraction, rest) := consumeDigits isDigit rest
      ⟨digits ++ '.' :: fraction, rest,
        valid && (fraction.isEmpty || validSeparatedDigits isDigit fraction), true⟩
  | _ => ⟨digits, rest, valid, false⟩

/-- The five branches of `scanNumber`. -/
def scanMantissa : Spelling → Scan
  | '.' :: text => scanFraction text
  | '0' :: 'x' :: text => scanRadix isHexDigit '0' 'x' text
  | '0' :: 'X' :: text => scanRadix isHexDigit '0' 'X' text
  | '0' :: 'b' :: text => scanRadix isBinaryDigit '0' 'b' text
  | '0' :: 'B' :: text => scanRadix isBinaryDigit '0' 'B' text
  | '0' :: 'o' :: text => scanRadix isOctalDigit '0' 'o' text
  | '0' :: 'O' :: text => scanRadix isOctalDigit '0' 'O' text
  | text => scanDecimal text

def splitSign : Spelling → Spelling × Spelling
  | '+' :: rest => (['+'], rest)
  | '-' :: rest => (['-'], rest)
  | rest => ([], rest)

def isExponentMarker (ch : Char) : Bool :=
  ch = 'e' ∨ ch = 'E'

/-- The exponent scanner behind all five branches. -/
def scanExponent (scan : Scan) : Scan :=
  match scan.rest with
  | [] => scan
  | marker :: rest =>
      if isExponentMarker marker then
        let (sign, rest) := splitSign rest
        let (exponent, rest) := consumeDigits isDigit rest
        ⟨scan.lexeme ++ marker :: (sign ++ exponent), rest,
          scan.valid && validSeparatedDigits isDigit exponent, true⟩
      else scan

/-- The loop over what still continues a number. -/
def scanTrailing (scan : Scan) : Scan :=
  let trailing := scan.rest.takeWhile isNumberContinue
  ⟨scan.lexeme ++ trailing, scan.rest.dropWhile isNumberContinue,
    scan.valid && trailing.isEmpty, scan.isFloat⟩

structure NumberToken where
  kind : NumberKind
  lexeme : Spelling
  rest : Spelling
  deriving DecidableEq

def scanNumber (text : Spelling) : NumberToken :=
  let scan := scanTrailing (scanExponent (scanMantissa text))
  ⟨if scan.valid then if scan.isFloat then .float else .integer else .invalid, scan.lexeme,
    scan.rest⟩

/-- Where `next` calls `scanNumber`. -/
def startsNumber : Spelling → Bool
  | [] => false
  | ch :: rest => isDigit ch || (ch = '.' && (rest.head?.map isDigit).getD false)

example : scanNumber "0x1f_e+1".toList = ⟨.integer, "0x1f_e".toList, "+1".toList⟩ := by decide

example : scanNumber "1.5e-2_0;".toList = ⟨.float, "1.5e-2_0".toList, ";".toList⟩ := by decide

/-- Digits in which each `_` stands between two digits. -/
abbrev Digits (isValidDigit : Char → Bool) : Spelling → Prop :=
  Separated '_' fun ch => isValidDigit ch = true

/-- Decimal digits whose first one is `0` only where it is the only one. -/
def PlainDigits (text : Spelling) : Prop :=
  Digits isDigit text ∧ (text.head? = some '0' → text = ['0'])

def IsSign (text : Spelling) : Prop :=
  text = [] ∨ text = ['+'] ∨ text = ['-']

/-- `EXP` of the Standard, 3.5.2. -/
def IsExponent (text : Spelling) : Prop :=
  ∃ marker sign digits, isExponentMarker marker = true ∧ IsSign sign ∧ Digits isDigit digits ∧
    text = marker :: (sign ++ digits)

def IsOptional (Part : Spelling → Prop) (text : Spelling) : Prop :=
  text = [] ∨ Part text

/-- The radix prefixes of the Standard, 3.5.1, that take no `e` as a digit. -/
inductive ShortRadix : Char → (Char → Bool) → Prop where
  | binary : ShortRadix 'b' isBinaryDigit
  | upperBinary : ShortRadix 'B' isBinaryDigit
  | octal : ShortRadix 'o' isOctalDigit
  | upperOctal : ShortRadix 'O' isOctalDigit

inductive Radix : Char → (Char → Bool) → Prop where
  | hex : Radix 'x' isHexDigit
  | upperHex : Radix 'X' isHexDigit
  | short {marker : Char} {isValidDigit : Char → Bool} (radix : ShortRadix marker isValidDigit) :
      Radix marker isValidDigit

section
variable (Whole : Spelling → Prop)

/-- The integer literals of the Standard, 3.5.1, over the decimal digits `Whole`. -/
def IsIntegerLiteral (text : Spelling) : Prop :=
  Whole text ∨ ∃ marker isValidDigit digits, Radix marker isValidDigit ∧
    Digits isValidDigit digits ∧ text = '0' :: marker :: digits

/-- The floating-point literals of the Standard, 3.5.2, over the decimal digits `Whole`. -/
def IsFloatLiteral (text : Spelling) : Prop :=
  (∃ fraction exponent, Digits isDigit fraction ∧ IsOptional IsExponent exponent ∧
    text = '.' :: fraction ++ exponent) ∨
  (∃ whole fraction exponent, Whole whole ∧ IsOptional (Digits isDigit) fraction ∧
    IsOptional IsExponent exponent ∧ text = whole ++ '.' :: fraction ++ exponent) ∨
  ∃ whole exponent, Whole whole ∧ IsExponent exponent ∧ text = whole ++ exponent

end

/-- A binary or octal literal with an exponent behind it. -/
def IsRadixExponent (text : Spelling) : Prop :=
  ∃ marker isValidDigit digits exponent, ShortRadix marker isValidDigit ∧
    Digits isValidDigit digits ∧ IsExponent exponent ∧ text = '0' :: marker :: digits ++ exponent

/-- What a number token runs over: letters, digits, `_`, `.` and a sign behind an exponent
marker. -/
inductive NumberRun : Spelling → Prop where
  | nil : NumberRun []
  | step {ch : Char} {rest : Spelling} (continues : isNumberContinue ch = true)
      (run : NumberRun rest) : NumberRun (ch :: rest)
  | sign {marker ch : Char} {rest : Spelling} (exponent : isExponentMarker marker = true)
      (signed : ch = '+' ∨ ch = '-') (run : NumberRun rest) : NumberRun (marker :: ch :: rest)

/-- The text starts with nothing that continues a number. -/
def Stops (text : Spelling) : Prop :=
  ∀ ch, text.head? = some ch → isNumberContinue ch = false

def digitsValue (base : Nat) (digits : Spelling) : Nat :=
  Nat.ofDigits base
    ((digits.filter (· ≠ '_')).reverse.map fun ch => (Literal.digitValue ch).getD 0)

/-- The mathematical value of an integer literal. -/
def integerValue : Spelling → Nat
  | '0' :: 'x' :: digits | '0' :: 'X' :: digits => digitsValue 16 digits
  | '0' :: 'b' :: digits | '0' :: 'B' :: digits => digitsValue 2 digits
  | '0' :: 'o' :: digits | '0' :: 'O' :: digits => digitsValue 8 digits
  | digits => digitsValue 10 digits

section
variable {isValidDigit : Char → Bool}

theorem digits_cons_iff {first : Char} {rest : Spelling} :
    Digits isValidDigit (first :: rest) ↔ isValidDigit first = true ∧
      (rest = [] ∨ Digits isValidDigit rest ∨
        ∃ more, rest = '_' :: more ∧ Digits isValidDigit more) :=
  Separated.cons_iff

theorem validSeparatedDigits_singleton {ch : Char} (digit : ch ≠ '_') :
    validSeparatedDigits isValidDigit [ch] = isValidDigit ch := by
  simp [validSeparatedDigits, separatedFrom, digit]

theorem validSeparatedDigits_next {first second : Char} {rest : Spelling} (digit : first ≠ '_')
    (next : second ≠ '_') :
    validSeparatedDigits isValidDigit (first :: second :: rest) =
      (isValidDigit first && validSeparatedDigits isValidDigit (second :: rest)) := by
  by_cases valid : isValidDigit first = true
  · simp [validSeparatedDigits, separatedFrom, digit, next, valid, List.getLast?_cons_cons]
  · simp [validSeparatedDigits, separatedFrom, digit, valid]

theorem validSeparatedDigits_separator {first : Char} {rest : Spelling} (digit : first ≠ '_') :
    validSeparatedDigits isValidDigit (first :: '_' :: rest) =
      (isValidDigit first && validSeparatedDigits isValidDigit rest) := by
  cases rest with
  | nil => simp [validSeparatedDigits]
  | cons second rest =>
      by_cases valid : isValidDigit first = true
      · by_cases separator : second = '_'
        · simp [validSeparatedDigits, separatedFrom, digit, valid, separator]
        · simp [validSeparatedDigits, separatedFrom, digit, valid, separator,
            List.getLast?_cons_cons]
      · simp [validSeparatedDigits, separatedFrom, digit, valid]

/-- The test of the lexer is the grammar of separated digits. -/
theorem validSeparatedDigits_iff (separator : isValidDigit '_' = false) (text : Spelling) :
    validSeparatedDigits isValidDigit text = true ↔ Digits isValidDigit text := by
  induction text using List.twoStepInduction with
  | nil =>
      refine iff_of_false (by simp [validSeparatedDigits]) ?_
      exact fun digits => digits.ne_nil rfl
  | singleton first =>
      by_cases digit : first = '_'
      · subst digit
        refine iff_of_false (by simp [validSeparatedDigits]) ?_
        intro digits
        simp [(digits_cons_iff.mp digits).1] at separator
      · rw [validSeparatedDigits_singleton digit, digits_cons_iff]
        simp
  | cons_cons first second rest ih ihTail =>
      by_cases digit : first = '_'
      · subst digit
        refine iff_of_false (by simp [validSeparatedDigits]) ?_
        intro digits
        simp [(digits_cons_iff.mp digits).1] at separator
      rw [digits_cons_iff]
      by_cases next : second = '_'
      · subst next
        rw [validSeparatedDigits_separator digit, Bool.and_eq_true, ih]
        apply and_congr_right
        intro _
        constructor
        · exact fun digits => .inr (.inr ⟨rest, rfl, digits⟩)
        · rintro (impossible | digits | ⟨more, same, digits⟩)
          · cases impossible
          · simp [(digits_cons_iff.mp digits).1] at separator
          · cases same
            exact digits
      · rw [validSeparatedDigits_next digit next, Bool.and_eq_true, ihTail]
        apply and_congr_right
        intro _
        constructor
        · exact fun digits => .inr (.inl digits)
        · rintro (impossible | digits | ⟨more, same, _⟩)
          · cases impossible
          · exact digits
          · cases same
            exact absurd rfl next

end

end HitSimple.Lexer

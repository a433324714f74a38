import HitSimple.Lexer.Quoted
import Mathlib.Data.Nat.Digits.Defs

namespace HitSimple.Lexer
open Literal (Spelling)

/-- A character or an escape of the Standard, 3.5.3. -/
inductive Piece where
  | plain (ch : Char)
  | simple (escape : Char)
  | hex (high low : Char)
  | unicode (first second third fourth : Char)
  | octal (digits : Spelling)
  deriving DecidableEq

namespace Piece

def spelling : Piece → Spelling
  | plain ch => [ch]
  | simple escape => ['\\', escape]
  | hex high low => ['\\', 'x', high, low]
  | unicode first second third fourth => ['\\', 'u', first, second, third, fourth]
  | octal digits => '\\' :: digits

def codePoint (first second third fourth : Char) : Nat :=
  Nat.ofDigits 16 [hexValue fourth, hexValue third, hexValue second, hexValue first]

def octalNumber (digits : Spelling) : Nat :=
  Nat.ofDigits 8 (digits.reverse.map hexValue)

/-- The piece can stand in a literal with these quotes and this text behind it. -/
def Legal (quote : Char) (behind : Spelling) : Piece → Prop
  | plain ch => ch ≠ quote ∧ ch ≠ '\\' ∧ ch ≠ '\n'
  | simple escape => isSimpleEscape escape = true
  | hex high low => isHexDigit high = true ∧ isHexDigit low = true
  | unicode first second third fourth =>
      (isHexDigit first = true ∧ isHexDigit second = true ∧ isHexDigit third = true ∧
        isHexDigit fourth = true) ∧ isSurrogate (codePoint first second third fourth) = false
  | octal digits =>
      1 ≤ digits.length ∧ digits.length ≤ 3 ∧ (∀ ch ∈ digits, isOctalDigit ch = true) ∧
        (digits.length < 3 → ∀ ch, behind.head? = some ch → isOctalDigit ch = false)

/-- An octal escape whose value is no byte. -/
def IsWide : Piece → Prop
  | octal digits => 0o377 < octalNumber digits
  | _ => False

/-- The bytes that the escape table gives. -/
def bytes : Piece → List UInt8
  | plain ch => [byteOf ch]
  | simple escape => (simpleValue escape).toList
  | hex high low => [UInt8.ofNat (Nat.ofDigits 16 [hexValue low, hexValue high])]
  | unicode first second third fourth =>
      String.utf8EncodeChar (Char.ofNat (codePoint first second third fourth))
  | octal digits => [UInt8.ofNat (octalNumber digits)]

end Piece

def spell (pieces : List Piece) : Spelling :=
  pieces.flatMap Piece.spelling

@[simp] theorem spell_nil : spell [] = [] := rfl

@[simp] theorem spell_cons (piece : Piece) (pieces : List Piece) :
    spell (piece :: pieces) = piece.spelling ++ spell pieces := rfl

/-- The pieces stand between the quotes as a lexer that takes the longest escape reads them. -/
def LegalBody (quote : Char) : List Piece → Prop
  | [] => True
  | piece :: pieces => piece.Legal quote (spell pieces) ∧ LegalBody quote pieces

/-- The body reads as the bytes under the escape table. -/
def Spells (quote : Char) (body : Spelling) (bytes : List UInt8) : Prop :=
  ∃ pieces, LegalBody quote pieces ∧ (∀ piece ∈ pieces, ¬piece.IsWide) ∧ spell pieces = body ∧
    pieces.flatMap Piece.bytes = bytes

/-- No quote stands in the body without a backslash in front of it. -/
def Closed (quote : Char) : Spelling → Prop
  | [] => True
  | '\\' :: _ :: rest => Closed quote rest
  | ch :: rest => ch ≠ quote ∧ Closed quote rest

inductive QuotedForm : Char → QuotedKind → Prop where
  | char : QuotedForm '\'' .char
  | string : QuotedForm '"' .string

section
variable {quote : Char} {kind : QuotedKind}

theorem QuotedForm.ne_backslash (form : QuotedForm quote kind) : quote ≠ '\\' := by
  cases form <;> decide

theorem QuotedForm.ne_newline (form : QuotedForm quote kind) : quote ≠ '\n' := by
  cases form <;> decide

theorem QuotedForm.not_octal (form : QuotedForm quote kind) : isOctalDigit quote = false := by
  cases form <;> decide

theorem QuotedForm.ne_invalid (form : QuotedForm quote kind) : kind ≠ .invalid := by
  cases form <;> decide

end

theorem hexValue_lt {ch : Char} (digit : isHexDigit ch = true) : hexValue ch < 16 := by
  have nine : '9'.toNat = 57 := rfl
  have zero : '0'.toNat = 48 := rfl
  have a : 'a'.toNat = 97 := rfl
  have f : 'f'.toNat = 102 := rfl
  have A : 'A'.toNat = 65 := rfl
  have F : 'F'.toNat = 70 := rfl
  unfold hexValue
  split
  · rename_i decimal
    have upper : ch.toNat ≤ '9'.toNat := decimal.2
    omega
  split
  · rename_i lower
    have upper : ch.toNat ≤ 'f'.toNat := lower.2
    omega
  · rename_i notDecimal notLower
    simp only [isHexDigit, isDigit, Bool.or_eq_true, decide_eq_true_eq] at digit
    have capital := digit.resolve_left (not_or.mpr ⟨notDecimal, notLower⟩)
    have upper : ch.toNat ≤ 'F'.toNat := capital.2
    omega

theorem hexValue_octal {ch : Char} (digit : isOctalDigit ch = true) :
    hexValue ch = ch.toNat - '0'.toNat := by
  simp only [isOctalDigit, decide_eq_true_eq] at digit
  exact if_pos ⟨digit.1, Char.le_trans digit.2 (show '7' ≤ '9' by decide)⟩

/-- Appending a hexadecimal digit by a shift is reading it as the lowest digit. -/
theorem shiftLeft_or {value digit : Nat} (small : digit < 16) :
    value <<< 4 ||| digit = value * 16 + digit := by
  rw [Nat.shiftLeft_eq, Nat.mul_comm, ← Nat.two_pow_add_eq_or_of_lt (i := 4) small, Nat.mul_comm]

theorem unicodeValue_eq {first second third fourth : Char} (secondDigit : isHexDigit second = true)
    (thirdDigit : isHexDigit third = true) (fourthDigit : isHexDigit fourth = true) :
    unicodeValue first second third fourth = Piece.codePoint first second third fourth := by
  rw [unicodeValue, shiftLeft_or (hexValue_lt secondDigit), shiftLeft_or (hexValue_lt thirdDigit),
    shiftLeft_or (hexValue_lt fourthDigit)]
  simp only [Piece.codePoint, Nat.ofDigits_cons, Nat.ofDigits_nil]
  omega

theorem isUnicodeSurrogateEscape_eq {first second third fourth : Char}
    (secondDigit : isHexDigit second = true) (thirdDigit : isHexDigit third = true)
    (fourthDigit : isHexDigit fourth = true) :
    isUnicodeSurrogateEscape first second third fourth =
      isSurrogate (Piece.codePoint first second third fourth) := by
  rw [← unicodeValue_eq secondDigit thirdDigit fourthDigit, isUnicodeSurrogateEscape, unicodeValue]
  simp only [Nat.shiftLeft_or_distrib, ← Nat.shiftLeft_add]

theorem octalValue_eq {digits : Spelling} (octal : ∀ ch ∈ digits, isOctalDigit ch = true) :
    octalValue digits = Piece.octalNumber digits := by
  have general : ∀ (rest : Spelling) (value : Nat), (∀ ch ∈ rest, isOctalDigit ch = true) →
      rest.foldl (fun value ch => value * 8 + (ch.toNat - '0'.toNat)) value =
        value * 8 ^ rest.length + Piece.octalNumber rest := by
    intro rest
    induction rest with
    | nil => simp [Piece.octalNumber]
    | cons ch rest ih =>
        intro value digits
        rw [List.foldl_cons, ih _ fun other member => digits other (List.mem_cons_of_mem _ member),
          ← hexValue_octal (digits ch List.mem_cons_self)]
        simp only [Piece.octalNumber, List.length_cons, List.reverse_cons, List.map_append,
          List.map_cons, List.map_nil, Nat.ofDigits_append, List.length_map, List.length_reverse,
          Nat.ofDigits_singleton]
        ring
  rw [octalValue, general digits 0 octal, Nat.zero_mul, Nat.zero_add]

end HitSimple.Lexer

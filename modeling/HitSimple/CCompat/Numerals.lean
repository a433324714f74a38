import HitSimple.Lexer.NumberTokens

namespace HitSimple.CCompat
open Literal (Spelling digitValue maxUInt64 parseUnsignedIntegerLiteral)
open Lexer (Digits digitsValue)

/-! ### Array counts -/

/-- The digit loop of `parseArrayCount`. -/
def arrayCountDigits (base : Nat) (value : Nat) (sawDigit previousUnderscore : Bool) :
    Spelling → Option Nat
  | [] => if !sawDigit || previousUnderscore then none else some value
  | ch :: rest =>
      if ch = '_' then
        if !sawDigit || previousUnderscore then none
        else arrayCountDigits base value sawDigit true rest
      else
        match digitValue ch with
        | none => none
        | some digit =>
            if base ≤ digit ∨ (maxUInt64 - digit) / base < value then none
            else arrayCountDigits base (value * base + digit) true false rest

def parseArrayCount : Spelling → Option Nat
  | [] => none
  | '0' :: 'x' :: digits | '0' :: 'X' :: digits => arrayCountDigits 16 0 false false digits
  | '0' :: 'o' :: digits | '0' :: 'O' :: digits => arrayCountDigits 8 0 false false digits
  | '0' :: 'b' :: digits | '0' :: 'B' :: digits => arrayCountDigits 2 0 false false digits
  | text => arrayCountDigits 10 0 false false text

/-! ### Integer literals -/

/-- The spelling without its suffix, and the type of the literal. -/
structure CIntegerLiteral where
  value : Spelling
  byteLength : Nat
  isSigned : Bool
  deriving DecidableEq, Repr

structure CIntegerRadix where
  base : Nat
  offset : Nat
  nonDecimal : Bool
  deriving DecidableEq, Repr

def cIntegerRadix : Spelling → CIntegerRadix
  | '0' :: 'x' :: _ | '0' :: 'X' :: _ => ⟨16, 2, true⟩
  | '0' :: 'o' :: _ | '0' :: 'O' :: _ => ⟨8, 2, true⟩
  | '0' :: 'b' :: _ | '0' :: 'B' :: _ => ⟨2, 2, true⟩
  | '0' :: _ :: _ => ⟨8, 0, true⟩
  | _ => ⟨10, 0, false⟩

/-- The digit loop of `parseCIntegerLiteral`: the digits and what stands behind them. -/
def cIntegerDigits (base : Nat) (sawDigit previousUnderscore : Bool) :
    Spelling → Option (Spelling × Spelling)
  | [] => if !sawDigit || previousUnderscore then none else some ([], [])
  | ch :: rest =>
      if ch = '_' then
        if !sawDigit || previousUnderscore then none
        else (cIntegerDigits base sawDigit true rest).map fun (run, behind) => (ch :: run, behind)
      else if (digitValue ch).any (· < base) then
        (cIntegerDigits base true false rest).map fun (run, behind) => (ch :: run, behind)
      else if !sawDigit || previousUnderscore then none
      else some ([], ch :: rest)

/-- Whether a suffix has `u`, and how often it has `l`. -/
def cIntegerSuffix (hasUnsignedSuffix : Bool) (longSuffixCount : Nat) :
    Spelling → Option (Bool × Nat)
  | [] => some (hasUnsignedSuffix, longSuffixCount)
  | ch :: rest =>
      if ch.toLower = 'u' ∧ hasUnsignedSuffix = false then cIntegerSuffix true longSuffixCount rest
      else if ch.toLower = 'l' ∧ longSuffixCount < 2 then
        cIntegerSuffix hasUnsignedSuffix (longSuffixCount + 1) rest
      else none

def cIntegerType (value : Spelling) (parsed : Nat) (nonDecimal hasUnsignedSuffix : Bool)
    (longSuffixCount : Nat) : Option CIntegerLiteral :=
  let valueFitsI32 : Bool := parsed < 2 ^ 31
  let valueFitsU32 : Bool := parsed < 2 ^ 32
  let valueFitsI64 : Bool := parsed < 2 ^ 63
  if hasUnsignedSuffix && longSuffixCount ≠ 0 then some ⟨value, 8, false⟩
  else if longSuffixCount ≠ 0 then
    if !valueFitsI64 && !nonDecimal then none else some ⟨value, 8, valueFitsI64⟩
  else if hasUnsignedSuffix then some ⟨value, if valueFitsU32 then 4 else 8, false⟩
  else if valueFitsI32 then some ⟨value, 4, true⟩
  else if nonDecimal && valueFitsU32 then some ⟨value, 4, false⟩
  else if valueFitsI64 then some ⟨value, 8, true⟩
  else if nonDecimal then some ⟨value, 8, false⟩
  else none

def parseCIntegerLiteral (text : Spelling) : Option CIntegerLiteral := do
  let radix := cIntegerRadix text
  let (run, suffix) ← cIntegerDigits radix.base false false (text.drop radix.offset)
  let (hasUnsignedSuffix, longSuffixCount) ← cIntegerSuffix false 0 suffix
  let value := text.take radix.offset ++ run
  let parsed ← parseUnsignedIntegerLiteral value
  cIntegerType value parsed radix.nonDecimal hasUnsignedSuffix longSuffixCount

/-! ### The numerals of C -/

def isDigitOf (base : Nat) (ch : Char) : Bool :=
  (digitValue ch).any (· < base)

/-- The prefixes; `0o`, `0b` and the separator `_` are the front end's own. -/
inductive RadixPrefix : Char → Nat → Prop
  | hex : RadixPrefix 'x' 16
  | upperHex : RadixPrefix 'X' 16
  | octal : RadixPrefix 'o' 8
  | upperOctal : RadixPrefix 'O' 8
  | binary : RadixPrefix 'b' 2
  | upperBinary : RadixPrefix 'B' 2

/-- A numeral with its base and digits; a leading zero makes it octal. -/
inductive Numeral : Nat → Spelling → Spelling → Prop
  | decimal {text : Spelling} (digits : Digits (isDigitOf 10) text)
      (leading : text.head? ≠ some '0') : Numeral 10 text text
  | octal {rest : Spelling} (digits : Digits (isDigitOf 8) ('0' :: rest)) :
      Numeral 8 ('0' :: rest) ('0' :: rest)
  | radix {marker : Char} {base : Nat} {digits : Spelling} (known : RadixPrefix marker base)
      (valid : Digits (isDigitOf base) digits) : Numeral base digits ('0' :: marker :: digits)

def isUnsignedMark (ch : Char) : Bool :=
  ch = 'u' || ch = 'U'

def isLongMark (ch : Char) : Bool :=
  ch = 'l' || ch = 'L'

/-- At most one `u` and two `l`, in any order and case. -/
structure IsSuffix (suffix : Spelling) : Prop where
  marks : ∀ ch ∈ suffix, isUnsignedMark ch = true ∨ isLongMark ch = true
  unsigned : suffix.countP isUnsignedMark ≤ 1
  long : suffix.countP isLongMark ≤ 2

end HitSimple.CCompat

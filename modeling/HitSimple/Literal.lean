import Mathlib.Data.Nat.Basic
import Mathlib.Tactic.IntervalCases
import Mathlib.Tactic.Linarith
import Mathlib.Tactic.Positivity

namespace HitSimple.Literal

/-- The characters of a numeral in the source or in a folded constant. -/
abbrev Spelling := List Char

def maxUInt64 : Nat := 2 ^ 64 - 1

def digitValue (ch : Char) : Option Nat :=
  if '0' ≤ ch ∧ ch ≤ '9' then some (ch.toNat - '0'.toNat)
  else if 'a' ≤ ch ∧ ch ≤ 'f' then some (ch.toNat - 'a'.toNat + 10)
  else if 'A' ≤ ch ∧ ch ≤ 'F' then some (ch.toNat - 'A'.toNat + 10)
  else none

def parseDigits (base : Nat) : Spelling → Nat → Bool → Option Nat
  | [], value, hasDigit => if hasDigit then some value else none
  | ch :: rest, value, hasDigit =>
      if ch = '_' then parseDigits base rest value hasDigit
      else match digitValue ch with
        | none => none
        | some digit =>
            if base ≤ digit then none
            else if (maxUInt64 - digit) / base < value then none
            else parseDigits base rest (value * base + digit) true

def parseUnsignedIntegerLiteral : Spelling → Option Nat
  | [] => none
  | '0' :: 'x' :: rest | '0' :: 'X' :: rest => parseDigits 16 rest 0 false
  | '0' :: 'b' :: rest | '0' :: 'B' :: rest => parseDigits 2 rest 0 false
  | '0' :: 'o' :: rest | '0' :: 'O' :: rest => parseDigits 8 rest 0 false
  | '0' :: ch :: rest => parseDigits 8 (ch :: rest) 0 false
  | text => parseDigits 10 text 0 false

/-- The text under which a folded value is stored. -/
def decimal (value : Nat) : Spelling :=
  Nat.toDigits 10 value

theorem digitValue_of_isDigit {ch : Char} (digit : ch.isDigit = true) :
    ch ≠ '_' ∧ digitValue ch = some (ch.toNat - '0'.toNat) ∧ ch.toNat - '0'.toNat < 10 := by
  have range : '0' ≤ ch ∧ ch ≤ '9' := by
    simp only [Char.isDigit, Bool.and_eq_true, decide_eq_true_eq] at digit
    exact digit
  refine ⟨?_, ?_, ?_⟩
  · rintro rfl
    exact absurd digit (by decide)
  · rw [digitValue, if_pos range]
  · have upper : ch.toNat ≤ '9'.toNat := range.2
    have nine : '9'.toNat = 57 := rfl
    have zero : '0'.toNat = 48 := rfl
    omega

theorem le_ofDigitChars (text : Spelling) (value : Nat) :
    value ≤ Nat.ofDigitChars 10 text value := by
  rw [Nat.ofDigitChars_eq_ofDigitChars_zero]
  have positive : 0 < 10 ^ text.length := by positivity
  nlinarith

theorem parseDigits_of_isDigit (text : Spelling)
    (digits : ∀ ch ∈ text, ch.isDigit = true) (value : Nat)
    (bound : Nat.ofDigitChars 10 text value ≤ maxUInt64) :
    parseDigits 10 text value true = some (Nat.ofDigitChars 10 text value) := by
  induction text generalizing value with
  | nil => simp [parseDigits]
  | cons ch rest ih =>
      obtain ⟨separator, decoded, small⟩ := digitValue_of_isDigit (digits ch (by simp))
      rw [Nat.ofDigitChars_cons] at bound ⊢
      have step := le_trans (le_ofDigitChars rest _) bound
      have fits : ¬(maxUInt64 - (ch.toNat - '0'.toNat)) / 10 < value := by omega
      rw [parseDigits, if_neg separator, decoded]
      simp only [show ¬10 ≤ ch.toNat - '0'.toNat by omega, if_false, if_neg fits]
      rw [Nat.mul_comm value 10]
      exact ih (fun other member => digits other (by simp [member])) _ bound

theorem decimal_head_ne_zero {value : Nat} (positive : 0 < value) :
    ∃ ch rest, decimal value = ch :: rest ∧ ch ≠ '0' := by
  induction value using Nat.strongRecOn with
  | ind value ih =>
      by_cases small : value < 10
      · refine ⟨Nat.digitChar value, [], Nat.toDigits_of_lt_base small, ?_⟩
        interval_cases value <;> decide
      · obtain ⟨ch, rest, text, nonzero⟩ := ih (value / 10) (by omega) (by omega)
        refine ⟨ch, rest ++ [Nat.digitChar (value % 10)], ?_, nonzero⟩
        rw [decimal, Nat.toDigits_of_base_le (by omega) (by omega)]
        rw [decimal] at text
        rw [text, List.cons_append]

/-- A value stored as decimal text is read back unchanged. -/
theorem parseUnsignedIntegerLiteral_decimal {value : Nat} (bound : value ≤ maxUInt64) :
    parseUnsignedIntegerLiteral (decimal value) = some value := by
  rcases Nat.eq_zero_or_pos value with rfl | positive
  · decide
  obtain ⟨ch, rest, text, nonzero⟩ := decimal_head_ne_zero positive
  have digits : ∀ other ∈ ch :: rest, other.isDigit = true := by
    intro other member
    rw [← text] at member
    exact Nat.isDigit_of_mem_toDigits (by omega) (by omega) member
  have total : Nat.ofDigitChars 10 (ch :: rest) 0 = value := by
    rw [← text, decimal, Nat.ofDigitChars_ten_toDigits]
  have dispatch : parseUnsignedIntegerLiteral (ch :: rest) = parseDigits 10 (ch :: rest) 0 false := by
    unfold parseUnsignedIntegerLiteral
    split <;> simp_all
  obtain ⟨separator, decoded, small⟩ := digitValue_of_isDigit (digits ch (by simp))
  rw [Nat.ofDigitChars_cons] at total
  rw [text, dispatch, parseDigits, if_neg separator, decoded]
  simp only [show ¬10 ≤ ch.toNat - '0'.toNat by omega, if_false, Nat.not_lt_zero]
  rw [parseDigits_of_isDigit rest (fun other member => digits other (by simp [member]))]
  · rw [Nat.zero_mul, ← total, Nat.mul_zero]
  · rw [Nat.zero_mul]
    rw [Nat.mul_zero] at total
    rw [total]
    exact bound

theorem parseDigits_le {base : Nat} (baseFits : base ≤ maxUInt64) (text : Spelling)
    (value : Nat) (hasDigit : Bool) (bound : value ≤ maxUInt64) {result : Nat}
    (parsed : parseDigits base text value hasDigit = some result) : result ≤ maxUInt64 := by
  induction text generalizing value hasDigit with
  | nil =>
      rw [parseDigits] at parsed
      split at parsed
      · cases parsed
        exact bound
      · cases parsed
  | cons ch rest ih =>
      rw [parseDigits] at parsed
      split at parsed
      · exact ih value hasDigit bound parsed
      split at parsed
      · cases parsed
      · rename_i digit _
        split at parsed
        · cases parsed
        split at parsed
        · cases parsed
        · rename_i inBase fits
          refine ih _ true ?_ parsed
          have quotient : value * base ≤ maxUInt64 - digit :=
            (Nat.le_div_iff_mul_le (by omega)).mp (Nat.not_lt.mp fits)
          omega

theorem parseUnsignedIntegerLiteral_le {text : Spelling} {value : Nat}
    (parsed : parseUnsignedIntegerLiteral text = some value) : value ≤ maxUInt64 := by
  unfold parseUnsignedIntegerLiteral at parsed
  split at parsed
  · cases parsed
  all_goals exact parseDigits_le (by decide) _ _ _ (by omega) parsed

end HitSimple.Literal

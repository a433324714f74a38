import HitSimple.FixedWidth.Bytes
import Mathlib.Data.List.TakeWhile

namespace Format
open FixedWidth

def percentSign : Byte := 37#8

def isDigit (byte : Byte) : Bool :=
  decide (48 ≤ byte.toNat) && decide (byte.toNat ≤ 57)

/-- The digits after a percent sign, and the byte after them. -/
structure Conversion where
  digits : List Byte
  specifier : Byte
  deriving DecidableEq, Repr

inductive Token where
  | text (byte : Byte)
  | percent
  | conversion (conversion : Conversion)
  | unterminated (digits : List Byte)
  deriving DecidableEq, Repr

/-- The tokens of a text, from inside a conversion if its digits so far are given. -/
def tokensFrom : Option (List Byte) → List Byte → List Token
  | none, [] => []
  | some digits, [] => [.unterminated digits]
  | none, byte :: rest =>
      if byte = percentSign then tokensFrom (some []) rest
      else .text byte :: tokensFrom none rest
  | some digits, byte :: rest =>
      if digits = [] ∧ byte = percentSign then .percent :: tokensFrom none rest
      else if isDigit byte then tokensFrom (some (digits ++ [byte])) rest
      else .conversion ⟨digits, byte⟩ :: tokensFrom none rest

def tokens (text : List Byte) : List Token :=
  tokensFrom none text

def Token.conversion? : Token → Option Conversion
  | .conversion found => some found
  | _ => none

def conversions (tokens : List Token) : List Conversion :=
  tokens.filterMap Token.conversion?

/-- No percent sign is left at the end. -/
def Terminated (tokens : List Token) : Prop :=
  ∀ token ∈ tokens, ∀ digits, token ≠ .unterminated digits

def appendDigit (width : Nat) (digit : Byte) : Nat :=
  width * 10 + (digit.toNat - 48)

/-- The number that digits spell. -/
def width (digits : List Byte) : Nat :=
  digits.foldl appendDigit 0

/-- The text of a C string. -/
def visible (text : List Byte) : List Byte :=
  text.takeWhile (· != 0#8)

@[simp] theorem conversions_nil : conversions [] = [] := rfl

@[simp] theorem conversions_text (byte : Byte) (rest : List Token) :
    conversions (.text byte :: rest) = conversions rest := rfl

@[simp] theorem conversions_percent (rest : List Token) :
    conversions (.percent :: rest) = conversions rest := rfl

@[simp] theorem conversions_conversion (conversion : Conversion) (rest : List Token) :
    conversions (.conversion conversion :: rest) = conversion :: conversions rest := rfl

theorem conversions_append (first second : List Token) :
    conversions (first ++ second) = conversions first ++ conversions second :=
  List.filterMap_append ..

@[simp] theorem terminated_nil : Terminated [] := nofun

theorem terminated_cons {token : Token} {rest : List Token} :
    Terminated (token :: rest) ↔ (∀ digits, token ≠ .unterminated digits) ∧ Terminated rest :=
  List.forall_mem_cons

@[simp] theorem terminated_text {byte : Byte} {rest : List Token} :
    Terminated (.text byte :: rest) ↔ Terminated rest :=
  terminated_cons.trans (and_iff_right nofun)

@[simp] theorem terminated_percent {rest : List Token} :
    Terminated (.percent :: rest) ↔ Terminated rest :=
  terminated_cons.trans (and_iff_right nofun)

@[simp] theorem terminated_conversion {conversion : Conversion} {rest : List Token} :
    Terminated (.conversion conversion :: rest) ↔ Terminated rest :=
  terminated_cons.trans (and_iff_right nofun)

@[simp] theorem not_terminated_unterminated {digits : List Byte} {rest : List Token} :
    ¬ Terminated (.unterminated digits :: rest) :=
  fun terminated => (terminated_cons.mp terminated).1 digits rfl

/-- A byte that is no digit and no percent sign ends what stands before it, as text or as the
specifier of a conversion. -/
theorem tokensFrom_append_cons {byte : Byte} (notPercent : byte ≠ percentSign)
    (notDigit : isDigit byte = false) (front back : List Byte) (state : Option (List Byte)) :
    (Terminated (tokensFrom state front) ∧ tokensFrom state (front ++ byte :: back) =
        tokensFrom state front ++ .text byte :: tokensFrom none back) ∨
      ∃ before digits, tokensFrom state (front ++ byte :: back) =
        before ++ .conversion ⟨digits, byte⟩ :: tokensFrom none back := by
  fun_induction tokensFrom state front with
  | case1 => exact .inl ⟨terminated_nil, by simp [tokensFrom, notPercent]⟩
  | case2 digits => exact .inr ⟨[], digits, by simp [tokensFrom, notPercent, notDigit]⟩
  | case3 rest ih => simpa [tokensFrom] using ih
  | case4 first rest notSign ih =>
      simp only [List.cons_append, tokensFrom, if_neg notSign, terminated_text, List.cons.injEq,
        true_and]
      exact ih.imp_right fun ⟨before, digits, whole⟩ =>
        ⟨.text first :: before, digits, congrArg (Token.text first :: ·) whole⟩
  | case5 digits first rest escaped ih =>
      simp only [List.cons_append, tokensFrom, if_pos escaped, terminated_percent, List.cons.injEq,
        true_and]
      exact ih.imp_right fun ⟨before, digits, whole⟩ =>
        ⟨.percent :: before, digits, congrArg (Token.percent :: ·) whole⟩
  | case6 digits first rest notEscaped digit ih =>
      simpa [tokensFrom, notEscaped, digit] using ih
  | case7 digits first rest notEscaped notDigit ih =>
      simp only [List.cons_append, tokensFrom, if_neg notEscaped, if_neg notDigit,
        terminated_conversion, List.cons.injEq, true_and]
      exact ih.imp_right fun ⟨before, digits', whole⟩ =>
        ⟨.conversion ⟨digits, first⟩ :: before, digits',
          congrArg (Token.conversion ⟨digits, first⟩ :: ·) whole⟩

theorem append_of_nul_mem {text : List Byte} (nul : 0#8 ∈ text) :
    ∃ rest, text = visible text ++ 0#8 :: rest := by
  induction text with
  | nil => cases nul
  | cons byte text ih =>
      by_cases first : byte = 0#8
      · exact ⟨text, by simp [visible, first]⟩
      · obtain ⟨rest, whole⟩ := ih (List.mem_of_ne_of_mem (Ne.symm first) nul)
        refine ⟨rest, ?_⟩
        rw [visible, List.takeWhile_cons_of_pos (by simpa using first), List.cons_append]
        exact congrArg (byte :: ·) whole

theorem visible_of_not_mem {text : List Byte} (noNul : 0#8 ∉ text) : visible text = text := by
  refine List.takeWhile_eq_self_iff.mpr fun byte member => ?_
  have other : byte ≠ 0#8 := fun same => noNul (same ▸ member)
  simpa using other

/-- A text that uses no NUL as a specifier only loses conversions when it is read as a C string. -/
theorem tokens_visible {text : List Byte}
    (noSpecifier : ∀ conversion ∈ conversions (tokens text), conversion.specifier ≠ 0#8) :
    (∃ rest, conversions (tokens text) = conversions (tokens (visible text)) ++ rest) ∧
      (Terminated (tokens text) → Terminated (tokens (visible text))) := by
  by_cases nul : 0#8 ∈ text
  · obtain ⟨rest, whole⟩ := append_of_nul_mem nul
    have notPercent : (0#8 : Byte) ≠ percentSign := by decide
    rcases tokensFrom_append_cons notPercent (by decide) (visible text) rest none with
      ⟨terminated, split⟩ | ⟨before, digits, split⟩
    · rw [← whole] at split
      refine ⟨⟨conversions (tokens rest), ?_⟩, fun _ => terminated⟩
      rw [tokens, split, conversions_append]
      rfl
    · rw [← whole] at split
      refine absurd rfl (noSpecifier ⟨digits, 0#8⟩ ?_)
      rw [tokens, split, conversions_append]
      exact List.mem_append_right _ List.mem_cons_self
  · rw [visible_of_not_mem nul]
    exact ⟨⟨[], (List.append_nil _).symm⟩, id⟩

end Format

import HitSimple.CCompat.ConstantEvaluation
import HitSimple.CCompat.ConstantTypes

namespace HitSimple.CCompat
open FixedWidth (IntegerFormat)
open ConstantInteger (KeepsSign)

/-! ### Operators of the core -/

theorem lexeme_ne_nil (op : BinaryOperator) : op.lexeme.toList ≠ [] := by
  cases op <;> decide

theorem parseTypedIntegerOperator_eq {byteLength : Nat} (isSigned : Bool) (op : BinaryOperator)
    (standard : IsStandard byteLength) :
    parseTypedIntegerOperator (cIntegerOperator byteLength isSigned op.lexeme) =
      some ⟨byteLength, isSigned, op.lexeme⟩ := by
  have digit : ∃ ch : Char, (toString byteLength).toList = [ch] ∧ ch.isDigit = true ∧
      ch.toNat - '0'.toNat = byteLength := by
    rcases standard with rfl | rfl | rfl | rfl
    · exact ⟨'1', by decide⟩
    · exact ⟨'2', by decide⟩
    · exact ⟨'4', by decide⟩
    · exact ⟨'8', by decide⟩
  obtain ⟨ch, spelled, isDigit, value⟩ := digit
  have text : (cIntegerOperator byteLength isSigned op.lexeme).toList =
      '%' :: ch :: (if isSigned then 'd' else 'u') :: op.lexeme.toList := by
    unfold cIntegerOperator
    simp only [String.toList_append, spelled]
    cases isSigned <;> rfl
  have kind : (if isSigned then 'd' else 'u').isDigit = false := by cases isSigned <;> rfl
  have small : byteLength % 2 ^ 64 = byteLength := by
    rcases standard with rfl | rfl | rfl | rfl <;> rfl
  unfold parseTypedIntegerOperator
  rw [text]
  simp only [List.takeWhile_cons, List.dropWhile_cons, isDigit, kind, if_true, Bool.false_eq_true,
    if_false, List.foldl_cons, List.foldl_nil, value, Nat.zero_mul, Nat.zero_add, small,
    integerMask_eq standard]
  rw [if_neg]
  · cases isSigned <;> simp
  · rintro (badKind | empty | unknown)
    · cases isSigned <;> simp at badKind
    · exact lexeme_ne_nil op empty
    · cases unknown

/-! ### Undisturbed evaluations -/

/-- No value of the expression is negative and narrower than the bytes. -/
def ConvertsKept (expression : CoreExpr) (byteLength : Nat) : Prop :=
  ∀ value, evaluateIntegerConstant expression = .ok value → value.KeepsSign byteLength

/-- Evaluating the expression makes no negative value wider, and does not negate the least value of
four bytes. -/
def Undisturbed : CoreExpr → Prop
  | .integerLiteral _ | .other => True
  | .unsigned operand byteLength | .integerCast operand byteLength _ =>
      Undisturbed operand ∧ ConvertsKept operand byteLength
  | .unary op operand =>
      Undisturbed operand ∧ ∀ value, op = .negate → evaluateIntegerConstant operand = .ok value →
        value.format = int32 → value.reading ≠ -2 ^ 31
  | .binary left op right =>
      Undisturbed left ∧
        match parseTypedIntegerOperator op with
        | some operation =>
            Undisturbed right ∧ ConvertsKept left operation.byteLength ∧
              (operation.symbol ≠ "<<" → operation.symbol ≠ ">>" →
                ConvertsKept right operation.byteLength)
        | none => ∀ value, evaluateIntegerConstant left = .ok value →
            (value.reading ≠ 0 ↔ op = "&&") → Undisturbed right
  | .ternary condition thenExpr elseExpr =>
      Undisturbed condition ∧ ∀ value, evaluateIntegerConstant condition = .ok value →
        (value.reading ≠ 0 → Undisturbed thenExpr) ∧ (value.reading = 0 → Undisturbed elseExpr)

/-! ### Values of lowered expressions -/

/-- The type of the value, or a signed one in the place of a type of 64 bits. -/
def CarriedIn (format : IntegerFormat) (value : ConstantInteger) : Prop :=
  value.format = format ∨ format.width = 64 ∧ value.isSigned = true ∧ 4 ≤ value.byteLength

/-- The evaluator's value of an expression of a described type stands for a constant of C. -/
def Denotes (described : TypeInfo) (value : ConstantInteger) (constant : Int) : Prop :=
  match described.abi.kind with
  | .integer => IsStandard described.abi.byteLength ∧ value.reading = constant ∧
      CarriedIn (formatOf described) value ∧ (formatOf described).Holds constant
  | .pointer => unsignedLong64.convert value.reading = constant
  | _ => False

section
variable {described : TypeInfo} {value : ConstantInteger} {constant : Int}

theorem denotes_integer (isInteger : described.abi.kind = .integer) :
    Denotes described value constant ↔ IsStandard described.abi.byteLength ∧
      value.reading = constant ∧ CarriedIn (formatOf described) value ∧
        (formatOf described).Holds constant := by
  unfold Denotes
  rw [isInteger]

theorem denotes_pointer (isPointer : described.abi.kind = .pointer) :
    Denotes described value constant ↔ unsignedLong64.convert value.reading = constant := by
  unfold Denotes
  rw [isPointer]

theorem Denotes.kind (denotes : Denotes described value constant) :
    described.abi.kind = .integer ∨ described.abi.kind = .pointer := by
  unfold Denotes at denotes
  cases kind : described.abi.kind <;> simp_all

theorem Denotes.eq_zero_iff (denotes : Denotes described value constant) (normal : value.Normal) :
    value.reading = 0 ↔ constant = 0 := by
  rcases denotes.kind with isInteger | isPointer
  · rw [((denotes_integer isInteger).mp denotes).2.1]
  · rw [← (denotes_pointer isPointer).mp denotes, unsignedLong64, IntegerFormat.convert,
      if_neg Bool.false_ne_true]
    have bound : (value.bits : Int) < 2 ^ (value.byteLength * 8) := by exact_mod_cast normal.bound
    have wide : (2 : Int) ^ (value.byteLength * 8) ≤ 2 ^ 64 :=
      pow_le_pow_right₀ (by decide) normal.standard.le
    have half : 0 < 2 ^ (value.byteLength * 8 - 1) := by positivity
    have range : -2 ^ 64 < value.reading ∧ value.reading < 2 ^ 64 := by
      rw [normal.reading_eq]
      split <;> omega
    dsimp only
    omega

/-- An exact value is in the range of its type. -/
theorem denotes_of_format (isInteger : described.abi.kind = .integer) (normal : value.Normal)
    (standard : IsStandard described.abi.byteLength) (exact_ : value.format = formatOf described) :
    Denotes described value value.reading :=
  (denotes_integer isInteger).mpr ⟨standard, rfl, .inl exact_, exact_ ▸ normal.holds⟩

theorem reading_of_convert {byteLength : Nat} {isSigned : Bool} {converted : ConstantInteger}
    (normal : value.Normal) (keeps : value.KeepsSign byteLength)
    (done : convertConstantInteger value byteLength isSigned = .ok converted) :
    converted.format = ⟨byteLength * 8, isSigned⟩ ∧
      converted.reading = IntegerFormat.convert ⟨byteLength * 8, isSigned⟩ value.reading := by
  obtain ⟨_, length, sign, reads⟩ := gives_convert.meets converted done
  rw [reads, ConstantInteger.convert_bits _ normal keeps, ConstantInteger.format, length, sign]
  exact ⟨rfl, rfl⟩

theorem preserveUnsigned_eq (core : CoreExpr) (isUnsigned : isUnsignedInteger described = true) :
    (∃ operand byteLength, core = .unsigned operand byteLength ∧
      preserveUnsigned core described = core) ∨
    preserveUnsigned core described = .unsigned core described.abi.byteLength := by
  unfold preserveUnsigned
  rw [if_pos isUnsigned]
  cases core with
  | unsigned operand byteLength => exact .inl ⟨operand, byteLength, rfl, rfl⟩
  | _ => exact .inr rfl

/-- A value keeps what it denotes where it is marked as unsigned; then it has its type. -/
theorem denotes_preserveUnsigned {core : CoreExpr} (isInteger : described.abi.kind = .integer)
    (inner : ∀ value, evaluateIntegerConstant core = .ok value → Undisturbed core →
      Denotes described value constant)
    (evaluated : evaluateIntegerConstant (preserveUnsigned core described) = .ok value)
    (undisturbed : Undisturbed (preserveUnsigned core described)) :
    Denotes described value constant ∧
      (described.abi.isSigned = false → value.format = formatOf described) := by
  by_cases isUnsigned : isUnsignedInteger described = true
  · have noSign : described.abi.isSigned = false := by
      simp only [isUnsignedInteger, Bool.and_eq_true, Bool.not_eq_true'] at isUnsigned
      exact isUnsigned.2
    rcases preserveUnsigned_eq core isUnsigned with ⟨operand, byteLength, rfl, same⟩ | same
    · rw [same] at evaluated undisturbed
      have denotes := inner value evaluated undisturbed
      obtain ⟨_, _, carried, _⟩ := (denotes_integer isInteger).mp denotes
      refine ⟨denotes, fun _ => carried.resolve_right ?_⟩
      rintro ⟨_, isSigned, _⟩
      obtain ⟨inside, _, done⟩ := ok_of_bind evaluated
      rw [(gives_convert.meets value done).2.2.1] at isSigned
      cases isSigned
    · rw [same] at evaluated undisturbed
      obtain ⟨inside, evaluatedInside, done⟩ := ok_of_bind evaluated
      have denotes := inner inside evaluatedInside undisturbed.1
      obtain ⟨standard, reads, _, holds⟩ := (denotes_integer isInteger).mp denotes
      obtain ⟨format, converted⟩ := reading_of_convert (normal_of_evaluate evaluatedInside)
        (undisturbed.2 inside evaluatedInside) done
      have exact_ : value.format = formatOf described := by rw [format, formatOf, noSign]
      rw [reads, ← format, exact_, IntegerFormat.convert_of_holds standard.positive holds]
        at converted
      exact ⟨(denotes_integer isInteger).mpr ⟨standard, converted, .inl exact_, holds⟩,
        fun _ => exact_⟩
  · have same : preserveUnsigned core described = core := if_neg isUnsigned
    rw [same] at evaluated undisturbed
    refine ⟨inner value evaluated undisturbed, fun noSign => absurd ?_ isUnsigned⟩
    simp [isUnsignedInteger, CCompat.isInteger, isInteger, noSign]

end

end HitSimple.CCompat

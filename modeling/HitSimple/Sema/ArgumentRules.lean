import HitSimple.Sema.Arguments
import HitSimple.Sema.LiteralNodes
import HitSimple.FixedWidth.SignAgreement

namespace HitSimple.Sema
open FixedWidth Literal

/-- The mathematical value of an integer constant expression: of an integer or character literal, or
of the negation of one. -/
def constantValue : Hir.Expr → Option Int
  | .integerLiteral text result =>
      if result.isIntegerNumeric then (parseUnsignedIntegerLiteral text).map fun value =>
        reading result.isUnsigned (BitVec.ofNat (result.staticByteLength * 8) value)
      else none
  | .characterLiteral [byte] result =>
      if result.integerInterpretation = .rawOnly then none else some byte.toNat
  | .unary .negate operand _ => (constantValue operand).map fun value => -value
  | _ => none

namespace Parameter

def Represents (parameter : Parameter) (value : Int) : Prop :=
  if parameter.templateName.isUnsigned then 0 ≤ value ∧ value < 2 ^ (parameter.byteLength * 8)
  else -2 ^ (parameter.byteLength * 8 - 1) ≤ value ∧ value < 2 ^ (parameter.byteLength * 8 - 1)

instance (parameter : Parameter) (value : Int) : Decidable (parameter.Represents value) :=
  inferInstanceAs (Decidable (if parameter.templateName.isUnsigned then _ ∧ _ else _ ∧ _))

/-- The arguments a parameter admits according to Standard 12.1 and 12.3. -/
inductive Admits (parameter : Parameter) (argument : Hir.Expr) : Prop where
  | view (template : argument.result.templateName = parameter.templateName)
      (length : argument.result.length = .static parameter.byteLength)
  | constant {value : Int} (standard : parameter.templateName.isStandardInteger = true)
      (constant : constantValue argument = some value) (represents : parameter.Represents value)
  | untemplated (template : parameter.templateName = .none)
      (integer : argument.result.isIntegerExpression = true)

/-- The arguments the analyser lets through although no rule admits them. -/
inductive Overaccepts (parameter : Parameter) : Hir.Expr → Prop where
  | boolean {text : Spelling} {result : ViewSemantics}
      (standard : parameter.templateName.isStandardInteger = true)
      (small : parameter.byteLength ≤ 8) (category : result.category = .boolean) :
      Overaccepts parameter (.integerLiteral text result)
  | negative {text : Spelling} {result : ViewSemantics} {value : Int}
      (standard : parameter.templateName.isStandardInteger = true)
      (small : parameter.byteLength ≤ 8) (isUnsigned : parameter.templateName.isUnsigned = true)
      (narrow : result.staticByteLength ≤ parameter.byteLength)
      (constant : constantValue (.integerLiteral text result) = some value) (negative : value < 0) :
      Overaccepts parameter (.integerLiteral text result)
  | character {byte : Byte} {result : ViewSemantics}
      (standard : parameter.templateName.isStandardInteger = true)
      (isSigned : parameter.templateName.isUnsigned = false) (single : parameter.byteLength = 1)
      (interpreted : result.integerInterpretation ≠ .rawOnly) (high : 128 ≤ byte.toNat) :
      Overaccepts parameter (.characterLiteral [byte] result)

/-- The arguments the analyser refuses although a rule admits them.  A size of `2 ^ 64` bytes or more
has no literal. -/
inductive Refuses (scope : Scope) (parameter : Parameter) (argument : Ast.Expr) : Hir.Expr → Prop where
  | handle {node : Hir.Expr} (template : parameter.templateName = .handle)
      (view : node.result.templateName = .handle)
      (length : node.result.length = .static parameter.byteLength)
      (unrecognized : isHandleExpression scope argument = false) :
      Refuses scope parameter argument node
  | negation {operand : Hir.Expr} {result : ViewSemantics} {value : Int}
      (standard : parameter.templateName.isStandardInteger = true)
      (constant : constantValue (.unary .negate operand result) = some value)
      (represents : parameter.Represents value)
      (other : result.templateName ≠ parameter.templateName ∨
        result.length ≠ .static parameter.byteLength) :
      Refuses scope parameter argument (.unary .negate operand result)
  | literal {text : Spelling} {result : ViewSemantics} {value : Int}
      (standard : parameter.templateName.isStandardInteger = true)
      (constant : constantValue (.integerLiteral text result) = some value)
      (represents : parameter.Represents value)
      (unfit : value < 0 ∧ parameter.byteLength ≤ result.staticByteLength ∨ 8 < parameter.byteLength) :
      Refuses scope parameter argument (.integerLiteral text result)
  | spelledNone {node : Hir.Expr} (spelled : parameter.spelledNone = true)
      (view : node.result.templateName = .none)
      (length : node.result.length = .static parameter.byteLength)
      (other : node.result.isIntegerExpression = false) : Refuses scope parameter argument node
  | size {text : Spelling} {result : ViewSemantics}
      (template : parameter.templateName = .unsignedInteger 8)
      (view : result.templateName = .unsignedInteger 8)
      (length : result.length = .static parameter.byteLength)
      (overflow : parseUnsignedIntegerLiteral text = none) :
      Refuses scope parameter argument (.integerLiteral text result)

end Parameter

section Ranges

/-- The range check in terms of the bound it enforces. -/
theorem integerLiteralFits_iff {text : Spelling} {value byteLength : Nat} (isUnsigned : Bool)
    (parsed : parseUnsignedIntegerLiteral text = some value) (positive : 0 < byteLength) :
    integerLiteralFits text byteLength isUnsigned = true ↔ byteLength ≤ 8 ∧
      value < if isUnsigned then 2 ^ (byteLength * 8) else 2 ^ (byteLength * 8 - 1) := by
  have limit := parseUnsignedIntegerLiteral_le parsed
  rw [maxUInt64] at limit
  by_cases small : byteLength ≤ 8
  · simp only [integerLiteralFits, parsed, small, true_and]
    rw [if_neg (by omega)]
    interval_cases byteLength <;> cases isUnsigned <;> simp <;> omega
  · simp only [integerLiteralFits, parsed, small, false_and, iff_false]
    rw [if_pos (by omega)]
    exact Bool.false_ne_true

/-- The value of a stored literal: its text, or below zero when the top bit is set. -/
theorem reading_ofNat_cases (isUnsigned : Bool) {byteLength value : Nat} (positive : 0 < byteLength)
    (bound : value < 2 ^ (byteLength * 8)) :
    (reading isUnsigned (BitVec.ofNat (byteLength * 8) value) = value ∨
      reading isUnsigned (BitVec.ofNat (byteLength * 8) value) = value - 2 ^ (byteLength * 8) ∧
        2 ^ (byteLength * 8 - 1) ≤ value) := by
  have stored : (BitVec.ofNat (byteLength * 8) value).toNat = value := by
    rw [BitVec.toNat_ofNat, Nat.mod_eq_of_lt bound]
  have difference := toNat_eq_reading_add isUnsigned (BitVec.ofNat (byteLength * 8) value)
  rw [stored] at difference
  split at difference
  · rename_i negative
    right
    have top := two_pow_le_of_negative isUnsigned negative
    rw [stored, show byteLength * 8 = byteLength * 8 - 1 + 1 by omega, pow_succ] at top
    exact ⟨by omega, by omega⟩
  · left
    omega

end Ranges

section Matching
variable {scope : Scope} {parameter : Parameter} {argument : Ast.Expr} {node : Hir.Expr}

theorem Parameter.hasTemplateOf_iff {view : ViewSemantics} :
    parameter.hasTemplateOf view = true ↔
      view.templateName = parameter.templateName ∧ parameter.spelledNone = false := by
  simp [Parameter.hasTemplateOf]

theorem length_eq_static_iff (static : node.result.isDynamic = false) (byteLength : Nat) :
    node.result.length = .static byteLength ↔ node.byteLength = byteLength := by
  rw [Hir.Expr.byteLength, ViewSemantics.staticByteLength]
  cases length : node.result.length with
  | static own => simp
  | dynamic => simp [ViewSemantics.isDynamic, length] at static

theorem matchOrdinaryArgument_isOk_iff (callee : String) (index : Nat)
    (static : node.result.isDynamic = false) :
    (∃ passed, matchOrdinaryArgument callee index parameter node = .ok passed) ↔
      parameter.literalFits node = true ∧ (parameter.isConvertible node = true ∨
        parameter.hasTemplateOf node.result = true ∧ node.byteLength = parameter.byteLength) := by
  unfold matchOrdinaryArgument
  cases parameter.isConvertible node <;> cases parameter.hasTemplateOf node.result <;>
    cases parameter.literalFits node <;> by_cases same : node.byteLength = parameter.byteLength <;>
      simp [static, same]

theorem constantValue_cases {value : Int} (constant : constantValue node = some value) :
    node.isIntegerLiteral = true ∨ isIntegerCharacter node = true ∨
      ∃ operand result, node = .unary .negate operand result := by
  unfold constantValue at constant
  split at constant
  · exact .inl rfl
  · rename_i byte result
    split at constant
    · cases constant
    · rename_i interpreted
      refine .inr (.inl ?_)
      simpa [isIntegerCharacter] using interpreted
  · exact .inr (.inr ⟨_, _, rfl⟩)
  · cases constant

/-- An argument that is no literal: only a negated constant is treated differently. -/
theorem matches_of_not_literal (callee : String) (index : Nat)
    (static : node.result.isDynamic = false) (notHandle : parameter.templateName ≠ .handle)
    (notLiteral : node.isIntegerLiteral = false) (notCharacter : isIntegerCharacter node = false) :
    (∃ passed, matchOrdinaryArgument callee index parameter node = .ok passed) ↔
      (parameter.Admits node ∧ ¬parameter.Refuses scope argument node) ∨
        parameter.Overaccepts node := by
  have fits : parameter.literalFits node = true := by
    cases node <;> first | rfl | cases notLiteral
  rw [matchOrdinaryArgument_isOk_iff callee index static]
  simp only [fits, true_and, Parameter.isConvertible, Parameter.literalMatchesInteger,
    Parameter.acceptsUntemplatedInteger, notLiteral, notCharacter, Bool.or_self, Bool.and_false,
    Bool.false_or, Bool.and_eq_true, beq_iff_eq, Parameter.hasTemplateOf_iff,
    ← length_eq_static_iff static]
  constructor
  · intro accepted
    left
    rcases accepted with ⟨untemplated, integer⟩ | ⟨⟨template, spelled⟩, length⟩
    · refine ⟨.untemplated untemplated integer, ?_⟩
      intro refused
      cases refused with
      | handle template => exact notHandle template
      | negation standard => simp [untemplated, TemplateName.isStandardInteger] at standard
      | literal => cases notLiteral
      | spelledNone _ _ _ other => simp [other] at integer
      | size => cases notLiteral
    · refine ⟨.view template length, ?_⟩
      intro refused
      cases refused with
      | handle template => exact notHandle template
      | negation _ _ _ other => exact other.elim (absurd template) (absurd length)
      | literal => cases notLiteral
      | spelledNone spelling => simp [spelled] at spelling
      | size => cases notLiteral
  · rintro (⟨admitted, accepted⟩ | overaccepted)
    · cases admitted with
      | view template length =>
          cases spelled : parameter.spelledNone with
          | false => exact .inr ⟨⟨template, rfl⟩, length⟩
          | true =>
              have untemplated := parameter.untemplated spelled
              refine .inl ⟨untemplated, ?_⟩
              by_contra other
              exact accepted (.spelledNone spelled (template.trans untemplated) length
                (Bool.eq_false_iff.mpr other))
      | constant standard constant represents =>
          rcases constantValue_cases constant with literal | character | ⟨operand, result, rfl⟩
          · simp [literal] at notLiteral
          · simp [character] at notCharacter
          · right
            have spelled : parameter.spelledNone = false := by
              cases spelling : parameter.spelledNone with
              | false => rfl
              | true =>
                  simp [parameter.untemplated spelling, TemplateName.isStandardInteger] at standard
            by_contra other
            refine accepted (.negation standard constant represents ?_)
            by_contra exactly
            rw [not_or, not_not, not_not] at exactly
            exact other ⟨⟨exactly.1, spelled⟩, exactly.2⟩
      | untemplated template integer => exact .inl ⟨template, integer⟩
    · cases overaccepted with
      | boolean => cases notLiteral
      | negative => cases notLiteral
      | character _ _ _ interpreted => simp [isIntegerCharacter, interpreted] at notCharacter

/-- Without a standard integer or an absent template the View alone decides. -/
theorem refuses_iff_of_other (notHandle : parameter.templateName ≠ .handle)
    (notStandard : parameter.templateName.isStandardInteger = false)
    (templated : parameter.templateName ≠ .none) : ¬parameter.Refuses scope argument node := by
  intro refused
  cases refused with
  | handle template => exact notHandle template
  | negation standard => simp [notStandard] at standard
  | literal standard => simp [notStandard] at standard
  | spelledNone spelled => exact templated (parameter.untemplated spelled)
  | size template => simp [template, TemplateName.isStandardInteger] at notStandard

theorem not_overaccepts_of_other (notStandard : parameter.templateName.isStandardInteger = false) :
    ¬parameter.Overaccepts node := by
  intro overaccepted
  cases overaccepted with
  | boolean standard | negative standard | character standard => simp [notStandard] at standard

theorem admits_iff_of_other (notStandard : parameter.templateName.isStandardInteger = false)
    (templated : parameter.templateName ≠ .none) :
    parameter.Admits node ↔ node.result.templateName = parameter.templateName ∧
      node.result.length = .static parameter.byteLength := by
  constructor
  · intro admitted
    cases admitted with
    | view template length => exact ⟨template, length⟩
    | constant standard => simp [notStandard] at standard
    | untemplated template => exact absurd template templated
  · rintro ⟨template, length⟩
    exact .view template length

/-- A parameter of any other template takes the Views that match it. -/
theorem matches_of_other (callee : String) (index : Nat) (static : node.result.isDynamic = false)
    (stored : IsStored node) (notStandard : parameter.templateName.isStandardInteger = false)
    (templated : parameter.templateName ≠ .none) :
    (∃ passed, matchOrdinaryArgument callee index parameter node = .ok passed) ↔
      parameter.Admits node := by
  have spelled : parameter.spelledNone = false := by
    cases spelling : parameter.spelledNone with
    | false => rfl
    | true => exact absurd (parameter.untemplated spelling) templated
  have convertible : parameter.isConvertible node = false := by
    simp [Parameter.isConvertible, Parameter.literalMatchesInteger,
      Parameter.acceptsUntemplatedInteger, notStandard, templated]
  rw [matchOrdinaryArgument_isOk_iff callee index static, admits_iff_of_other notStandard templated]
  simp only [convertible, Bool.false_eq_true, false_or, Parameter.hasTemplateOf_iff, spelled,
    and_true, ← length_eq_static_iff static]
  constructor
  · exact fun accepted => accepted.2
  · intro exactly
    refine ⟨?_, exactly⟩
    cases node with
    | integerLiteral text result =>
        cases stored with
        | boolean holds =>
            have one : parameter.byteLength = 1 := (ViewLength.static.inj exactly.2).symm
            have parsed : parseUnsignedIntegerLiteral (if holds then ['1'] else ['0']) =
                some holds.toNat := by
              cases holds <;> decide
            simp only [Parameter.literalFits, isUnsignedIntegerTemplate, notStandard,
              Bool.false_and, Bool.or_eq_true]
            right
            rw [integerLiteralFits_iff false parsed parameter.positive, one]
            cases holds <;> decide
        | integer isUnsigned =>
            exfalso
            apply templated
            rw [← exactly.1]
            cases isUnsigned <;> rfl
        | size =>
            have standard : parameter.templateName = .unsignedInteger 8 := exactly.1.symm
            simp [standard, TemplateName.isStandardInteger] at notStandard
    | _ => rfl

theorem matches_of_character (callee : String) (index : Nat) {byte : Byte}
    (notOther : parameter.templateName.isStandardInteger = true ∨ parameter.templateName = .none) :
    (∃ passed, matchOrdinaryArgument callee index parameter
        (.characterLiteral [byte] (unsignedIntegerResult 1)) = .ok passed) ↔
      (parameter.Admits (.characterLiteral [byte] (unsignedIntegerResult 1)) ∧
        ¬parameter.Refuses scope argument (.characterLiteral [byte] (unsignedIntegerResult 1))) ∨
        parameter.Overaccepts (.characterLiteral [byte] (unsignedIntegerResult 1)) := by
  have interpreted : (unsignedIntegerResult 1).integerInterpretation ≠ .rawOnly := by decide
  have accepted : ∃ passed, matchOrdinaryArgument callee index parameter
      (.characterLiteral [byte] (unsignedIntegerResult 1)) = .ok passed := by
    rw [matchOrdinaryArgument_isOk_iff callee index rfl]
    refine ⟨rfl, .inl ?_⟩
    rcases notOther with standard | untemplated
    · simp [Parameter.isConvertible, Parameter.literalMatchesInteger, standard, isIntegerCharacter,
        interpreted]
    · simp [Parameter.isConvertible, Parameter.acceptsUntemplatedInteger, untemplated,
        isIntegerCharacter, interpreted]
  have taken : ¬parameter.Refuses scope argument
      (.characterLiteral [byte] (unsignedIntegerResult 1)) := by
    intro refused
    cases refused with
    | handle _ view => cases view
    | spelledNone _ _ _ other => cases other
  simp only [accepted, taken, not_false_iff, and_true, true_iff]
  rcases notOther with standard | untemplated
  · have constant : constantValue (.characterLiteral [byte] (unsignedIntegerResult 1)) =
        some (byte.toNat : Int) := by
      rw [constantValue, if_neg interpreted]
    have small : byte.toNat < 2 ^ 8 := byte.isLt
    have positive := parameter.positive
    by_cases represents : parameter.Represents byte.toNat
    · exact .inl (.constant standard constant represents)
    · right
      unfold Parameter.Represents at represents
      cases isUnsigned : parameter.templateName.isUnsigned with
      | true =>
          simp only [isUnsigned, if_true] at represents
          have wide : 2 ^ 8 ≤ 2 ^ (parameter.byteLength * 8) :=
            Nat.pow_le_pow_right (by omega) (by omega)
          exact absurd ⟨by omega, by exact_mod_cast lt_of_lt_of_le small wide⟩ represents
      | false =>
          simp only [isUnsigned, Bool.false_eq_true, if_false] at represents
          have single : parameter.byteLength = 1 := by
            by_contra longer
            have wide : 2 ^ 8 ≤ 2 ^ (parameter.byteLength * 8 - 1) :=
              Nat.pow_le_pow_right (by omega) (by omega)
            have lower : (0 : Int) < 2 ^ (parameter.byteLength * 8 - 1) := by positivity
            exact represents ⟨by omega, by exact_mod_cast lt_of_lt_of_le small wide⟩
          refine .character standard isUnsigned single interpreted ?_
          rw [single] at represents
          by_contra low
          exact represents ⟨by omega, by omega⟩
  · exact .inl (.untemplated untemplated rfl)

variable (scope argument) in
theorem matches_of_untemplated (callee : String) (index : Nat) {text : Spelling}
    {result : ViewSemantics} (stored : StoredLiteral text result)
    (untemplated : parameter.templateName = .none) :
    (∃ passed, matchOrdinaryArgument callee index parameter (.integerLiteral text result) =
        .ok passed) ∧
      parameter.Admits (.integerLiteral text result) ∧
        ¬parameter.Refuses scope argument (.integerLiteral text result) := by
  have integer : result.isIntegerExpression = true ∧ result.isDynamic = false := by
    cases stored with
    | boolean => exact ⟨rfl, rfl⟩
    | integer isUnsigned => cases isUnsigned <;> exact ⟨rfl, rfl⟩
    | size => exact ⟨rfl, rfl⟩
  refine ⟨?_, .untemplated untemplated integer.1, ?_⟩
  · rw [matchOrdinaryArgument_isOk_iff callee index
      (show (Hir.Expr.integerLiteral text result).result.isDynamic = false from integer.2)]
    simp [Parameter.literalFits, untemplated, Parameter.isConvertible,
      Parameter.acceptsUntemplatedInteger, Hir.Expr.isIntegerLiteral]
  · intro refused
    cases refused with
    | handle template => simp [untemplated] at template
    | literal standard => simp [untemplated, TemplateName.isStandardInteger] at standard
    | spelledNone _ _ _ other => exact absurd integer.1 (Bool.eq_false_iff.mp other)
    | size template => simp [untemplated] at template

/-- A standard integer parameter takes a literal whose stored text is below its bound. -/
theorem matches_literal_iff (callee : String) (index : Nat) {text : Spelling}
    {result : ViewSemantics} (static : result.isDynamic = false)
    (standard : parameter.templateName.isStandardInteger = true) :
    (∃ passed, matchOrdinaryArgument callee index parameter (.integerLiteral text result) =
        .ok passed) ↔
      integerLiteralFits text parameter.byteLength parameter.templateName.isUnsigned = true := by
  have templated : parameter.templateName ≠ .none := by
    intro untemplated
    simp [untemplated, TemplateName.isStandardInteger] at standard
  rw [matchOrdinaryArgument_isOk_iff callee index
    (show (Hir.Expr.integerLiteral text result).result.isDynamic = false from static)]
  simp [Parameter.literalFits, Parameter.isConvertible, Parameter.literalMatchesInteger, standard,
    templated, isUnsignedIntegerTemplate, Hir.Expr.isIntegerLiteral]

/-- The range of a parameter against the bound of the range check, for the value a stored literal
denotes. -/
theorem fits_iff_represents {text : Spelling} {value : Nat} (isUnsigned : Bool) {byteLength : Nat}
    (parsed : parseUnsignedIntegerLiteral text = some value) (positive : 0 < byteLength)
    (bound : value < 2 ^ (byteLength * 8)) :
    integerLiteralFits text parameter.byteLength parameter.templateName.isUnsigned = true ↔
      parameter.Represents (reading isUnsigned (BitVec.ofNat (byteLength * 8) value)) ∧
          ¬(reading isUnsigned (BitVec.ofNat (byteLength * 8) value) < 0 ∧
              parameter.byteLength ≤ byteLength ∨ 8 < parameter.byteLength) ∨
        parameter.byteLength ≤ 8 ∧ parameter.templateName.isUnsigned = true ∧
          byteLength ≤ parameter.byteLength ∧
          reading isUnsigned (BitVec.ofNat (byteLength * 8) value) < 0 := by
  have own : 2 ^ (byteLength * 8) = 2 * 2 ^ (byteLength * 8 - 1) := by
    rw [← pow_succ', Nat.sub_add_cancel (by omega)]
  have other : 2 ^ (parameter.byteLength * 8) = 2 * 2 ^ (parameter.byteLength * 8 - 1) := by
    rw [← pow_succ', Nat.sub_add_cancel (by have := parameter.positive; omega)]
  have shorter : byteLength < parameter.byteLength →
      2 ^ (byteLength * 8) ≤ 2 ^ (parameter.byteLength * 8 - 1) :=
    fun narrow => Nat.pow_le_pow_right (by omega) (by omega)
  have longer : parameter.byteLength < byteLength →
      2 ^ (parameter.byteLength * 8) ≤ 2 ^ (byteLength * 8 - 1) :=
    fun wide => Nat.pow_le_pow_right (by omega) (by omega)
  rw [integerLiteralFits_iff _ parsed parameter.positive]
  unfold Parameter.Represents
  have readings := reading_ofNat_cases isUnsigned positive bound
  generalize reading isUnsigned (BitVec.ofNat (byteLength * 8) value) = denoted at readings ⊢
  zify at own other shorter longer bound readings ⊢
  rcases Nat.lt_trichotomy byteLength parameter.byteLength with narrow | same | wide
  · have ordered := shorter (by exact_mod_cast narrow)
    cases parameter.templateName.isUnsigned <;> simp <;> omega
  · rw [← same] at other ⊢
    cases parameter.templateName.isUnsigned <;> simp <;> omega
  · have ordered := longer (by exact_mod_cast wide)
    cases parameter.templateName.isUnsigned <;> simp <;> omega

theorem matches_of_boolean (callee : String) (index : Nat) (holds : Bool)
    (standard : parameter.templateName.isStandardInteger = true) :
    (∃ passed, matchOrdinaryArgument callee index parameter
        (.integerLiteral (if holds then ['1'] else ['0']) booleanResult) = .ok passed) ↔
      (parameter.Admits (.integerLiteral (if holds then ['1'] else ['0']) booleanResult) ∧
        ¬parameter.Refuses scope argument
          (.integerLiteral (if holds then ['1'] else ['0']) booleanResult)) ∨
        parameter.Overaccepts (.integerLiteral (if holds then ['1'] else ['0']) booleanResult) := by
  have parsed : parseUnsignedIntegerLiteral (if holds then ['1'] else ['0']) =
      some holds.toNat := by
    cases holds <;> decide
  have positive := parameter.positive
  have bounded : holds.toNat < if parameter.templateName.isUnsigned then
      2 ^ (parameter.byteLength * 8) else 2 ^ (parameter.byteLength * 8 - 1) := by
    have truth := Bool.toNat_lt holds
    split
    · exact truth.trans_le (Nat.pow_le_pow_right Nat.two_pos (show 1 ≤ _ by omega))
    · exact truth.trans_le (Nat.pow_le_pow_right Nat.two_pos (show 1 ≤ _ by omega))
  rw [matches_literal_iff callee index rfl standard, integerLiteralFits_iff _ parsed positive]
  constructor
  · rintro ⟨small, -⟩
    exact .inr (.boolean standard small rfl)
  · rintro (⟨admitted, -⟩ | overaccepted)
    · exfalso
      cases admitted with
      | view template =>
          rw [← template] at standard
          cases standard
      | constant _ constant => cases constant
      | untemplated template => simp [template, TemplateName.isStandardInteger] at standard
    · cases overaccepted with
      | boolean _ small => exact ⟨small, bounded⟩
      | negative _ small => exact ⟨small, bounded⟩

theorem constantValue_literal {text : Spelling} {result : ViewSemantics} {value : Nat}
    (numeric : result.isIntegerNumeric = true)
    (parsed : parseUnsignedIntegerLiteral text = some value) :
    constantValue (.integerLiteral text result) = some
      (reading result.isUnsigned (BitVec.ofNat (result.staticByteLength * 8) value)) := by
  rw [constantValue, if_pos numeric, parsed, Option.map_some]

/-- A literal of an integer View, where the View itself can match only within the range. -/
theorem matches_of_numeric (callee : String) (index : Nat) {text : Spelling}
    {result : ViewSemantics} {value : Nat} (static : result.isDynamic = false)
    (standard : parameter.templateName.isStandardInteger = true)
    (numeric : result.isIntegerNumeric = true) (positive : 0 < result.staticByteLength)
    (parsed : parseUnsignedIntegerLiteral text = some value)
    (bound : value < 2 ^ (result.staticByteLength * 8))
    (exactly : result.templateName = parameter.templateName →
      result.length = .static parameter.byteLength →
        parameter.Represents
          (reading result.isUnsigned (BitVec.ofNat (result.staticByteLength * 8) value))) :
    (∃ passed, matchOrdinaryArgument callee index parameter (.integerLiteral text result) =
        .ok passed) ↔
      (parameter.Admits (.integerLiteral text result) ∧
        ¬parameter.Refuses scope argument (.integerLiteral text result)) ∨
        parameter.Overaccepts (.integerLiteral text result) := by
  have constant := constantValue_literal numeric parsed
  have templated : parameter.templateName ≠ .none := by
    intro untemplated
    simp [untemplated, TemplateName.isStandardInteger] at standard
  have admits : parameter.Admits (.integerLiteral text result) ↔ parameter.Represents
      (reading result.isUnsigned (BitVec.ofNat (result.staticByteLength * 8) value)) := by
    constructor
    · intro admitted
      cases admitted with
      | view template length => exact exactly template length
      | constant _ found represents =>
          rw [constant] at found
          cases found
          exact represents
      | untemplated template => exact absurd template templated
    · exact fun represents => .constant standard constant represents
  have refuses (represents : parameter.Represents
      (reading result.isUnsigned (BitVec.ofNat (result.staticByteLength * 8) value))) :
      parameter.Refuses scope argument (.integerLiteral text result) ↔
        reading result.isUnsigned (BitVec.ofNat (result.staticByteLength * 8) value) < 0 ∧
          parameter.byteLength ≤ result.staticByteLength ∨ 8 < parameter.byteLength := by
    constructor
    · intro refused
      cases refused with
      | handle template => simp [template, TemplateName.isStandardInteger] at standard
      | literal _ found _ unfit =>
          rw [constant] at found
          cases found
          exact unfit
      | spelledNone spelled => exact absurd (parameter.untemplated spelled) templated
      | size _ _ _ overflow => simp [parsed] at overflow
    · exact fun unfit => .literal standard constant represents unfit
  have overaccepts : parameter.Overaccepts (.integerLiteral text result) ↔
      parameter.byteLength ≤ 8 ∧ parameter.templateName.isUnsigned = true ∧
        result.staticByteLength ≤ parameter.byteLength ∧
        reading result.isUnsigned (BitVec.ofNat (result.staticByteLength * 8) value) < 0 := by
    constructor
    · intro overaccepted
      cases overaccepted with
      | boolean _ _ category => simp [ViewSemantics.isIntegerNumeric, category] at numeric
      | negative _ small isUnsigned narrow found negative =>
          rw [constant] at found
          cases found
          exact ⟨small, isUnsigned, narrow, negative⟩
    · rintro ⟨small, isUnsigned, narrow, negative⟩
      exact .negative standard small isUnsigned narrow constant negative
  rw [matches_literal_iff callee index static standard, admits, overaccepts,
    fits_iff_represents result.isUnsigned parsed positive bound]
  exact or_congr_left (and_congr_right fun represents => not_congr (refuses represents).symm)

theorem matches_of_size (callee : String) (index : Nat) (text : Spelling)
    (standard : parameter.templateName.isStandardInteger = true) :
    (∃ passed, matchOrdinaryArgument callee index parameter
        (.integerLiteral text (fixedResult (.unsignedInteger 8) 8)) = .ok passed) ↔
      (parameter.Admits (.integerLiteral text (fixedResult (.unsignedInteger 8) 8)) ∧
        ¬parameter.Refuses scope argument
          (.integerLiteral text (fixedResult (.unsignedInteger 8) 8))) ∨
        parameter.Overaccepts (.integerLiteral text (fixedResult (.unsignedInteger 8) 8)) := by
  cases parsed : parseUnsignedIntegerLiteral text with
  | some value =>
      apply matches_of_numeric callee index rfl standard rfl (by decide) parsed
      · have limit := parseUnsignedIntegerLiteral_le parsed
        exact Nat.lt_of_le_sub_one (by decide) limit
      · intro template length
        have eight : parameter.byteLength = 8 := (ViewLength.static.inj length).symm
        have isUnsigned : parameter.templateName.isUnsigned = true := by
          rw [← template]
          rfl
        rw [Parameter.Represents, isUnsigned, if_pos rfl, eight]
        exact ⟨reading_nonneg_of_unsigned _, reading_lt_two_pow true (BitVec.ofNat 64 value)⟩
  | none =>
      have unparsed : constantValue
          (.integerLiteral text (fixedResult (.unsignedInteger 8) 8)) = none := by
        rw [constantValue, parsed]
        rfl
      rw [matches_literal_iff callee index rfl standard, integerLiteralFits, parsed]
      simp only [Bool.false_eq_true, false_iff]
      rintro (⟨admitted, taken⟩ | overaccepted)
      · cases admitted with
        | view template length => exact taken (.size template.symm rfl length parsed)
        | constant _ constant => simp [unparsed] at constant
        | untemplated template => simp [template, TemplateName.isStandardInteger] at standard
      · cases overaccepted with
        | boolean _ _ category => cases category
        | negative _ _ _ _ constant => simp [unparsed] at constant

/-- The analyser decides about an argument as the rules do, but for the literals and negations it
misreads and the untemplated bytes it does not match. -/
theorem matches_iff (callee : String) (index : Nat) (static : node.result.isDynamic = false)
    (stored : IsStored node) (notHandle : parameter.templateName ≠ .handle) :
    (∃ passed, matchOrdinaryArgument callee index parameter node = .ok passed) ↔
      (parameter.Admits node ∧ ¬parameter.Refuses scope argument node) ∨
        parameter.Overaccepts node := by
  by_cases other : parameter.templateName.isStandardInteger = false ∧ parameter.templateName ≠ .none
  · rw [matches_of_other callee index static stored other.1 other.2]
    simp [refuses_iff_of_other notHandle other.1 other.2, not_overaccepts_of_other other.1]
  have notOther : parameter.templateName.isStandardInteger = true ∨
      parameter.templateName = .none := by
    by_cases untemplated : parameter.templateName = .none
    · exact .inr untemplated
    · left
      by_contra standard
      exact other ⟨Bool.eq_false_iff.mpr standard, untemplated⟩
  cases notLiteral : node.isIntegerLiteral with
  | true =>
      cases node with
      | integerLiteral text result =>
          rcases notOther with standard | untemplated
          · cases stored with
            | boolean holds => exact matches_of_boolean callee index holds standard
            | integer isUnsigned positive small parsed bound =>
                apply matches_of_numeric callee index static standard ?_ ?_ parsed
                · cases isUnsigned <;> exact bound
                · intro template
                  rw [← template] at standard
                  cases isUnsigned <;> cases standard
                · cases isUnsigned <;> rfl
                · cases isUnsigned <;> exact positive
            | size => exact matches_of_size callee index text standard
          · obtain ⟨accepted, admitted, taken⟩ :=
              matches_of_untemplated scope argument callee index stored untemplated
            exact iff_of_true accepted (.inl ⟨admitted, taken⟩)
      | _ => cases notLiteral
  | false =>
      cases notCharacter : isIntegerCharacter node with
      | true =>
          cases node with
          | characterLiteral bytes result =>
              have interpreted : result.integerInterpretation ≠ .rawOnly := by
                simpa [isIntegerCharacter] using notCharacter
              obtain ⟨rfl, byte, rfl⟩ := stored interpreted
              exact matches_of_character callee index notOther
          | _ => cases notCharacter
      | false => exact matches_of_not_literal callee index static notHandle notLiteral notCharacter

end Matching

end HitSimple.Sema

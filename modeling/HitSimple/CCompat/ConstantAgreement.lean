import HitSimple.CCompat.ConstantOperands

namespace HitSimple.CCompat
open Literal (Spelling parseUnsignedIntegerLiteral)
open Lexer (digitsValue)
open FixedWidth (IntegerFormat)

section
variable {scope : Scope}

/-- What the evaluator makes of a lowered expression denotes the constant. -/
def Sound (scope : Scope) (expression : Expr) (constant : Int) : Prop :=
  ∀ lowered value, scope.lowerExpr expression = .ok lowered →
    evaluateIntegerConstant lowered.expression = .ok value → Undisturbed lowered.expression →
      Denotes lowered.type value constant

theorem carried_of_literal {value : ConstantInteger} {magnitude : Nat} (small : magnitude < 2 ^ 63)
    (format : value.format = ⟨if 2 ^ 31 - 1 < magnitude then 64 else 32, magnitude ≤ 2 ^ 63 - 1⟩) :
    value.isSigned = true ∧ 4 ≤ value.byteLength := by
  constructor
  · have signs := congrArg IntegerFormat.isSigned format
    rw [decide_eq_true (by omega)] at signs
    exact signs
  · have widths := congrArg IntegerFormat.width format
    simp only [ConstantInteger.format] at widths
    split at widths <;> omega

theorem sound_integer {text : String} {format : IntegerFormat} {constant : Int}
    (means : LiteralMeans text.toList format constant) :
    Sound scope (.literal .integer text) constant := by
  intro lowered value done evaluated _
  obtain ⟨parsed, found, rfl⟩ := lowerInteger_ok done
  obtain ⟨rfl, base, digits, isNumeral, rfl, read, holds⟩ := parsed_of_means means found
  have standard : IsStandard parsed.byteLength := .inr (.inr (length_of_parsed found))
  have literal {inner : ConstantInteger}
      (evaluated : evaluateIntegerConstant (.integerLiteral parsed.value) = .ok inner) :
      inner.reading = digitsValue base digits ∧
        inner.format = ⟨if 2 ^ 31 - 1 < digitsValue base digits then 64 else 32,
          digitsValue base digits ≤ 2 ^ 63 - 1⟩ := by
    obtain ⟨_, magnitude, parses, reads, format⟩ := gives_integerLiteral.meets inner evaluated
    rw [parseCIntegerLiteralMagnitude, isNumeral.rdropWhile, read] at parses
    cases parses
    exact ⟨reads, format⟩
  refine (denotes_integer rfl).mpr ⟨standard, ?_⟩
  dsimp only at evaluated
  split at evaluated
  next isSigned =>
    obtain ⟨reads, format⟩ := literal evaluated
    refine ⟨reads, ?_, holds⟩
    rw [formatOf_integerType, isSigned]
    rw [isSigned, IntegerFormat.Holds, if_pos rfl] at holds
    dsimp only at holds
    rcases length_of_parsed found with four | eight
    · rw [four] at holds ⊢
      left
      rw [format, if_neg (by omega), decide_eq_true (by omega)]
    · rw [eight] at holds ⊢
      exact .inr ⟨rfl, carried_of_literal (by omega) format⟩
  next isUnsigned =>
    have noSign : parsed.isSigned = false := by simpa using isUnsigned
    obtain ⟨inner, evaluatedInner, converts⟩ := ok_of_bind evaluated
    obtain ⟨reads, _⟩ := literal evaluatedInner
    have keeps : inner.KeepsSign parsed.byteLength := fun _ => by omega
    obtain ⟨format, converted⟩ :=
      reading_of_convert (normal_of_evaluate evaluatedInner) keeps converts
    rw [noSign] at holds
    rw [reads, IntegerFormat.convert_of_holds standard.positive holds] at converted
    refine ⟨converted, .inl ?_, ?_⟩
    · rw [format, formatOf_integerType, noSign]
    · rw [formatOf_integerType, noSign]
      exact holds

theorem sound_not {operand : Expr} {constant : Int} (sound : Sound scope operand constant) :
    Sound scope (.unary .not operand) (truth (constant = 0)) := by
  intro lowered value done evaluated undisturbed
  obtain ⟨inner, loweredOperand, done⟩ := lowerExpr_unary (.inl rfl) done
  rcases lowerUnary_ok done with ⟨_, _, rfl⟩ | ⟨notNot, _⟩
  · obtain ⟨operandValue, evaluatedOperand, done⟩ := ok_of_bind evaluated
    have normal := normal_of_evaluate evaluatedOperand
    have denotes := sound inner operandValue loweredOperand evaluatedOperand undisturbed.1
    have computes := (gives_evaluateUnary normal).meets value done
    obtain ⟨format, reads⟩ := computes.negated rfl
    have same : value.reading = truth (constant = 0) := by
      rw [reads]
      exact if_congr (denotes.eq_zero_iff normal) rfl rfl
    rw [← same]
    exact denotes_of_format rfl computes.normal (.inl rfl) format
  · exact absurd rfl notNot

theorem operateUnary_narrow {op : UnaryOperator} {constant outcome : Int}
    (computed : operateUnary long64 op constant = some outcome) (holds : int32.Holds constant)
    (notLeast : op = .negate → constant ≠ -2 ^ 31) :
    operateUnary int32 op constant = some outcome ∧ int32.Holds outcome := by
  have range := holds
  rw [IntegerFormat.Holds, int32, if_pos rfl] at range
  dsimp only at range
  unfold operateUnary at computed ⊢
  split at computed
  · cases computed
    exact ⟨rfl, holds⟩
  · have inner : int32.Holds (-constant - 1) := by
      rw [IntegerFormat.Holds, int32, if_pos rfl]
      dsimp only
      omega
    have outer : long64.Holds (-constant - 1) := inner.widen (by decide) rfl
    rw [IntegerFormat.convert_of_holds (by decide) outer] at computed
    cases computed
    exact ⟨by rw [IntegerFormat.convert_of_holds (by decide) inner], inner⟩
  · have regular := notLeast rfl
    have inner : int32.Holds (-constant) := by
      rw [IntegerFormat.Holds, int32, if_pos rfl]
      dsimp only
      omega
    have outer : long64.Holds (-constant) := inner.widen (by decide) rfl
    have same := convert_of_result (by decide) computed
    rw [IntegerFormat.convert_of_holds (by decide) outer] at same
    subst same
    exact ⟨(if_pos rfl).trans (if_pos inner), inner⟩
  · cases computed

/-- A carried value that is not exact is one of `int` in the place of one of `long`. -/
theorem carried_cases {format : IntegerFormat} {value : ConstantInteger} (normal : value.Normal)
    (carried : CarriedIn format value) (exactly : format.isSigned = false → value.format = format) :
    value.format = format ∨ format = long64 ∧ value.format = int32 := by
  rcases carried with same | ⟨width, isSigned, four⟩
  · exact .inl same
  cases signs : format.isSigned with
  | false => exact .inl (exactly signs)
  | true =>
      have long : format = long64 := by
        obtain ⟨_, _⟩ := format
        cases width
        cases signs
        rfl
      rcases normal.standard with length | length | length | length
      · omega
      · omega
      · refine .inr ⟨long, ?_⟩
        rw [ConstantInteger.format, length, isSigned]
        rfl
      · refine .inl ?_
        rw [ConstantInteger.format, length, isSigned, long]
        rfl

theorem sound_unary (lp64 : scope.declarations.pointerByteLength = 8) {op : UnaryOperator}
    {operand : Expr} {format : IntegerFormat} {constant outcome : Int}
    (typed : HasType scope operand (.integer format)) (sound : Sound scope operand constant)
    (computed : operateUnary (promoted format) op constant = some outcome) :
    Sound scope (.unary op operand) outcome := by
  have arithmetic : op = .plus ∨ op = .negate ∨ op = .complement := by
    cases op <;> first | (cases computed; done) | simp
  intro lowered value done evaluated undisturbed
  obtain ⟨inner, loweredOperand, done⟩ := lowerExpr_unary (.inr arithmetic) done
  have agrees := agrees_of_lowered lp64 typed inner loweredOperand
  rcases lowerUnary_ok done with ⟨rfl, _⟩ | ⟨notNot, isInteger, rfl⟩
  · rcases arithmetic with same | same | same <;> cases same
  have standard := standard_promoteInteger agrees.2.1
  rw [promoted_of_agrees agrees, ← formatOf_promoteInteger] at computed
  refine (denotes_preserveUnsigned (kind_promoteInteger isInteger) ?_ evaluated undisturbed).1
  intro value evaluated undisturbed
  obtain ⟨operandValue, evaluatedOperand, done⟩ := ok_of_bind evaluated
  have normal := normal_of_evaluate evaluatedOperand
  obtain ⟨denotes, exactly⟩ := denotes_preserveUnsigned isInteger
    (fun value evaluated undisturbed => sound inner value loweredOperand evaluated undisturbed)
    evaluatedOperand undisturbed.1
  obtain ⟨_, reads, carried, _⟩ := (denotes_integer isInteger).mp denotes
  have computes := (gives_evaluateUnary normal).meets value done
  have format := computes.format notNot
  have operated := computes.operated notNot
  rw [reads] at operated
  rcases carried_cases normal carried exactly with same | ⟨long, short⟩
  · rw [same, ← formatOf_promoteInteger] at format
    rw [format] at operated
    rw [← operated outcome computed]
    exact denotes_of_format (kind_promoteInteger isInteger) computes.normal standard format
  · have target : formatOf (promoteInteger inner.type) = long64 := by
      rw [formatOf_promoteInteger, long]
      rfl
    have narrow : value.format = int32 := by
      rw [format, short]
      rfl
    have holds := normal.holds
    rw [short, reads] at holds
    rw [target] at computed
    rw [narrow] at operated
    obtain ⟨computedNarrow, fits⟩ := operateUnary_narrow computed holds fun negates => by
      rw [← reads]
      exact undisturbed.2 operandValue negates evaluatedOperand short
    refine (denotes_integer (kind_promoteInteger isInteger)).mpr
      ⟨standard, operated outcome computedNarrow, ?_, ?_⟩
    · rw [target]
      have width := congrArg IntegerFormat.width narrow
      simp only [ConstantInteger.format, int32] at width
      exact .inr ⟨rfl, congrArg IntegerFormat.isSigned narrow, by omega⟩
    · rw [target]
      exact fits.widen (by decide) rfl

/-! ### Binary operators -/

theorem lowerBinary_of_logical {op : BinaryOperator} {left right lowered : ExprResult}
    (logical : isLogical op = true) (done : scope.lowerBinary op left right = .ok lowered) :
    ∃ leftCore rightCore, lowered = ⟨.binary leftCore op.lexeme rightCore, integerType 1 false⟩ ∧
      (leftCore = left.expression ∨ left.type.abi.kind = .integer ∧
        leftCore = preserveUnsigned left.expression left.type) ∧
      (rightCore = right.expression ∨ right.type.abi.kind = .integer ∧
        rightCore = preserveUnsigned right.expression right.type) := by
  have facts : isShift op = false ∧ isComparison op = false ∧ op ≠ .add ∧ op ≠ .subtract := by
    cases op <;> simp [isLogical, isShift, isComparison] at logical ⊢
  obtain ⟨notShift, notComparison, notAdd, notSubtract⟩ := facts
  unfold Scope.lowerBinary Scope.lowerPointer at done
  simp only [notShift, notComparison, notAdd, notSubtract, logical, decide_false, Bool.false_and,
    Bool.or_self, Bool.or_true, Bool.false_eq_true, if_false, if_true] at done
  split at done
  · exact ⟨_, _, (Except.ok.inj done).symm, .inl rfl, .inl rfl⟩
  split at done
  · rcases type_of_floating done with ⟨comparing, _⟩ | ⟨_, notLogical, _⟩
    · rw [notComparison] at comparing
      cases comparing
    · rw [logical] at notLogical
      cases notLogical
  split at done
  · cases done
  next integers =>
    simp only [isInteger, Bool.or_eq_true, Bool.not_eq_true', decide_eq_false_iff_not, not_or,
      not_not] at integers
    exact ⟨_, _, (Except.ok.inj done).symm, .inr ⟨integers.1, rfl⟩, .inr ⟨integers.2, rfl⟩⟩

theorem logical_ok {left right : CoreExpr} {op : String} {isAnd : Bool} {value : ConstantInteger}
    (logical : op = "&&" ∧ isAnd = true ∨ op = "||" ∧ isAnd = false)
    (evaluated : evaluateIntegerConstant (.binary left op right) = .ok value) :
    ∃ leftValue, evaluateIntegerConstant left = .ok leftValue ∧
      ((leftValue.reading ≠ 0 ↔ isAnd = false) ∧ value = ofTruth !isAnd ∨
        (leftValue.reading ≠ 0 ↔ isAnd = true) ∧
          ∃ rightValue, evaluateIntegerConstant right = .ok rightValue ∧
            value = ofTruth (decide (rightValue.reading ≠ 0))) := by
  have isOr : decide (op = "||") = !isAnd := by
    rcases logical with ⟨rfl, rfl⟩ | ⟨rfl, rfl⟩ <;> rfl
  have shortened (truth : Bool) :
      (op = "&&" ∧ !truth) ∨ (op = "||" ∧ truth) ↔ truth = !isAnd := by
    rcases logical with ⟨rfl, rfl⟩ | ⟨rfl, rfl⟩ <;> simp
  rw [evaluateIntegerConstant, if_pos (logical.imp And.left And.left)] at evaluated
  obtain ⟨leftValue, evaluatedLeft, evaluated⟩ := ok_of_bind evaluated
  obtain ⟨leftIsTrue, truthLeft, evaluated⟩ := ok_of_bind evaluated
  have decidedLeft := (gives_isTrue (normal_of_evaluate evaluatedLeft)).meets leftIsTrue truthLeft
  refine ⟨leftValue, evaluatedLeft, ?_⟩
  rw [← decidedLeft]
  split at evaluated
  next short =>
    refine .inl ⟨?_, ?_⟩
    · rw [(shortened leftIsTrue).mp short]
      cases isAnd <;> simp
    · rw [← Except.ok.inj evaluated, isOr]
  next long =>
    have decided : leftIsTrue = isAnd := by
      rw [shortened] at long
      cases isAnd <;> cases leftIsTrue <;> simp at long ⊢
    obtain ⟨rightValue, evaluatedRight, evaluated⟩ := ok_of_bind evaluated
    obtain ⟨rightIsTrue, truthRight, evaluated⟩ := ok_of_bind evaluated
    have decidedRight :=
      (gives_isTrue (normal_of_evaluate evaluatedRight)).meets rightIsTrue truthRight
    refine .inr ⟨by rw [decided], rightValue, evaluatedRight, ?_⟩
    rw [← Except.ok.inj evaluated]
    congr 1
    rw [Bool.eq_iff_iff, decidedRight, decide_eq_true_iff]

/-- The operands of a logical operator denote constants that are zero at the same time. -/
theorem zero_of_operand {result : ExprResult} {core : CoreExpr} {constant : Int}
    {value : ConstantInteger} (same : core = result.expression ∨
      result.type.abi.kind = .integer ∧ core = preserveUnsigned result.expression result.type)
    (sound : ∀ value, evaluateIntegerConstant result.expression = .ok value →
      Undisturbed result.expression → Denotes result.type value constant)
    (evaluated : evaluateIntegerConstant core = .ok value) (undisturbed : Undisturbed core) :
    value.reading = 0 ↔ constant = 0 := by
  rcases same with rfl | ⟨isInteger, rfl⟩
  · exact (sound value evaluated undisturbed).eq_zero_iff (normal_of_evaluate evaluated)
  · exact (denotes_preserveUnsigned isInteger sound evaluated undisturbed).1.eq_zero_iff
      (normal_of_evaluate evaluated)

theorem denotes_truth (holds : Prop) [Decidable holds] :
    Denotes (integerType 1 false) (ofTruth (decide holds)) (truth holds) := by
  obtain ⟨normal, format, reads⟩ := normal_ofTruth (decide holds)
  have same : (ofTruth (decide holds)).reading = truth holds :=
    reads.trans (if_congr decide_eq_true_iff rfl rfl)
  rw [← same]
  exact denotes_of_format rfl normal (.inl rfl) format

/-- A logical operator stops at its left operand, or has the truth of its right one. -/
theorem sound_logical {op : BinaryOperator} {left right : Expr} {constant : Int} {isAnd : Bool}
    {lowered : ExprResult} {value : ConstantInteger}
    (logical : op.lexeme = "&&" ∧ isAnd = true ∨ op.lexeme = "||" ∧ isAnd = false)
    (isLogicalOp : isLogical op = true) (sound : Sound scope left constant)
    (done : scope.lowerExpr (.binary op left right) = .ok lowered)
    (evaluated : evaluateIntegerConstant lowered.expression = .ok value)
    (undisturbed : Undisturbed lowered.expression) :
    lowered.type = integerType 1 false ∧
      ((constant ≠ 0 ↔ isAnd = false) ∧ value = ofTruth !isAnd ∨
        (constant ≠ 0 ↔ isAnd = true) ∧ ∀ other, Sound scope right other →
          value = ofTruth (decide (other ≠ 0))) := by
  obtain ⟨leftResult, rightResult, loweredLeft, loweredRight, done⟩ := lowerExpr_binary done
  obtain ⟨leftCore, rightCore, rfl, sameLeft, sameRight⟩ := lowerBinary_of_logical isLogicalOp done
  obtain ⟨leftValue, evaluatedLeft, outcome⟩ := logical_ok logical evaluated
  have untyped : parseTypedIntegerOperator op.lexeme = none := by
    rcases logical with ⟨lexeme, _⟩ | ⟨lexeme, _⟩ <;> rw [lexeme] <;> rfl
  have isAndOp : op.lexeme = "&&" ↔ isAnd = true := by
    rcases logical with ⟨lexeme, rfl⟩ | ⟨lexeme, rfl⟩ <;> simp [lexeme]
  have undisturbedRight := undisturbed.2
  rw [untyped, isAndOp] at undisturbedRight
  have zeroLeft := zero_of_operand sameLeft
    (fun value evaluated undisturbed => sound leftResult value loweredLeft evaluated undisturbed)
    evaluatedLeft undisturbed.1
  rw [Ne, zeroLeft] at outcome
  refine ⟨rfl, outcome.imp_right fun ⟨decided, rightValue, evaluatedRight, same⟩ =>
    ⟨decided, fun other soundRight => ?_⟩⟩
  have zeroRight := zero_of_operand sameRight
    (fun value evaluated undisturbed => soundRight rightResult value loweredRight evaluated
      undisturbed) evaluatedRight
    (undisturbedRight leftValue evaluatedLeft (by rw [Ne, zeroLeft]; exact decided))
  rw [same]
  congr 1
  rw [decide_eq_decide, Ne, zeroRight]

/-- A typed operation on operands that denote constants. -/
theorem computes_typed (op : BinaryOperator) {left right : ExprResult}
    {operationType : TypeInfo} {constant other : Int} (value : ConstantInteger)
    (standard : IsStandard operationType.abi.byteLength)
    (isLeft : left.type.abi.kind = .integer) (isRight : right.type.abi.kind = .integer)
    (soundLeft : ∀ value, evaluateIntegerConstant left.expression = .ok value →
      Undisturbed left.expression → Denotes left.type value constant)
    (soundRight : ∀ value, evaluateIntegerConstant right.expression = .ok value →
      Undisturbed right.expression → Denotes right.type value other)
    (evaluated : evaluateIntegerConstant (.binary (preserveUnsigned left.expression left.type)
      (cIntegerOperator operationType.abi.byteLength operationType.abi.isSigned op.lexeme)
      (preserveUnsigned right.expression right.type)) = .ok value)
    (undisturbed : Undisturbed (.binary (preserveUnsigned left.expression left.type)
      (cIntegerOperator operationType.abi.byteLength operationType.abi.isSigned op.lexeme)
      (preserveUnsigned right.expression right.type))) :
    (formatOf left.type).Holds constant ∧ value.Normal ∧
      value.format = (if isComparison op then ⟨8, false⟩ else formatOf operationType) ∧
      (isShift op = true → ∀ outcome, shift (formatOf operationType) op
        ((formatOf operationType).convert constant) other = some outcome →
          value.reading = outcome) ∧
      ∀ outcome, operate (formatOf operationType) op
        ((formatOf operationType).convert constant) ((formatOf operationType).convert other) =
          some outcome → value.reading = outcome := by
  have parsed := parseTypedIntegerOperator_eq operationType.abi.isSigned op standard
  have typed (text : String) (untyped : parseTypedIntegerOperator text = none) :
      cIntegerOperator operationType.abi.byteLength operationType.abi.isSigned op.lexeme ≠ text := by
    intro same
    rw [same, untyped] at parsed
    cases parsed
  rw [evaluateIntegerConstant, if_neg (not_or.mpr ⟨typed "&&" rfl, typed "||" rfl⟩), parsed]
    at evaluated
  obtain ⟨leftValue, evaluatedLeft, evaluated⟩ := ok_of_bind evaluated
  obtain ⟨rightValue, evaluatedRight, done⟩ := ok_of_bind evaluated
  have normalLeft := normal_of_evaluate evaluatedLeft
  have normalRight := normal_of_evaluate evaluatedRight
  have computes := (gives_evaluateTyped (binaryOperator_lexeme op) normalRight).meets value done
  rw [Undisturbed, parsed] at undisturbed
  obtain ⟨undisturbedLeft, undisturbedRight, keptLeft, keptRight⟩ := undisturbed
  obtain ⟨_, readsLeft, _, holds⟩ := (denotes_integer isLeft).mp
    (denotes_preserveUnsigned isLeft soundLeft evaluatedLeft undisturbedLeft).1
  obtain ⟨_, readsRight, _⟩ := (denotes_integer isRight).mp
    (denotes_preserveUnsigned isRight soundRight evaluatedRight undisturbedRight).1
  have convertsLeft := ConstantInteger.convert_bits operationType.abi.isSigned normalLeft
    (keptLeft leftValue evaluatedLeft)
  rw [readsLeft] at convertsLeft
  refine ⟨holds, computes.normal, computes.format, ?_, ?_⟩
  · have shifted := computes.shifted
    dsimp only at shifted
    rw [convertsLeft, readsRight] at shifted
    exact shifted
  · intro outcome computed
    have notShift : op.lexeme ≠ "<<" ∧ op.lexeme ≠ ">>" := by
      constructor <;> intro same <;> cases op <;> simp_all [BinaryOperator.lexeme, operate]
    have convertsRight := ConstantInteger.convert_bits operationType.abi.isSigned normalRight
      (keptRight notShift.1 notShift.2 rightValue evaluatedRight)
    rw [readsRight] at convertsRight
    have operated := computes.operated
    dsimp only at operated
    rw [convertsLeft, convertsRight] at operated
    exact operated outcome computed

theorem holds_promoted {format : IntegerFormat} {constant : Int} (holds : format.Holds constant) :
    (promoted format).Holds constant := by
  unfold promoted
  split
  next narrow => exact holds.widen narrow rfl
  next => exact holds

theorem sound_shift (lp64 : scope.declarations.pointerByteLength = 8) {op : BinaryOperator}
    {left right : Expr} {format countFormat : IntegerFormat} {constant count outcome : Int}
    (shifting : isShift op = true) (typed : HasType scope left (.integer format))
    (countTyped : HasType scope right (.integer countFormat)) (sound : Sound scope left constant)
    (soundRight : Sound scope right count)
    (computed : shift (promoted format) op constant count = some outcome) :
    Sound scope (.binary op left right) outcome := by
  intro lowered value done evaluated undisturbed
  obtain ⟨leftResult, rightResult, loweredLeft, loweredRight, done⟩ := lowerExpr_binary done
  have agreesLeft := agrees_of_lowered lp64 typed leftResult loweredLeft
  have agreesRight := agrees_of_lowered lp64 countTyped rightResult loweredRight
  have standard := standard_promoteInteger agreesLeft.2.1
  have isInteger := kind_promoteInteger agreesLeft.1
  rw [promoted_of_agrees agreesLeft, ← formatOf_promoteInteger] at computed
  rcases lowerBinary_of_integers agreesLeft.1 agreesRight.1 done with
    ⟨_, _, rfl⟩ | ⟨logical, _⟩ | ⟨notShift, _⟩
  · refine (denotes_preserveUnsigned isInteger ?_ evaluated undisturbed).1
    intro value evaluated undisturbed
    obtain ⟨fits, normal, valueFormat, shifted, _⟩ := computes_typed op value standard agreesLeft.1
      agreesRight.1
      (fun value evaluated undisturbed => sound leftResult value loweredLeft evaluated undisturbed)
      (fun value evaluated undisturbed =>
        soundRight rightResult value loweredRight evaluated undisturbed) evaluated undisturbed
    rw [not_comparison_of_shift shifting] at valueFormat
    have holds : (formatOf (promoteInteger leftResult.type)).Holds constant := by
      rw [formatOf_promoteInteger]
      exact holds_promoted fits
    rw [IntegerFormat.convert_of_holds standard.positive holds] at shifted
    rw [← shifted shifting outcome computed]
    exact denotes_of_format isInteger normal standard valueFormat
  · rw [not_logical_of_shift shifting] at logical
    cases logical
  · rw [shifting] at notShift
    cases notShift

theorem sound_arithmetic (lp64 : scope.declarations.pointerByteLength = 8) {op : BinaryOperator}
    {left right : Expr} {leftFormat rightFormat : IntegerFormat} {constant other outcome : Int}
    (leftTyped : HasType scope left (.integer leftFormat))
    (rightTyped : HasType scope right (.integer rightFormat)) (sound : Sound scope left constant)
    (soundRight : Sound scope right other)
    (computed : operate (usual leftFormat rightFormat) op
      ((usual leftFormat rightFormat).convert constant)
      ((usual leftFormat rightFormat).convert other) = some outcome) :
    Sound scope (.binary op left right) outcome := by
  intro lowered value done evaluated undisturbed
  obtain ⟨leftResult, rightResult, loweredLeft, loweredRight, done⟩ := lowerExpr_binary done
  have agreesLeft := agrees_of_lowered lp64 leftTyped leftResult loweredLeft
  have agreesRight := agrees_of_lowered lp64 rightTyped rightResult loweredRight
  have standard := standard_usualIntegerType agreesLeft.2.1 agreesRight.2.1
  have isInteger := kind_usualIntegerType agreesLeft.1 agreesRight.1
  rw [usual_of_agrees agreesLeft agreesRight] at computed
  have compute {value : ConstantInteger} := computes_typed op value standard agreesLeft.1
    agreesRight.1
    (fun value evaluated undisturbed => sound leftResult value loweredLeft evaluated undisturbed)
    (fun value evaluated undisturbed =>
      soundRight rightResult value loweredRight evaluated undisturbed)
  rcases lowerBinary_of_integers agreesLeft.1 agreesRight.1 done with
    ⟨shifting, _⟩ | ⟨logical, _⟩ | ⟨_, _, rfl⟩
  · rw [operate_of_shift shifting] at computed
    cases computed
  · cases op <;> simp [isLogical, operate] at logical computed
  · cases comparing : isComparison op with
    | true =>
        rw [comparing] at evaluated undisturbed
        obtain ⟨_, normal, valueFormat, _, operated⟩ := compute evaluated undisturbed
        rw [comparing] at valueFormat
        rw [← operated outcome computed]
        exact denotes_of_format rfl normal (.inl rfl) valueFormat
    | false =>
        rw [comparing] at evaluated undisturbed
        refine (denotes_preserveUnsigned isInteger ?_ evaluated undisturbed).1
        intro value evaluated undisturbed
        obtain ⟨_, normal, valueFormat, _, operated⟩ := compute evaluated undisturbed
        rw [comparing] at valueFormat
        rw [← operated outcome computed]
        exact denotes_of_format isInteger normal standard valueFormat

/-! ### Conditionals, casts and sizes -/

theorem convert_of_denotes {described : TypeInfo} {type : ValueType} {value : ConstantInteger}
    {constant : Int} (agrees : Agrees described type)
    (denotes : Denotes described value constant) : type.convert constant = constant := by
  cases type with
  | integer format =>
      obtain ⟨isInteger, standard, same⟩ := agrees
      obtain ⟨_, _, _, holds⟩ := (denotes_integer isInteger).mp denotes
      rcases same with rfl | ⟨narrow, rfl⟩
      · exact IntegerFormat.convert_of_holds standard.positive holds
      · refine IntegerFormat.convert_of_holds (by decide) (holds.widen ?_ rfl)
        simp only [formatOf, int32]
        omega
  | address =>
      have reads := (denotes_pointer agrees).mp denotes
      rw [← reads]
      exact IntegerFormat.convert_of_holds (by decide) (IntegerFormat.holds_convert (by decide))
  | floating =>
      have kind : described.abi.kind = .floating := agrees
      rcases denotes.kind with other | other <;> rw [kind] at other <;> cases other

theorem Denotes.of_sameType {described other : TypeInfo} {value : ConstantInteger} {constant : Int}
    (denotes : Denotes other value constant) (same : sameType described other = true) :
    Denotes described value constant := by
  obtain ⟨kind, length, sign⟩ := abi_of_sameType same
  unfold Denotes formatOf at denotes ⊢
  rw [kind, length, sign]
  exact denotes

theorem ternary_ok {condition thenExpr elseExpr : CoreExpr} {value : ConstantInteger}
    (evaluated : evaluateIntegerConstant (.ternary condition thenExpr elseExpr) = .ok value) :
    ∃ test, evaluateIntegerConstant condition = .ok test ∧
      (test.reading ≠ 0 ∧ evaluateIntegerConstant thenExpr = .ok value ∨
        test.reading = 0 ∧ evaluateIntegerConstant elseExpr = .ok value) := by
  obtain ⟨test, evaluatedTest, evaluated⟩ := ok_of_bind evaluated
  obtain ⟨holds, truth, evaluated⟩ := ok_of_bind evaluated
  have decided := (gives_isTrue (normal_of_evaluate evaluatedTest)).meets holds truth
  refine ⟨test, evaluatedTest, ?_⟩
  cases holds with
  | true => exact .inl ⟨decided.mp rfl, evaluated⟩
  | false => exact .inr ⟨by simpa using decided, evaluated⟩

theorem sound_conditional (lp64 : scope.declarations.pointerByteLength = 8)
    {condition thenExpr elseExpr : Expr} {type : ValueType} {test constant : Int}
    (typed : HasType scope (.conditional condition thenExpr elseExpr) type)
    (sound : Sound scope condition test)
    (chosen : test ≠ 0 ∧ Sound scope thenExpr constant ∨
      test = 0 ∧ Sound scope elseExpr constant) :
    Sound scope (.conditional condition thenExpr elseExpr) (type.convert constant) := by
  intro lowered value done evaluated undisturbed
  have agrees := agrees_of_lowered lp64 typed lowered done
  obtain ⟨conditionResult, thenResult, elseResult, loweredCondition, loweredThen, loweredElse, same,
    rfl⟩ := lowerExpr_conditional done
  obtain ⟨testValue, evaluatedTest, branch⟩ := ternary_ok evaluated
  have zero := (sound conditionResult testValue loweredCondition evaluatedTest
    undisturbed.1).eq_zero_iff (normal_of_evaluate evaluatedTest)
  have undisturbedBranch := undisturbed.2 testValue evaluatedTest
  have denotes : Denotes thenResult.type value constant := by
    rcases chosen with ⟨nonzero, soundThen⟩ | ⟨isZero, soundElse⟩
    · have taken := branch.resolve_right fun other => nonzero (zero.mp other.1)
      exact soundThen thenResult value loweredThen taken.2 (undisturbedBranch.1 taken.1)
    · have taken := branch.resolve_left fun other => other.1 (zero.mpr isZero)
      exact (soundElse elseResult value loweredElse taken.2
        (undisturbedBranch.2 taken.1)).of_sameType same
  rw [convert_of_denotes agrees denotes]
  exact denotes

theorem sound_cast (lp64 : scope.declarations.pointerByteLength = 8) {source : CType}
    {pointerDepth : Nat} {operand : Expr} {type : ValueType} {constant : Int}
    (typed : HasType scope (.cast source pointerDepth operand) type) (whole : type ≠ .floating)
    (sound : Sound scope operand constant) :
    Sound scope (.cast source pointerDepth operand) (type.convert constant) := by
  intro lowered value done evaluated undisturbed
  have agrees := agrees_of_lowered lp64 typed lowered done
  obtain ⟨target, inner, resolved, loweredOperand, done⟩ := lowerExpr_cast done
  have denotedTarget : describedType target = some type := by
    cases typed with
    | access accessing => cases accessing
    | cast found denoted =>
        rw [resolved] at found
        rw [Option.some.inj found]
        exact denoted
  rw [type_of_cast done] at agrees ⊢
  have soundInner := fun value evaluated undisturbed =>
    sound inner value loweredOperand evaluated undisturbed
  unfold Scope.lowerCast at done
  split at done
  · cases done
  split at done
  next isPointer =>
    have pointer : target.abi.kind = .pointer := of_decide_eq_true isPointer
    have address : type = .address := by
      unfold describedType at denotedTarget
      rw [pointer] at denotedTarget
      exact (Option.some.inj denotedTarget).symm
    split at done
    · cases done
    cases done
    subst address
    have denotes := soundInner value evaluated undisturbed
    refine (denotes_pointer pointer).mpr ?_
    rcases denotes.kind with isInteger | isAddress
    · rw [((denotes_integer isInteger).mp denotes).2.1]
      rfl
    · rw [← (denotes_pointer isAddress).mp denotes]
      exact (IntegerFormat.convert_of_holds (by decide)
        (IntegerFormat.holds_convert (by decide))).symm
  split at done
  next same =>
    cases done
    have denotes := (soundInner value evaluated undisturbed).of_sameType same
    rw [convert_of_denotes agrees denotes]
    exact denotes
  split at done
  next integers =>
    simp only [isInteger, Bool.and_eq_true, decide_eq_true_eq] at integers
    cases done
    obtain ⟨source, evaluatedSource, converts⟩ := ok_of_bind evaluated
    have denotes := (denotes_preserveUnsigned integers.2 soundInner evaluatedSource
      undisturbed.1).1
    obtain ⟨format, converted⟩ := reading_of_convert (normal_of_evaluate evaluatedSource)
      (undisturbed.2 source evaluatedSource) converts
    have normal := (gives_convert.meets value converts).1
    unfold describedType at denotedTarget
    rw [integers.1] at denotedTarget
    dsimp only at denotedTarget
    split at denotedTarget
    next standard =>
      obtain rfl := Option.some.inj denotedTarget
      have exact_ : value.reading = (formatOf target).convert constant := by
        rw [← ((denotes_integer integers.2).mp denotes).2.1]
        exact converted
      change Denotes target value ((formatOf target).convert constant)
      rw [← exact_]
      exact denotes_of_format integers.1 normal standard format
    next => cases denotedTarget
  split at done
  · cases done
    cases evaluated
  · cases done

theorem lowerExpr_sizeOf {expression : Expr} {byteLength : Nat}
    (size : scope.sizeOf expression = .ok byteLength) :
    scope.lowerExpr expression = scope.lowerSizeof expression := by
  cases expression with
  | sizeofType => rfl
  | sizeofIdentifier => rfl
  | _ => cases size

theorem rdropWhile_decimal {byteLength : Nat} :
    (toString byteLength).toList.rdropWhile isLiteralSuffix = Literal.decimal byteLength := by
  have spelled : (toString byteLength).toList = Literal.decimal byteLength := by
    simp [Literal.decimal, toString, Nat.repr]
  rw [spelled, List.rdropWhile_eq_self_iff]
  intro nonempty
  have digit := Nat.isDigit_of_mem_toDigits (by decide) (by decide)
    (List.getLast_mem nonempty)
  generalize (Literal.decimal byteLength).getLast nonempty = ch at digit ⊢
  intro suffix
  have known : ch = 'u' ∨ ch = 'U' ∨ ch = 'l' ∨ ch = 'L' := by
    simpa [isLiteralSuffix, or_assoc] using suffix
  rcases known with rfl | rfl | rfl | rfl <;> cases digit

theorem sound_sizeof (lp64 : scope.declarations.pointerByteLength = 8) {expression : Expr}
    {byteLength : Nat} (size : scope.sizeOf expression = .ok byteLength)
    (fits : unsignedLong64.Holds byteLength) : Sound scope expression byteLength := by
  intro lowered value done evaluated _
  rw [lowerExpr_sizeOf size] at done
  obtain ⟨length, sized, rfl⟩ := lowerSizeof_ok done
  rw [size] at sized
  cases sized
  obtain ⟨normal, magnitude, parses, reads, format⟩ := gives_integerLiteral.meets value evaluated
  have bound := fits
  rw [IntegerFormat.Holds, unsignedLong64, if_neg Bool.false_ne_true] at bound
  dsimp only at bound
  rw [parseCIntegerLiteralMagnitude, rdropWhile_decimal,
    Literal.parseUnsignedIntegerLiteral_decimal (by unfold Literal.maxUInt64; omega)] at parses
  cases parses
  rw [lp64]
  refine (denotes_integer rfl).mpr ⟨.inr (.inr (.inr rfl)), reads, ?_, fits⟩
  by_cases small : byteLength < 2 ^ 63
  · exact .inr ⟨rfl, carried_of_literal small format⟩
  · left
    rw [format, if_pos (by omega), decide_eq_false (by omega)]
    rfl

theorem sound_of_means (lp64 : scope.declarations.pointerByteLength = 8) {expression : Expr}
    {constant : Int} (means : Means scope expression constant) :
    Sound scope expression constant := by
  induction means with
  | integer means => exact sound_integer means
  | not means ih => exact sound_not ih
  | unary typed means computed ih => exact sound_unary lp64 typed ih computed
  | andLeft means ih =>
      intro lowered value done evaluated undisturbed
      obtain ⟨type, short | long⟩ :=
        sound_logical (.inl ⟨rfl, rfl⟩) rfl ih done evaluated undisturbed
      · rw [type, short.2]
        exact denotes_truth False
      · exact absurd rfl (long.1.mpr rfl)
  | andRight means nonzero meansRight ih ihRight =>
      intro lowered value done evaluated undisturbed
      obtain ⟨type, short | long⟩ :=
        sound_logical (.inl ⟨rfl, rfl⟩) rfl ih done evaluated undisturbed
      · cases short.1.mp nonzero
      · rw [type, long.2 _ ihRight]
        exact denotes_truth _
  | orLeft means nonzero ih =>
      intro lowered value done evaluated undisturbed
      obtain ⟨type, short | long⟩ :=
        sound_logical (.inr ⟨rfl, rfl⟩) rfl ih done evaluated undisturbed
      · rw [type, short.2]
        exact denotes_truth True
      · cases long.1.mp nonzero
  | orRight means meansRight ih ihRight =>
      intro lowered value done evaluated undisturbed
      obtain ⟨type, short | long⟩ :=
        sound_logical (.inr ⟨rfl, rfl⟩) rfl ih done evaluated undisturbed
      · exact absurd rfl (short.1.mpr rfl)
      · rw [type, long.2 _ ihRight]
        exact denotes_truth _
  | shift shifting typed countTyped means meansRight computed ih ihRight =>
      exact sound_shift lp64 shifting typed countTyped ih ihRight computed
  | arithmetic leftTyped rightTyped means meansRight computed ih ihRight =>
      exact sound_arithmetic lp64 leftTyped rightTyped ih ihRight computed
  | thenBranch typed means nonzero chosen ih ihThen =>
      exact sound_conditional lp64 typed ih (.inl ⟨nonzero, ihThen⟩)
  | elseBranch typed means chosen ih ihElse =>
      exact sound_conditional lp64 typed ih (.inr ⟨rfl, ihElse⟩)
  | cast typed whole means ih => exact sound_cast lp64 typed whole ih
  | sizeof size fits => exact sound_sizeof lp64 size fits

end

end HitSimple.CCompat

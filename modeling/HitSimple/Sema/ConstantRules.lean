import HitSimple.Sema.ConstantExpression
import HitSimple.Sema.FoldingConditions

namespace HitSimple.Sema
open FixedWidth Standard Literal

section IntegerOperands
variable (scope : Scope) (op : SourceOperator) (left right : IntegerValue)

/-- The width the analyser resolves an operation on two constants to: an ordinary `%` is taken for a
typed operator without a width. -/
def resolvedLength (op : OperatorSpelling) (byteLength : Nat) : Nat :=
  if op.isPlainModulo then 4 else byteLength

def resolvedSign (op : OperatorSpelling) (isUnsigned : Bool) : Bool :=
  !op.isPlainModulo && isUnsigned

theorem operationLength_cases {byteLength : Nat} (leftView : IsConstantView left)
    (rightView : IsConstantView right)
    (length : operationLength op.spelling left.byteLength right.byteLength = some byteLength) :
    byteLength = 1 ∨ byteLength = 2 ∨ byteLength = 4 ∨ byteLength = 8 := by
  have leftLength := leftView.length
  have rightLength := rightView.length
  unfold operationLength at length
  split at length
  · cases length
    omega
  · cases length
    omega
  · split at length
    · cases length
      assumption
    · cases length

theorem typed_acceptance {width : Option Nat} {symbol : BinaryOperator}
    (arithmetic : symbol.isIntegerArithmetic = true) (leftLength rightLength byteLength : Nat) :
    let spelling : OperatorSpelling := { typed := some { width, marker := .d }, symbol }
    (operationLength spelling leftLength rightLength = some byteLength →
      spelling.isTypedIntegerOperator = true ∧
      spelling.typedIntegerComputationLength leftLength rightLength = byteLength) ∧
    (operationLength spelling leftLength rightLength = none →
      spelling.isTypedIntegerOperator = false) := by
  have notLogical : symbol.isLogical = false := by cases symbol <;> first | rfl | cases arithmetic
  intro spelling
  cases width with
  | none =>
      simp [spelling, operationLength, OperatorSpelling.isTypedIntegerOperator,
        OperatorSpelling.startsWithPercent, OperatorSpelling.integerByteLengthForOperator,
        OperatorSpelling.typedIntegerComputationLength, OperatorSpelling.omitsWidth, notLogical]
  | some width =>
      by_cases standard : width = 1 ∨ width = 2 ∨ width = 4 ∨ width = 8
      · simp [spelling, operationLength, OperatorSpelling.isTypedIntegerOperator,
          OperatorSpelling.startsWithPercent, OperatorSpelling.integerByteLengthForOperator,
          OperatorSpelling.typedIntegerComputationLength, OperatorSpelling.omitsWidth, notLogical,
          standard]
      · simp [spelling, operationLength, OperatorSpelling.isTypedIntegerOperator,
          OperatorSpelling.startsWithPercent, OperatorSpelling.integerByteLengthForOperator,
          notLogical, standard]

theorem selectOperation_integers {byteLength : Nat}
    (length : operationLength op.spelling left.byteLength right.byteLength = some byteLength)
    (positive : 0 < byteLength) :
    op.spelling.integerSymbol?.isNone = false ∧
    selectOperation scope op.spelling (integerView left) (integerView right) = .ok {
      kind := .untemplatedInteger
      byteLength := resolvedLength op.spelling byteLength
      result := comparisonOr op.spelling.symbol
        (if resolvedSign op.spelling
            (isUnsignedOperation op.spelling left.isUnsigned right.isUnsigned) then
          unsignedIntegerResult (resolvedLength op.spelling byteLength)
        else signedIntegerResult (resolvedLength op.spelling byteLength)) } := by
  obtain ⟨⟨typed, symbol⟩, isInteger, isTypedArithmetic⟩ := op
  cases typed with
  | none =>
      cases length
      refine ⟨by simp [OperatorSpelling.integerSymbol?], ?_⟩
      by_cases modulo : symbol = .modulo
      · cases modulo
        simp [selectOperation, selectTyped, OperatorSpelling.isTypedIntegerOperator,
          OperatorSpelling.startsWithPercent, OperatorSpelling.integerByteLengthForOperator,
          OperatorSpelling.typedIntegerComputationLength, OperatorSpelling.omitsWidth,
          OperatorSpelling.hasUnsignedMarker, resolvedLength, resolvedSign, OperatorSpelling.isPlainModulo,
          BinaryOperator.isIntegerArithmetic]
      · simp [selectOperation, selectUntemplated, OperatorSpelling.isTypedIntegerOperator,
          OperatorSpelling.startsWithPercent, resolvedLength, resolvedSign, OperatorSpelling.isPlainModulo, modulo,
          isUnsignedOperation]
  | some typedPrefix =>
      obtain ⟨marked, arithmetic⟩ := isTypedArithmetic typedPrefix rfl
      obtain ⟨width, marker⟩ := typedPrefix
      cases marked
      obtain ⟨accepted, computed⟩ := (typed_acceptance arithmetic _ _ byteLength).1 length
      refine ⟨by simp [OperatorSpelling.integerSymbol?, accepted], ?_⟩
      have nonzero : byteLength ≠ 0 := by omega
      simp [selectOperation, selectTyped, accepted, computed, nonzero, resolvedLength, resolvedSign,
        OperatorSpelling.isPlainModulo, isUnsignedOperation, OperatorSpelling.hasUnsignedMarker]

theorem integerSymbol_isNone {op : SourceOperator} {leftLength rightLength : Nat}
    (length : operationLength op.spelling leftLength rightLength = none) :
    op.spelling.integerSymbol?.isNone = true := by
  obtain ⟨⟨typed, symbol⟩, isInteger, isTypedArithmetic⟩ := op
  cases typed with
  | none => simp [operationLength] at length
  | some typedPrefix =>
      obtain ⟨marked, arithmetic⟩ := isTypedArithmetic typedPrefix rfl
      obtain ⟨width, marker⟩ := typedPrefix
      cases marked
      have refused := (typed_acceptance arithmetic leftLength rightLength 0).2 length
      simp [OperatorSpelling.integerSymbol?, refused]

/-- An operation on Views without floating or user templates goes to the integer rules. -/
theorem analyzeBinary_eq_integer (rightLiteral : Option Spelling) {leftNode rightNode : Hir.Expr}
    (leftTemplate : leftNode.result.templateName.isUser = false)
    (rightTemplate : rightNode.result.templateName.isUser = false)
    (leftCategory : leftNode.result.category ≠ .floating)
    (rightCategory : rightNode.result.category ≠ .floating) :
    analyzeBinary scope op.spelling rightLiteral leftNode rightNode =
      analyzeIntegerBinary scope op.spelling rightLiteral leftNode rightNode := by
  have notFloat : floatByteLengthForOperator op.spelling = none := by
    obtain ⟨⟨typed, symbol⟩, isInteger, isTypedArithmetic⟩ := op
    cases typed with
    | none => rfl
    | some typedPrefix =>
        obtain ⟨marked, arithmetic⟩ := isTypedArithmetic typedPrefix rfl
        obtain ⟨width, marker⟩ := typedPrefix
        cases marked
        rfl
  rw [analyzeBinary, op.isInteger, notFloat]
  simp [leftTemplate, rightTemplate, leftCategory, rightCategory]

/-- What the analyser makes of an operation on two constants. -/
theorem analyzeBinary_integers (rightLiteral : Option Spelling) {leftText rightText : Spelling}
    {byteLength : Nat}
    (length : operationLength op.spelling left.byteLength right.byteLength = some byteLength)
    (positive : 0 < byteLength) :
    analyzeBinary scope op.spelling rightLiteral (.integerLiteral leftText (integerView left))
        (.integerLiteral rightText (integerView right)) =
      if op.spelling.symbol.isDivision = true ∧
          rightLiteral.bind parseUnsignedIntegerLiteral = some 0 then
        .error "division by zero in binary expression"
      else foldLiterals op.spelling.symbol {
        kind := .untemplatedInteger
        byteLength := resolvedLength op.spelling byteLength
        result := comparisonOr op.spelling.symbol
          (if resolvedSign op.spelling
              (isUnsignedOperation op.spelling left.isUnsigned right.isUnsigned) then
            unsignedIntegerResult (resolvedLength op.spelling byteLength)
          else signedIntegerResult (resolvedLength op.spelling byteLength)) }
        leftText rightText (integerView left) (integerView right) := by
  obtain ⟨accepted, selected⟩ := selectOperation_integers scope op left right length positive
  rw [analyzeBinary_eq_integer scope op rightLiteral (by simp [Hir.Expr.result, TemplateName.isUser])
    (by simp [Hir.Expr.result, TemplateName.isUser]) (by simp [Hir.Expr.result])
    (by simp [Hir.Expr.result])]
  simp only [analyzeIntegerBinary, accepted, Hir.Expr.result, selected]
  simp [isUnsignedAddressOf, buildBinary]

end IntegerOperands

section Operations
variable (scope : Scope) (op : SourceOperator) (rightLiteral : Option Spelling)

theorem selectOperation_mixed (view : IntegerValue) :
    (∃ message, selectOperation scope op.spelling booleanResult (integerView view) =
      .error message) ∧
    ∃ message, selectOperation scope op.spelling (integerView view) booleanResult =
      .error message := by
  by_cases typed : op.spelling.isTypedIntegerOperator = true <;>
    simp [selectOperation, typed, selectTyped, selectComparison, booleanResult,
      staticViewSemantics, ViewSemantics.isIntegerNumeric, TemplateName.isStandardInteger]

theorem selectOperation_booleans :
    selectOperation scope op.spelling booleanResult booleanResult =
      if op.spelling.isTypedIntegerOperator then
        .error "typed integer operation requires integer operands"
      else if op.spelling.symbol = .equal ∨ op.spelling.symbol = .notEqual then
        .ok { kind := .standardBoolean, byteLength := 1, result := booleanResult }
      else .error "bool only supports == and != ordinary operations" := by
  by_cases typed : op.spelling.isTypedIntegerOperator = true
  · simp [selectOperation, typed, selectTyped, booleanResult, staticViewSemantics,
      ViewSemantics.isIntegerNumeric]
  · rw [selectOperation, if_neg typed, if_neg typed]
    simp only [booleanResult, staticViewSemantics, ViewSemantics.isIntegerNumeric,
      TemplateName.isStandardInteger, selectComparison, comparisonOnly]
    by_cases equality : op.spelling.symbol = .equal ∨ op.spelling.symbol = .notEqual
    · rw [if_pos equality]
      rcases equality with symbol | symbol <;> simp [symbol]
    · simp [not_or.mp equality]

theorem analyzeIntegerBinary_refused {leftNode rightNode : Hir.Expr} {message : Diagnostic}
    (refused : selectOperation scope op.spelling leftNode.result rightNode.result =
      .error message) :
    ∃ message, analyzeIntegerBinary scope op.spelling rightLiteral leftNode rightNode =
      .error message := by
  simp only [analyzeIntegerBinary, refused]
  split_ifs <;> exact ⟨_, rfl⟩

theorem analyzeIntegerBinary_equality {leftNode rightNode : Hir.Expr}
    (leftResult : leftNode.result = booleanResult) (rightResult : rightNode.result = booleanResult)
    (ordinary : op.spelling.typed = none)
    (equality : op.spelling.symbol = .equal ∨ op.spelling.symbol = .notEqual) :
    analyzeIntegerBinary scope op.spelling rightLiteral leftNode rightNode =
      .ok (.binary (.booleanTest leftNode booleanResult) op.spelling
        (.booleanTest rightNode booleanResult) booleanResult .standardBoolean none) := by
  have selected := selectOperation_booleans scope op
  have untyped : op.spelling.isTypedIntegerOperator = false := by
    rcases equality with symbol | symbol <;>
      simp [OperatorSpelling.isTypedIntegerOperator, OperatorSpelling.startsWithPercent, ordinary,
        symbol]
  have division : op.spelling.symbol.isDivision = false := by
    rcases equality with symbol | symbol <;> simp [symbol, BinaryOperator.isDivision]
  simp only [untyped, Bool.false_eq_true, if_false, if_pos equality] at selected
  have supported : op.spelling.integerSymbol?.isNone = false := by
    simp [OperatorSpelling.integerSymbol?, ordinary]
  have notNumeric : booleanResult.isIntegerNumeric = false := rfl
  simp [analyzeIntegerBinary, supported, division, leftResult, rightResult, notNumeric, selected,
    buildBinary]

theorem analyzeIntegerBinary_booleans {leftNode rightNode : Hir.Expr}
    (leftResult : leftNode.result = booleanResult) (rightResult : rightNode.result = booleanResult)
    (left right : Bool) :
    Represents (analyzeIntegerBinary scope op.spelling rightLiteral leftNode rightNode)
      (evaluateBooleans op.spelling left right) := by
  by_cases accepted : op.spelling.typed = none ∧
      (op.spelling.symbol = .equal ∨ op.spelling.symbol = .notEqual)
  · obtain ⟨ordinary, equality⟩ := accepted
    rw [analyzeIntegerBinary_equality scope op rightLiteral leftResult rightResult ordinary equality,
      evaluateBooleans, ordinary]
    rcases equality with symbol | symbol <;> rw [symbol] <;> exact .test _ _ rfl rfl
  · have undefined : evaluateBooleans op.spelling left right = none := by
      unfold evaluateBooleans
      split
      · rename_i ordinary symbol
        exact absurd ⟨ordinary, .inl symbol⟩ accepted
      · rename_i ordinary symbol
        exact absurd ⟨ordinary, .inr symbol⟩ accepted
      · rfl
    obtain ⟨message, refused⟩ : ∃ message,
        analyzeIntegerBinary scope op.spelling rightLiteral leftNode rightNode = .error message := by
      cases typed : op.spelling.isTypedIntegerOperator with
      | true =>
          apply analyzeIntegerBinary_refused scope op rightLiteral
          rw [leftResult, rightResult, selectOperation_booleans, if_pos typed]
      | false =>
          cases prefixed : op.spelling.typed with
          | some typedPrefix =>
              refine ⟨_, if_pos ?_⟩
              simp [OperatorSpelling.integerSymbol?, typed, prefixed]
          | none =>
              apply analyzeIntegerBinary_refused scope op rightLiteral
              rw [leftResult, rightResult, selectOperation_booleans, if_neg (by simp [typed]),
                if_neg fun equality => accepted ⟨prefixed, equality⟩]
    rw [refused, undefined]
    exact .refused _

/-- An operation with a Boolean operand is a comparison that stays in the program, or refused. -/
theorem boolean_represents {leftNode rightNode : Hir.Expr} {left right : Value}
    (leftRepresents : Represents (.ok leftNode) (some left))
    (rightRepresents : Represents (.ok rightNode) (some right))
    (boolean : ∀ leftView rightView, left = .integer leftView → right ≠ .integer rightView) :
    Represents (analyzeBinary scope op.spelling rightLiteral leftNode rightNode)
      (evaluateBinary op.spelling left right) := by
  have view {node : Hir.Expr} {value : Value} (represents : Represents (.ok node) (some value)) :
      (∃ view, value = .integer view ∧ node.result = integerView view) ∨
      (∃ stored, value = .boolean stored ∧ node.result = booleanResult) := by
    cases represents with
    | integer text view => exact .inl ⟨view, rfl, rfl⟩
    | boolean text stored => exact .inr ⟨stored, rfl, rfl⟩
    | test node stored result => exact .inr ⟨stored, rfl, result⟩
  have standard {node : Hir.Expr} {value : Value} (represents : Represents (.ok node) (some value)) :
      node.result.templateName.isUser = false ∧ node.result.category ≠ .floating := by
    rcases view represents with ⟨integer, -, result⟩ | ⟨stored, -, result⟩ <;>
      simp [result, TemplateName.isUser, booleanResult, staticViewSemantics]
  rw [analyzeBinary_eq_integer scope op rightLiteral (standard leftRepresents).1
    (standard rightRepresents).1 (standard leftRepresents).2 (standard rightRepresents).2]
  rcases view leftRepresents with ⟨leftView, rfl, leftResult⟩ | ⟨leftStored, rfl, leftResult⟩ <;>
    rcases view rightRepresents with ⟨rightView, rfl, rightResult⟩ | ⟨rightStored, rfl, rightResult⟩
  · exact absurd rfl (boolean leftView rightView rfl)
  · obtain ⟨message, refused⟩ := (selectOperation_mixed scope op leftView).2
    obtain ⟨message, node⟩ := analyzeIntegerBinary_refused scope op rightLiteral
      (leftResult ▸ rightResult ▸ refused)
    rw [node]
    exact .refused _
  · obtain ⟨message, refused⟩ := (selectOperation_mixed scope op rightView).1
    obtain ⟨message, node⟩ := analyzeIntegerBinary_refused scope op rightLiteral
      (leftResult ▸ rightResult ▸ refused)
    rw [node]
    exact .refused _
  · exact analyzeIntegerBinary_booleans scope op rightLiteral leftResult rightResult _ _

end Operations

end HitSimple.Sema

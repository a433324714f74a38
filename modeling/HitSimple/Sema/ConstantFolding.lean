import HitSimple.Sema.ConstantOperation

namespace HitSimple.Sema
open FixedWidth Standard Literal

/-- Every operator of the expression whose operands are integers folds exactly. -/
def FoldsFaithfully : ConstantExpression → Prop
  | .integer _ => True
  | .binary left op right =>
      FoldsFaithfully left ∧ FoldsFaithfully right ∧
        ∀ leftValue rightValue, left.evaluate = some (.integer leftValue) →
          right.evaluate = some (.integer rightValue) →
          FoldsExactly op.spelling leftValue rightValue

section Trees
variable (scope : Scope) {left right : ConstantExpression} (op : SourceOperator)

theorem analyze_binary :
    analyze scope (ConstantExpression.binary left op right).toAst =
      map₂ (analyzeBinary scope op.spelling right.toAst.integerSpelling?)
        (analyze scope left.toAst) (analyze scope right.toAst) := rfl

/-- A divisor spelled `0` has the value zero. -/
theorem value_of_zeroLiteral {view : IntegerValue}
    (evaluated : right.evaluate = some (.integer view))
    (zero : right.toAst.integerSpelling?.bind parseUnsignedIntegerLiteral = some 0) :
    view.value = 0 := by
  cases right with
  | integer text =>
      have parsed : parseUnsignedIntegerLiteral text = some 0 := zero
      rw [ConstantExpression.evaluate, parsed] at evaluated
      cases evaluated
      rfl
  | binary left op right => cases zero

variable (leftRepresents : Represents (analyze scope left.toAst) left.evaluate)
  (rightRepresents : Represents (analyze scope right.toAst) right.evaluate)

include leftRepresents rightRepresents

theorem binary_outcome {leftValue rightValue : IntegerValue}
    (leftEvaluated : left.evaluate = some (.integer leftValue))
    (rightEvaluated : right.evaluate = some (.integer rightValue)) :
    IsConstantView leftValue ∧ IsConstantView rightValue ∧
      ConstantOutcome op leftValue rightValue
        (analyze scope (ConstantExpression.binary left op right).toAst) ∧
      (ConstantExpression.binary left op right).evaluate =
        evaluateIntegers op.spelling leftValue rightValue := by
  obtain ⟨leftText, leftNode, leftView, leftParsed⟩ := (leftEvaluated ▸ leftRepresents).literal
  obtain ⟨rightText, rightNode, rightView, rightParsed⟩ := (rightEvaluated ▸ rightRepresents).literal
  refine ⟨leftView, rightView, ?_, ?_⟩
  · rw [analyze_binary, leftNode, rightNode]
    exact analyzeBinary_outcome leftParsed rightParsed scope _ leftView rightView
      (value_of_zeroLiteral rightEvaluated)
  · rw [ConstantExpression.evaluate, leftEvaluated, rightEvaluated]
    rfl

theorem binary_represents
    (exact : ∀ leftValue rightValue, left.evaluate = some (.integer leftValue) →
      right.evaluate = some (.integer rightValue) →
      FoldsExactly op.spelling leftValue rightValue) :
    Represents (analyze scope (ConstantExpression.binary left op right).toAst)
      (ConstantExpression.binary left op right).evaluate := by
  cases leftEvaluated : left.evaluate with
  | none =>
      obtain ⟨message, refused⟩ := (leftEvaluated ▸ leftRepresents).refusal
      rw [analyze_binary, refused, ConstantExpression.evaluate, leftEvaluated]
      exact .refused _
  | some leftValue =>
      obtain ⟨leftNode, leftAccepted⟩ := (leftEvaluated ▸ leftRepresents).accepted
      cases rightEvaluated : right.evaluate with
      | none =>
          obtain ⟨message, refused⟩ := (rightEvaluated ▸ rightRepresents).refusal
          rw [analyze_binary, leftAccepted, refused, ConstantExpression.evaluate, leftEvaluated,
            rightEvaluated]
          exact .refused _
      | some rightValue =>
          obtain ⟨rightNode, rightAccepted⟩ := (rightEvaluated ▸ rightRepresents).accepted
          by_cases integers : ∃ leftView rightView,
              leftValue = .integer leftView ∧ rightValue = .integer rightView
          · obtain ⟨leftView, rightView, rfl, rfl⟩ := integers
            obtain ⟨leftConstant, rightConstant, outcome, evaluated⟩ := binary_outcome scope op
              leftRepresents rightRepresents leftEvaluated rightEvaluated
            rw [evaluated]
            exact outcome.represents leftConstant rightConstant
              (exact leftView rightView leftEvaluated rightEvaluated)
          · rw [leftEvaluated, leftAccepted] at leftRepresents
            rw [rightEvaluated, rightAccepted] at rightRepresents
            rw [analyze_binary, leftAccepted, rightAccepted, ConstantExpression.evaluate,
              leftEvaluated, rightEvaluated]
            exact boolean_represents scope op _ leftRepresents rightRepresents
              fun leftView rightView leftInteger rightInteger =>
                integers ⟨leftView, rightView, leftInteger, rightInteger⟩

theorem binary_foldsExactly (agrees : FoldAgrees scope (.binary left op right))
    {leftValue rightValue : IntegerValue} (leftEvaluated : left.evaluate = some (.integer leftValue))
    (rightEvaluated : right.evaluate = some (.integer rightValue)) :
    FoldsExactly op.spelling leftValue rightValue := by
  obtain ⟨leftConstant, rightConstant, outcome, evaluated⟩ := binary_outcome scope op
    leftRepresents rightRepresents leftEvaluated rightEvaluated
  rw [FoldAgrees, evaluated] at agrees
  exact outcome.foldsExactly leftConstant rightConstant agrees.1 agrees.2

end Trees

theorem represents_of_foldsFaithfully (scope : Scope) (expression : ConstantExpression)
    (faithful : FoldsFaithfully expression) :
    Represents (analyze scope expression.toAst) expression.evaluate := by
  induction expression with
  | integer text => exact literal_represents scope text
  | binary left op right leftIh rightIh =>
      obtain ⟨leftFaithful, rightFaithful, exact⟩ := faithful
      exact binary_represents scope op (leftIh leftFaithful) (rightIh rightFaithful) exact

/-- Constant folding agrees with the language rules on an expression and all its parts exactly when
every operation of it folds exactly. -/
theorem constantFolding_agrees_iff (scope : Scope) (expression : ConstantExpression) :
    expression.AllSubexpressions (FoldAgrees scope) ↔ FoldsFaithfully expression := by
  induction expression with
  | integer text => exact iff_of_true (literal_represents scope text).foldAgrees trivial
  | binary left op right leftIh rightIh =>
      constructor
      · rintro ⟨leftAgrees, rightAgrees, agrees⟩
        have leftFaithful := leftIh.mp leftAgrees
        have rightFaithful := rightIh.mp rightAgrees
        refine ⟨leftFaithful, rightFaithful, fun leftValue rightValue leftEvaluated rightEvaluated =>
          ?_⟩
        exact binary_foldsExactly scope op (represents_of_foldsFaithfully scope left leftFaithful)
          (represents_of_foldsFaithfully scope right rightFaithful) agrees leftEvaluated
          rightEvaluated
      · intro faithful
        exact ⟨leftIh.mpr faithful.1, rightIh.mpr faithful.2.1,
          (represents_of_foldsFaithfully scope (.binary left op right) faithful).foldAgrees⟩

def ordinaryOperator (symbol : BinaryOperator) (isInteger : symbol.isLogical = false) :
    SourceOperator where
  spelling := .ordinary symbol
  isInteger := isInteger
  isTypedArithmetic := fun _ typed => by cases typed

/-- `(0 - 1) + 1000` is folded to 1255: the one-byte `-1` is widened as 255. -/
theorem constantFolding_loses_sign :
    ¬FoldAgrees emptyScope
      (.binary
        (.binary (.integer ['0']) (ordinaryOperator .subtract rfl) (.integer ['1']))
        (ordinaryOperator .add rfl) (.integer ['1', '0', '0', '0'])) := by
  rintro ⟨agrees, -⟩
  obtain ⟨value, read, evaluated⟩ :=
    agrees ['1', '2', '5', '5'] (signedIntegerResult 2) (by rfl)
  have folded : some value = some (.integer ⟨2, false, 1255#16⟩) := read.symm.trans (by rfl)
  have expected : some value = some (.integer ⟨2, false, 999#16⟩) := evaluated.symm.trans (by rfl)
  cases folded
  exact absurd expected (by decide)

end HitSimple.Sema

import HitSimple.Sema.Analyzer
import HitSimple.Standard.Integer

namespace HitSimple.Sema
open FixedWidth Standard Literal

/-- An integer operator of the core syntax: a typed one carries the marker `d` and is no
comparison. -/
structure SourceOperator where
  spelling : OperatorSpelling
  isInteger : spelling.symbol.isLogical = false
  isTypedArithmetic : ∀ typedPrefix, spelling.typed = some typedPrefix →
    typedPrefix.marker = .d ∧ spelling.symbol.isIntegerArithmetic = true

theorem SourceOperator.ordinary_of_isComparison (op : SourceOperator)
    (comparison : op.spelling.symbol.isComparison = true) : op.spelling.typed = none := by
  cases typed : op.spelling.typed with
  | none => rfl
  | some typedPrefix =>
      have arithmetic := (op.isTypedArithmetic typedPrefix typed).2
      rw [BinaryOperator.isComparison_of_isIntegerArithmetic arithmetic] at comparison
      cases comparison

inductive ConstantExpression where
  | integer (value : Spelling)
  | binary (left : ConstantExpression) (op : SourceOperator) (right : ConstantExpression)

/-- The View of an integer literal: the smallest signed width, unsigned from `2^63` on. -/
def literalValue (magnitude : Nat) : IntegerValue :=
  let byteLength :=
    if magnitude < 2 ^ 7 then 1 else if magnitude < 2 ^ 15 then 2
    else if magnitude < 2 ^ 31 then 4 else 8
  { byteLength, isUnsigned := decide (2 ^ 63 ≤ magnitude), bits := BitVec.ofNat _ magnitude }

namespace ConstantExpression

def toAst : ConstantExpression → Ast.Expr
  | .integer value => .integerLiteral value
  | .binary left op right => .binary left.toAst op.spelling right.toAst

/-- The value the language rules assign to the expression. -/
def evaluate : ConstantExpression → Option Value
  | .integer value => (parseUnsignedIntegerLiteral value).map fun magnitude =>
      .integer (literalValue magnitude)
  | .binary left op right => match left.evaluate, right.evaluate with
      | some leftValue, some rightValue => evaluateBinary op.spelling leftValue rightValue
      | _, _ => none

def AllSubexpressions (property : ConstantExpression → Prop) : ConstantExpression → Prop
  | .integer value => property (.integer value)
  | .binary left op right =>
      left.AllSubexpressions property ∧ right.AllSubexpressions property ∧
        property (.binary left op right)

end ConstantExpression

/-- A folded literal read through its own View. -/
def readLiteral (text : Spelling) (view : ViewSemantics) : Option Value :=
  (parseUnsignedIntegerLiteral text).map fun stored =>
    if view.category = .boolean then .boolean (stored ≠ 0)
    else .integer {
      byteLength := view.staticByteLength
      isUnsigned := view.isUnsigned
      bits := BitVec.ofNat _ stored }

/-- Folding is right at this expression: a folded literal reads as the value of the expression, and
an expression that has a value is not refused. -/
def FoldAgrees (scope : Scope) (expression : ConstantExpression) : Prop :=
  (∀ text view, analyze scope expression.toAst = .ok (.integerLiteral text view) →
    ∃ value, readLiteral text view = some value ∧ expression.evaluate = some value) ∧
  (expression.evaluate.isSome →
    analyze scope expression.toAst ≠ .error "invalid constant integer operation")

def integerView (value : IntegerValue) : ViewSemantics :=
  if value.isUnsigned then unsignedIntegerResult value.byteLength
  else signedIntegerResult value.byteLength

/-- The integer Views constant expressions produce. -/
structure IsConstantView (view : IntegerValue) : Prop where
  length : view.byteLength = 1 ∨ view.byteLength = 2 ∨ view.byteLength = 4 ∨ view.byteLength = 8
  unsignedLength : view.isUnsigned = true → view.byteLength = 8

namespace IsConstantView
variable {view : IntegerValue}

theorem positive (constant : IsConstantView view) : 0 < view.byteLength := by
  have := constant.length
  omega

theorem small (constant : IsConstantView view) : view.byteLength ≤ 8 := by
  have := constant.length
  omega

theorem toNat_le_maxUInt64 (constant : IsConstantView view) :
    view.bits.toNat ≤ maxUInt64 := by
  have bound := view.bits.isLt
  have modulus : 2 ^ (view.byteLength * 8) ≤ 2 ^ 64 :=
    Nat.pow_le_pow_right (by omega) (by have := constant.small; omega)
  rw [maxUInt64]
  omega

end IsConstantView

@[simp] theorem integerView_staticByteLength (value : IntegerValue) :
    (integerView value).staticByteLength = value.byteLength := by
  unfold integerView
  split <;> rfl

@[simp] theorem integerView_isUnsigned (value : IntegerValue) :
    (integerView value).isUnsigned = value.isUnsigned := by
  unfold integerView
  cases h : value.isUnsigned <;> rfl

@[simp] theorem integerView_category (value : IntegerValue) :
    (integerView value).category = .untemplatedInteger := by
  unfold integerView
  split <;> rfl

@[simp] theorem integerView_templateName (value : IntegerValue) :
    (integerView value).templateName = .none := by
  unfold integerView
  split <;> rfl

@[simp] theorem integerView_isDynamic (value : IntegerValue) :
    (integerView value).isDynamic = false := by
  unfold integerView
  split <;> rfl

@[simp] theorem integerView_isIntegerNumeric (value : IntegerValue) :
    (integerView value).isIntegerNumeric = true := by
  rw [ViewSemantics.isIntegerNumeric, integerView_category]
  rfl

/-- The nodes that stand for the value of a constant expression. -/
inductive Represents : Analysis Hir.Expr → Option Value → Prop where
  | integer (text : Spelling) (view : IntegerValue) (constant : IsConstantView view)
      (parsed : parseUnsignedIntegerLiteral text = some view.bits.toNat) :
      Represents (.ok (.integerLiteral text (integerView view))) (some (.integer view))
  | boolean (text : Spelling) (value : Bool)
      (parsed : parseUnsignedIntegerLiteral text = some value.toNat) :
      Represents (.ok (.integerLiteral text booleanResult)) (some (.boolean value))
  | test (node : Hir.Expr) (value : Bool) (result : node.result = booleanResult)
      (notLiteral : node.isIntegerLiteral = false) :
      Represents (.ok node) (some (.boolean value))
  | refused (message : Diagnostic) : Represents (.error message) none

theorem readLiteral_integerView {text : Spelling} {view : IntegerValue}
    (parsed : parseUnsignedIntegerLiteral text = some view.bits.toNat) :
    readLiteral text (integerView view) = some (.integer view) := by
  obtain ⟨byteLength, isUnsigned, bits⟩ := view
  rw [readLiteral, parsed, Option.map_some, integerView_category, if_neg (by decide)]
  have stored : BitVec.ofNat (byteLength * 8) bits.toNat = bits := by
    rw [BitVec.ofNat_toNat, BitVec.setWidth_eq]
  cases isUnsigned with
  | false =>
      show some (Value.integer ⟨byteLength, false, BitVec.ofNat (byteLength * 8) bits.toNat⟩) = _
      rw [stored]
  | true =>
      show some (Value.integer ⟨byteLength, true, BitVec.ofNat (byteLength * 8) bits.toNat⟩) = _
      rw [stored]

theorem Represents.refusal {node : Analysis Hir.Expr} (represents : Represents node none) :
    ∃ message, node = .error message := by
  cases represents with
  | refused message => exact ⟨message, rfl⟩

theorem Represents.accepted {node : Analysis Hir.Expr} {value : Value}
    (represents : Represents node (some value)) : ∃ expression, node = .ok expression := by
  cases represents <;> exact ⟨_, rfl⟩

theorem Represents.literal {node : Analysis Hir.Expr} {view : IntegerValue}
    (represents : Represents node (some (.integer view))) :
    ∃ text, node = .ok (.integerLiteral text (integerView view)) ∧ IsConstantView view ∧
      parseUnsignedIntegerLiteral text = some view.bits.toNat := by
  cases represents with
  | integer text _ constant parsed => exact ⟨text, rfl, constant, parsed⟩

theorem Represents.foldAgrees {scope : Scope} {expression : ConstantExpression}
    (represents : Represents (analyze scope expression.toAst) expression.evaluate) :
    FoldAgrees scope expression := by
  unfold FoldAgrees
  generalize analyze scope expression.toAst = node at represents ⊢
  generalize expression.evaluate = value at represents ⊢
  cases represents with
  | integer text view constant parsed =>
      refine ⟨?_, fun _ => by simp⟩
      rintro _ _ ⟨⟩
      exact ⟨_, readLiteral_integerView parsed, rfl⟩
  | boolean text value parsed =>
      refine ⟨?_, fun _ => by simp⟩
      rintro _ _ ⟨⟩
      refine ⟨.boolean value, ?_, rfl⟩
      rw [readLiteral, parsed]
      cases value <;> rfl
  | test node value result notLiteral =>
      refine ⟨?_, fun _ => by simp⟩
      rintro _ _ ⟨⟩
      exact absurd notLiteral (by simp [Hir.Expr.isIntegerLiteral])
  | refused message => exact ⟨by simp, by simp⟩

theorem literalValue_isConstantView (magnitude : Nat) :
    IsConstantView (literalValue magnitude) where
  length := by
    simp only [literalValue]
    split_ifs <;> simp
  unsignedLength := by
    simp only [literalValue, decide_eq_true_eq]
    intro large
    rw [if_neg (by omega), if_neg (by omega), if_neg (by omega)]

theorem literalValue_toNat {magnitude : Nat} (bound : magnitude ≤ maxUInt64) :
    (literalValue magnitude).bits.toNat = magnitude := by
  simp only [literalValue, BitVec.toNat_ofNat]
  refine Nat.mod_eq_of_lt ?_
  rw [maxUInt64] at bound
  split_ifs <;> omega

theorem analyzeIntegerLiteral_parsed {text : Spelling} {magnitude : Nat}
    (parsed : parseUnsignedIntegerLiteral text = some magnitude) :
    analyzeIntegerLiteral text = .ok (.integerLiteral text (integerView (literalValue magnitude))) := by
  have length : inferIntegerLiteralByteLength text = (literalValue magnitude).byteLength := by
    simp only [inferIntegerLiteralByteLength, parsed, literalValue]
    split_ifs <;> omega
  have nonempty := (literalValue_isConstantView magnitude).positive
  rw [analyzeIntegerLiteral, length, if_neg (by omega), parsed, Option.getD_some]
  simp [integerView, literalValue]

theorem literal_represents (scope : Scope) (text : Spelling) :
    Represents (analyze scope (ConstantExpression.integer text).toAst)
      (ConstantExpression.integer text).evaluate := by
  show Represents (analyzeIntegerLiteral text) _
  rw [ConstantExpression.evaluate]
  cases parsed : parseUnsignedIntegerLiteral text with
  | none =>
      rw [analyzeIntegerLiteral, inferIntegerLiteralByteLength, parsed]
      exact .refused _
  | some magnitude =>
      rw [analyzeIntegerLiteral_parsed parsed]
      refine .integer _ _ (literalValue_isConstantView magnitude) ?_
      rw [parsed, literalValue_toNat (parseUnsignedIntegerLiteral_le parsed)]

end HitSimple.Sema

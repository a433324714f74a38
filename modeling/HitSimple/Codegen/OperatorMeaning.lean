import HitSimple.Codegen.Denotation
import HitSimple.Codegen.InstructionMeaning
import HitSimple.Sema.IntegerOperations

namespace HitSimple.Codegen
open FixedWidth Standard Sema

/-- The value an integer stands for under the View of its node. -/
def resultValue (result : ViewSemantics) (bits : BitVec (result.staticByteLength * 8)) : Value :=
  if result.category = .boolean then .boolean (bits ≠ 0)
  else .integer { byteLength := result.staticByteLength, isUnsigned := result.isUnsigned, bits }

/-- The outcome of an operation of a width and signedness. -/
def operateOutcome (op : BinaryOperator) (byteLength : Nat) (isUnsigned : Bool)
    (left right : IntegerValue) : Except Fault Value :=
  match operate op byteLength isUnsigned left right with
  | some value => .ok value
  | none => .error (reportedFault op)

/-- The value of an integer operation, or its report, by Standard 8.3, 8.4 and 11.3. -/
def prescribedOutcome (op : OperatorSpelling) (leftView rightView : ViewSemantics)
    (left right : IntegerValue) : Except Fault Value :=
  operateOutcome op.symbol (prescribedLength op leftView rightView)
    (prescribedUnsigned op leftView rightView) left right

/-- Whether a comparison at the longer operand length, unsigned as the emitter decides, agrees with
the comparison of the given width and signedness. -/
def ComparisonMatches (op : BinaryOperator) (left right : IntegerValue)
    (emittedUnsigned isUnsigned : Bool) (byteLength : Nat) : Prop :=
  let emittedLength := max left.byteLength right.byteLength
  if byteLength = emittedLength then
    ComparisonIsStandard (left.extended byteLength) (right.extended byteLength) emittedUnsigned
      isUnsigned op
  else
    integerComparison op (reading emittedUnsigned (left.extended emittedLength))
        (reading emittedUnsigned (right.extended emittedLength)) =
      integerComparison op (reading isUnsigned (left.extended byteLength))
        (reading isUnsigned (right.extended byteLength))

/-- Whether the remainder of four signed bytes is the one of the given width and signedness. -/
def PlainModuloMatches (checked : Bool) (left right : IntegerValue)
    (emittedUnsigned isUnsigned : Bool) (byteLength : Nat) : Prop :=
  if right.extended byteLength = 0#_ then checked = true → right.extended 4 = 0#_
  else byteLength = 4 ∧ isUnsigned = false ∧
    InstructionIsStandard (left.extended 4) (right.extended 4) checked right.isUnsigned
      emittedUnsigned false .modulo

/-- When the emitted code of an integer operation computes it by the rules. -/
def OperatorIsStandard (checked : Bool) (op : OperatorSpelling)
    (leftView rightView : ViewSemantics) (left right : IntegerValue) : Prop :=
  let byteLength := prescribedLength op leftView rightView
  let isUnsigned := prescribedUnsigned op leftView rightView
  let emittedUnsigned := isUnsignedOperation op left.isUnsigned right.isUnsigned
  if op.symbol.isComparison then
    ComparisonMatches op.symbol left right emittedUnsigned isUnsigned byteLength
  else if op.isPlainModulo then
    PlainModuloMatches checked left right emittedUnsigned isUnsigned byteLength
  else InstructionIsStandard (left.extended byteLength) (right.extended byteLength) checked
    right.isUnsigned emittedUnsigned isUnsigned op.symbol

theorem meets_map_iff {α β : Type} (checked : Bool) (emitted prescribed : Except Fault α)
    {value : α → β} (injective : Function.Injective value) :
    Meets checked (emitted.map value) (prescribed.map value) ↔ Meets checked emitted prescribed := by
  cases prescribed with
  | error fault =>
      cases emitted <;> simp [Except.map, meets_error_iff]
  | ok expected =>
      cases emitted with
      | error fault => simp [Except.map, meets_ok_iff]
      | ok actual => simp [Except.map, meets_ok_iff, injective.eq_iff]

section Operations
variable (left right : IntegerValue)

theorem comparison_matches_iff {op : BinaryOperator} (compares : op.isComparison = true)
    (emittedUnsigned isUnsigned : Bool) (byteLength : Nat) :
    comparison op emittedUnsigned (left.extended (max left.byteLength right.byteLength))
        (right.extended (max left.byteLength right.byteLength)) =
      integerComparison op (reading isUnsigned (left.extended byteLength))
        (reading isUnsigned (right.extended byteLength)) ↔
      ComparisonMatches op left right emittedUnsigned isUnsigned byteLength := by
  unfold ComparisonMatches
  dsimp only
  generalize max left.byteLength right.byteLength = emittedLength
  split
  · rename_i same
    subst same
    exact comparison_eq_iff _ _ emittedUnsigned isUnsigned op compares
  · rw [(comparison_eq_iff _ _ emittedUnsigned emittedUnsigned op compares).mpr
      (.inr (.inr (.inl rfl)))]

/-- The value of an arithmetic operation of a width and signedness. -/
def integerOf (byteLength : Nat) (isUnsigned : Bool) (bits : BitVec (byteLength * 8)) : Value :=
  .integer { byteLength, isUnsigned, bits }

theorem integerOf_injective (byteLength : Nat) (isUnsigned : Bool) :
    Function.Injective (integerOf byteLength isUnsigned) := by
  intro first second same
  simpa [integerOf] using same

theorem operateOutcome_arithmetic {op : BinaryOperator} (arithmetic : op.isComparison = false)
    (byteLength : Nat) (isUnsigned : Bool) :
    operateOutcome op byteLength isUnsigned left right =
      (standardOutcome op isUnsigned (left.extended byteLength)
        (right.extended byteLength)).map (integerOf byteLength isUnsigned) := by
  simp only [operateOutcome, operate, arithmetic, Bool.false_eq_true, if_false, standardOutcome]
  cases integerOperation op isUnsigned (left.extended byteLength)
    (right.extended byteLength) <;> rfl

theorem arithmetic_meets_iff {op : BinaryOperator} (arithmetic : op.isIntegerArithmetic = true)
    (checked emittedUnsigned isUnsigned : Bool) (byteLength : Nat) (positive : 0 < byteLength)
    (signs : isUnsigned = true → emittedUnsigned = true) :
    Meets checked
        ((integerInstruction checked right.isUnsigned op emittedUnsigned (left.extended byteLength)
          (right.extended byteLength)).map (integerOf byteLength isUnsigned))
        (operateOutcome op byteLength isUnsigned left right) ↔
      InstructionIsStandard (left.extended byteLength) (right.extended byteLength) checked
        right.isUnsigned emittedUnsigned isUnsigned op := by
  rw [operateOutcome_arithmetic _ _
      (BinaryOperator.isComparison_of_isIntegerArithmetic arithmetic),
    meets_map_iff _ _ _ (integerOf_injective byteLength isUnsigned)]
  exact integerInstruction_meets_iff _ _ checked right.isUnsigned emittedUnsigned isUnsigned
    (by omega) op arithmetic signs

/-- A remainder reports a zero divisor in checked mode, and nothing else. -/
theorem modulo_reports_iff {width : Nat} (first second : BitVec width)
    (checked rightUnsigned emittedUnsigned : Bool) :
    (checked = true → integerInstruction checked rightUnsigned .modulo emittedUnsigned first second =
        .error .divisionByZero) ↔
      (checked = true → second = 0#(width)) := by
  refine imp_congr_right fun on => ?_
  by_cases zero : second = 0#(width)
  · simp [integerInstruction, checkOperand, on, zero, BinaryOperator.isDivision]
  · have unreported : checkOperand checked rightUnsigned .modulo second = .ok () := by
      simp [checkOperand, on, zero, BinaryOperator.isDivision]
    simp only [integerInstruction, unreported, arithmetic, zero, if_false, iff_false]
    split_ifs <;> simp

theorem plainModulo_meets_iff (checked emittedUnsigned isUnsigned : Bool) (byteLength : Nat) :
    Meets checked
        ((integerInstruction checked right.isUnsigned .modulo emittedUnsigned (left.extended 4)
          (right.extended 4)).map (integerOf 4 false))
        (operateOutcome .modulo byteLength isUnsigned left right) ↔
      PlainModuloMatches checked left right emittedUnsigned isUnsigned byteLength := by
  have modulo : integerOperation .modulo isUnsigned (left.extended byteLength)
      (right.extended byteLength) = none ↔ right.extended byteLength = 0#_ := by
    simp [integerOperation, reading_eq_zero_iff]
  unfold PlainModuloMatches
  split
  · rename_i zero
    rw [operateOutcome_arithmetic _ _ rfl, standardOutcome, modulo.mpr zero]
    have reports := modulo_reports_iff (left.extended 4) (right.extended 4) checked
      right.isUnsigned emittedUnsigned
    rw [← reports]
    cases integerInstruction checked right.isUnsigned .modulo emittedUnsigned (left.extended 4)
      (right.extended 4) <;> simp [Except.map, meets_error_iff, reportedFault]
  · rename_i nonzero
    have atFour := arithmetic_meets_iff left right (show BinaryOperator.modulo.isIntegerArithmetic
      = true from rfl) checked emittedUnsigned false 4 (by omega) (by simp)
    constructor
    · intro meets
      obtain ⟨value, defined⟩ := Option.ne_none_iff_exists'.mp (mt modulo.mp nonzero)
      have prescribed : operateOutcome .modulo byteLength isUnsigned left right =
          .ok (integerOf byteLength isUnsigned value) := by
        rw [operateOutcome_arithmetic _ _ rfl, standardOutcome, defined]
        rfl
      have emitted := meets.1 _ prescribed
      have same : byteLength = 4 ∧ isUnsigned = false := by
        cases outcome : integerInstruction checked right.isUnsigned .modulo emittedUnsigned
            (left.extended 4) (right.extended 4) with
        | error fault => simp [outcome, Except.map] at emitted
        | ok bits =>
            simp only [outcome, Except.map, integerOf, Except.ok.injEq, Value.integer.injEq,
              IntegerValue.mk.injEq] at emitted
            exact ⟨emitted.1.symm, emitted.2.1.symm⟩
      obtain ⟨rfl, rfl⟩ := same
      exact ⟨rfl, rfl, atFour.mp meets⟩
    · rintro ⟨rfl, rfl, standard⟩
      exact atFour.mpr standard

end Operations

section Emission
variable {context : Context} {op : OperatorSpelling} {left right : Hir.Expr}
  {result : ViewSemantics} {kind : Hir.StandardOperationKind}

theorem emitIntegerValue_binary (notLogical : op.symbol.isLogical = false)
    (integerKind : kind = .untemplatedInteger ∨ kind = .standardInteger) {byteLength : Nat}
    (supported : context.Supports byteLength) (isUnsigned : Bool) :
    emitIntegerValue context (.binary left op right result kind none) byteLength isUnsigned =
      emitIntegerBinary context op left right (exprCode context left) (exprCode context right)
        result byteLength := by
  have notAddress : kind ≠ .addressOffset := by rcases integerKind with kind | kind <;> simp [kind]
  have notView : ¬(kind = .standardBytesCompare ∨ kind = .standardCStringCompare) := by
    rcases integerKind with kind | kind <;> simp [kind]
  rw [emitIntegerValue, exprCode, binaryExprCode, if_neg notAddress]
  simp only [integerExprCode, emitBinary, supported.integerType_eq_ok, Option.isSome_none,
    Bool.false_eq_true, if_false, notLogical, notView]
  rfl

theorem unsignedOperation_eq (supported : op.integerSymbol?.isNone = false) :
    unsignedOperation op left right = isUnsignedOperation op left.isUnsigned right.isUnsigned := by
  obtain ⟨typedPrefix, symbol⟩ := op
  cases typedPrefix with
  | none => rfl
  | some typedPrefix =>
      obtain ⟨width, marker⟩ := typedPrefix
      have typed : OperatorSpelling.isTypedIntegerOperator
          { typed := some { width, marker }, symbol } = true := by
        simpa [OperatorSpelling.integerSymbol?] using supported
      have notFloat := (isTypedIntegerOperator_facts typed).1
      cases marker with
      | f => exact absurd rfl notFloat
      | d | u => rfl

theorem isUnsignedOperation_of_prescribed (leftInteger : left.result.IsInteger)
    (rightInteger : right.result.IsInteger)
    (prescribed : prescribedUnsigned op left.result right.result = true) :
    isUnsignedOperation op left.isUnsigned right.isUnsigned = true := by
  obtain ⟨typedPrefix, symbol⟩ := op
  cases typedPrefix with
  | some typedPrefix => simpa [prescribedUnsigned, isUnsignedOperation] using prescribed
  | none =>
      have sign {view : ViewSemantics} (integer : view.IsInteger)
          (standard : view.templateName.isStandardInteger = true)
          (isUnsigned : view.templateName.isUnsigned = true) : view.isUnsigned = true := by
        rcases integer.template with untemplated | ⟨-, same⟩
        · rw [untemplated] at standard
          cases standard
        · rw [same, isUnsigned]
      simp only [prescribedUnsigned, templateOperand] at prescribed
      split_ifs at prescribed with leftTemplate rightTemplate
      · simp [isUnsignedOperation, Hir.Expr.isUnsigned, sign leftInteger leftTemplate prescribed]
      · simp [isUnsignedOperation, Hir.Expr.isUnsigned, sign rightInteger rightTemplate prescribed]
      · exact prescribed

variable {machine middle final : Machine} {leftView rightView : IntegerValue}

/-- The outcome of the emitted operation on operands that are at its width. -/
def binaryOutcome (context : Context) (op : OperatorSpelling) (left right : Hir.Expr)
    {width : Nat} (leftBits rightBits : BitVec width) (byteLength : Nat) :
    Except Fault (BitVec (byteLength * 8)) :=
  if op.symbol.isComparison then
    .ok (BitVec.ofNat _ (comparison op.symbol (unsignedOperation op left right) leftBits
      rightBits).toNat)
  else (integerInstruction context.checked right.isUnsigned op.symbol
    (unsignedOperation op left right) leftBits rightBits).map
      (resize (unsignedOperation op left right) (byteLength * 8))

theorem emitIntegerBinary_denotes (leftDenotes : Denotes context left machine leftView middle)
    (rightDenotes : Denotes context right middle rightView final)
    (supported : context.Supports (operationByteLength op left right result)) (byteLength : Nat) :
    ∃ run, emitIntegerBinary context op left right (exprCode context left)
        (exprCode context right) result byteLength = .ok { width := byteLength * 8, run } ∧
      run machine = (binaryOutcome context op left right
        (leftView.extended (operationByteLength op left right result))
        (rightView.extended (operationByteLength op left right result)) byteLength).map
          (·, final) := by
  obtain ⟨leftRun, leftCode, leftValue⟩ := leftDenotes.emitted _ supported
  obtain ⟨rightRun, rightCode, rightValue⟩ := rightDenotes.emitted _ supported
  rw [emitIntegerValue] at leftCode rightCode
  simp only [emitIntegerBinary, supported.integerType_eq_ok, leftCode, rightCode,
    emission_ok_bind, IntegerCode.typed_self, binaryOutcome]
  split
  · refine ⟨_, rfl, ?_⟩
    rw [map_run, bind_of_ok leftValue, bind_of_ok rightValue, pure_run]
    rfl
  · refine ⟨_, rfl, ?_⟩
    rw [map_run]
    dsimp only
    rw [bind_of_ok leftValue, bind_of_ok rightValue, liftM_run]
    cases integerInstruction _ _ _ _ _ _ <;> rfl

theorem supports_prescribedLength (supported : op.integerSymbol?.isNone = false)
    (leftDenotes : Denotes context left machine leftView middle)
    (rightDenotes : Denotes context right middle rightView final) :
    context.Supports (prescribedLength op left.result right.result) := by
  have leftSupported := leftDenotes.supported
  have rightSupported := rightDenotes.supported
  rw [leftDenotes.byteLength_eq] at leftSupported
  rw [rightDenotes.byteLength_eq] at rightSupported
  rcases prescribedLength_cases op left.result right.result supported with
    ⟨positive, fits⟩ | same | same
  · exact Context.supports_of_le_pointerByteLength positive fits
  · rw [same]
    exact leftSupported
  · rw [same]
    exact rightSupported

theorem supports_max {first second : Nat} (firstSupported : context.Supports first)
    (secondSupported : context.Supports second) : context.Supports (max first second) :=
  ⟨lt_max_of_lt_left firstSupported.1, max_le firstSupported.2 secondSupported.2⟩

theorem resultValue_boolean (holds : Bool) :
    resultValue booleanResult (BitVec.ofNat (booleanResult.staticByteLength * 8) holds.toNat) =
      .boolean holds := by
  cases holds <;> decide

theorem map_resultValue (notBoolean : result.category ≠ .boolean) (isUnsigned : Bool)
    (outcome : Except Fault (BitVec (result.staticByteLength * 8))) :
    (outcome.map (resize isUnsigned (result.staticByteLength * 8))).map (resultValue result) =
      outcome.map (integerOf result.staticByteLength result.isUnsigned) := by
  cases outcome with
  | error fault => rfl
  | ok bits => simp only [Except.map, resize_self, resultValue, if_neg notBoolean, integerOf]

/-- What the emitted operation computes under the View of its node, compared with the rules. -/
theorem binaryOutcome_meets_iff (supported : op.integerSymbol?.isNone = false)
    (notLogical : op.symbol.isLogical = false)
    (resolved : IntegerResult op left.result right.result result)
    (leftInteger : left.result.IsInteger) (rightInteger : right.result.IsInteger)
    (leftDenotes : Denotes context left machine leftView middle)
    (rightDenotes : Denotes context right middle rightView final) :
    Meets context.checked
        ((binaryOutcome context op left right
          (leftView.extended (operationByteLength op left right result))
          (rightView.extended (operationByteLength op left right result))
          result.staticByteLength).map (resultValue result))
        (prescribedOutcome op left.result right.result leftView rightView) ↔
      OperatorIsStandard context.checked op left.result right.result leftView rightView := by
  have rightSign := rightDenotes.isUnsigned_eq
  have signs : unsignedOperation op left right =
      isUnsignedOperation op leftView.isUnsigned rightView.isUnsigned := by
    rw [unsignedOperation_eq supported, leftDenotes.isUnsigned_eq, rightSign]
  unfold IntegerResult at resolved
  split at resolved
  · rename_i compares
    subst resolved
    have operation : operationByteLength op left right booleanResult =
        max leftView.byteLength rightView.byteLength := by
      rw [operationByteLength, if_pos compares, leftDenotes.byteLength_eq,
        rightDenotes.byteLength_eq]
    rw [operation, binaryOutcome, if_pos compares, OperatorIsStandard, if_pos compares, signs,
      ← comparison_matches_iff _ _ compares]
    simp only [Except.map, resultValue_boolean, prescribedOutcome, operateOutcome, operate,
      compares, if_true, meets_ok_iff, Except.ok.injEq, Value.boolean.injEq]
  rename_i noComparison
  have operation : operationByteLength op left right result = result.staticByteLength := by
    rw [operationByteLength, if_neg noComparison]
  rw [operation, binaryOutcome, if_neg noComparison, signs, ← rightSign, OperatorIsStandard,
    if_neg noComparison]
  split at resolved
  · rename_i plain
    subst resolved
    rw [if_pos plain]
    have modulo : op.symbol = .modulo := by
      rw [OperatorSpelling.isPlainModulo, Bool.and_eq_true, beq_iff_eq] at plain
      exact plain.2
    have plainCategory : (signedIntegerResult 4).category ≠ .boolean := by
      intro same
      cases same
    rw [prescribedOutcome, modulo, map_resultValue plainCategory]
    exact plainModulo_meets_iff leftView rightView _ _ _ _
  · rename_i notPlain
    obtain ⟨notBoolean, length, sign⟩ := resolved
    have positive := (supports_prescribedLength supported leftDenotes rightDenotes).1
    rw [← length] at positive
    have arithmetic : op.symbol.isIntegerArithmetic = true :=
      BinaryOperator.isIntegerArithmetic_of_not notLogical (Bool.eq_false_iff.mpr noComparison)
    rw [if_neg notPlain, map_resultValue notBoolean, prescribedOutcome, ← length, ← sign]
    refine arithmetic_meets_iff leftView rightView arithmetic _ _ _ _ positive fun isUnsigned => ?_
    rw [← signs, unsignedOperation_eq supported]
    exact isUnsignedOperation_of_prescribed leftInteger rightInteger (sign.symm.trans isUnsigned)

/-- An accepted integer operation, emitted at its own length, computes the operator on the values of
its operands exactly when `OperatorIsStandard` holds of them. -/
theorem emittedOperator_meets_iff (scope : Scope) (rightLiteral : Option Literal.Spelling)
    {bounds : Option Hir.ViewOffsetBounds} (leftInteger : left.result.IsInteger)
    (rightInteger : right.result.IsInteger)
    (accepted : analyzeBinary scope op rightLiteral left right =
      .ok (.binary left op right result kind bounds))
    (notAddress : kind ≠ .addressOffset)
    (leftDenotes : Denotes context left machine leftView middle)
    (rightDenotes : Denotes context right middle rightView final) (isUnsigned : Bool) :
    ∃ (run : Run (BitVec (result.staticByteLength * 8)))
        (outcome : Except Fault (BitVec (result.staticByteLength * 8))),
      emitIntegerValue context (.binary left op right result kind bounds) result.staticByteLength
          isUnsigned = .ok { width := result.staticByteLength * 8, run } ∧
      run machine = outcome.map (·, final) ∧
      (Meets context.checked (outcome.map (resultValue result))
          (prescribedOutcome op left.result right.result leftView rightView) ↔
        OperatorIsStandard context.checked op left.result right.result leftView rightView) := by
  obtain ⟨supported, notLogical, resolved, integerKind, rfl⟩ :=
    analyzeBinary_operation leftInteger rightInteger accepted notAddress
  have prescribed := supports_prescribedLength supported leftDenotes rightDenotes
  have longer : context.Supports (max left.byteLength right.byteLength) := by
    rw [← leftDenotes.byteLength_eq, ← rightDenotes.byteLength_eq]
    exact supports_max leftDenotes.supported rightDenotes.supported
  have four : context.Supports 4 := Context.supports_of_le_pointerByteLength (by omega) (by decide)
  have one : context.Supports 1 := Context.supports_of_le_pointerByteLength (by omega) (by decide)
  have lengths : context.Supports result.staticByteLength ∧
      context.Supports (operationByteLength op left right result) := by
    have resolved := resolved
    unfold IntegerResult at resolved
    unfold operationByteLength
    split at resolved
    · rename_i compares
      rw [if_pos compares, resolved]
      exact ⟨one, longer⟩
    · rename_i noComparison
      rw [if_neg noComparison, and_self]
      split at resolved
      · rw [resolved]
        exact four
      · rw [resolved.2.1]
        exact prescribed
  obtain ⟨run, code, value⟩ := emitIntegerBinary_denotes leftDenotes rightDenotes lengths.2
    result.staticByteLength
  refine ⟨run, _, ?_, value, binaryOutcome_meets_iff supported notLogical resolved leftInteger
    rightInteger leftDenotes rightDenotes⟩
  rw [emitIntegerValue_binary notLogical integerKind lengths.1, code]

end Emission

/-- `x + 1` on a byte that holds 3. -/
theorem emittedOperator_meets_iff_add :
    ∃ (run : Run (BitVec 8)) (outcome : Except Fault (BitVec 8)),
      emitIntegerValue (.ofObject 0 1) (.binary (objectVariable .none 1) (.ordinary .add)
          (.integerLiteral ['1'] (signedIntegerResult 1)) (signedIntegerResult 1)
          .untemplatedInteger none) 1 false = .ok { width := 8, run } ∧
      run (.filledWith 3) = outcome.map (·, .filledWith 3) ∧
      (Meets true (outcome.map (resultValue (signedIntegerResult 1)))
          (prescribedOutcome (.ordinary .add) (mutableResult .none 1) (signedIntegerResult 1)
            ⟨1, false, assemble 1 fun _ => 3⟩ ⟨1, false, 1⟩) ↔
        OperatorIsStandard true (.ordinary .add) (mutableResult .none 1) (signedIntegerResult 1)
          ⟨1, false, assemble 1 fun _ => 3⟩ ⟨1, false, 1⟩) := by
  have accepted : analyzeBinary emptyScope (.ordinary .add) (some ['1']) (objectVariable .none 1)
      (.integerLiteral ['1'] (signedIntegerResult 1)) =
      .ok (.binary (objectVariable .none 1) (.ordinary .add)
        (.integerLiteral ['1'] (signedIntegerResult 1)) (signedIntegerResult 1)
        .untemplatedInteger none) := by rfl
  have leftInteger : (objectVariable .none 1).result.IsInteger :=
    .untemplated 1 false true true (by decide)
  have rightInteger : (Hir.Expr.integerLiteral ['1'] (signedIntegerResult 1)).result.IsInteger :=
    .untemplated 1 false false false (by decide)
  have literal : WidthCoherent (.ofObject 0 1) (.integerLiteral ['1'] (signedIntegerResult 1))
      (return 1) :=
    widthCoherent_integerLiteral (by rfl) ⟨by decide, by decide⟩
  exact emittedOperator_meets_iff emptyScope (some ['1']) leftInteger rightInteger accepted
    (by decide) (objectVariable_denotes .none 1 3 ⟨by decide, by decide⟩)
    (literal.denotes (by rfl)) false

/-- `x < 'a'` for an `i32` that holds -1: the emitted comparison is unsigned. -/
theorem templateComparison_loses_sign :
    analyzeBinary emptyScope (.ordinary .less) none (objectVariable (.signedInteger 4) 4)
        (.characterLiteral [97] (unsignedIntegerResult 1)) =
      .ok (.binary (objectVariable (.signedInteger 4) 4) (.ordinary .less)
        (.characterLiteral [97] (unsignedIntegerResult 1)) booleanResult .standardInteger none) ∧
    Denotes (.ofObject 0 4) (objectVariable (.signedInteger 4) 4) (.filledWith 0xff)
      ⟨4, false, -1⟩ (.filledWith 0xff) ∧
    Denotes (.ofObject 0 4) (.characterLiteral [97] (unsignedIntegerResult 1)) (.filledWith 0xff)
      ⟨1, true, 97⟩ (.filledWith 0xff) ∧
    ∃ run : Run (BitVec 8),
      emitIntegerValue (.ofObject 0 4) (.binary (objectVariable (.signedInteger 4) 4)
          (.ordinary .less) (.characterLiteral [97] (unsignedIntegerResult 1)) booleanResult
          .standardInteger none) 1 false = .ok { width := 8, run } ∧
      run (.filledWith 0xff) = .ok (0, .filledWith 0xff) ∧
      ¬Meets true (.ok (resultValue booleanResult 0))
        (prescribedOutcome (.ordinary .less) (mutableResult (.signedInteger 4) 4)
          (unsignedIntegerResult 1) ⟨4, false, -1⟩ ⟨1, true, 97⟩) := by
  refine ⟨by rfl, objectVariable_denotes (.signedInteger 4) 4 0xff ⟨by decide, by decide⟩,
    widthCoherent_characterLiteral.denotes (by rfl), _, by rfl, by rfl, ?_⟩
  have prescribed : prescribedOutcome (.ordinary .less) (mutableResult (.signedInteger 4) 4)
      (unsignedIntegerResult 1) ⟨4, false, -1⟩ ⟨1, true, 97⟩ = .ok (.boolean true) := by rfl
  rw [prescribed, meets_ok_iff]
  decide

end HitSimple.Codegen

import HitSimple.Codegen.WidthTyping
import HitSimple.Sema.NodeLengths
import HitSimple.Codegen.Denotation

namespace HitSimple.Codegen
open FixedWidth Sema

theorem resize_self_code {width : Nat} (run : Run (BitVec width)) (isUnsigned : Bool) :
    IntegerCode.resize { width, run } isUnsigned width = { width, run } := by
  have unchanged : resize isUnsigned width <$> run = run := by
    have identity : resize isUnsigned width = (id : BitVec width → BitVec width) :=
      funext fun pattern => resize_self isUnsigned pattern
    rw [identity, id_map]
  rw [IntegerCode.resize, unchanged]

theorem IntegerCode.resize_of_width {code : IntegerCode} {width : Nat} (same : code.width = width)
    (isUnsigned : Bool) : code.resize isUnsigned width = code := by
  subst same
  exact resize_self_code code.run isUnsigned

/-- Narrowing does not depend on the interpretation. -/
theorem IntegerCode.resize_congr {code : IntegerCode} {width : Nat} {first second : Bool}
    (same : width ≤ code.width ∨ first = second) :
    code.resize first width = code.resize second width := by
  rcases same with narrower | rfl
  · have pointwise : (FixedWidth.resize first width : BitVec code.width → BitVec width) =
        FixedWidth.resize second width := by
      funext pattern
      rw [resize_of_le first pattern narrower, resize_of_le second pattern narrower]
    rw [IntegerCode.resize, IntegerCode.resize, pointwise]
  · rfl

theorem reading_ofNat_toNat (isUnsigned holds : Bool) {width : Nat} (wide : 1 < width) :
    reading isUnsigned (BitVec.ofNat width holds.toNat) = holds.toNat := by
  have doubled : 2 * holds.toNat < 2 ^ width :=
    calc 2 * holds.toNat < 2 ^ 2 := by have := Bool.toNat_lt holds; omega
      _ ≤ 2 ^ width := Nat.pow_le_pow_right (by omega) wide
  have value : (BitVec.ofNat width holds.toNat).toNat = holds.toNat := by
    rw [BitVec.toNat_ofNat, Nat.mod_eq_of_lt (by omega)]
  cases isUnsigned with
  | true => rw [reading_true, value]
  | false => rw [reading_false, BitVec.toInt_eq_toNat_of_lt (by rw [value]; exact doubled), value]

theorem resize_integerOfCondition {byteLength : Nat} (positive : 0 < byteLength)
    (condition : Run Bool) (isUnsigned : Bool) (requested : Nat) :
    (integerOfCondition condition byteLength).resize isUnsigned (requested * 8) =
      integerOfCondition condition requested := by
  have pointwise (holds : Bool) :
      resize isUnsigned (requested * 8) (BitVec.ofNat (byteLength * 8) holds.toNat) =
        BitVec.ofNat (requested * 8) holds.toNat := by
    rw [resize_eq_ofInt, reading_ofNat_toNat isUnsigned holds (by omega), BitVec.ofInt_natCast]
  simp only [IntegerCode.resize, integerOfCondition, Functor.map_map, pointwise]

/-- The code of an expression at a requested length is the code at its own length, extended by its
own interpretation or truncated. -/
def CoherentAt (context : Context) (expression : Hir.Expr) (byteLength : Nat) (isUnsigned : Bool) :
    Prop :=
  ∃ run : Run (BitVec (expression.byteLength * 8)),
    emitIntegerValue context expression expression.byteLength expression.isUnsigned =
      .ok { width := expression.byteLength * 8, run } ∧
    emitIntegerValue context expression byteLength isUnsigned =
      .ok (IntegerCode.resize { width := expression.byteLength * 8, run } expression.isUnsigned
        (byteLength * 8))

/-- Whether the value of a node is zero or one at every length. -/
def isConditionValue : Hir.Expr → Bool
  | .booleanTest _ _ | .floatCompare _ _ _ _ _ => true
  | .unary op _ _ => op == .not
  | .binary _ op _ _ kind bounds => bounds.isNone && (op.symbol.isLogical ||
      kind == .standardBytesCompare || kind == .standardCStringCompare || op.symbol.isComparison)
  | _ => false

/-- The interpretation a node extends its value by when it is asked for one. -/
def extensionFlag (context : Context) : Hir.Expr → Bool → Bool
  | .addressOf _ _ _ _, _ | .characterLiteral _ _, _ => true
  | .binary left op right _ _ bounds, _ => bounds.isSome || unsignedOperation op left right
  | .integerCast _ isSigned _, _ => !isSigned
  | .call callee _, isUnsigned => isUnsigned || context.returnsPointer callee
  | _, isUnsigned => isUnsigned

/-- A node that is asked for more bytes than it has extends its value by its own interpretation. -/
def ExtendsAsItself (context : Context) (expression : Hir.Expr) (byteLength : Nat)
    (isUnsigned : Bool) : Prop :=
  isConditionValue expression = true ∨ byteLength ≤ expression.byteLength ∨
    extensionFlag context expression isUnsigned = expression.isUnsigned

theorem ExtendsAsItself.plain {context : Context} {expression : Hir.Expr} {byteLength : Nat}
    {isUnsigned : Bool} (keeps : ExtendsAsItself context expression byteLength isUnsigned)
    (noCondition : isConditionValue expression = false) :
    byteLength ≤ expression.byteLength ∨
      extensionFlag context expression isUnsigned = expression.isUnsigned :=
  keeps.resolve_left (Bool.eq_false_iff.mp noCondition)

section Views
variable {context : Context}

theorem byteLength_of_integerExprCode {expression : Hir.Expr}
    {integer : Nat → Bool → Emission IntegerCode} {view : ViewCode}
    (emitted : (integerExprCode context expression integer).view = .ok view) :
    view.byteLength = expression.byteLength := by
  simp only [integerExprCode] at emitted
  split at emitted
  · cases emitted
  · obtain ⟨-, -, rest⟩ := emission_bind_eq_ok emitted
    obtain ⟨code, -, rest⟩ := emission_bind_eq_ok rest
    cases rest
    rfl

theorem byteLength_of_ternaryView {conditionCode thenCode elseCode : ExprCode}
    {result : ViewSemantics} {view : ViewCode}
    (emitted : emitTernaryView context conditionCode thenCode elseCode result = .ok view) :
    view.byteLength = result.staticByteLength := by
  rw [emitTernaryView] at emitted
  split at emitted
  · cases emitted
  · obtain ⟨holds, -, rest⟩ := emission_bind_eq_ok emitted
    obtain ⟨thenView, -, rest⟩ := emission_bind_eq_ok rest
    obtain ⟨elseView, -, rest⟩ := emission_bind_eq_ok rest
    split at rest
    · cases rest
    · cases rest
      rfl

theorem byteLength_of_assignmentView {stores : Emission (Run Unit)} {resultCode : ExprCode}
    {semantics : ViewSemantics} {view : ViewCode}
    (emitted : emitAssignmentView context stores resultCode semantics = .ok view) :
    view.byteLength = semantics.staticByteLength := by
  obtain ⟨run, -, rest⟩ := emission_bind_eq_ok emitted
  obtain ⟨source, -, rest⟩ := emission_bind_eq_ok rest
  split at rest
  · cases rest
  · cases rest
    rfl

theorem byteLength_of_view : ∀ {expression : Hir.Expr} {view : ViewCode},
    WellSized expression → emitViewValue context expression = .ok view →
    view.byteLength = expression.byteLength
  | .addressOf _ _ _ _, view, _, emitted => by
      rw [emitViewValue, exprCode, addressOfExprCode] at emitted
      dsimp only at emitted
      exact byteLength_of_integerExprCode emitted
  | .integerLiteral _ _, view, _, emitted | .unary _ _ _, view, _, emitted | .integerCast _ _ _, view, _, emitted
  | .floatCompare _ _ _ _ _, view, _, emitted => by
      rw [emitViewValue, exprCode] at emitted
      exact byteLength_of_integerExprCode emitted
  | .booleanTest _ _, view, _, emitted => by
      rw [emitViewValue, exprCode, booleanTestExprCode] at emitted
      dsimp only at emitted
      exact byteLength_of_integerExprCode emitted
  | .binary left op right result kind bounds, view, _, emitted => by
      rw [emitViewValue, exprCode] at emitted
      rw [binaryExprCode] at emitted
      split at emitted
      · dsimp only at emitted
        exact byteLength_of_integerExprCode emitted
      · exact byteLength_of_integerExprCode emitted
  | .call callee result, view, _, emitted => by
      rw [emitViewValue, exprCode, callExprCode] at emitted
      split at emitted
      · cases emitted
        rfl
      · exact byteLength_of_integerExprCode emitted
  | .floatLiteral _ _, view, _, emitted | .toFloat _ _ _ _, view, _, emitted
  | .floatBinary _ _ _ _, view, _, emitted => by
      rw [emitViewValue, exprCode] at emitted
      cases emitted
      rfl
  | .characterLiteral bytes result, view, wellSized, emitted => by
      rw [emitViewValue, exprCode] at emitted
      cases emitted
      rfl
  | .stringLiteral bytes result, view, wellSized, emitted => by
      rw [emitViewValue, exprCode] at emitted
      cases emitted
      exact wellSized.symm
  | .variableRef _ _ _, view, _, emitted | .deref _ _, view, _, emitted => by
      rw [emitViewValue, exprCode] at emitted
      obtain ⟨source, -, rest⟩ := emission_bind_eq_ok emitted
      cases rest
      rfl
  | .ternary condition thenExpr elseExpr result, view, _, emitted => by
      rw [emitViewValue, exprCode] at emitted
      exact byteLength_of_ternaryView emitted
  | .unsigned operand result, view, wellSized, emitted => by
      rw [emitViewValue, exprCode] at emitted
      obtain ⟨source, sourceEmitted, rest⟩ := emission_bind_eq_ok emitted
      cases rest
      exact (byteLength_of_view wellSized.2 sourceEmitted).trans wellSized.1.symm
  | .templateView operand result, view, wellSized, emitted => by
      rw [emitViewValue, exprCode, templateViewExprCode] at emitted
      split at emitted
      · exact (byteLength_of_view wellSized.2 emitted).trans wellSized.1.symm
      · exact (byteLength_of_view wellSized.2 emitted).trans wellSized.1.symm
  | .assignment stores result semantics, view, _, emitted => by
      rw [emitViewValue, exprCode] at emitted
      exact byteLength_of_assignmentView emitted

@[simp] theorem integerExprCode_integer (expression : Hir.Expr)
    (integer : Nat → Bool → Emission IntegerCode) :
    (integerExprCode context expression integer).integer = integer := rfl

@[simp] theorem viewExprCode_integer (expression : Hir.Expr) (view : Emission ViewCode)
    (byteLength : Nat) (isUnsigned : Bool) :
    (viewExprCode context expression view).integer byteLength isUnsigned = (do
      context.integerType byteLength
      integerOfView context view byteLength isUnsigned) := rfl

theorem integerOfView_self {view : Emission ViewCode} {byteLength : Nat}
    (length : ∀ source, view = .ok source → source.byteLength = byteLength) (first second : Bool) :
    integerOfView context view byteLength first = integerOfView context view byteLength second := by
  cases emitted : view with
  | error error => rfl
  | ok source =>
      have same : (IntegerCode.mk (source.byteLength * 8)
          (loadView context source source.byteLength)).width = byteLength * 8 := by
        rw [length source emitted]
      simp only [integerOfView, emission_ok_bind, IntegerCode.resize_of_width same]

theorem ternary_branch_self {conditionCode thenCode elseCode : ExprCode} {result : ViewSemantics}
    {first second : Bool}
    (thenSame : thenCode.integer result.staticByteLength first =
      thenCode.integer result.staticByteLength second)
    (elseSame : elseCode.integer result.staticByteLength first =
      elseCode.integer result.staticByteLength second) (byteLength : Nat) :
    emitIntegerTernary conditionCode thenCode elseCode result byteLength first =
      emitIntegerTernary conditionCode thenCode elseCode result byteLength second := by
  rw [emitIntegerTernary, emitIntegerTernary, thenSame, elseSame]

variable (context) in
/-- At its own length an expression does not depend on the interpretation it is asked for. -/
theorem emitIntegerValue_self : ∀ {expression : Hir.Expr}, WellSized expression →
    ∀ first second : Bool, emitIntegerValue context expression expression.byteLength first =
      emitIntegerValue context expression expression.byteLength second
  | .integerLiteral value result, _, first, second => by
      simp only [emitIntegerValue, exprCode, integerExprCode, emitIntegerLiteral,
        Hir.Expr.byteLength, Hir.Expr.result, resize_self_code]
  | .stringLiteral _ _, _, _, _ | .floatLiteral _ _, _, _, _ | .toFloat _ _ _ _, _, _, _
  | .floatBinary _ _ _ _, _, _, _ | .characterLiteral _ _, _, _, _ | .addressOf _ _ _ _, _, _, _
  | .booleanTest _ _, _, _, _ | .floatCompare _ _ _ _ _, _, _, _
  | .integerCast _ _ _, _, _, _ => by
      simp only [emitIntegerValue, exprCode]
      rfl
  | .binary _ _ _ _ kind _, _, _, _ => by
      simp only [emitIntegerValue, exprCode, binaryExprCode]
      split <;> rfl
  | .variableRef binding offset result, _, first, second => by
      simp only [emitIntegerValue, exprCode, variableExprCode, emitVariable,
        Hir.Expr.byteLength, Hir.Expr.result, resize_self_code]
  | .deref address result, _, first, second => by
      simp only [emitIntegerValue, exprCode, derefExprCode, integerExprCode_integer,
        emitDeref, Hir.Expr.byteLength, Hir.Expr.result, resize_self_code]
  | .call callee result, _, first, second => by
      simp only [emitIntegerValue, exprCode, callExprCode]
      split
      · rfl
      · simp only [integerExprCode_integer, emitCall, Hir.Expr.byteLength, Hir.Expr.result, resize_self_code]
  | .unary op operand result, wellSized, first, second => by
      simp only [emitIntegerValue, exprCode, integerExprCode, emitUnary, Hir.Expr.byteLength,
        Hir.Expr.result]
      by_cases negation : op = .not
      · simp only [if_pos negation]
      · obtain ⟨length, operandSized⟩ := wellSized negation
        have same : (exprCode context operand).integer result.staticByteLength first =
            (exprCode context operand).integer result.staticByteLength second := by
          rw [length]
          exact emitIntegerValue_self operandSized first second
        simp only [if_neg negation, same]
        cases emitted : (exprCode context operand).integer result.staticByteLength second with
        | error error => rfl
        | ok code =>
            have same := (exprCode_meetsRequests context operand).width _ _ _ emitted
            obtain ⟨width, run⟩ := code
            obtain rfl : width = result.staticByteLength * 8 := same
            simp only [emission_ok_bind, resize_self_code]
  | .ternary condition thenExpr elseExpr result, wellSized, first, second => by
      obtain ⟨thenLength, thenSized, elseLength, elseSized⟩ := wellSized
      have thenSame : (exprCode context thenExpr).integer result.staticByteLength first =
          (exprCode context thenExpr).integer result.staticByteLength second := by
        rw [thenLength]
        exact emitIntegerValue_self thenSized first second
      have elseSame : (exprCode context elseExpr).integer result.staticByteLength first =
          (exprCode context elseExpr).integer result.staticByteLength second := by
        rw [elseLength]
        exact emitIntegerValue_self elseSized first second
      have viewSame (byteLength : Nat) (same : result.staticByteLength = byteLength) :
          integerOfView context (emitTernaryView context (exprCode context condition)
              (exprCode context thenExpr) (exprCode context elseExpr) result) byteLength first =
            integerOfView context (emitTernaryView context (exprCode context condition)
              (exprCode context thenExpr) (exprCode context elseExpr) result) byteLength second :=
        integerOfView_self (fun source emitted => (byteLength_of_ternaryView emitted).trans same)
          first second
      simp only [emitIntegerValue, exprCode, ternaryExprCode, integerExprCode_integer, emitTernary,
        ternary_branch_self thenSame elseSame, viewSame _ rfl, Hir.Expr.byteLength,
        Hir.Expr.result]
  | .unsigned operand result, wellSized, first, second => by
      have length (source : ViewCode)
          (emitted : emitUnsignedView context (exprCode context operand) = .ok source) :
          source.byteLength = (Hir.Expr.unsigned operand result).byteLength := by
        apply byteLength_of_view wellSized
        rw [emitViewValue, exprCode]
        exact emitted
      simp only [emitIntegerValue, exprCode, viewExprCode_integer,
        integerOfView_self length first second]
  | .templateView operand result, wellSized, first, second => by
      have length (source : ViewCode) (emitted : (exprCode context operand).view = .ok source) :
          source.byteLength = (Hir.Expr.templateView operand result).byteLength :=
        (byteLength_of_view wellSized.2 emitted).trans wellSized.1.symm
      simp only [emitIntegerValue, exprCode, templateViewExprCode]
      split <;> simp only [viewExprCode_integer, integerOfView_self length first second]
  | .assignment stores result semantics, wellSized, first, second => by
      have length (source : ViewCode)
          (emitted : emitAssignmentView context (statementCode context stores)
            (exprCode context result) semantics = .ok source) :
          source.byteLength = (Hir.Expr.assignment stores result semantics).byteLength :=
        byteLength_of_assignmentView emitted
      simp only [emitIntegerValue, exprCode, viewExprCode_integer,
        integerOfView_self length first second]

end Views

section Nodes
variable {context : Context} {expression : Hir.Expr} {byteLength : Nat} {isUnsigned : Bool}

/-- A node whose code does not depend on the request up to its last step, an extension. -/
theorem coherentAt_of_prelude {α : Type} (prelude : Emission α) (value : α → IntegerCode)
    (flag : Bool → Bool) {code : IntegerCode}
    (integer : ∀ byteLength isUnsigned, emitIntegerValue context expression byteLength isUnsigned =
      (do context.integerType byteLength
          let outcome ← prelude
          return (value outcome).resize (flag isUnsigned) (byteLength * 8)))
    (sized : ∀ outcome, prelude = .ok outcome →
      (value outcome).width = expression.byteLength * 8)
    (supported : context.Supports expression.byteLength)
    (keeps : byteLength ≤ expression.byteLength ∨ flag isUnsigned = expression.isUnsigned)
    (emitted : emitIntegerValue context expression byteLength isUnsigned = .ok code) :
    CoherentAt context expression byteLength isUnsigned := by
  have requested := integer byteLength isUnsigned
  rw [requested] at emitted
  obtain ⟨⟨⟩, accepted, rest⟩ := emission_bind_eq_ok emitted
  obtain ⟨outcome, found, -⟩ := emission_bind_eq_ok rest
  have same := sized outcome found
  simp only [CoherentAt, integer, supported.integerType_eq_ok, accepted, found, emission_ok_bind,
    emission_pure]
  generalize value outcome = own at same
  obtain ⟨width, run⟩ := own
  obtain rfl : width = expression.byteLength * 8 := same
  refine ⟨run, ?_, ?_⟩
  · rw [resize_self_code]
  · rw [IntegerCode.resize_congr (keeps.imp_left (Nat.mul_le_mul_right 8))]

/-- A node whose value is zero or one. -/
theorem coherentAt_of_condition (condition : Emission (Run Bool)) {code : IntegerCode}
    (integer : ∀ byteLength isUnsigned, emitIntegerValue context expression byteLength isUnsigned =
      (do context.integerType byteLength
          return integerOfCondition (← condition) byteLength))
    (supported : context.Supports expression.byteLength)
    (emitted : emitIntegerValue context expression byteLength isUnsigned = .ok code) :
    CoherentAt context expression byteLength isUnsigned := by
  have requested := integer byteLength isUnsigned
  rw [requested] at emitted
  obtain ⟨⟨⟩, accepted, rest⟩ := emission_bind_eq_ok emitted
  obtain ⟨holds, found, -⟩ := emission_bind_eq_ok rest
  refine ⟨(integerOfCondition holds expression.byteLength).run, ?_, ?_⟩
  · simp only [integer, supported.integerType_eq_ok, found, emission_ok_bind, emission_pure]
    rfl
  · simp only [integer, accepted, found, emission_ok_bind, emission_pure]
    exact congrArg Except.ok (resize_integerOfCondition supported.1 holds _ byteLength).symm

theorem coherentAt_self {code : IntegerCode} (wellSized : WellSized expression)
    (emitted : emitIntegerValue context expression expression.byteLength isUnsigned = .ok code) :
    CoherentAt context expression expression.byteLength isUnsigned := by
  have sized := (exprCode_meetsRequests context expression).width _ _ _ emitted
  obtain ⟨width, run⟩ := code
  obtain rfl : width = expression.byteLength * 8 := sized
  refine ⟨run, ?_, ?_⟩
  · rw [emitIntegerValue_self context wellSized expression.isUnsigned isUnsigned, emitted]
  · rw [emitted, resize_self_code]

/-- An integer read from a View of its own length. -/
theorem coherentAt_of_view (view : Emission ViewCode) {code : IntegerCode}
    (integer : ∀ byteLength isUnsigned, emitIntegerValue context expression byteLength isUnsigned =
      (do context.integerType byteLength; integerOfView context view byteLength isUnsigned))
    (length : ∀ source, view = .ok source → source.byteLength = expression.byteLength)
    (supported : context.Supports expression.byteLength)
    (keeps : byteLength ≤ expression.byteLength ∨ isUnsigned = expression.isUnsigned)
    (emitted : emitIntegerValue context expression byteLength isUnsigned = .ok code) :
    CoherentAt context expression byteLength isUnsigned := by
  refine coherentAt_of_prelude (do
      let source ← view
      context.integerType source.byteLength
      return source)
    (fun source => {
      width := source.byteLength * 8
      run := loadView context source source.byteLength })
    id ?_ ?_ supported keeps emitted
  · intro byteLength isUnsigned
    rw [integer]
    cases located : view with
    | error error => simp only [integerOfView, emission_error_bind]
    | ok source =>
        have nonzero : source.byteLength ≠ 0 := by
          rw [length source located]
          exact Nat.pos_iff_ne_zero.mp supported.1
        simp only [integerOfView, emission_ok_bind, if_neg nonzero, bind_assoc, pure_bind, id]
  · intro source found
    obtain ⟨source, located, rest⟩ := emission_bind_eq_ok found
    obtain ⟨-, -, rest⟩ := emission_bind_eq_ok rest
    cases rest
    rw [length source located]

theorem coherentAt_characterLiteral {bytes : List Byte} {result : ViewSemantics}
    {code : IntegerCode} (wellSized : WellSized (.characterLiteral bytes result))
    (supported : context.Supports result.staticByteLength)
    (keeps : ExtendsAsItself context (.characterLiteral bytes result) byteLength isUnsigned)
    (emitted : emitIntegerValue context (.characterLiteral bytes result) byteLength isUnsigned =
      .ok code) :
    CoherentAt context (.characterLiteral bytes result) byteLength isUnsigned := by
  have integer (byteLength : Nat) (isUnsigned : Bool) :
      emitIntegerValue context (.characterLiteral bytes result) byteLength isUnsigned =
        emitCharacterLiteral context bytes result byteLength := by
    rw [emitIntegerValue, exprCode]
    rfl
  have read := emitted
  rw [integer] at read
  obtain ⟨-, -, rest⟩ := emission_bind_eq_ok read
  split at rest
  · rename_i byte
    split at rest
    · cases rest
    · rename_i unsignedView
      refine coherentAt_of_prelude (.ok ()) (fun _ => { width := 8, run := return byte })
        (fun _ => true) ?_ ?_ supported (keeps.plain rfl) emitted
      · intro byteLength isUnsigned
        rw [integer]
        simp only [emitCharacterLiteral, if_neg unsignedView]
        rfl
      · intro _ _
        have single : result.staticByteLength = 1 := wellSized
        exact congrArg (· * 8) single.symm
  · cases rest

theorem coherentAt_unary {op : Hir.UnaryOperator} {operand : Hir.Expr} {result : ViewSemantics}
    {code : IntegerCode} (wellSized : WellSized (.unary op operand result))
    (supported : context.Supports result.staticByteLength)
    (keeps : ExtendsAsItself context (.unary op operand result) byteLength isUnsigned)
    (emitted : emitIntegerValue context (.unary op operand result) byteLength isUnsigned =
      .ok code) :
    CoherentAt context (.unary op operand result) byteLength isUnsigned := by
  by_cases logical : op = .not
  · refine coherentAt_of_condition (do return Bool.not <$> (← emitConditionValue context operand))
      ?_ supported emitted
    intro byteLength isUnsigned
    simp only [emitIntegerValue, exprCode, integerExprCode_integer, emitUnary, if_pos logical,
      emitConditionValue, bind_assoc, pure_bind]
  · obtain ⟨length, operandSized⟩ := wellSized logical
    have self (isUnsigned : Bool) : (exprCode context operand).integer result.staticByteLength
        isUnsigned = (exprCode context operand).integer result.staticByteLength false := by
      rw [length]
      exact emitIntegerValue_self context operandSized isUnsigned false
    refine coherentAt_of_prelude ((exprCode context operand).integer result.staticByteLength false)
      (fun code => {
        width := code.width
        run := if op = .negate then (fun pattern => -pattern) <$> code.run
          else (fun pattern => ~~~pattern) <$> code.run })
      id ?_ ?_ supported ?_ emitted
    · intro byteLength isUnsigned
      simp only [emitIntegerValue, exprCode, integerExprCode_integer, emitUnary, if_neg logical,
        self, id]
    · intro code found
      have same := (exprCode_meetsRequests context operand).width _ _ _ found
      exact same
    · rcases keeps with condition | keeps
      · exact absurd (beq_iff_eq.mp condition) logical
      · exact keeps

theorem coherentAt_binary {left right : Hir.Expr} {op : OperatorSpelling} {result : ViewSemantics}
    {kind : Hir.StandardOperationKind} {bounds : Option Hir.ViewOffsetBounds} {code : IntegerCode}
    (wellSized : WellSized (.binary left op right result kind bounds))
    (supported : context.Supports result.staticByteLength)
    (keeps : ExtendsAsItself context (.binary left op right result kind bounds) byteLength
      isUnsigned)
    (emitted : emitIntegerValue context (.binary left op right result kind bounds) byteLength
      isUnsigned = .ok code) :
    CoherentAt context (.binary left op right result kind bounds) byteLength isUnsigned := by
  have integer (byteLength : Nat) (isUnsigned : Bool) :
      emitIntegerValue context (.binary left op right result kind bounds) byteLength isUnsigned =
        emitBinary context left op right result kind bounds (exprCode context left)
          (exprCode context right) byteLength := by
    simp only [emitIntegerValue, exprCode, binaryExprCode]
    split <;> rfl
  by_cases bounded : bounds.isSome = true
  · refine coherentAt_of_prelude (if kind = .addressOffset then
        emitAddressOffset context right (exprCode context left) (exprCode context right) bounds
      else unsupported ("unsupported binary operator '" ++ op.text ++ "'"))
      (fun pointer => { width := 64, run := pointer }) (fun _ => true) ?_ ?_ supported ?_ emitted
    · intro byteLength isUnsigned
      simp only [integer, emitBinary, if_pos bounded]
      split <;> rfl
    · intro pointer _
      exact congrArg (· * 8) (wellSized bounded).symm
    · simpa [ExtendsAsItself, isConditionValue, extensionFlag, bounded, Option.isNone_iff_eq_none,
        Option.isSome_iff_ne_none.mp bounded] using keeps
  by_cases logical : op.symbol.isLogical = true
  · refine coherentAt_of_condition (do
      let left ← emitConditionValue context left
      let right ← emitConditionValue context right
      return do
        if op.symbol = .logicalAnd then
          if ← left then right else return false
        else if ← left then return true else right) ?_ supported emitted
    intro byteLength isUnsigned
    simp only [integer, emitBinary, if_neg bounded, if_pos logical, emitLogical,
      emitConditionValue, bind_assoc, pure_bind]
  by_cases views : kind = .standardBytesCompare ∨ kind = .standardCStringCompare
  · refine coherentAt_of_condition (do
      let left ← emitViewValue context left
      let right ← emitViewValue context right
      if !op.symbol.isComparison then
        unsupported ("unsupported byte comparison operator '" ++ op.symbol.text ++ "'")
      else return orderPredicate op.symbol <$>
        if kind = .standardCStringCompare then cStringViewsOrder context left right
        else bytesOrder context left right) ?_ supported emitted
    intro byteLength isUnsigned
    simp only [integer, emitBinary, if_neg bounded, if_neg logical, if_pos views,
      emitViewComparison, emitViewValue, bind_assoc]
    by_cases comparison : op.symbol.isComparison = true
    · simp [comparison]
    · simp [comparison, unsupported]
  have integerBinary (byteLength : Nat) (isUnsigned : Bool) :
      emitIntegerValue context (.binary left op right result kind bounds) byteLength isUnsigned =
        (do context.integerType byteLength
            emitIntegerBinary context op left right (exprCode context left)
              (exprCode context right) result byteLength) := by
    rw [integer, emitBinary, if_neg bounded, if_neg logical, if_neg views]
  by_cases comparison : op.symbol.isComparison = true
  · refine coherentAt_of_condition (do
      context.integerType (operationByteLength op left right result)
      let leftValue ← (← emitIntegerValue context left (operationByteLength op left right result)
        left.isUnsigned).typed (operationByteLength op left right result * 8)
      let rightValue ← (← emitIntegerValue context right (operationByteLength op left right result)
        right.isUnsigned).typed (operationByteLength op left right result * 8)
      return do
        let leftOperand ← leftValue
        let rightOperand ← rightValue
        return Codegen.comparison op.symbol (unsignedOperation op left right) leftOperand
          rightOperand) ?_ supported emitted
    intro byteLength isUnsigned
    rw [integerBinary]
    simp only [emitIntegerBinary, if_pos comparison, emitIntegerValue, bind_assoc, pure_bind]
  · have own : operationByteLength op left right result = result.staticByteLength :=
      if_neg comparison
    refine coherentAt_of_prelude (do
      context.integerType (operationByteLength op left right result)
      let leftValue ← (← emitIntegerValue context left (operationByteLength op left right result)
        left.isUnsigned).typed (operationByteLength op left right result * 8)
      let rightValue ← (← emitIntegerValue context right (operationByteLength op left right result)
        right.isUnsigned).typed (operationByteLength op left right result * 8)
      return (leftValue, rightValue))
      (fun values => {
        width := operationByteLength op left right result * 8
        run := do
          let leftOperand ← values.1
          let rightOperand ← values.2
          liftM (integerInstruction context.checked right.isUnsigned op.symbol
            (unsignedOperation op left right) leftOperand rightOperand) })
      (fun _ => unsignedOperation op left right) ?_ ?_ supported ?_ emitted
    · intro byteLength isUnsigned
      rw [integerBinary]
      simp only [emitIntegerBinary, if_neg comparison, emitIntegerValue, bind_assoc, pure_bind]
    · intro values _
      exact congrArg (· * 8) own
    · have plain : isConditionValue (.binary left op right result kind bounds) ≠ true := by
        simp_all [isConditionValue]
      have notBounded : bounds.isSome = false := by simpa using bounded
      simpa [extensionFlag, notBounded] using keeps.resolve_left plain

theorem coherentAt_ternary {condition thenExpr elseExpr : Hir.Expr} {result : ViewSemantics}
    {code : IntegerCode} (wellSized : WellSized (.ternary condition thenExpr elseExpr result))
    (supported : context.Supports result.staticByteLength)
    (keeps : ExtendsAsItself context (.ternary condition thenExpr elseExpr result) byteLength
      isUnsigned)
    (emitted : emitIntegerValue context (.ternary condition thenExpr elseExpr result) byteLength
      isUnsigned = .ok code) :
    CoherentAt context (.ternary condition thenExpr elseExpr result) byteLength isUnsigned := by
  by_cases raw : isRawTernary result = true
  · refine coherentAt_of_view (emitTernaryView context (exprCode context condition)
      (exprCode context thenExpr) (exprCode context elseExpr) result) ?_
      (fun source located => byteLength_of_ternaryView located) supported
      (keeps.plain rfl) emitted
    intro byteLength isUnsigned
    simp only [emitIntegerValue, exprCode, ternaryExprCode, integerExprCode_integer, emitTernary,
      if_pos raw]
  · have own : byteLength = result.staticByteLength := by
      have requests := ((exprCode_meetsRequests context _).integer byteLength isUnsigned).of_ok
        code emitted
      rw [widthRequests] at requests
      simp only [ternaryRequests, integerRequests, ternaryIntegerRequests, if_neg raw] at requests
      exact requests.2.2.2
    obtain rfl : byteLength = (Hir.Expr.ternary condition thenExpr elseExpr result).byteLength := own
    exact coherentAt_self wellSized emitted

/-- What is emitted at all is coherent. -/
theorem coherentAt_of_ok {expression : Hir.Expr} {code : IntegerCode}
    (wellSized : WellSized expression) (supported : context.Supports expression.byteLength)
    (keeps : ExtendsAsItself context expression byteLength isUnsigned)
    (emitted : emitIntegerValue context expression byteLength isUnsigned = .ok code) :
    CoherentAt context expression byteLength isUnsigned := by
  cases expression with
  | integerLiteral value result =>
      refine coherentAt_of_prelude ((Literal.parseUnsignedIntegerLiteral value).elim
          (unsupported ("invalid integer literal '" ++ String.ofList value ++ "'")) .ok)
        (fun value => {
          width := result.staticByteLength * 8
          run := return BitVec.ofNat _ value })
        id ?_ (fun _ _ => rfl) supported (keeps.plain rfl) emitted
      intro byteLength isUnsigned
      rw [emitIntegerValue, exprCode]
      cases parsed : Literal.parseUnsignedIntegerLiteral value with
      | none =>
          simp only [integerExprCode_integer, emitIntegerLiteral, parsed]
          rfl
      | some number =>
          simp only [integerExprCode_integer, emitIntegerLiteral, parsed]
          rfl
  | characterLiteral bytes result =>
      exact coherentAt_characterLiteral wellSized supported keeps emitted
  | stringLiteral bytes result | floatLiteral value result
  | toFloat operand sourceUnsigned sourceIsFloating result | floatBinary left op right result =>
      rw [emitIntegerValue, exprCode] at emitted
      cases emitted
  | variableRef binding offset result =>
      refine coherentAt_of_prelude (do
          let storage ← context.findStorage binding.bindingName
          context.integerType result.staticByteLength
          return storage)
        (fun storage => {
          width := result.staticByteLength * 8
          run := loadVariable context storage binding.bindingName offset result.staticByteLength })
        id ?_ (fun _ _ => rfl) supported (keeps.plain rfl) emitted
      intro byteLength isUnsigned
      simp only [emitIntegerValue, exprCode, variableExprCode, emitVariable, bind_assoc, pure_bind,
        id]
  | addressOf binding targetByteLength offset result =>
      refine coherentAt_of_prelude (emitAddressOf context binding offset)
        (fun pointer => { width := 64, run := pointer }) (fun _ => true) ?_ ?_ supported
        (keeps.plain rfl) emitted
      · intro byteLength isUnsigned
        simp only [emitIntegerValue, exprCode, addressOfExprCode]
        rfl
      · intro pointer _
        exact congrArg (· * 8) wellSized.symm
  | deref address result =>
      refine coherentAt_of_prelude (do
          let pointer ← emitPointerValue context address
          context.integerType result.staticByteLength
          return pointer)
        (fun pointer => {
          width := result.staticByteLength * 8
          run := do
            let location ← pointer
            context.checkLoad
              (!hasKnownStaticAddressRange context address result.staticByteLength) location
              result.staticByteLength
            (Place.located location).load result.staticByteLength })
        id ?_ (fun _ _ => rfl) supported (keeps.plain rfl) emitted
      intro byteLength isUnsigned
      simp only [emitIntegerValue, exprCode, derefExprCode, integerExprCode_integer, emitDeref,
        emitPointerValue, bind_assoc, pure_bind, id]
  | booleanTest operand result =>
      exact coherentAt_of_condition (emitCondition context (emitViewValue context operand))
        (fun _ _ => by rw [emitIntegerValue, exprCode]; rfl) supported emitted
  | unary op operand result => exact coherentAt_unary wellSized supported keeps emitted
  | binary left op right result kind bounds =>
      exact coherentAt_binary wellSized supported keeps emitted
  | ternary condition thenExpr elseExpr result =>
      exact coherentAt_ternary wellSized supported keeps emitted
  | unsigned operand result =>
      refine coherentAt_of_view (emitViewValue context (.unsigned operand result)) ?_
        (fun source located => byteLength_of_view wellSized located) supported
        (keeps.plain rfl) emitted
      intro byteLength isUnsigned
      rw [emitIntegerValue, emitViewValue, exprCode]
      rfl
  | templateView operand result =>
      refine coherentAt_of_view (emitViewValue context (.templateView operand result)) ?_
        (fun source located => byteLength_of_view wellSized located) supported
        (keeps.plain rfl) emitted
      intro byteLength isUnsigned
      rw [emitIntegerValue, emitViewValue, exprCode, templateViewExprCode]
      split <;> rfl
  | assignment stores result semantics =>
      refine coherentAt_of_view (emitViewValue context (.assignment stores result semantics)) ?_
        (fun source located => byteLength_of_view wellSized located) supported
        (keeps.plain rfl) emitted
      intro byteLength isUnsigned
      rw [emitIntegerValue, emitViewValue, exprCode]
      rfl
  | integerCast operand isSigned result =>
      refine coherentAt_of_prelude (do
          let source ← emitIntegerValue context operand operand.byteLength operand.isUnsigned
          context.integerType result.staticByteLength
          return source)
        (fun source => source.resize operand.isUnsigned (result.staticByteLength * 8))
        (fun _ => !isSigned) ?_ (fun _ _ => rfl) supported (keeps.plain rfl) emitted
      intro byteLength isUnsigned
      simp only [emitIntegerValue, exprCode, integerExprCode_integer, emitIntegerCast, bind_assoc,
        pure_bind]
  | floatCompare left op right operandByteLength result =>
      refine coherentAt_of_condition (.ok do
        let left ← context.floatValue left operandByteLength
        let right ← context.floatValue right operandByteLength
        return context.floatComparison op.symbol operandByteLength left right) ?_ supported emitted
      intro byteLength isUnsigned
      rw [emitIntegerValue, exprCode]
      rfl
  | call callee result =>
      by_cases floating : result.category = .floating
      · rw [emitIntegerValue, exprCode, callExprCode, if_pos floating] at emitted
        cases emitted
      · refine coherentAt_of_prelude (.ok ())
          (fun _ => {
            width := result.staticByteLength * 8
            run := context.callee callee result.staticByteLength })
          (fun isUnsigned => isUnsigned || context.returnsPointer callee) ?_ (fun _ _ => rfl)
          supported (keeps.plain rfl) emitted
        intro byteLength isUnsigned
        rw [emitIntegerValue, exprCode, callExprCode, if_neg floating]
        simp only [integerExprCode_integer, emitCall, if_neg floating]
        rfl

end Nodes

/-- An emitted integer is coherent exactly when every ternary that selects integers is requested at
its own length, as long as a node that is widened extends its value as itself. -/
theorem emitIntegerValue_coherent {context : Context} {scope : Scope} {source : Ast.Expr}
    {expression : Hir.Expr} {byteLength : Nat} {isUnsigned : Bool}
    (analyzed : analyze scope source = .ok expression)
    (supported : context.Supports expression.byteLength)
    (accepted : ∀ message, emitIntegerValue context expression byteLength isUnsigned ≠
      .error (.diagnostic message)) :
    (CoherentAt context expression byteLength isUnsigned →
        (widthRequests context expression).integer byteLength) ∧
      ((widthRequests context expression).integer byteLength ∧
        ExtendsAsItself context expression byteLength isUnsigned →
          CoherentAt context expression byteLength isUnsigned) := by
  have types := (exprCode_meetsRequests context expression).integer byteLength isUnsigned
  constructor
  · rintro ⟨run, -, emitted⟩
    exact types.of_ok _ emitted
  · rintro ⟨requests, keeps⟩
    have wellSized := (analyze_isSized analyzed).wellSized
    cases emitted : emitIntegerValue context expression byteLength isUnsigned with
    | ok code => exact coherentAt_of_ok wellSized supported keeps emitted
    | error error =>
        cases error with
        | diagnostic message => exact absurd emitted (accepted message)
        | illTyped => exact absurd emitted (types.typed requests)

theorem emitIntegerValue_coherent_name :
    CoherentAt (.ofObject 0 2) (objectVariable .none 2) 4 false := by
  have analyzed : analyze (.ofObject .none 2) (.identifier "x") = .ok (objectVariable .none 2) :=
    rfl
  have accepted (message : String) :
      emitIntegerValue (.ofObject 0 2) (objectVariable .none 2) 4 false ≠
        .error (.diagnostic message) := by
    intro failed
    cases failed
  exact (emitIntegerValue_coherent analyzed ⟨by decide, by decide⟩ accepted).2
    ⟨trivial, .inr (.inr rfl)⟩

/-- A ternary of two-byte names that is requested at four bytes merges values of another type. -/
theorem wideTernary_isIllTyped :
    ∃ expression, analyze (.ofObject .none 2) (.ternary (.identifier "x") (.identifier "x")
        (.identifier "x")) = .ok expression ∧
      emitIntegerValue (.ofObject 0 2) expression 4 expression.isUnsigned = .error .illTyped ∧
      ¬ CoherentAt (.ofObject 0 2) expression 4 expression.isUnsigned := by
  refine ⟨_, rfl, rfl, ?_⟩
  rintro ⟨run, -, emitted⟩
  cases emitted

end HitSimple.Codegen

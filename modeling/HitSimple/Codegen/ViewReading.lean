import HitSimple.Codegen.WidthCoherence
import HitSimple.Sema.NodeCategories

namespace HitSimple.Codegen
open FixedWidth Sema

variable {context : Context}

/-- The integer a View denotes at its own length: its bytes. -/
def viewInteger (context : Context) (expression : Hir.Expr) : Emission IntegerCode := do
  let view ← emitViewValue context expression
  context.integerType expression.byteLength
  return {
    width := expression.byteLength * 8
    run := loadView context view expression.byteLength }

/-- The integer code of an expression at its own length reads the bytes of its View. -/
def ReadsView (context : Context) (expression : Hir.Expr) : Prop :=
  ∀ isUnsigned code,
    emitIntegerValue context expression expression.byteLength isUnsigned = .ok code ↔
      viewInteger context expression = .ok code

theorem viewInteger_eq_ok_iff {expression : Hir.Expr} {code : IntegerCode} :
    viewInteger context expression = .ok code ↔
      ∃ view, emitViewValue context expression = .ok view ∧
        context.integerType expression.byteLength = .ok () ∧
        code = {
          width := expression.byteLength * 8
          run := loadView context view expression.byteLength } := by
  unfold viewInteger
  cases emitViewValue context expression with
  | error error => simp
  | ok view =>
      cases context.integerType expression.byteLength with
      | error error => simp
      | ok => simp [eq_comm]

theorem load_temporary {byteLength : Nat} (word : BitVec (byteLength * 8)) :
    (Place.temporary (byteAt word)).load byteLength = (pure word : Run _) := by
  funext machine
  show Except.ok (assemble byteLength (byteAt word), machine) = .ok (word, machine)
  rw [assemble_byteAt]

/-- A word stored in a temporary object is read back. -/
theorem loadView_temporary {byteLength own : Nat} (run : Run (BitVec (byteLength * 8)))
    (isRequired : Bool) :
    loadView context {
      byteLength := own
      requiresAccessCheck := isRequired
      run := do return .temporary (byteAt (← run)) } byteLength = run := by
  simp only [loadView, Context.checkViewLoad, bind_assoc, pure_bind, load_temporary, bind_pure]

section Nodes
variable {expression : Hir.Expr}

/-- Integer code is emitted at supported lengths only. -/
theorem integerType_of_emitted {byteLength : Nat} {isUnsigned : Bool} {code : IntegerCode}
    (emitted : emitIntegerValue context expression byteLength isUnsigned = .ok code) :
    context.integerType byteLength = .ok () := by
  have first {α : Type} {rest : Unit → Emission α} {value : α}
      (found : (context.integerType byteLength >>= rest) = .ok value) :
      context.integerType byteLength = .ok () := by
    obtain ⟨⟨⟩, supported, -⟩ := emission_bind_eq_ok found
    exact supported
  cases expression with
  | stringLiteral | floatLiteral | toFloat | floatBinary => cases emitted
  | call callee result =>
      simp only [emitIntegerValue, exprCode, callExprCode] at emitted
      split at emitted
      · cases emitted
      · exact first emitted
  | binary left op right result kind bounds =>
      simp only [emitIntegerValue, exprCode, binaryExprCode] at emitted
      split at emitted <;> exact first emitted
  | templateView operand result =>
      simp only [emitIntegerValue, exprCode, templateViewExprCode] at emitted
      split at emitted <;> exact first emitted
  | _ => exact first emitted

theorem readsView_of_materialized (wellSized : WellSized expression)
    (positive : 0 < expression.byteLength)
    (view : emitViewValue context expression =
      if expression.byteLength = 0 then unsupported "cannot materialize a zero-length fixed View"
      else materialize context (emitIntegerValue context expression expression.byteLength
        expression.result.sourceUsesZeroExtension) expression.byteLength) :
    ReadsView context expression := by
  intro isUnsigned code
  rw [emitIntegerValue_self context wellSized isUnsigned
    expression.result.sourceUsesZeroExtension, viewInteger_eq_ok_iff, view,
    if_neg (by omega), materialize]
  constructor
  · intro emitted
    have width := (exprCode_meetsRequests context expression).width _ _ _ emitted
    have supported := integerType_of_emitted emitted
    obtain ⟨own, run⟩ := code
    obtain rfl : own = expression.byteLength * 8 := width
    refine ⟨_, by rw [supported, emitted]; rfl, supported, ?_⟩
    rw [loadView_temporary]
  · rintro ⟨source, found, supported, rfl⟩
    rw [supported, emission_ok_bind] at found
    obtain ⟨code, emitted, rest⟩ := emission_bind_eq_ok found
    have width := (exprCode_meetsRequests context expression).width _ _ _ emitted
    obtain ⟨own, run⟩ := code
    obtain rfl : own = expression.byteLength * 8 := width
    cases rest
    rw [emitted, loadView_temporary]

theorem readsView_of_view (wellSized : WellSized expression) (positive : 0 < expression.byteLength)
    (integer : ∀ isUnsigned,
      emitIntegerValue context expression expression.byteLength isUnsigned = (do
        context.integerType expression.byteLength
        integerOfView context (emitViewValue context expression) expression.byteLength
          isUnsigned)) :
    ReadsView context expression := by
  intro isUnsigned code
  rw [integer, viewInteger_eq_ok_iff]
  cases supported : context.integerType expression.byteLength with
  | error error => simp
  | ok =>
      simp only [emission_ok_bind, true_and, integerOfView]
      cases emitted : emitViewValue context expression with
      | error error => simp
      | ok view =>
          have length := byteLength_of_view wellSized emitted
          obtain ⟨own, isRequired, run⟩ := view
          obtain rfl : own = expression.byteLength := length
          simp only [emission_ok_bind, Except.ok.injEq, exists_eq_left', if_neg positive.ne',
            supported, emission_pure, resize_self_code]
          exact eq_comm

theorem readsView_variable (binding : Hir.Binding) (offset : Nat) (result : ViewSemantics) :
    ReadsView context (.variableRef binding offset result) := by
  intro isUnsigned code
  simp only [viewInteger, emitIntegerValue, emitViewValue, exprCode, variableExprCode,
    emitVariable, Hir.Expr.byteLength, Hir.Expr.result]
  cases supported : context.integerType result.staticByteLength with
  | error error =>
      cases context.findStorage binding.bindingName <;> simp
  | ok =>
      cases context.findStorage binding.bindingName with
      | error error => simp
      | ok storage =>
          simp only [emission_ok_bind, emission_pure, resize_self_code, loadView, loadVariable,
            readPointer, Context.checkViewLoad, bind_assoc, pure_bind, bind_map_left]

theorem readsView_deref (address : Hir.Expr) (result : ViewSemantics) :
    ReadsView context (.deref address result) := by
  intro isUnsigned code
  simp only [viewInteger, emitIntegerValue, emitViewValue, exprCode, derefExprCode, emitDeref,
    integerExprCode_integer, Hir.Expr.byteLength, Hir.Expr.result]
  cases supported : context.integerType result.staticByteLength with
  | error error =>
      cases (exprCode context address).pointer <;> simp
  | ok =>
      cases (exprCode context address).pointer with
      | error error => simp
      | ok pointer =>
          simp only [emission_ok_bind, emission_pure, resize_self_code, loadView,
            Context.checkViewLoad, bind_map_left]

theorem readsView_character {byte : Byte} {result : ViewSemantics}
    (length : result.staticByteLength = 1) (interpreted : result.integerInterpretation = .unsigned) :
    ReadsView context (.characterLiteral [byte] result) := by
  intro isUnsigned code
  have contents : assemble 1 (fun index => [byte].getD index 0) = byte.setWidth (1 * 8) := by
    rw [← assemble_byteAt (byte.setWidth (1 * 8))]
    apply assemble_congr
    intro index bound
    obtain rfl : index = 0 := by omega
    simp [byteAt]
  have run : loadView context {
      byteLength := 1
      requiresAccessCheck := false
      run := return .temporary fun index => [byte].getD index 0 } 1 =
        (pure (byte.setWidth (1 * 8)) : Run _) := by
    funext machine
    show Except.ok (assemble 1 (fun index => [byte].getD index 0), machine) = _
    rw [contents]
    rfl
  simp only [viewInteger, emitIntegerValue, emitViewValue, exprCode, characterExprCode,
    emitCharacterLiteral, integerExprCode_integer, Hir.Expr.byteLength, Hir.Expr.result,
    interpreted]
  generalize result.staticByteLength = own at length ⊢
  subst length
  cases context.integerType 1 with
  | error error => simp
  | ok => simp only [ne_eq, not_true_eq_false, if_false, emission_ok_bind, emission_pure, run]

theorem ReadsView.integer_eq_ok_iff (reads : ReadsView context expression) {byteLength : Nat}
    (length : byteLength = expression.byteLength) (isUnsigned : Bool) (code : IntegerCode) :
    (exprCode context expression).integer byteLength isUnsigned = .ok code ↔
      ∃ view, (exprCode context expression).view = .ok view ∧
        context.integerType byteLength = .ok () ∧
        code = { width := byteLength * 8, run := loadView context view byteLength } := by
  subst length
  rw [← emitIntegerValue, reads isUnsigned code, viewInteger_eq_ok_iff]
  rfl

/-- The View of a ternary is a copy of one branch, its integer the integer of that branch. -/
theorem loadView_ternary (condition : Run Bool) (thenView elseView : ViewCode) (byteLength : Nat) :
    loadView context {
        byteLength
        requiresAccessCheck := false
        run := do
          if ← condition then (copyView context thenView byteLength).run
          else (copyView context elseView byteLength).run } byteLength = (do
      if ← condition then loadView context thenView byteLength
      else loadView context elseView byteLength) := by
  rw [loadView]
  simp only [bind_assoc]
  congr 1
  funext holds
  cases holds with
  | true =>
      simp only [if_true, copyView, Context.checkViewLoad, bind_assoc, pure_bind, load_temporary,
        bind_pure]
  | false =>
      simp only [Bool.false_eq_true, if_false, copyView, Context.checkViewLoad, bind_assoc,
        pure_bind, load_temporary, bind_pure]

theorem readsView_ternary {condition thenExpr elseExpr : Hir.Expr} {result : ViewSemantics}
    (static : result.isDynamic = false) (positive : 0 < result.staticByteLength)
    (thenLength : result.staticByteLength = thenExpr.byteLength) (thenSized : WellSized thenExpr)
    (elseLength : result.staticByteLength = elseExpr.byteLength) (elseSized : WellSized elseExpr)
    (branches : isRawTernary result = false →
      ReadsView context thenExpr ∧ ReadsView context elseExpr) :
    ReadsView context (.ternary condition thenExpr elseExpr result) := by
  cases raw : isRawTernary result with
  | true =>
      have wellSized : WellSized (.ternary condition thenExpr elseExpr result) :=
        ⟨thenLength, thenSized, elseLength, elseSized⟩
      apply readsView_of_view wellSized positive
      intro isUnsigned
      simp only [emitIntegerValue, emitViewValue, exprCode, ternaryExprCode,
        integerExprCode_integer, emitTernary, raw, if_true]
  | false =>
      obtain ⟨thenReads, elseReads⟩ := branches raw
      intro isUnsigned code
      have notEmpty : ¬(result.isDynamic = true ∨ result.staticByteLength = 0) := by
        simp only [static, Bool.false_eq_true, false_or]
        exact positive.ne'
      rw [viewInteger_eq_ok_iff]
      simp only [emitIntegerValue, emitViewValue, exprCode, ternaryExprCode,
        integerExprCode_integer, emitTernary, raw, Bool.false_eq_true, if_false,
        Hir.Expr.byteLength, Hir.Expr.result, emitTernaryView, if_neg notEmpty]
      constructor
      · intro emitted
        obtain ⟨⟨⟩, supported, rest⟩ := emission_bind_eq_ok emitted
        obtain ⟨holds, test, rest⟩ := emission_bind_eq_ok rest
        obtain ⟨thenCode, thenFound, rest⟩ := emission_bind_eq_ok rest
        obtain ⟨elseCode, elseFound, rest⟩ := emission_bind_eq_ok rest
        obtain ⟨thenView, thenEmitted, -, rfl⟩ :=
          (thenReads.integer_eq_ok_iff thenLength _ _).mp thenFound
        obtain ⟨elseView, elseEmitted, -, rfl⟩ :=
          (elseReads.integer_eq_ok_iff elseLength _ _).mp elseFound
        have thenSame : thenView.byteLength = result.staticByteLength :=
          (byteLength_of_view thenSized thenEmitted).trans thenLength.symm
        have elseSame : elseView.byteLength = result.staticByteLength :=
          (byteLength_of_view elseSized elseEmitted).trans elseLength.symm
        simp only [IntegerCode.typed_self, emission_ok_bind, emission_pure] at rest
        cases rest
        refine ⟨{
          byteLength := result.staticByteLength
          requiresAccessCheck := false
          run := do
            if ← holds then (copyView context thenView result.staticByteLength).run
            else (copyView context elseView result.staticByteLength).run }, ?_, supported, ?_⟩
        · rw [test, thenEmitted, elseEmitted]
          simp only [emission_ok_bind, thenSame, elseSame, ne_eq, not_true_eq_false, or_self,
            if_false]
          rfl
        · rw [loadView_ternary]
      · rintro ⟨view, found, supported, rfl⟩
        obtain ⟨holds, test, rest⟩ := emission_bind_eq_ok found
        obtain ⟨thenView, thenEmitted, rest⟩ := emission_bind_eq_ok rest
        obtain ⟨elseView, elseEmitted, rest⟩ := emission_bind_eq_ok rest
        split at rest
        · cases rest
        · cases rest
          have thenFound := (thenReads.integer_eq_ok_iff thenLength isUnsigned _).mpr
            ⟨thenView, thenEmitted, supported, rfl⟩
          have elseFound := (elseReads.integer_eq_ok_iff elseLength isUnsigned _).mpr
            ⟨elseView, elseEmitted, supported, rfl⟩
          rw [supported, emission_ok_bind, emitIntegerTernary, test, emission_ok_bind, thenFound,
            emission_ok_bind, elseFound, emission_ok_bind, IntegerCode.typed_self,
            emission_ok_bind, IntegerCode.typed_self, emission_ok_bind, loadView_ternary]
          rfl

theorem isRawTernary_of_category {result : ViewSemantics}
    (raw : result.category = .cString ∨ result.category = .rawBytes) :
    isRawTernary result = true := by
  rcases raw with category | category <;> simp [isRawTernary, category]

theorem not_isDynamic_of_positive {result : ViewSemantics} (positive : 0 < result.staticByteLength) :
    result.isDynamic = false := by
  cases length : result.length with
  | static byteLength => simp [ViewSemantics.isDynamic, length]
  | dynamic => simp [ViewSemantics.staticByteLength, length] at positive

/-- The literals the emitter has no integer code for. -/
def hasIntegerCode : Hir.Expr → Bool
  | .stringLiteral _ _ => false
  | .characterLiteral _ result => result.category != .rawBytes
  | _ => true

variable (context) in
/-- The integer code of an expression reads its View, unless it is floating or one of those
literals. -/
theorem emitIntegerValue_readsView : ∀ {expression : Hir.Expr}, WellSized expression →
    IsCategorized expression → 0 < expression.byteLength →
    expression.result.category ≠ .floating → hasIntegerCode expression = true →
    ReadsView context expression
  | .integerLiteral value result, sized, _, positive, _, _ =>
      readsView_of_materialized sized positive rfl
  | .characterLiteral bytes result, sized, categorized, _, _, integer => by
      rcases categorized with category | ⟨interpreted, length⟩
      · simp [hasIntegerCode, category] at integer
      · obtain ⟨byte, rfl⟩ := List.length_eq_one_iff.mp (sized.symm.trans length)
        exact readsView_character length interpreted
  | .stringLiteral _ _, _, _, _, _, integer => by cases integer
  | .floatLiteral _ _, _, floating, _, notFloating, _ => absurd floating notFloating
  | .toFloat _ _ _ _, _, floating, _, notFloating, _ => absurd floating notFloating
  | .floatBinary _ _ _ _, _, floating, _, notFloating, _ => absurd floating notFloating
  | .variableRef binding offset result, _, _, _, _, _ => readsView_variable binding offset result
  | .addressOf binding targetByteLength offset result, sized, _, positive, _, _ =>
      readsView_of_materialized sized positive rfl
  | .deref address result, _, _, _, _, _ => readsView_deref address result
  | .booleanTest operand result, sized, _, positive, _, _ =>
      readsView_of_materialized sized positive rfl
  | .binary left op right result kind bounds, sized, _, positive, _, _ => by
      apply readsView_of_materialized sized positive
      simp only [emitViewValue, emitIntegerValue, exprCode, binaryExprCode]
      split <;> rfl
  | .unary op operand result, sized, _, positive, _, _ =>
      readsView_of_materialized sized positive rfl
  | .ternary condition thenExpr elseExpr result, sized, categorized, positive, notFloating, _ => by
      obtain ⟨thenLength, thenSized, elseLength, elseSized⟩ := sized
      obtain ⟨thenCategory, thenCategorized, elseCategory, elseCategorized⟩ := categorized
      apply readsView_ternary (not_isDynamic_of_positive positive) positive thenLength thenSized
        elseLength elseSized
      intro notRaw
      have emitted (branch : Hir.Expr) (category : branch.result.category = result.category)
          (categorized : IsCategorized branch) : hasIntegerCode branch = true := by
        by_contra missing
        have raw : branch.result.category = .cString ∨ branch.result.category = .rawBytes := by
          cases branch with
          | stringLiteral => exact .inl categorized
          | characterLiteral =>
              right
              simpa [hasIntegerCode, Hir.Expr.result] using missing
          | _ => exact absurd rfl missing
        rw [category] at raw
        exact absurd (isRawTernary_of_category raw) (Bool.eq_false_iff.mp notRaw)
      constructor
      · exact emitIntegerValue_readsView thenSized thenCategorized (thenLength ▸ positive)
          (fun floating => notFloating (thenCategory.symm.trans floating))
          (emitted thenExpr thenCategory thenCategorized)
      · exact emitIntegerValue_readsView elseSized elseCategorized (elseLength ▸ positive)
          (fun floating => notFloating (elseCategory.symm.trans floating))
          (emitted elseExpr elseCategory elseCategorized)
  | .unsigned operand result, sized, _, positive, _, _ =>
      readsView_of_view sized positive fun _ => rfl
  | .integerCast operand isSigned result, sized, _, positive, _, _ =>
      readsView_of_materialized sized positive rfl
  | .templateView operand result, sized, _, positive, _, _ => by
      apply readsView_of_view sized positive
      intro isUnsigned
      simp only [emitIntegerValue, emitViewValue, exprCode, templateViewExprCode]
      split <;> rfl
  | .floatCompare left op right operandByteLength result, sized, _, positive, _, _ =>
      readsView_of_materialized sized positive rfl
  | .call callee result, sized, _, positive, notFloating, _ => by
      have integer : exprCode context (.call callee result) =
          { integerExprCode context (.call callee result) (emitCall context callee result) with
            pointer := .ok (BitVec.setWidth 64 <$> context.callee callee
              result.staticByteLength) } := by
        rw [exprCode, callExprCode]
        exact if_neg notFloating
      apply readsView_of_materialized sized positive
      rw [emitViewValue, emitIntegerValue, integer]
      rfl
  | .assignment stores result semantics, sized, _, positive, _, _ =>
      readsView_of_view sized positive fun _ => rfl

/-- A View without bytes is no integer. -/
theorem readsView_of_empty (empty : expression.byteLength = 0) : ReadsView context expression := by
  have unsupportedLength : context.integerType expression.byteLength ≠ .ok () := by
    rw [empty]
    nofun
  intro isUnsigned code
  constructor
  · exact fun emitted => absurd (integerType_of_emitted emitted) unsupportedLength
  · intro read
    obtain ⟨view, -, supported, -⟩ := viewInteger_eq_ok_iff.mp read
    exact absurd supported unsupportedLength

variable (context) in
/-- The integer code of an analysed argument reads its View. -/
theorem analyze_readsView {scope : Scope} {source : Ast.Expr}
    (analyzed : analyze scope source = .ok expression)
    (notFloating : expression.result.category ≠ .floating)
    (integer : hasIntegerCode expression = true) : ReadsView context expression := by
  rcases Nat.eq_zero_or_pos expression.byteLength with empty | positive
  · exact readsView_of_empty empty
  · exact emitIntegerValue_readsView context (analyze_isSized analyzed).wellSized
      (analyze_isFormed analyzed).categorized positive notFloating integer

end Nodes

end HitSimple.Codegen

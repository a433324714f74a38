import HitSimple.Codegen.Denotation
import HitSimple.Sema.Analyzer

namespace HitSimple.Codegen
open FixedWidth Sema

/-- A View whose bytes are the same in every state. -/
def IsConstantView (context : Context) (expression : Hir.Expr) : Prop :=
  ∃ code contents, emitViewValue context expression = .ok code ∧
    ∀ machine, code.run machine = .ok (.temporary contents, machine)

/-- The node an assignment is lowered to. -/
def assignmentNode (lowered : AssignmentLowering) : Hir.Expr :=
  .assignment lowered.store lowered.result (rvalue lowered.result.result)

/-- Standard 7.2: the value of an assignment is an rvalue copy of the bytes the target has after the
write, with the length and the template of the target. -/
structure YieldsTarget (target : Hir.Expr) (lowered : AssignmentLowering) : Prop where
  view : (assignmentNode lowered).result = rvalue target.result
  notConstant : ∀ context, ¬IsConstantView context lowered.result
  current : ∀ context stores targetView, statementCode context lowered.store = .ok stores →
    emitViewValue context target = .ok targetView →
    ∃ code, emitViewValue context (assignmentNode lowered) = .ok code ∧
      code.byteLength = target.byteLength ∧
      ∀ before written after word, stores before = .ok ((), written) →
        loadView context targetView target.byteLength written = .ok (word, after) →
        code.run before = .ok (.temporary (byteAt word), after)

theorem not_isConstantView_variable (context : Context) (binding : Hir.Binding) (offset : Nat)
    (result : ViewSemantics) : ¬IsConstantView context (.variableRef binding offset result) := by
  rintro ⟨code, contents, emitted, constant⟩
  simp only [emitViewValue, exprCode, variableExprCode] at emitted
  cases found : context.findStorage binding.bindingName with
  | error error =>
      rw [found] at emitted
      cases emitted
  | ok storage =>
      rw [found] at emitted
      cases emitted
      have located := constant (.filledWith 0)
      simp only [map_run] at located
      cases located

theorem isConstantView_placeholder (context : Context) :
    IsConstantView context placeholderResult := by
  have supported : context.integerType 1 = .ok () :=
    (Context.supports_of_le_pointerByteLength (by omega) (by decide)).integerType_eq_ok
  have parsed : Literal.parseUnsignedIntegerLiteral ['0'] = some 0 := by rfl
  have oneByte : (Hir.Expr.integerLiteral ['0'] (signedIntegerResult 1)).byteLength = 1 := rfl
  refine ⟨{
    byteLength := 1
    requiresAccessCheck := false
    run := return .temporary (byteAt 0#8) }, byteAt 0#8, ?_, fun machine => rfl⟩
  simp only [emitViewValue, placeholderResult, exprCode, integerExprCode, oneByte, materialize,
    emitIntegerLiteral, supported, parsed, emission_ok_bind]
  rfl

/-- The View of an assignment is a copy of what its result denotes after the stores. -/
theorem emitViewValue_assignment {context : Context} {lowered : AssignmentLowering}
    {stores : Run Unit} {source : ViewCode}
    (storesCode : statementCode context lowered.store = .ok stores)
    (resultCode : emitViewValue context lowered.result = .ok source)
    (sameLength : source.byteLength = lowered.result.byteLength) :
    emitViewValue context (assignmentNode lowered) = .ok {
      copyView context source lowered.result.byteLength with
      run := do stores; (copyView context source lowered.result.byteLength).run } := by
  rw [emitViewValue] at resultCode
  simp only [emitViewValue, assignmentNode, exprCode, viewExprCode, emitAssignmentView, storesCode,
    resultCode, emission_ok_bind]
  have length : (rvalue lowered.result.result).staticByteLength = lowered.result.byteLength := rfl
  rw [length, if_neg (not_not.mpr sameLength)]
  rfl

theorem yieldsTarget_variable (binding : Hir.Binding) (templateName : TemplateName)
    (byteLength : Nat) (store : Hir.Statement) :
    YieldsTarget (.variableRef binding 0 (mutableResult templateName byteLength))
      { store, result := .variableRef binding 0 (mutableResult templateName byteLength) } where
  view := rfl
  notConstant := fun context => not_isConstantView_variable context _ _ _
  current := by
    intro context stores targetView storesCode targetCode
    have sameLength : targetView.byteLength =
        (Hir.Expr.variableRef binding 0 (mutableResult templateName byteLength)).byteLength := by
      simp only [emitViewValue, exprCode, variableExprCode] at targetCode
      cases found : context.findStorage binding.bindingName with
      | error error =>
          rw [found] at targetCode
          cases targetCode
      | ok storage =>
          rw [found] at targetCode
          cases targetCode
          rfl
    refine ⟨_, emitViewValue_assignment storesCode targetCode sameLength, rfl, ?_⟩
    intro before written after word wrote loaded
    dsimp only
    rw [bind_of_ok wrote]
    exact bind_of_ok loaded _

/-- A target that is a declared name; `_` discards its source. -/
def IsNameTarget : Ast.Expr → Prop
  | .identifier name => name ≠ "_"
  | _ => False

section Lowering
variable {scope : Scope} {target value : Ast.Expr} {op : Ast.AssignmentSpelling}
  {unsignedTarget : Bool} {lowered : AssignmentLowering}

theorem analyze_assignment_eq_ok (accepted : analyze scope (.assignment target op unsignedTarget
      value) = .ok (assignmentNode lowered)) :
    lowerAssignmentExpression scope target (analyzeForms scope target) op unsignedTarget value
      (analyzeForms scope value) = .ok lowered := by
  have lowers : (lowerAssignmentExpression scope target (analyzeForms scope target) op
      unsignedTarget value (analyzeForms scope value)).map assignmentNode =
        .ok (assignmentNode lowered) := accepted
  cases lowering : lowerAssignmentExpression scope target (analyzeForms scope target) op
      unsignedTarget value (analyzeForms scope value) with
  | error message =>
      rw [lowering] at lowers
      cases lowers
  | ok built =>
      rw [lowering] at lowers
      have same := Except.ok.inj lowers
      obtain ⟨store, result⟩ := built
      obtain ⟨loweredStore, loweredResult⟩ := lowered
      simp only [assignmentNode, Hir.Expr.assignment.injEq] at same
      rw [same.1, same.2.1]

theorem map_result {stores : Analysis Hir.Statement} {result : Hir.Expr}
    (accepted : (stores.map fun store => AssignmentLowering.mk store result) = .ok lowered) :
    lowered.result = result := by
  cases stores with
  | error message => cases accepted
  | ok store =>
      cases accepted
      rfl

theorem result_of_identifier {name : String} (declared : name ≠ "_")
    (accepted : lowerAssignmentExpression scope (.identifier name)
      (analyzeForms scope (.identifier name)) op unsignedTarget value (analyzeForms scope value) =
        .ok lowered) :
    ∃ symbol, scope.lookup name = some symbol ∧ lowered.result =
      .variableRef symbol.binding 0 (mutableResult symbol.templateName symbol.byteLength) := by
  rw [lowerAssignmentExpression, if_neg declared] at accepted
  cases found : scope.lookup name with
  | none =>
      rw [found] at accepted
      cases accepted
  | some symbol =>
      rw [found] at accepted
      exact ⟨symbol, rfl, map_result accepted⟩

theorem result_of_not_name (other : ¬IsNameTarget target)
    (accepted : lowerAssignmentExpression scope target (analyzeForms scope target) op
      unsignedTarget value (analyzeForms scope value) = .ok lowered) :
    lowered.result = placeholderResult := by
  unfold lowerAssignmentExpression at accepted
  split at accepted
  · rename_i name
    have discard : name = "_" := not_not.mp other
    rw [if_pos discard, lowerDiscard] at accepted
    cases source : (analyzeForms scope value).expression with
    | error message =>
        rw [source] at accepted
        cases accepted
    | ok lowered =>
        rw [source] at accepted
        cases accepted
        rfl
  · split at accepted
    · cases accepted
    · split at accepted
      · cases accepted
      · exact map_result accepted
      · split at accepted
        · cases accepted
        · split at accepted
          · cases accepted
          · cases accepted
          · exact map_result accepted

/-- The value of an accepted assignment is the one of Standard 7.2 exactly when its target is a
name. -/
theorem assignmentExpression_yieldsTarget_iff
    (accepted : analyze scope (.assignment target op unsignedTarget value) =
      .ok (assignmentNode lowered)) :
    (∃ node, analyze scope target = .ok node ∧ YieldsTarget node lowered) ↔
      IsNameTarget target := by
  have lowers := analyze_assignment_eq_ok accepted
  constructor
  · rintro ⟨node, -, yields⟩
    by_contra other
    have notConstant := yields.notConstant (.ofObject 0 1)
    rw [result_of_not_name other lowers] at notConstant
    exact notConstant (isConstantView_placeholder _)
  · intro named
    cases target with
    | identifier name =>
        obtain ⟨symbol, found, result⟩ := result_of_identifier named lowers
        obtain ⟨store, lowered⟩ := lowered
        cases result
        refine ⟨.variableRef symbol.binding 0
          (mutableResult symbol.templateName symbol.byteLength), ?_,
          yieldsTarget_variable _ _ _ store⟩
        show analyzeIdentifier scope name = _
        rw [analyzeIdentifier, found]
    | _ => exact absurd named id

end Lowering

/-- `x = 7` for a byte `x`. -/
theorem assignmentExpression_yieldsTarget_iff_name :
    (∃ node, analyze (.ofObject .none 1) (.identifier "x") = .ok node ∧ YieldsTarget node {
        store := .integerStore { bindingName := "x", storage := .local } 1 0
          (.integerLiteral ['7'] (signedIntegerResult 1)) (some (signedIntegerResult 1))
        result := objectVariable .none 1 }) ↔
      IsNameTarget (.identifier "x") := by
  have accepted : analyze (.ofObject .none 1) (.assignment (.identifier "x") .default false
      (.integerLiteral ['7'])) = .ok (assignmentNode {
        store := .integerStore { bindingName := "x", storage := .local } 1 0
          (.integerLiteral ['7'] (signedIntegerResult 1)) (some (signedIntegerResult 1))
        result := objectVariable .none 1 }) := by rfl
  exact assignmentExpression_yieldsTarget_iff accepted

/-- `x[0] = 7` writes 7 and denotes 0. -/
theorem indexAssignment_yields_zero :
    ∃ lowered,
      analyze (.ofObject .none 1) (.assignment (.index (.identifier "x") (.integerLiteral ['0']))
        .default false (.integerLiteral ['7'])) = .ok (assignmentNode lowered) ∧
      ∃ code after, emitViewValue (.ofObject 0 1) (assignmentNode lowered) = .ok code ∧
        code.run (.filledWith 0) = .ok (.temporary (byteAt 0#8), after) ∧
        after.memory 0 = 7 :=
  ⟨_, by rfl, _, _, by rfl, by rfl, by rfl⟩

end HitSimple.Codegen

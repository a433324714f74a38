import HitSimple.Sema.LiteralNodes
import HitSimple.Sema.Arguments

namespace HitSimple.Sema

/-- The categories of the nodes that have no integer code, and of the branches of a ternary. -/
def IsCategorized : Hir.Expr → Prop
  | .floatLiteral _ result | .toFloat _ _ _ result | .floatBinary _ _ _ result =>
      result.category = .floating
  | .stringLiteral _ result => result.category = .cString
  | .characterLiteral _ result =>
      result.category = .rawBytes ∨
        result.integerInterpretation = .unsigned ∧ result.staticByteLength = 1
  | .ternary _ thenExpr elseExpr result =>
      thenExpr.result.category = result.category ∧ IsCategorized thenExpr ∧
        elseExpr.result.category = result.category ∧ IsCategorized elseExpr
  | _ => True

/-- A floating View has a floating template. -/
def FloatsByTemplate (view : ViewSemantics) : Prop :=
  view.category = .floating → isFloatTemplate view.templateName = true

structure IsFormed (expression : Hir.Expr) : Prop where
  categorized : IsCategorized expression
  floats : FloatsByTemplate expression.result

section Views

@[simp] theorem viewSemanticsForTemplate_floats (templateName : TemplateName) (byteLength : Nat)
    (isAddressable isMutableLValue : Bool) :
    FloatsByTemplate (viewSemanticsForTemplate templateName byteLength isAddressable
      isMutableLValue) := by
  intro floating
  cases templateName with
  | floating size =>
      simp only [viewSemanticsForTemplate] at floating ⊢
      split at floating
      · rename_i standard
        rw [if_pos standard]
        simp [staticViewSemantics, isFloatTemplate, isLoweredFloatByteLength]
        omega
      · cases floating
  | signedInteger size | unsignedInteger size =>
      simp only [viewSemanticsForTemplate] at floating
      split at floating <;> cases floating
  | _ => cases floating

@[simp] theorem mutableResult_floats (templateName : TemplateName) (byteLength : Nat) :
    FloatsByTemplate (mutableResult templateName byteLength) :=
  viewSemanticsForTemplate_floats _ _ _ _

@[simp] theorem booleanResult_floats : FloatsByTemplate booleanResult := nofun

@[simp] theorem signedIntegerResult_floats (byteLength : Nat) :
    FloatsByTemplate (signedIntegerResult byteLength) := nofun

@[simp] theorem unsignedIntegerResult_floats (byteLength : Nat) :
    FloatsByTemplate (unsignedIntegerResult byteLength) := nofun

theorem rvalue_floats {view : ViewSemantics} (floats : FloatsByTemplate view) :
    FloatsByTemplate (rvalue view) := floats

theorem category_of_isLoweredFloat {byteLength size : Nat}
    (lowered : isLoweredFloatByteLength byteLength = true) :
    (fixedResult (.floating byteLength) size).category = .floating := by
  have sizes : byteLength = 2 ∨ byteLength = 4 ∨ byteLength = 8 ∨ byteLength = 16 := by
    simpa [isLoweredFloatByteLength, or_assoc] using lowered
  simp [fixedResult, viewSemanticsForTemplate, sizes, staticViewSemantics]

theorem category_of_isFloatTemplate {templateName : TemplateName} {byteLength : Nat}
    (floating : isFloatTemplate templateName = true) :
    (fixedResult templateName byteLength).category = .floating := by
  cases templateName with
  | floating size => exact category_of_isLoweredFloat floating
  | _ => cases floating

end Views

section Binary
variable {scope : Scope} {spelling : OperatorSpelling} {left right : Hir.Expr}

theorem comparisonOr_floats {op : BinaryOperator} {arithmetic : ViewSemantics}
    (floats : FloatsByTemplate arithmetic) : FloatsByTemplate (comparisonOr op arithmetic) := by
  unfold comparisonOr
  split
  · exact booleanResult_floats
  · exact floats

theorem selectOperation_floats {leftView rightView : ViewSemantics} {selected : SelectedOperation}
    (analyzed : selectOperation scope spelling leftView rightView = .ok selected) :
    FloatsByTemplate selected.result := by
  unfold selectOperation at analyzed
  split at analyzed
  · unfold selectTyped at analyzed
    dsimp only at analyzed
    split at analyzed
    · cases analyzed
    split at analyzed
    · cases analyzed
    · cases analyzed
      apply comparisonOr_floats
      split
      · exact unsignedIntegerResult_floats _
      · exact signedIntegerResult_floats _
  split at analyzed
  · cases analyzed
    apply comparisonOr_floats
    split
    · exact unsignedIntegerResult_floats _
    · exact signedIntegerResult_floats _
  split at analyzed
  · unfold selectStandardInteger at analyzed
    generalize (if leftView.templateName.isStandardInteger = true then (leftView, rightView)
      else (rightView, leftView)) = operands at analyzed
    dsimp only at analyzed
    split at analyzed
    · cases analyzed
    · cases analyzed
      apply comparisonOr_floats
      exact viewSemanticsForTemplate_floats _ _ _ _
  · unfold selectComparison at analyzed
    dsimp only at analyzed
    repeat' (split at analyzed)
    all_goals first | contradiction | (cases analyzed; exact booleanResult_floats)

theorem buildBinary_isFormed {selected : SelectedOperation} {first second node : Hir.Expr}
    (floats : FloatsByTemplate selected.result)
    (built : buildBinary spelling selected first second = .ok node) : IsFormed node := by
  unfold buildBinary at built
  split at built
  · split at built
    · cases built
      exact ⟨trivial, floats⟩
    · unfold foldLiterals at built
      dsimp only at built
      repeat' (split at built)
      all_goals first
        | contradiction
        | (cases built; exact ⟨trivial, booleanResult_floats⟩)
        | (cases built; exact ⟨trivial, floats⟩)
  · cases built
    exact ⟨trivial, floats⟩

theorem analyzeBinary_isFormed {rightLiteral : Option Literal.Spelling} {node : Hir.Expr}
    (leftFormed : IsFormed left)
    (analyzed : analyzeBinary scope spelling rightLiteral left right = .ok node) :
    IsFormed node := by
  unfold analyzeBinary at analyzed
  split at analyzed
  · split at analyzed
    · cases analyzed
    · cases analyzed
      exact ⟨trivial, booleanResult_floats⟩
  split at analyzed
  · split at analyzed
    · cases analyzed
      exact ⟨trivial, by simp [Hir.Expr.result]⟩
    · cases analyzed
  split at analyzed
  · unfold analyzeTypedFloating at analyzed
    dsimp only at analyzed
    rename_i typedLength _
    generalize (if typedLength = 0 then max left.byteLength right.byteLength else typedLength) =
      byteLength at analyzed
    split at analyzed
    · cases analyzed
    split at analyzed
    · cases analyzed
    · rename_i lowered
      split at analyzed
      · cases analyzed
        exact ⟨trivial, booleanResult_floats⟩
      · cases analyzed
        exact ⟨category_of_isLoweredFloat (by simpa using lowered), by simp [Hir.Expr.result]⟩
  split at analyzed
  · unfold analyzeFloatingBinary at analyzed
    dsimp only at analyzed
    split at analyzed
    · cases analyzed
    · rename_i operands
      have floating : left.result.category = .floating := by
        simp only [Bool.or_eq_true, not_or, bne_iff_ne, ne_eq, not_not] at operands
        exact operands.1.1
      repeat' (split at analyzed)
      all_goals first
        | contradiction
        | (cases analyzed; exact ⟨trivial, booleanResult_floats⟩)
        | (cases analyzed
           exact ⟨category_of_isFloatTemplate (leftFormed.floats floating),
             by simp [Hir.Expr.result]⟩)
  · unfold analyzeIntegerBinary at analyzed
    dsimp only at analyzed
    split at analyzed
    · cases analyzed
    split at analyzed
    · cases analyzed
    split at analyzed
    · cases analyzed
    cases selection : selectOperation scope spelling left.result right.result with
    | error message => simp only [selection] at analyzed; cases analyzed
    | ok selected =>
        have floats := selectOperation_floats selection
        simp only [selection] at analyzed
        split at analyzed
        · exact buildBinary_isFormed floats analyzed
        · split at analyzed
          · refine buildBinary_isFormed ?_ analyzed
            exact floats
          · exact buildBinary_isFormed floats analyzed

end Binary

section Forms
variable {scope : Scope}

theorem isFormed_addressOfReference (reference : MemoryReference) :
    IsFormed (addressOfReference reference) :=
  ⟨trivial, by simp [addressOfReference, Hir.Expr.result]⟩

theorem isFormed_boundedAddress (reference : MemoryReference) (byteLength : Nat)
    (offset : Hir.Expr) : IsFormed (boundedAddress reference byteLength offset) :=
  ⟨trivial, by simp [boundedAddress, Hir.Expr.result]⟩

theorem addressOfReferenceForm_isFormed {source : Ast.Expr} {node : Hir.Expr}
    (analyzed : addressOfReferenceForm scope source = .ok node) : IsFormed node := by
  unfold addressOfReferenceForm at analyzed
  split at analyzed
  · cases analyzed
  · cases analyzed
  · cases analyzed
    exact isFormed_addressOfReference _

theorem analyzeTernary_isFormed {condition thenExpr elseExpr node : Hir.Expr}
    (thenFormed : IsFormed thenExpr) (elseFormed : IsFormed elseExpr)
    (analyzed : analyzeTernary condition thenExpr elseExpr = .ok node) : IsFormed node := by
  unfold analyzeTernary at analyzed
  split at analyzed
  · cases analyzed
  split at analyzed
  · cases analyzed
  split at analyzed
  · cases analyzed
  · rename_i same
    cases analyzed
    have category : thenExpr.result.category = elseExpr.result.category := by
      simp [sameBranchView] at same
      exact same.1.1.1
    exact ⟨⟨rfl, thenFormed.categorized, category.symm, elseFormed.categorized⟩,
      rvalue_floats thenFormed.floats⟩

theorem lowerAssignmentExpression_floats {target value : Ast.Expr}
    {targetForms forms : AnalyzedForms} {op : Ast.AssignmentSpelling} {unsignedTarget : Bool}
    {lowered : AssignmentLowering}
    (analyzed : lowerAssignmentExpression scope target targetForms op unsignedTarget value forms =
      .ok lowered) : FloatsByTemplate lowered.result.result := by
  unfold lowerAssignmentExpression at analyzed
  split at analyzed
  · split at analyzed
    · obtain ⟨source, -, rfl⟩ := analysis_map_eq_ok analyzed
      exact signedIntegerResult_floats 1
    split at analyzed
    · cases analyzed
    · obtain ⟨store, -, rfl⟩ := analysis_map_eq_ok analyzed
      exact viewSemanticsForTemplate_floats _ _ _ _
  · split at analyzed
    · cases analyzed
    split at analyzed
    · cases analyzed
    · obtain ⟨store, -, rfl⟩ := analysis_map_eq_ok analyzed
      exact signedIntegerResult_floats 1
    split at analyzed
    · cases analyzed
    split at analyzed
    · cases analyzed
    · cases analyzed
    · obtain ⟨store, -, rfl⟩ := analysis_map_eq_ok analyzed
      exact signedIntegerResult_floats 1

end Forms

/-- The forms of an expression that stand for a node of its own. -/
structure FormsAreFormed (forms : AnalyzedForms) : Prop where
  expression : ∀ node, forms.expression = .ok node → IsFormed node
  addressOf : ∀ node, forms.addressOf = .ok node → IsFormed node

theorem plainForms_areFormed (scope : Scope) (source : Ast.Expr) {expression : Analysis Hir.Expr}
    (formed : ∀ node, expression = .ok node → IsFormed node) :
    FormsAreFormed (plainForms scope source expression) where
  expression := formed
  addressOf := fun _ analyzed => addressOfReferenceForm_isFormed analyzed

theorem analyzeForms_areFormed (scope : Scope) (source : Ast.Expr) :
    FormsAreFormed (analyzeForms scope source) := by
  induction source with
  | identifier name =>
      rw [analyzeForms]
      apply plainForms_areFormed
      intro node analyzed
      unfold analyzeIdentifier at analyzed
      split at analyzed <;> cases analyzed
      exact ⟨trivial, by simp [Hir.Expr.result]⟩
  | integerLiteral value =>
      rw [analyzeForms]
      apply plainForms_areFormed
      intro node analyzed
      unfold analyzeIntegerLiteral at analyzed
      dsimp only at analyzed
      split at analyzed
      · cases analyzed
      · cases analyzed
        refine ⟨trivial, ?_⟩
        rw [Hir.Expr.result]
        split
        · exact unsignedIntegerResult_floats _
        · exact signedIntegerResult_floats _
  | stringLiteral bytes =>
      rw [analyzeForms]
      apply plainForms_areFormed
      intro node analyzed
      cases analyzed
      exact ⟨rfl, by simp [Hir.Expr.result]⟩
  | charLiteral bytes =>
      rw [analyzeForms]
      apply plainForms_areFormed
      intro node analyzed
      unfold analyzeCharLiteral at analyzed
      split at analyzed <;> cases analyzed
      constructor
      · show (ite _ _ _ : ViewSemantics).category = .rawBytes ∨
          (ite _ _ _ : ViewSemantics).integerInterpretation = .unsigned ∧
            (ite _ _ _ : ViewSemantics).staticByteLength = 1
        split
        · exact .inr ⟨rfl, rfl⟩
        · exact .inl rfl
      · rw [Hir.Expr.result]
        split
        · exact unsignedIntegerResult_floats _
        · intro floating
          cases floating
  | floatLiteral value =>
      rw [analyzeForms]
      constructor
      · intro node analyzed
        cases analyzed
        exact ⟨rfl, by simp [Hir.Expr.result]⟩
      · intro node analyzed
        exact addressOfReferenceForm_isFormed
          (show addressOfReferenceForm scope (.floatLiteral value) = _ from analyzed)
  | boolLiteral value =>
      rw [analyzeForms]
      apply plainForms_areFormed
      intro node analyzed
      cases analyzed
      exact ⟨trivial, booleanResult_floats⟩
  | addressOf operand formed =>
      rw [analyzeForms]
      exact plainForms_areFormed scope _ formed.addressOf
  | unary op operand formed =>
      rw [analyzeForms]
      apply plainForms_areFormed
      intro node analyzed
      split at analyzed
      · cases analyzed
      · unfold analyzeUnary at analyzed
        dsimp only at analyzed
        split at analyzed
        · split at analyzed <;> cases analyzed
          exact ⟨trivial, booleanResult_floats⟩
        split at analyzed
        · cases analyzed
        split at analyzed
        · cases analyzed
        · cases analyzed
          refine ⟨trivial, ?_⟩
          rw [Hir.Expr.result]
          split
          · split
            · exact unsignedIntegerResult_floats _
            · exact signedIntegerResult_floats _
          · exact viewSemanticsForTemplate_floats _ _ _ _
  | binary left op right leftFormed rightFormed =>
      rw [analyzeForms]
      constructor
      · intro node analyzed
        obtain ⟨first, second, leftFound, -, built⟩ := map₂_eq_ok analyzed
        exact analyzeBinary_isFormed (leftFormed.expression first leftFound) built
      · intro node analyzed
        exact addressOfReferenceForm_isFormed
          (show addressOfReferenceForm scope (.binary left op right) = _ from analyzed)
  | ternary condition thenExpr elseExpr _ thenFormed elseFormed =>
      rw [analyzeForms]
      apply plainForms_areFormed
      intro node analyzed
      obtain ⟨test, branches, -, pair, built⟩ := map₂_eq_ok analyzed
      obtain ⟨first, second, thenFound, elseFound, same⟩ := map₂_eq_ok pair
      cases same
      exact analyzeTernary_isFormed (thenFormed.expression first thenFound)
        (elseFormed.expression second elseFound) built
  | unsigned operand byteLength formed =>
      rw [analyzeForms]
      apply plainForms_areFormed
      intro node analyzed
      split at analyzed
      · unfold analyzeUnsignedLiteral at analyzed
        dsimp only at analyzed
        repeat' (split at analyzed)
        all_goals first
          | contradiction
          | (cases analyzed; exact ⟨trivial, unsignedIntegerResult_floats _⟩)
      · obtain ⟨lowered, found, rfl⟩ := analysis_map_eq_ok analyzed
        unfold analyzeUnsigned
        split
        · exact formed.expression lowered found
        · split
          · exact ⟨trivial, unsignedIntegerResult_floats _⟩
          · refine ⟨trivial, fun floating => ?_⟩
            cases floating
  | integerCast operand byteLength isSigned formed =>
      rw [analyzeForms]
      apply plainForms_areFormed
      intro node analyzed
      split at analyzed
      · cases analyzed
      · unfold analyzeIntegerCast at analyzed
        repeat' (split at analyzed)
        all_goals first
          | contradiction
          | (cases analyzed; exact ⟨trivial, by simp [Hir.Expr.result]⟩)
  | asView operand templateName formed =>
      rw [analyzeForms]
      apply plainForms_areFormed
      intro node analyzed
      split at analyzed
      · cases analyzed
      · unfold analyzeAs at analyzed
        dsimp only at analyzed
        repeat' (split at analyzed)
        all_goals first
          | contradiction
          | (cases analyzed; exact ⟨trivial, viewSemanticsForTemplate_floats _ 0 _ _⟩)
  | index base index =>
      rw [analyzeForms]
      constructor
      · intro node analyzed
        obtain ⟨address, -, rfl⟩ := analysis_map_eq_ok analyzed
        exact ⟨trivial, by simp [Hir.Expr.result]⟩
      · intro node analyzed
        change lowerIndexAddress scope base _ = _ at analyzed
        unfold lowerIndexAddress at analyzed
        repeat' (split at analyzed)
        all_goals first
          | contradiction
          | (cases analyzed; exact isFormed_boundedAddress _ _ _)
  | slice base start stop lengthMode =>
      rw [analyzeForms]
      constructor
      · intro node analyzed
        obtain ⟨lowered, -, rfl⟩ := analysis_map_eq_ok analyzed
        exact ⟨trivial, by simp [Hir.Expr.result]⟩
      · intro node analyzed
        obtain ⟨lowered, found, rfl⟩ := analysis_map_eq_ok analyzed
        unfold lowerSlice at found
        repeat' (split at found)
        all_goals first
          | contradiction
          | (cases found; exact isFormed_boundedAddress _ _ _)
  | member object path =>
      rw [analyzeForms]
      apply plainForms_areFormed
      intro node analyzed
      obtain ⟨reference, -, rfl⟩ := analysis_map_eq_ok analyzed
      exact ⟨trivial, by simp [Hir.Expr.result]⟩
  | sizeofTemplate templateName =>
      rw [analyzeForms]
      apply plainForms_areFormed
      intro node analyzed
      unfold analyzeSizeof at analyzed
      repeat' (split at analyzed)
      all_goals first
        | contradiction
        | (cases analyzed; exact ⟨trivial, by simp [Hir.Expr.result]⟩)
  | deref length address formed =>
      rw [analyzeForms]
      constructor
      · intro node analyzed
        obtain ⟨lowered, -, rfl⟩ := analysis_map_eq_ok analyzed
        exact ⟨trivial, by simp [Hir.Expr.result]⟩
      · exact formed.expression
  | call callee =>
      rw [analyzeForms]
      apply plainForms_areFormed
      intro node analyzed
      unfold analyzeCall at analyzed
      repeat' (split at analyzed)
      all_goals first
        | contradiction
        | (cases analyzed; exact ⟨trivial, by simp [Hir.Expr.result]⟩)
  | assignment target op unsignedTarget value =>
      rw [analyzeForms]
      apply plainForms_areFormed
      intro node analyzed
      obtain ⟨lowered, found, rfl⟩ := analysis_map_eq_ok analyzed
      exact ⟨trivial, rvalue_floats (lowerAssignmentExpression_floats found)⟩

theorem analyze_isFormed {scope : Scope} {source : Ast.Expr} {node : Hir.Expr}
    (analyzed : analyze scope source = .ok node) : IsFormed node :=
  (analyzeForms_areFormed scope source).expression node analyzed

end HitSimple.Sema

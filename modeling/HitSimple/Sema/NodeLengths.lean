import HitSimple.Sema.Analyzer

namespace HitSimple.Sema

/-- The lengths of nodes that take theirs from another node or from a literal. -/
def WellSized : Hir.Expr → Prop
  | .stringLiteral bytes result => result.staticByteLength = bytes.length + 1
  | .characterLiteral bytes result => result.staticByteLength = bytes.length
  | .addressOf _ _ _ result => result.staticByteLength = pointerByteLength
  | .binary _ _ _ result _ bounds => bounds.isSome → result.staticByteLength = pointerByteLength
  | .unary op operand result =>
      op ≠ .not → result.staticByteLength = operand.byteLength ∧ WellSized operand
  | .unsigned operand result | .templateView operand result =>
      result.staticByteLength = operand.byteLength ∧ WellSized operand
  | .ternary _ thenExpr elseExpr result =>
      result.staticByteLength = thenExpr.byteLength ∧ WellSized thenExpr ∧
        result.staticByteLength = elseExpr.byteLength ∧ WellSized elseExpr
  | _ => True

/-- A node of a static length that agrees with its operands. -/
structure IsSized (expression : Hir.Expr) : Prop where
  wellSized : WellSized expression
  static : expression.result.isDynamic = false

theorem analysis_map_eq_ok {α β : Type} {analysis : Analysis α} {f : α → β} {result : β}
    (mapped : analysis.map f = .ok result) : ∃ value, analysis = .ok value ∧ f value = result := by
  cases analysis with
  | error message => cases mapped
  | ok value =>
      cases mapped
      exact ⟨value, rfl, rfl⟩

theorem map₂_eq_ok {α β γ : Type} {f : α → β → Analysis γ} {left : Analysis α} {right : Analysis β}
    {result : γ} (mapped : map₂ f left right = .ok result) :
    ∃ first second, left = .ok first ∧ right = .ok second ∧ f first second = .ok result := by
  unfold map₂ at mapped
  split at mapped
  · cases mapped
  · cases mapped
  · exact ⟨_, _, rfl, rfl, mapped⟩

section Views

@[simp] theorem viewSemanticsForTemplate_length (templateName : TemplateName) (byteLength : Nat)
    (isAddressable isMutableLValue : Bool) :
    (viewSemanticsForTemplate templateName byteLength isAddressable isMutableLValue).length =
      .static byteLength := by
  cases templateName <;> simp only [viewSemanticsForTemplate] <;> first | rfl | split <;> rfl

@[simp] theorem viewSemanticsForTemplate_isDynamic (templateName : TemplateName) (byteLength : Nat)
    (isAddressable isMutableLValue : Bool) :
    (viewSemanticsForTemplate templateName byteLength isAddressable isMutableLValue).isDynamic =
      false := by
  rw [ViewSemantics.isDynamic, viewSemanticsForTemplate_length]
  rfl

@[simp] theorem viewSemanticsForTemplate_byteLength (templateName : TemplateName)
    (byteLength : Nat) (isAddressable isMutableLValue : Bool) :
    (viewSemanticsForTemplate templateName byteLength isAddressable
      isMutableLValue).staticByteLength = byteLength := by
  rw [ViewSemantics.staticByteLength, viewSemanticsForTemplate_length]

@[simp] theorem mutableResult_isDynamic (templateName : TemplateName) (byteLength : Nat) :
    (mutableResult templateName byteLength).isDynamic = false :=
  viewSemanticsForTemplate_isDynamic _ _ _ _

@[simp] theorem rvalue_isDynamic (view : ViewSemantics) :
    (rvalue view).isDynamic = view.isDynamic := rfl

@[simp] theorem booleanResult_isDynamic : booleanResult.isDynamic = false := rfl

@[simp] theorem signedIntegerResult_isDynamic (byteLength : Nat) :
    (signedIntegerResult byteLength).isDynamic = false := rfl

@[simp] theorem unsignedIntegerResult_isDynamic (byteLength : Nat) :
    (unsignedIntegerResult byteLength).isDynamic = false := rfl

end Views

section Binary
variable {scope : Scope} {spelling : OperatorSpelling} {left right : Hir.Expr}

theorem comparisonOr_isDynamic {op : BinaryOperator} {arithmetic : ViewSemantics}
    (static : arithmetic.isDynamic = false) : (comparisonOr op arithmetic).isDynamic = false := by
  unfold comparisonOr
  split
  · rfl
  · exact static

theorem selectOperation_isDynamic {leftView rightView : ViewSemantics}
    {selected : SelectedOperation}
    (analyzed : selectOperation scope spelling leftView rightView = .ok selected) :
    selected.result.isDynamic = false := by
  unfold selectOperation at analyzed
  split at analyzed
  · unfold selectTyped at analyzed
    dsimp only at analyzed
    split at analyzed
    · cases analyzed
    · split at analyzed
      · cases analyzed
      · cases analyzed
        apply comparisonOr_isDynamic
        split <;> rfl
  · split at analyzed
    · cases analyzed
      apply comparisonOr_isDynamic
      split <;> rfl
    · split at analyzed
      · unfold selectStandardInteger at analyzed
        generalize (if leftView.templateName.isStandardInteger = true then (leftView, rightView)
          else (rightView, leftView)) = operands at analyzed
        dsimp only at analyzed
        split at analyzed
        · cases analyzed
        · cases analyzed
          apply comparisonOr_isDynamic
          exact viewSemanticsForTemplate_isDynamic _ _ _ _
      · unfold selectComparison at analyzed
        dsimp only at analyzed
        repeat' (split at analyzed)
        all_goals first | contradiction | (cases analyzed; rfl)

theorem buildBinary_isSized {selected : SelectedOperation} {first second node : Hir.Expr}
    (static : selected.result.isDynamic = false)
    (built : buildBinary spelling selected first second = .ok node) : IsSized node := by
  unfold buildBinary at built
  split at built
  · split at built
    · cases built
      exact ⟨nofun, static⟩
    · unfold foldLiterals at built
      dsimp only at built
      repeat' (split at built)
      all_goals first
        | contradiction
        | (cases built; exact ⟨trivial, rfl⟩)
        | (cases built; exact ⟨trivial, static⟩)
  · cases built
    exact ⟨nofun, static⟩

theorem analyzeIntegerBinary_isSized {rightLiteral : Option Literal.Spelling} {node : Hir.Expr}
    (analyzed : analyzeIntegerBinary scope spelling rightLiteral left right = .ok node) :
    IsSized node := by
  unfold analyzeIntegerBinary at analyzed
  dsimp only at analyzed
  split at analyzed
  · cases analyzed
  split at analyzed
  · cases analyzed
  split at analyzed
  · cases analyzed
  cases selection : selectOperation scope spelling left.result right.result with
  | error message => simp only [selection] at analyzed; cases analyzed
  | ok selected =>
      have static := selectOperation_isDynamic selection
      simp only [selection] at analyzed
      split at analyzed
      · exact buildBinary_isSized static analyzed
      · split at analyzed
        · refine buildBinary_isSized ?_ analyzed
          exact static
        · exact buildBinary_isSized static analyzed

theorem analyzeBinary_isSized {rightLiteral : Option Literal.Spelling} {node : Hir.Expr}
    (analyzed : analyzeBinary scope spelling rightLiteral left right = .ok node) :
    IsSized node := by
  unfold analyzeBinary at analyzed
  split at analyzed
  · split at analyzed
    · cases analyzed
    · cases analyzed
      exact ⟨nofun, rfl⟩
  split at analyzed
  · split at analyzed
    · cases analyzed
      exact ⟨trivial, viewSemanticsForTemplate_isDynamic _ _ _ _⟩
    · cases analyzed
  split at analyzed
  · unfold analyzeTypedFloating at analyzed
    dsimp only at analyzed
    repeat' (split at analyzed)
    all_goals first
      | contradiction
      | (cases analyzed; exact ⟨trivial, by simp [Hir.Expr.result]⟩)
  split at analyzed
  · unfold analyzeFloatingBinary at analyzed
    dsimp only at analyzed
    repeat' (split at analyzed)
    all_goals first
      | contradiction
      | (cases analyzed; exact ⟨trivial, by simp [Hir.Expr.result]⟩)
  · exact analyzeIntegerBinary_isSized analyzed

end Binary

section Forms
variable {scope : Scope}

theorem isSized_addressOfReference (reference : MemoryReference) :
    IsSized (addressOfReference reference) :=
  ⟨viewSemanticsForTemplate_byteLength _ _ _ _, by simp [addressOfReference, Hir.Expr.result]⟩

theorem isSized_boundedAddress (reference : MemoryReference) (byteLength : Nat)
    (offset : Hir.Expr) : IsSized (boundedAddress reference byteLength offset) :=
  ⟨fun _ => viewSemanticsForTemplate_byteLength _ _ _ _, by simp [boundedAddress, Hir.Expr.result]⟩

theorem isSized_variable (binding : Hir.Binding) (offset : Nat) (templateName : TemplateName)
    (byteLength : Nat) :
    IsSized (.variableRef binding offset (mutableResult templateName byteLength)) :=
  ⟨trivial, mutableResult_isDynamic _ _⟩

theorem addressOfReferenceForm_isSized {source : Ast.Expr} {node : Hir.Expr}
    (analyzed : addressOfReferenceForm scope source = .ok node) : IsSized node := by
  unfold addressOfReferenceForm at analyzed
  split at analyzed
  · cases analyzed
  · cases analyzed
  · cases analyzed
    exact isSized_addressOfReference _

theorem lowerIndexAddress_isSized {base : Ast.Expr} {index : Analysis Hir.Expr} {node : Hir.Expr}
    (analyzed : lowerIndexAddress scope base index = .ok node) : IsSized node := by
  unfold lowerIndexAddress at analyzed
  split at analyzed
  · cases analyzed
  · cases analyzed
  · split at analyzed
    · cases analyzed
    · cases analyzed
      exact isSized_boundedAddress _ _ _

theorem lowerSlice_isSized {base start stop : Ast.Expr} {lengthMode : Bool}
    {startForm : Analysis Hir.Expr} {lowered : Hir.Expr × Nat}
    (analyzed : lowerSlice scope base start stop lengthMode startForm = .ok lowered) :
    IsSized lowered.1 := by
  unfold lowerSlice at analyzed
  repeat' (split at analyzed)
  all_goals first
    | contradiction
    | (cases analyzed; exact isSized_boundedAddress _ _ _)

theorem analyzeUnary_isSized {op : Hir.UnaryOperator} {operandIsLiteral : Bool}
    {operand node : Hir.Expr} (sized : IsSized operand)
    (analyzed : analyzeUnary op operandIsLiteral operand = .ok node) : IsSized node := by
  unfold analyzeUnary at analyzed
  dsimp only at analyzed
  split at analyzed
  · rename_i logical
    split at analyzed
    · cases analyzed
    · cases analyzed
      exact ⟨fun arithmetic => absurd logical arithmetic, rfl⟩
  · split at analyzed
    · cases analyzed
    split at analyzed
    · cases analyzed
    · cases analyzed
      have length : (if operand.result.templateName = TemplateName.none then
          if operand.isUnsigned && !(op == .negate && operandIsLiteral) then
            unsignedIntegerResult operand.byteLength
          else signedIntegerResult operand.byteLength
        else fixedResult operand.result.templateName operand.byteLength).length =
          .static operand.byteLength := by
        split
        · split <;> rfl
        · exact viewSemanticsForTemplate_length _ _ _ _
      refine ⟨fun _ => ⟨?_, sized.wellSized⟩, ?_⟩
      · rw [ViewSemantics.staticByteLength, length]
      · rw [Hir.Expr.result, ViewSemantics.isDynamic, length]
        rfl

theorem analyzeTernary_isSized {condition thenExpr elseExpr node : Hir.Expr}
    (thenSized : IsSized thenExpr) (elseSized : IsSized elseExpr)
    (analyzed : analyzeTernary condition thenExpr elseExpr = .ok node) : IsSized node := by
  unfold analyzeTernary at analyzed
  split at analyzed
  · cases analyzed
  split at analyzed
  · cases analyzed
  split at analyzed
  · cases analyzed
  · rename_i same
    cases analyzed
    have lengths : thenExpr.result.length = elseExpr.result.length := by
      simp [sameBranchView] at same
      exact same.1.2
    refine ⟨⟨rfl, thenSized.wellSized, ?_, elseSized.wellSized⟩, thenSized.static⟩
    show thenExpr.result.staticByteLength = elseExpr.result.staticByteLength
    rw [ViewSemantics.staticByteLength, ViewSemantics.staticByteLength, lengths]

theorem analyzeUnsigned_isSized {byteLength : Nat} {operand : Hir.Expr} (sized : IsSized operand) :
    IsSized (analyzeUnsigned scope byteLength operand) := by
  unfold analyzeUnsigned
  split
  · exact sized
  · split
    · exact ⟨trivial, rfl⟩
    · exact ⟨⟨rfl, sized.wellSized⟩, sized.static⟩

theorem analyzeAs_isSized {templateName : TemplateName} {operand node : Hir.Expr}
    (sized : IsSized operand) (analyzed : analyzeAs scope templateName operand = .ok node) :
    IsSized node := by
  unfold analyzeAs at analyzed
  dsimp only at analyzed
  split at analyzed
  · cases analyzed
  cases length : operand.result.length with
  | dynamic =>
      have static := sized.static
      simp [ViewSemantics.isDynamic, length] at static
  | static byteLength =>
      simp only [length] at analyzed
      split at analyzed
      · cases analyzed
      · cases analyzed
        refine ⟨⟨?_, sized.wellSized⟩, rfl⟩
        simp only [ViewSemantics.staticByteLength, Hir.Expr.byteLength, length]

theorem lowerAssignmentExpression_isDynamic {target value : Ast.Expr}
    {targetForms forms : AnalyzedForms} {op : Ast.AssignmentSpelling} {unsignedTarget : Bool}
    {lowered : AssignmentLowering}
    (analyzed : lowerAssignmentExpression scope target targetForms op unsignedTarget value forms =
      .ok lowered) : lowered.result.result.isDynamic = false := by
  unfold lowerAssignmentExpression at analyzed
  split at analyzed
  · split at analyzed
    · obtain ⟨source, -, rfl⟩ := analysis_map_eq_ok analyzed
      rfl
    split at analyzed
    · cases analyzed
    · obtain ⟨store, -, rfl⟩ := analysis_map_eq_ok analyzed
      exact mutableResult_isDynamic _ _
  · split at analyzed
    · cases analyzed
    split at analyzed
    · cases analyzed
    · obtain ⟨store, -, rfl⟩ := analysis_map_eq_ok analyzed
      rfl
    split at analyzed
    · cases analyzed
    split at analyzed
    · cases analyzed
    · cases analyzed
    · obtain ⟨store, -, rfl⟩ := analysis_map_eq_ok analyzed
      rfl

end Forms

/-- The forms of an expression that stand for a node of its own. -/
structure FormsAreSized (forms : AnalyzedForms) : Prop where
  expression : ∀ node, forms.expression = .ok node → IsSized node
  addressOf : ∀ node, forms.addressOf = .ok node → IsSized node

theorem plainForms_areSized (scope : Scope) (source : Ast.Expr) {expression : Analysis Hir.Expr}
    (sized : ∀ node, expression = .ok node → IsSized node) :
    FormsAreSized (plainForms scope source expression) where
  expression := sized
  addressOf := fun _ analyzed => addressOfReferenceForm_isSized analyzed

theorem analyzeForms_areSized (scope : Scope) (source : Ast.Expr) :
    FormsAreSized (analyzeForms scope source) := by
  induction source with
  | identifier name =>
      rw [analyzeForms]
      refine plainForms_areSized scope _ fun node analyzed => ?_
      unfold analyzeIdentifier at analyzed
      split at analyzed
      · cases analyzed
      · cases analyzed
        exact isSized_variable _ _ _ _
  | integerLiteral value =>
      rw [analyzeForms]
      refine plainForms_areSized scope _ fun node analyzed => ?_
      unfold analyzeIntegerLiteral at analyzed
      dsimp only at analyzed
      split at analyzed
      · cases analyzed
      · cases analyzed
        refine ⟨trivial, ?_⟩
        rw [Hir.Expr.result]
        split <;> rfl
  | stringLiteral bytes =>
      rw [analyzeForms]
      refine plainForms_areSized scope _ fun node analyzed => ?_
      cases analyzed
      exact ⟨rfl, rfl⟩
  | charLiteral bytes =>
      rw [analyzeForms]
      refine plainForms_areSized scope _ fun node analyzed => ?_
      unfold analyzeCharLiteral at analyzed
      split at analyzed
      · cases analyzed
      · cases analyzed
        refine ⟨?_, ?_⟩
        · show (if bytes.length = 1 then unsignedIntegerResult 1
            else rawBytesResult bytes.length).staticByteLength = bytes.length
          split
          · rename_i single
            exact single.symm
          · rfl
        · rw [Hir.Expr.result]
          split <;> rfl
  | floatLiteral value =>
      rw [analyzeForms]
      refine ⟨fun node analyzed => ?_, fun _ analyzed => addressOfReferenceForm_isSized
        (show addressOfReferenceForm scope (.floatLiteral value) = _ from analyzed)⟩
      cases analyzed
      exact ⟨trivial, rfl⟩
  | boolLiteral value =>
      rw [analyzeForms]
      refine plainForms_areSized scope _ fun node analyzed => ?_
      cases analyzed
      exact ⟨trivial, rfl⟩
  | addressOf operand sized =>
      rw [analyzeForms]
      exact plainForms_areSized scope _ sized.addressOf
  | unary op operand sized =>
      rw [analyzeForms]
      refine plainForms_areSized scope _ fun node analyzed => ?_
      split at analyzed
      · cases analyzed
      · rename_i lowered found
        exact analyzeUnary_isSized (sized.expression lowered found) analyzed
  | binary left op right leftSized rightSized =>
      rw [analyzeForms]
      refine ⟨fun node analyzed => ?_, fun _ analyzed => addressOfReferenceForm_isSized
        (show addressOfReferenceForm scope (.binary left op right) = _ from analyzed)⟩
      obtain ⟨first, second, -, -, built⟩ := map₂_eq_ok analyzed
      exact analyzeBinary_isSized built
  | ternary condition thenExpr elseExpr _ thenSized elseSized =>
      rw [analyzeForms]
      refine plainForms_areSized scope _ fun node analyzed => ?_
      obtain ⟨test, branches, -, pair, built⟩ := map₂_eq_ok analyzed
      obtain ⟨first, second, thenFound, elseFound, same⟩ := map₂_eq_ok pair
      cases same
      exact analyzeTernary_isSized (thenSized.expression first thenFound)
        (elseSized.expression second elseFound) built
  | unsigned operand byteLength sized =>
      rw [analyzeForms]
      refine plainForms_areSized scope _ fun node analyzed => ?_
      split at analyzed
      · unfold analyzeUnsignedLiteral at analyzed
        dsimp only at analyzed
        repeat' (split at analyzed)
        all_goals first
          | contradiction
          | (cases analyzed; exact ⟨⟨rfl, trivial⟩, rfl⟩)
      · obtain ⟨lowered, found, rfl⟩ := analysis_map_eq_ok analyzed
        exact analyzeUnsigned_isSized (sized.expression lowered found)
  | integerCast operand byteLength isSigned sized =>
      rw [analyzeForms]
      refine plainForms_areSized scope _ fun node analyzed => ?_
      split at analyzed
      · cases analyzed
      · unfold analyzeIntegerCast at analyzed
        split at analyzed
        · cases analyzed
        split at analyzed
        · cases analyzed
        · cases analyzed
          exact ⟨trivial, by simp [Hir.Expr.result]⟩
  | asView operand templateName sized =>
      rw [analyzeForms]
      refine plainForms_areSized scope _ fun node analyzed => ?_
      split at analyzed
      · cases analyzed
      · rename_i lowered found
        exact analyzeAs_isSized (sized.expression lowered found) analyzed
  | index base index baseSized indexSized =>
      refine ⟨fun node analyzed => ?_, fun node analyzed => lowerIndexAddress_isSized analyzed⟩
      obtain ⟨address, -, rfl⟩ := analysis_map_eq_ok analyzed
      exact ⟨trivial, mutableResult_isDynamic _ _⟩
  | slice base start stop lengthMode baseSized startSized stopSized =>
      refine ⟨fun node analyzed => ?_, fun node analyzed => ?_⟩
      · obtain ⟨lowered, -, rfl⟩ := analysis_map_eq_ok analyzed
        exact ⟨trivial, mutableResult_isDynamic _ _⟩
      · obtain ⟨lowered, found, rfl⟩ := analysis_map_eq_ok analyzed
        exact lowerSlice_isSized found
  | member object path =>
      rw [analyzeForms]
      refine plainForms_areSized scope _ fun node analyzed => ?_
      obtain ⟨reference, -, rfl⟩ := analysis_map_eq_ok analyzed
      exact isSized_variable _ _ _ _
  | sizeofTemplate templateName =>
      rw [analyzeForms]
      refine plainForms_areSized scope _ fun node analyzed => ?_
      unfold analyzeSizeof at analyzed
      repeat' (split at analyzed)
      all_goals first
        | contradiction
        | (cases analyzed; exact ⟨trivial, by simp [Hir.Expr.result]⟩)
  | deref length address sized =>
      refine ⟨fun node analyzed => ?_, fun node analyzed => sized.expression node analyzed⟩
      obtain ⟨lowered, -, rfl⟩ := analysis_map_eq_ok analyzed
      exact ⟨trivial, mutableResult_isDynamic _ _⟩
  | call callee =>
      rw [analyzeForms]
      refine plainForms_areSized scope _ fun node analyzed => ?_
      unfold analyzeCall at analyzed
      repeat' (split at analyzed)
      all_goals first
        | contradiction
        | (cases analyzed; exact ⟨trivial, by simp [Hir.Expr.result]⟩)
  | assignment target op unsignedTarget value _ _ =>
      rw [analyzeForms]
      refine plainForms_areSized scope _ fun node analyzed => ?_
      obtain ⟨lowered, found, rfl⟩ := analysis_map_eq_ok analyzed
      exact ⟨trivial, lowerAssignmentExpression_isDynamic found⟩

/-- The nodes of the analyser are well sized. -/
theorem analyze_isSized {scope : Scope} {source : Ast.Expr} {node : Hir.Expr}
    (analyzed : analyze scope source = .ok node) : IsSized node :=
  (analyzeForms_areSized scope source).expression node analyzed

/-! ### Addresses -/

/-- The bytes an address is built on are a pointer wide and satisfy a condition. -/
def AddressesSatisfy (holds : Hir.Binding → Nat → Nat → Prop) : Hir.Expr → Prop
  | .addressOf binding targetByteLength offset result =>
      result.staticByteLength = pointerByteLength ∧ holds binding targetByteLength offset
  | .unsigned operand _ | .integerCast operand _ _ | .templateView operand _ =>
      AddressesSatisfy holds operand
  | .binary left _ _ _ _ _ => AddressesSatisfy holds left
  | _ => True

/-- A condition on the bytes that every located View of the scope satisfies. -/
def HoldsOfReferences (scope : Scope) (holds : Hir.Binding → Nat → Nat → Prop) : Prop :=
  ∀ source reference, resolveAddressableReference scope source = .ok (some reference) →
    holds reference.binding reference.byteLength reference.offset

section Addresses
variable {scope : Scope} {holds : Hir.Binding → Nat → Nat → Prop}

theorem addressOfReference_satisfies {reference : MemoryReference}
    (satisfied : holds reference.binding reference.byteLength reference.offset) :
    AddressesSatisfy holds (addressOfReference reference) :=
  ⟨viewSemanticsForTemplate_byteLength _ _ _ _, satisfied⟩

theorem buildBinary_satisfies {spelling : OperatorSpelling} {selected : SelectedOperation}
    {left right node : Hir.Expr} (satisfied : AddressesSatisfy holds left)
    (built : buildBinary spelling selected left right = .ok node) :
    AddressesSatisfy holds node := by
  unfold buildBinary at built
  split at built
  · split at built
    · cases built
      exact satisfied
    · unfold foldLiterals at built
      dsimp only at built
      repeat' (split at built)
      all_goals first
        | contradiction
        | (cases built; trivial)
  · cases built
    exact satisfied

theorem analyzeIntegerBinary_satisfies {spelling : OperatorSpelling}
    {rightLiteral : Option Literal.Spelling} {left right node : Hir.Expr}
    (satisfied : AddressesSatisfy holds left)
    (analyzed : analyzeIntegerBinary scope spelling rightLiteral left right = .ok node) :
    AddressesSatisfy holds node := by
  unfold analyzeIntegerBinary at analyzed
  dsimp only at analyzed
  split at analyzed
  · cases analyzed
  split at analyzed
  · cases analyzed
  split at analyzed
  · cases analyzed
  split at analyzed
  · cases analyzed
  split at analyzed
  · have tested : AddressesSatisfy holds (.booleanTest left booleanResult) := trivial
    exact buildBinary_satisfies tested analyzed
  split at analyzed
  · exact buildBinary_satisfies satisfied analyzed
  · exact buildBinary_satisfies satisfied analyzed

theorem analyzeBinary_satisfies {spelling : OperatorSpelling}
    {rightLiteral : Option Literal.Spelling} {left right node : Hir.Expr}
    (satisfied : AddressesSatisfy holds left)
    (analyzed : analyzeBinary scope spelling rightLiteral left right = .ok node) :
    AddressesSatisfy holds node := by
  unfold analyzeBinary at analyzed
  split at analyzed
  · split at analyzed
    · cases analyzed
    · cases analyzed
      trivial
  split at analyzed
  · split at analyzed
    · cases analyzed
      trivial
    · cases analyzed
  split at analyzed
  · unfold analyzeTypedFloating at analyzed
    dsimp only at analyzed
    repeat' (split at analyzed)
    all_goals first
      | contradiction
      | (cases analyzed; trivial)
  split at analyzed
  · unfold analyzeFloatingBinary at analyzed
    dsimp only at analyzed
    repeat' (split at analyzed)
    all_goals first
      | contradiction
      | (cases analyzed; trivial)
  · exact analyzeIntegerBinary_satisfies satisfied analyzed

theorem analyzeUnsigned_satisfies {byteLength : Nat} {operand : Hir.Expr}
    (satisfied : AddressesSatisfy holds operand) :
    AddressesSatisfy holds (analyzeUnsigned scope byteLength operand) := by
  unfold analyzeUnsigned
  split
  · exact satisfied
  split
  · exact satisfied
  · exact satisfied

theorem analyzeAs_satisfies {templateName : TemplateName} {operand node : Hir.Expr}
    (satisfied : AddressesSatisfy holds operand)
    (analyzed : analyzeAs scope templateName operand = .ok node) :
    AddressesSatisfy holds node := by
  unfold analyzeAs at analyzed
  dsimp only at analyzed
  repeat' (split at analyzed)
  all_goals first
    | contradiction
    | (cases analyzed; exact satisfied)

theorem addressOfReferenceForm_satisfies (resolves : HoldsOfReferences scope holds)
    {source : Ast.Expr} {node : Hir.Expr}
    (analyzed : addressOfReferenceForm scope source = .ok node) : AddressesSatisfy holds node := by
  unfold addressOfReferenceForm at analyzed
  split at analyzed
  · cases analyzed
  · cases analyzed
  next resolved =>
    cases analyzed
    exact addressOfReference_satisfies (resolves _ _ resolved)

theorem resolveRegionBase_holds (resolves : HoldsOfReferences scope holds)
    {subject participle : String} {base : Ast.Expr} {reference : MemoryReference}
    (resolved : resolveRegionBase scope subject participle base = .ok reference) :
    holds reference.binding reference.byteLength reference.offset := by
  unfold resolveRegionBase at resolved
  split at resolved
  · cases resolved
  · cases resolved
  next found =>
    split at resolved
    · cases resolved
    · cases resolved
      exact resolves _ _ found

theorem lowerIndexAddress_satisfies (resolves : HoldsOfReferences scope holds) {base : Ast.Expr}
    {index : Analysis Hir.Expr} {node : Hir.Expr}
    (analyzed : lowerIndexAddress scope base index = .ok node) :
    AddressesSatisfy holds node := by
  unfold lowerIndexAddress at analyzed
  split at analyzed
  · cases analyzed
  · cases analyzed
  next resolved =>
    split at analyzed
    · cases analyzed
    · cases analyzed
      exact addressOfReference_satisfies (resolveRegionBase_holds resolves resolved)

theorem lowerSlice_satisfies (resolves : HoldsOfReferences scope holds)
    {base start stop : Ast.Expr} {lengthMode : Bool} {startForm : Analysis Hir.Expr}
    {lowered : Hir.Expr × Nat}
    (analyzed : lowerSlice scope base start stop lengthMode startForm = .ok lowered) :
    AddressesSatisfy holds lowered.1 := by
  unfold lowerSlice at analyzed
  split at analyzed
  · cases analyzed
  · cases analyzed
  next resolved _ =>
    repeat' (split at analyzed)
    all_goals first
      | contradiction
      | (cases analyzed
         exact addressOfReference_satisfies (resolveRegionBase_holds resolves resolved))

/-- The forms of an expression that stand for a node of its own. -/
structure FormsSatisfy (holds : Hir.Binding → Nat → Nat → Prop) (forms : AnalyzedForms) :
    Prop where
  expression : ∀ node, forms.expression = .ok node → AddressesSatisfy holds node
  addressOf : ∀ node, forms.addressOf = .ok node → AddressesSatisfy holds node

theorem plainForms_satisfy (resolves : HoldsOfReferences scope holds) (source : Ast.Expr)
    {expression : Analysis Hir.Expr}
    (satisfied : ∀ node, expression = .ok node → AddressesSatisfy holds node) :
    FormsSatisfy holds (plainForms scope source expression) where
  expression := satisfied
  addressOf := fun _ analyzed => addressOfReferenceForm_satisfies resolves analyzed

theorem analyzeForms_satisfy (resolves : HoldsOfReferences scope holds) (source : Ast.Expr) :
    FormsSatisfy holds (analyzeForms scope source) := by
  induction source with
  | identifier name =>
      rw [analyzeForms]
      refine plainForms_satisfy resolves _ fun node analyzed => ?_
      unfold analyzeIdentifier at analyzed
      split at analyzed <;> cases analyzed
      trivial
  | integerLiteral value =>
      rw [analyzeForms]
      refine plainForms_satisfy resolves _ fun node analyzed => ?_
      unfold analyzeIntegerLiteral at analyzed
      dsimp only at analyzed
      split at analyzed <;> cases analyzed
      trivial
  | stringLiteral bytes =>
      rw [analyzeForms]
      refine plainForms_satisfy resolves _ fun node analyzed => ?_
      cases analyzed
      trivial
  | charLiteral bytes =>
      rw [analyzeForms]
      refine plainForms_satisfy resolves _ fun node analyzed => ?_
      unfold analyzeCharLiteral at analyzed
      split at analyzed <;> cases analyzed
      trivial
  | floatLiteral value =>
      rw [analyzeForms]
      refine ⟨fun node analyzed => ?_, fun _ analyzed => addressOfReferenceForm_satisfies resolves
        (show addressOfReferenceForm scope (.floatLiteral value) = _ from analyzed)⟩
      cases analyzed
      trivial
  | boolLiteral value =>
      rw [analyzeForms]
      refine plainForms_satisfy resolves _ fun node analyzed => ?_
      cases analyzed
      trivial
  | addressOf operand satisfied =>
      rw [analyzeForms]
      exact plainForms_satisfy resolves _ satisfied.addressOf
  | unary op operand =>
      rw [analyzeForms]
      refine plainForms_satisfy resolves _ fun node analyzed => ?_
      split at analyzed
      · cases analyzed
      · unfold analyzeUnary at analyzed
        dsimp only at analyzed
        repeat' (split at analyzed)
        all_goals first
          | contradiction
          | (cases analyzed; trivial)
  | binary left op right satisfied =>
      rw [analyzeForms]
      refine ⟨fun node analyzed => ?_, fun _ analyzed => addressOfReferenceForm_satisfies resolves
        (show addressOfReferenceForm scope (.binary left op right) = _ from analyzed)⟩
      obtain ⟨first, second, found, -, built⟩ := map₂_eq_ok analyzed
      exact analyzeBinary_satisfies (satisfied.expression first found) built
  | ternary condition thenExpr elseExpr =>
      rw [analyzeForms]
      refine plainForms_satisfy resolves _ fun node analyzed => ?_
      obtain ⟨test, branches, -, -, built⟩ := map₂_eq_ok analyzed
      unfold analyzeTernary at built
      repeat' (split at built)
      all_goals first
        | contradiction
        | (cases built; trivial)
  | unsigned operand byteLength satisfied =>
      rw [analyzeForms]
      refine plainForms_satisfy resolves _ fun node analyzed => ?_
      split at analyzed
      · unfold analyzeUnsignedLiteral at analyzed
        dsimp only at analyzed
        repeat' (split at analyzed)
        all_goals first
          | contradiction
          | (cases analyzed; trivial)
      · obtain ⟨lowered, found, rfl⟩ := analysis_map_eq_ok analyzed
        exact analyzeUnsigned_satisfies (satisfied.expression lowered found)
  | integerCast operand byteLength isSigned satisfied =>
      rw [analyzeForms]
      refine plainForms_satisfy resolves _ fun node analyzed => ?_
      split at analyzed
      · cases analyzed
      next lowered found =>
        have kept := satisfied.expression lowered found
        unfold analyzeIntegerCast at analyzed
        repeat' (split at analyzed)
        all_goals first
          | contradiction
          | (cases analyzed; exact kept)
  | asView operand templateName satisfied =>
      rw [analyzeForms]
      refine plainForms_satisfy resolves _ fun node analyzed => ?_
      split at analyzed
      · cases analyzed
      next lowered found =>
        exact analyzeAs_satisfies (satisfied.expression lowered found) analyzed
  | index base index =>
      refine ⟨fun node analyzed => ?_, fun node analyzed => lowerIndexAddress_satisfies resolves
        analyzed⟩
      obtain ⟨address, -, rfl⟩ := analysis_map_eq_ok analyzed
      trivial
  | slice base start stop lengthMode =>
      refine ⟨fun node analyzed => ?_, fun node analyzed => ?_⟩
      · obtain ⟨lowered, -, rfl⟩ := analysis_map_eq_ok analyzed
        trivial
      · obtain ⟨lowered, found, rfl⟩ := analysis_map_eq_ok analyzed
        exact lowerSlice_satisfies resolves found
  | member object path =>
      rw [analyzeForms]
      refine plainForms_satisfy resolves _ fun node analyzed => ?_
      obtain ⟨reference, -, rfl⟩ := analysis_map_eq_ok analyzed
      trivial
  | sizeofTemplate templateName =>
      rw [analyzeForms]
      refine plainForms_satisfy resolves _ fun node analyzed => ?_
      unfold analyzeSizeof at analyzed
      repeat' (split at analyzed)
      all_goals first
        | contradiction
        | (cases analyzed; trivial)
  | deref length address satisfied =>
      refine ⟨fun node analyzed => ?_, satisfied.expression⟩
      obtain ⟨lowered, -, rfl⟩ := analysis_map_eq_ok analyzed
      trivial
  | call callee =>
      rw [analyzeForms]
      refine plainForms_satisfy resolves _ fun node analyzed => ?_
      unfold analyzeCall at analyzed
      repeat' (split at analyzed)
      all_goals first
        | contradiction
        | (cases analyzed; trivial)
  | assignment target op unsignedTarget value =>
      rw [analyzeForms]
      refine plainForms_satisfy resolves _ fun node analyzed => ?_
      obtain ⟨lowered, -, rfl⟩ := analysis_map_eq_ok analyzed
      trivial

/-- The addresses of an accepted program are built on bytes of the names in scope. -/
theorem analyze_satisfies (resolves : HoldsOfReferences scope holds) {source : Ast.Expr}
    {node : Hir.Expr} (analyzed : analyze scope source = .ok node) : AddressesSatisfy holds node :=
  (analyzeForms_satisfy resolves source).expression node analyzed

end Addresses

end HitSimple.Sema

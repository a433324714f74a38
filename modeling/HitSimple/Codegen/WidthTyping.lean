import HitSimple.Codegen.WidthRequests

namespace HitSimple.Codegen

variable (context : Context)

section Leaves

theorem integerLiteral_meetsRequests (value : Literal.Spelling) (result : ViewSemantics) :
    MeetsRequests (widthRequests context (.integerLiteral value result))
      (exprCode context (.integerLiteral value result)) := by
  rw [exprCode, widthRequests]
  refine meetsRequests_integerExprCode (.integerLiteral value result) ?_ ?_
  · intro byteLength isUnsigned
    refine (typesWhen_integerType context byteLength).after fun _ _ => ?_
    split
    · exact typesWhen_unsupported _ _
    · exact typesWhen_ok _
  · intro byteLength isUnsigned code emitted
    obtain ⟨-, -, rest⟩ := emission_bind_eq_ok emitted
    split at rest
    · cases rest
    · cases rest
      rfl

theorem characterLiteral_meetsRequests (bytes : List FixedWidth.Byte) (result : ViewSemantics) :
    MeetsRequests (widthRequests context (.characterLiteral bytes result))
      (exprCode context (.characterLiteral bytes result)) := by
  have integer : MeetsRequests (integerRequests result.staticByteLength fun _ => True)
      (integerExprCode context (.characterLiteral bytes result)
        fun byteLength _ => emitCharacterLiteral context bytes result byteLength) := by
    refine meetsRequests_integerExprCode (.characterLiteral bytes result) ?_ ?_
    · intro byteLength isUnsigned
      refine (typesWhen_integerType context byteLength).after fun _ _ => ?_
      split
      · split
        · exact typesWhen_unsupported _ _
        · exact typesWhen_ok _
      · exact typesWhen_unsupported _ _
    · intro byteLength isUnsigned code emitted
      obtain ⟨-, -, rest⟩ := emission_bind_eq_ok emitted
      split at rest
      · split at rest
        · cases rest
        · cases rest
          rfl
      · cases rest
  rw [exprCode, widthRequests]
  exact { integer with view := typesWhen_ok _ }

theorem floatExprCode_meetsRequests (expression : Hir.Expr) :
    MeetsRequests (viewRequests True) (floatExprCode context expression) where
  integer := fun _ _ => typesWhen_unsupported _ _
  width := fun _ _ _ emitted => nomatch emitted
  pointer := typesWhen_unsupported _ _
  view := typesWhen_ok _
  condition := typesWhen_unsupported _ _

theorem stringExprCode_meetsRequests (bytes : List FixedWidth.Byte) :
    MeetsRequests (viewRequests True) (stringExprCode context bytes) where
  integer := fun _ _ => typesWhen_unsupported _ _
  width := fun _ _ _ emitted => nomatch emitted
  pointer := typesWhen_ok _
  view := typesWhen_ok _
  condition := typesWhen_unsupported _ _

theorem typesWhen_emitVariable (binding : Hir.Binding) (offset : Nat) (result : ViewSemantics)
    (byteLength : Nat) (isUnsigned : Bool) :
    TypesWhen True (emitVariable context binding offset result byteLength isUnsigned) :=
  (typesWhen_integerType context _).after fun _ _ =>
    (typesWhen_findStorage context _).after fun _ _ =>
      (typesWhen_integerType context _).after fun _ _ => typesWhen_ok _

theorem width_emitVariable {binding : Hir.Binding} {offset : Nat} {result : ViewSemantics}
    {byteLength : Nat} {isUnsigned : Bool} {code : IntegerCode}
    (emitted : emitVariable context binding offset result byteLength isUnsigned = .ok code) :
    code.width = byteLength * 8 := by
  obtain ⟨-, -, rest⟩ := emission_bind_eq_ok emitted
  obtain ⟨storage, -, rest⟩ := emission_bind_eq_ok rest
  obtain ⟨-, -, rest⟩ := emission_bind_eq_ok rest
  cases rest
  rfl

theorem variable_meetsRequests (binding : Hir.Binding) (offset : Nat) (result : ViewSemantics) :
    MeetsRequests (widthRequests context (.variableRef binding offset result))
      (exprCode context (.variableRef binding offset result)) := by
  rw [exprCode, widthRequests]
  exact {
    integer := typesWhen_emitVariable context binding offset result
    width := fun _ _ _ emitted => width_emitVariable context emitted
    pointer := by
      refine (typesWhen_findStorage context _).after fun storage _ => ?_
      split
      · exact typesWhen_ok _
      · split
        · exact typesWhen_ok _
        · exact typesWhen_pointerOfInteger (typesWhen_emitVariable context _ _ _ _ _)
            fun _ emitted => width_emitVariable context emitted
    view := (typesWhen_findStorage context _).after fun _ _ => typesWhen_ok _
    condition := typesWhen_unsupported _ _ }

theorem addressOf_meetsRequests (binding : Hir.Binding) (targetByteLength offset : Nat)
    (result : ViewSemantics) :
    MeetsRequests (widthRequests context (.addressOf binding targetByteLength offset result))
      (exprCode context (.addressOf binding targetByteLength offset result)) := by
  have address : TypesWhen True (emitAddressOf context binding offset) :=
    (typesWhen_findStorage context _).after fun _ _ => typesWhen_ok _
  rw [exprCode, widthRequests]
  refine { meetsRequests_integerExprCode (.addressOf binding targetByteLength offset result)
    ?_ ?_ with pointer := address }
  · exact fun byteLength _ => (typesWhen_integerType context byteLength).after fun _ _ =>
      address.after fun _ _ => typesWhen_ok _
  · intro byteLength isUnsigned code emitted
    obtain ⟨-, -, rest⟩ := emission_bind_eq_ok emitted
    obtain ⟨pointer, -, rest⟩ := emission_bind_eq_ok rest
    cases rest
    rfl

theorem floatCompare_meetsRequests (left : Hir.Expr) (op : OperatorSpelling) (right : Hir.Expr)
    (operandByteLength : Nat) (result : ViewSemantics) :
    MeetsRequests (widthRequests context (.floatCompare left op right operandByteLength result))
      (exprCode context (.floatCompare left op right operandByteLength result)) := by
  rw [exprCode, widthRequests]
  refine meetsRequests_integerExprCode (.floatCompare left op right operandByteLength result) ?_ ?_
  · exact fun byteLength _ => (typesWhen_integerType context byteLength).after fun _ _ =>
      typesWhen_ok _
  · intro byteLength isUnsigned code emitted
    obtain ⟨-, -, rest⟩ := emission_bind_eq_ok emitted
    cases rest
    rfl

theorem call_meetsRequests (callee : String) (result : ViewSemantics) :
    MeetsRequests (widthRequests context (.call callee result))
      (exprCode context (.call callee result)) := by
  rw [exprCode, widthRequests, callExprCode]
  split
  · exact { floatExprCode_meetsRequests context (.call callee result) with
      pointer := typesWhen_unsupported _ _ }
  · rename_i scalar
    refine { meetsRequests_integerExprCode (.call callee result) ?_ ?_ with
      pointer := typesWhen_ok _ }
    · intro byteLength isUnsigned
      refine (typesWhen_integerType context byteLength).after fun _ _ => ?_
      rw [if_neg scalar]
      exact typesWhen_ok _
    · intro byteLength isUnsigned code emitted
      obtain ⟨-, -, rest⟩ := emission_bind_eq_ok emitted
      rw [if_neg scalar] at rest
      cases rest
      rfl

end Leaves

section Nodes
variable {context} {address operand left right condition thenExpr elseExpr : Hir.Expr}

theorem deref_meetsRequests (result : ViewSemantics)
    (meets : MeetsRequests (widthRequests context address) (exprCode context address)) :
    MeetsRequests (widthRequests context (.deref address result))
      (exprCode context (.deref address result)) := by
  have integer : MeetsRequests
      (integerRequests result.staticByteLength fun _ => (widthRequests context address).pointer)
      (integerExprCode context (.deref address result)
        (emitDeref context address (exprCode context address) result)) := by
    refine meetsRequests_integerExprCode (.deref address result) ?_ ?_
    · exact fun byteLength _ => (typesWhen_integerType context byteLength).after fun _ _ =>
        meets.pointer.before fun _ _ =>
          (typesWhen_integerType context _).after fun _ _ => typesWhen_ok _
    · intro byteLength isUnsigned code emitted
      obtain ⟨-, -, rest⟩ := emission_bind_eq_ok emitted
      obtain ⟨pointer, -, rest⟩ := emission_bind_eq_ok rest
      obtain ⟨-, -, rest⟩ := emission_bind_eq_ok rest
      cases rest
      rfl
  rw [exprCode, widthRequests]
  exact { integer with view := meets.pointer.before fun _ _ => typesWhen_ok _ }

theorem booleanTest_meetsRequests (result : ViewSemantics)
    (meets : MeetsRequests (widthRequests context operand) (exprCode context operand)) :
    MeetsRequests (widthRequests context (.booleanTest operand result))
      (exprCode context (.booleanTest operand result)) := by
  have condition : TypesWhen (widthRequests context operand).view
      (emitCondition context (exprCode context operand).view) :=
    meets.view.before fun _ _ => typesWhen_ok _
  have integer : MeetsRequests
      (integerRequests result.staticByteLength fun _ => (widthRequests context operand).view)
      (integerExprCode context (.booleanTest operand result) fun byteLength _ => do
        context.integerType byteLength
        return integerOfCondition (← emitCondition context (exprCode context operand).view)
          byteLength) := by
    refine meetsRequests_integerExprCode (.booleanTest operand result) ?_ ?_
    · exact fun byteLength _ => (typesWhen_integerType context byteLength).after fun _ _ =>
        condition.before fun _ _ => typesWhen_ok _
    · intro byteLength isUnsigned code emitted
      obtain ⟨-, -, rest⟩ := emission_bind_eq_ok emitted
      obtain ⟨holds, -, rest⟩ := emission_bind_eq_ok rest
      cases rest
      rfl
  rw [exprCode, widthRequests]
  exact { integer with condition := condition }

theorem unary_meetsRequests (op : Hir.UnaryOperator) (result : ViewSemantics)
    (meets : MeetsRequests (widthRequests context operand) (exprCode context operand)) :
    MeetsRequests (widthRequests context (.unary op operand result))
      (exprCode context (.unary op operand result)) := by
  rw [exprCode, widthRequests]
  refine meetsRequests_integerExprCode (.unary op operand result) ?_ ?_
  · intro byteLength isUnsigned
    refine (typesWhen_integerType context byteLength).after fun _ _ => ?_
    refine TypesWhen.ite (fun _ => ?_) fun _ => ?_
    · exact meets.condition.before fun _ _ => typesWhen_ok _
    · exact (meets.integer _ _).before fun _ _ => typesWhen_ok _
  · intro byteLength isUnsigned code emitted
    obtain ⟨-, -, rest⟩ := emission_bind_eq_ok emitted
    split at rest
    · obtain ⟨holds, -, rest⟩ := emission_bind_eq_ok rest
      cases rest
      rfl
    · obtain ⟨value, -, rest⟩ := emission_bind_eq_ok rest
      cases rest
      rfl

theorem integerCast_meetsRequests (isSigned : Bool) (result : ViewSemantics)
    (meets : MeetsRequests (widthRequests context operand) (exprCode context operand)) :
    MeetsRequests (widthRequests context (.integerCast operand isSigned result))
      (exprCode context (.integerCast operand isSigned result)) := by
  rw [exprCode, widthRequests]
  refine meetsRequests_integerExprCode (.integerCast operand isSigned result) ?_ ?_
  · exact fun byteLength _ => (typesWhen_integerType context byteLength).after fun _ _ =>
      (meets.integer _ _).before fun _ _ =>
        (typesWhen_integerType context _).after fun _ _ => typesWhen_ok _
  · intro byteLength isUnsigned code emitted
    obtain ⟨-, -, rest⟩ := emission_bind_eq_ok emitted
    obtain ⟨source, -, rest⟩ := emission_bind_eq_ok rest
    obtain ⟨-, -, rest⟩ := emission_bind_eq_ok rest
    cases rest
    rfl

theorem unsigned_meetsRequests (result : ViewSemantics)
    (meets : MeetsRequests (widthRequests context operand) (exprCode context operand)) :
    MeetsRequests (widthRequests context (.unsigned operand result))
      (exprCode context (.unsigned operand result)) := by
  rw [exprCode, widthRequests]
  exact meetsRequests_viewExprCode (.unsigned operand result)
    (meets.view.before fun _ _ => typesWhen_ok _)

theorem templateView_meetsRequests (result : ViewSemantics)
    (meets : MeetsRequests (widthRequests context operand) (exprCode context operand)) :
    MeetsRequests (widthRequests context (.templateView operand result))
      (exprCode context (.templateView operand result)) := by
  have view : MeetsRequests (viewRequests (widthRequests context operand).view)
      (viewExprCode context (.templateView operand result) (exprCode context operand).view) :=
    meetsRequests_viewExprCode _ meets.view
  rw [exprCode, widthRequests, templateViewExprCode]
  split
  · exact { view with pointer := meets.pointer }
  · exact view

theorem typesWhen_emitAddressOffset (bounds : Option Hir.ViewOffsetBounds)
    (leftMeets : MeetsRequests (widthRequests context left) (exprCode context left))
    (rightMeets : MeetsRequests (widthRequests context right) (exprCode context right)) :
    TypesWhen (addressOffsetRequests right (widthRequests context left)
        (widthRequests context right) bounds)
      (emitAddressOffset context right (exprCode context left) (exprCode context right) bounds) := by
  refine leftMeets.pointer.bind fun base _ => ?_
  refine TypesWhen.before ?_ fun _ _ => typesWhen_ok _
  unfold emitByteOffset
  cases bounds with
  | some bounds => exact (rightMeets.integer _ _).before fun _ _ => typesWhen_ok _
  | none =>
      refine (rightMeets.integer _ _).before fun code emitted => ?_
      exact (typesWhen_typed code 64).congr
        (iff_of_true (rightMeets.width _ _ code emitted) trivial)

theorem typesWhen_emitIntegerBinary (op : OperatorSpelling) (result : ViewSemantics)
    (byteLength : Nat)
    (leftMeets : MeetsRequests (widthRequests context left) (exprCode context left))
    (rightMeets : MeetsRequests (widthRequests context right) (exprCode context right)) :
    TypesWhen ((widthRequests context left).integer (operationByteLength op left right result) ∧
        (widthRequests context right).integer (operationByteLength op left right result))
      (emitIntegerBinary context op left right (exprCode context left) (exprCode context right)
        result byteLength) := by
  refine (typesWhen_integerType context _).after fun _ _ => ?_
  refine (leftMeets.integer _ _).bind fun leftCode leftEmitted => ?_
  refine ((typesWhen_typed leftCode _).congr
    (iff_of_true (leftMeets.width _ _ _ leftEmitted) trivial)).after fun leftValue _ => ?_
  refine (rightMeets.integer _ _).before fun rightCode rightEmitted => ?_
  refine ((typesWhen_typed rightCode _).congr
    (iff_of_true (rightMeets.width _ _ _ rightEmitted) trivial)).after fun rightValue _ => ?_
  dsimp only
  split
  · exact typesWhen_ok _
  · exact typesWhen_ok _

theorem width_emitIntegerBinary {op : OperatorSpelling} {result : ViewSemantics}
    {leftCode rightCode : ExprCode} {byteLength : Nat} {code : IntegerCode}
    (emitted : emitIntegerBinary context op left right leftCode rightCode result byteLength =
      .ok code) : code.width = byteLength * 8 := by
  obtain ⟨-, -, rest⟩ := emission_bind_eq_ok emitted
  obtain ⟨left, -, rest⟩ := emission_bind_eq_ok rest
  obtain ⟨leftValue, -, rest⟩ := emission_bind_eq_ok rest
  obtain ⟨right, -, rest⟩ := emission_bind_eq_ok rest
  obtain ⟨rightValue, -, rest⟩ := emission_bind_eq_ok rest
  dsimp only at rest
  split at rest
  · cases rest
    rfl
  · cases rest
    rfl

theorem typesWhen_emitLogical {leftAllowed rightAllowed : Prop} (op : BinaryOperator)
    {leftCondition rightCondition : Emission (Run Bool)} (byteLength : Nat)
    (leftTypes : TypesWhen leftAllowed leftCondition)
    (rightTypes : TypesWhen rightAllowed rightCondition) :
    TypesWhen (leftAllowed ∧ rightAllowed)
      (emitLogical op leftCondition rightCondition byteLength) :=
  leftTypes.bind fun _ _ => rightTypes.before fun _ _ => typesWhen_ok _

theorem typesWhen_emitViewComparison {leftAllowed rightAllowed : Prop} (op : BinaryOperator)
    (isCString : Bool) {leftView rightView : Emission ViewCode} (byteLength : Nat)
    (leftTypes : TypesWhen leftAllowed leftView) (rightTypes : TypesWhen rightAllowed rightView) :
    TypesWhen (leftAllowed ∧ rightAllowed)
      (emitViewComparison context op isCString leftView rightView byteLength) := by
  refine leftTypes.bind fun left _ => rightTypes.before fun right _ => ?_
  exact TypesWhen.branch (fun _ => typesWhen_unsupported _ _) fun _ => typesWhen_ok _

theorem typesWhen_emitBinary (op : OperatorSpelling) (result : ViewSemantics)
    (kind : Hir.StandardOperationKind) (bounds : Option Hir.ViewOffsetBounds) (byteLength : Nat)
    (leftMeets : MeetsRequests (widthRequests context left) (exprCode context left))
    (rightMeets : MeetsRequests (widthRequests context right) (exprCode context right)) :
    TypesWhen (binaryIntegerRequests left op right result kind bounds (widthRequests context left)
        (widthRequests context right))
      (emitBinary context left op right result kind bounds (exprCode context left)
        (exprCode context right) byteLength) := by
  refine (typesWhen_integerType context byteLength).after fun _ _ => ?_
  refine TypesWhen.ite (fun _ => ?_) fun _ => TypesWhen.ite (fun _ => ?_) fun _ =>
    TypesWhen.ite (fun _ => ?_) fun _ => ?_
  · split
    · exact (typesWhen_emitAddressOffset bounds leftMeets rightMeets).before fun _ _ =>
        typesWhen_ok _
    · exact (typesWhen_unsupported _ _).before fun _ _ => typesWhen_ok _
  · exact typesWhen_emitLogical op.symbol byteLength leftMeets.condition rightMeets.condition
  · exact typesWhen_emitViewComparison op.symbol _ byteLength leftMeets.view rightMeets.view
  · exact typesWhen_emitIntegerBinary op result byteLength leftMeets rightMeets

theorem width_emitBinary {op : OperatorSpelling} {result : ViewSemantics}
    {kind : Hir.StandardOperationKind} {bounds : Option Hir.ViewOffsetBounds}
    {leftCode rightCode : ExprCode} {byteLength : Nat} {code : IntegerCode}
    (emitted : emitBinary context left op right result kind bounds leftCode rightCode byteLength =
      .ok code) : code.width = byteLength * 8 := by
  obtain ⟨-, -, rest⟩ := emission_bind_eq_ok emitted
  split at rest
  · split at rest
    · obtain ⟨pointer, -, rest⟩ := emission_bind_eq_ok rest
      cases rest
      rfl
    · cases rest
  split at rest
  · obtain ⟨leftCondition, -, rest⟩ := emission_bind_eq_ok rest
    obtain ⟨rightCondition, -, rest⟩ := emission_bind_eq_ok rest
    cases rest
    rfl
  split at rest
  · obtain ⟨leftView, -, rest⟩ := emission_bind_eq_ok rest
    obtain ⟨rightView, -, rest⟩ := emission_bind_eq_ok rest
    by_cases comparison : op.symbol.isComparison = true
    · rw [if_neg (by simp [comparison])] at rest
      cases rest
      rfl
    · rw [if_pos (by simp [comparison])] at rest
      cases rest
  · exact width_emitIntegerBinary rest

theorem binary_meetsRequests (op : OperatorSpelling) (result : ViewSemantics)
    (kind : Hir.StandardOperationKind) (bounds : Option Hir.ViewOffsetBounds)
    (leftMeets : MeetsRequests (widthRequests context left) (exprCode context left))
    (rightMeets : MeetsRequests (widthRequests context right) (exprCode context right)) :
    MeetsRequests (widthRequests context (.binary left op right result kind bounds))
      (exprCode context (.binary left op right result kind bounds)) := by
  have integer : MeetsRequests
      (integerRequests result.staticByteLength fun _ =>
        binaryIntegerRequests left op right result kind bounds (widthRequests context left)
          (widthRequests context right))
      (integerExprCode context (.binary left op right result kind bounds) fun byteLength _ =>
        emitBinary context left op right result kind bounds (exprCode context left)
          (exprCode context right) byteLength) :=
    meetsRequests_integerExprCode (.binary left op right result kind bounds)
      (fun byteLength _ =>
        typesWhen_emitBinary op result kind bounds byteLength leftMeets rightMeets)
      (fun byteLength _ _ emitted => width_emitBinary emitted)
  rw [exprCode, widthRequests]
  simp only [binaryExprCode, binaryRequests]
  split
  · exact { integer with pointer := typesWhen_emitAddressOffset bounds leftMeets rightMeets }
  · exact integer

theorem typesWhen_emitTernaryView (result : ViewSemantics)
    (conditionMeets : MeetsRequests (widthRequests context condition) (exprCode context condition))
    (thenMeets : MeetsRequests (widthRequests context thenExpr) (exprCode context thenExpr))
    (elseMeets : MeetsRequests (widthRequests context elseExpr) (exprCode context elseExpr)) :
    TypesWhen ((widthRequests context condition).condition ∧ (widthRequests context thenExpr).view ∧
        (widthRequests context elseExpr).view)
      (emitTernaryView context (exprCode context condition) (exprCode context thenExpr)
        (exprCode context elseExpr) result) := by
  unfold emitTernaryView
  split
  · exact typesWhen_unsupported _ _
  · exact conditionMeets.condition.bind fun _ _ => thenMeets.view.bind fun _ _ =>
      elseMeets.view.before fun _ _ =>
        TypesWhen.branch (fun _ => typesWhen_unsupported _ _) fun _ => typesWhen_ok _

theorem typesWhen_emitIntegerTernary (result : ViewSemantics) (byteLength : Nat)
    (isUnsigned : Bool)
    (conditionMeets : MeetsRequests (widthRequests context condition) (exprCode context condition))
    (thenMeets : MeetsRequests (widthRequests context thenExpr) (exprCode context thenExpr))
    (elseMeets : MeetsRequests (widthRequests context elseExpr) (exprCode context elseExpr)) :
    TypesWhen ((widthRequests context condition).condition ∧
        (widthRequests context thenExpr).integer result.staticByteLength ∧
        (widthRequests context elseExpr).integer result.staticByteLength ∧
        byteLength = result.staticByteLength)
      (emitIntegerTernary (exprCode context condition) (exprCode context thenExpr)
        (exprCode context elseExpr) result byteLength isUnsigned) := by
  refine conditionMeets.condition.bind fun holds _ =>
    (thenMeets.integer _ _).bind fun thenValue thenEmitted =>
      (elseMeets.integer _ _).bind fun elseValue elseEmitted => ?_
  have same (code : IntegerCode) (width : code.width = result.staticByteLength * 8) :
      TypesWhen (byteLength = result.staticByteLength) (code.typed (byteLength * 8)) :=
    (typesWhen_typed code _).congr (by omega)
  have thenTypes := same thenValue (thenMeets.width _ _ _ thenEmitted)
  have elseTypes := same elseValue (elseMeets.width _ _ _ elseEmitted)
  exact (thenTypes.bind fun _ _ => elseTypes.before fun _ _ => typesWhen_ok _).congr
    (and_self_iff)

theorem ternary_meetsRequests (result : ViewSemantics)
    (conditionMeets : MeetsRequests (widthRequests context condition) (exprCode context condition))
    (thenMeets : MeetsRequests (widthRequests context thenExpr) (exprCode context thenExpr))
    (elseMeets : MeetsRequests (widthRequests context elseExpr) (exprCode context elseExpr)) :
    MeetsRequests (widthRequests context (.ternary condition thenExpr elseExpr result))
      (exprCode context (.ternary condition thenExpr elseExpr result)) := by
  have view := typesWhen_emitTernaryView result conditionMeets thenMeets elseMeets
  have integer : MeetsRequests
      (integerRequests result.staticByteLength (ternaryIntegerRequests result
        (widthRequests context condition) (widthRequests context thenExpr)
        (widthRequests context elseExpr)))
      (integerExprCode context (.ternary condition thenExpr elseExpr result)
        (emitTernary context (exprCode context condition) (exprCode context thenExpr)
          (exprCode context elseExpr) result)) := by
    refine meetsRequests_integerExprCode (.ternary condition thenExpr elseExpr result) ?_ ?_
    · intro byteLength isUnsigned
      refine (typesWhen_integerType context byteLength).after fun _ _ => ?_
      refine TypesWhen.ite (fun _ => ?_) fun _ => ?_
      · exact typesWhen_integerOfView view byteLength isUnsigned
      · exact typesWhen_emitIntegerTernary result byteLength isUnsigned conditionMeets thenMeets
          elseMeets
    · intro byteLength isUnsigned code emitted
      obtain ⟨-, -, rest⟩ := emission_bind_eq_ok emitted
      split at rest
      · exact width_integerOfView rest
      · obtain ⟨holds, -, rest⟩ := emission_bind_eq_ok rest
        obtain ⟨thenValue, -, rest⟩ := emission_bind_eq_ok rest
        obtain ⟨elseValue, -, rest⟩ := emission_bind_eq_ok rest
        obtain ⟨thenRun, -, rest⟩ := emission_bind_eq_ok rest
        obtain ⟨elseRun, -, rest⟩ := emission_bind_eq_ok rest
        cases rest
        rfl
  rw [exprCode, widthRequests]
  exact { integer with view := view }

theorem assignment_meetsRequests {stores : Hir.Statement} {result : Hir.Expr}
    (semantics : ViewSemantics)
    (storesTypes : TypesWhen (statementRequests context stores) (statementCode context stores))
    (meets : MeetsRequests (widthRequests context result) (exprCode context result)) :
    MeetsRequests (widthRequests context (.assignment stores result semantics))
      (exprCode context (.assignment stores result semantics)) := by
  rw [exprCode, widthRequests]
  refine meetsRequests_viewExprCode (.assignment stores result semantics) ?_
  exact storesTypes.bind fun _ _ => meets.view.before fun source _ =>
    TypesWhen.branch (fun _ => typesWhen_unsupported _ _) fun _ => typesWhen_ok _

end Nodes

section Statements
variable {context} {address value : Hir.Expr}

theorem integerStore_typesWhen (binding : Hir.Binding) (targetByteLength offset : Nat)
    (source : Option ViewSemantics)
    (meets : MeetsRequests (widthRequests context value) (exprCode context value)) :
    TypesWhen (statementRequests context (.integerStore binding targetByteLength offset value source))
      (statementCode context (.integerStore binding targetByteLength offset value source)) := by
  rw [statementCode, statementRequests]
  unfold emitIntegerStore Context.findStorage
  cases context.storage binding.bindingName with
  | none => exact ⟨nofun, nofun⟩
  | some storage =>
      refine TypesWhen.ite (fun _ => ?_) fun _ => ?_
      · exact meets.pointer.before fun _ _ => typesWhen_ok _
      · exact (meets.integer _ _).before fun code emitted =>
          ((typesWhen_typed code _).congr
            (iff_of_true (meets.width _ _ code emitted) trivial)).after fun _ _ => typesWhen_ok _

theorem pointerStore_typesWhen (targetByteLength : Nat)
    (addressMeets : MeetsRequests (widthRequests context address) (exprCode context address))
    (meets : MeetsRequests (widthRequests context value) (exprCode context value)) :
    TypesWhen (statementRequests context (.pointerStore address targetByteLength value))
      (statementCode context (.pointerStore address targetByteLength value)) := by
  rw [statementCode, statementRequests]
  refine addressMeets.pointer.bind fun _ _ => (typesWhen_integerType context _).after fun _ _ =>
    (meets.integer _ _).before fun code emitted => ?_
  exact ((typesWhen_typed code _).congr
    (iff_of_true (meets.width _ _ code emitted) trivial)).after fun _ _ => typesWhen_ok _

end Statements

mutual

/-- The code of an expression is well typed exactly when its requests are met. -/
theorem exprCode_meetsRequests : ∀ expression : Hir.Expr,
    MeetsRequests (widthRequests context expression) (exprCode context expression)
  | .integerLiteral value result => integerLiteral_meetsRequests context value result
  | .characterLiteral bytes result => characterLiteral_meetsRequests context bytes result
  | .stringLiteral bytes result => by
      rw [exprCode, widthRequests]
      exact stringExprCode_meetsRequests context bytes
  | .floatLiteral value result => by
      rw [exprCode, widthRequests]
      exact floatExprCode_meetsRequests context _
  | .variableRef binding offset result => variable_meetsRequests context binding offset result
  | .addressOf binding targetByteLength offset result =>
      addressOf_meetsRequests context binding targetByteLength offset result
  | .deref address result => deref_meetsRequests result (exprCode_meetsRequests address)
  | .booleanTest operand result => booleanTest_meetsRequests result (exprCode_meetsRequests operand)
  | .binary left op right result kind bounds =>
      binary_meetsRequests op result kind bounds (exprCode_meetsRequests left)
        (exprCode_meetsRequests right)
  | .unary op operand result => unary_meetsRequests op result (exprCode_meetsRequests operand)
  | .ternary condition thenExpr elseExpr result =>
      ternary_meetsRequests result (exprCode_meetsRequests condition)
        (exprCode_meetsRequests thenExpr) (exprCode_meetsRequests elseExpr)
  | .unsigned operand result => unsigned_meetsRequests result (exprCode_meetsRequests operand)
  | .integerCast operand isSigned result =>
      integerCast_meetsRequests isSigned result (exprCode_meetsRequests operand)
  | .templateView operand result =>
      templateView_meetsRequests result (exprCode_meetsRequests operand)
  | .toFloat operand sourceUnsigned sourceIsFloating result => by
      rw [exprCode, widthRequests]
      exact floatExprCode_meetsRequests context _
  | .floatBinary left op right result => by
      rw [exprCode, widthRequests]
      exact floatExprCode_meetsRequests context _
  | .floatCompare left op right operandByteLength result =>
      floatCompare_meetsRequests context left op right operandByteLength result
  | .call callee result => call_meetsRequests context callee result
  | .assignment stores result semantics =>
      assignment_meetsRequests semantics (statementCode_typesWhen stores)
        (exprCode_meetsRequests result)

theorem statementCode_typesWhen : ∀ statement : Hir.Statement,
    TypesWhen (statementRequests context statement) (statementCode context statement)
  | .integerStore binding targetByteLength offset value source =>
      integerStore_typesWhen binding targetByteLength offset source (exprCode_meetsRequests value)
  | .pointerStore address targetByteLength value =>
      pointerStore_typesWhen targetByteLength (exprCode_meetsRequests address)
        (exprCode_meetsRequests value)
  | .floatStore binding targetByteLength offset value => by
      rw [statementCode, statementRequests]
      exact (typesWhen_findStorage context _).after fun _ _ => typesWhen_ok _
  | .boolStore binding targetByteLength offset value => by
      rw [statementCode, statementRequests]
      exact (typesWhen_findStorage context _).after fun _ _ =>
        (exprCode_meetsRequests value).condition.before fun _ _ => typesWhen_ok _
  | .viewCopyStore binding targetByteLength offset value => by
      rw [statementCode, statementRequests]
      exact (typesWhen_findStorage context _).after fun _ _ =>
        (exprCode_meetsRequests value).view.before fun _ _ =>
          TypesWhen.branch (fun _ => typesWhen_unsupported _ _) fun _ => typesWhen_ok _
  | .stringStore binding targetByteLength offset bytes => by
      rw [statementCode, statementRequests]
      exact (typesWhen_findStorage context _).after fun _ _ => typesWhen_ok _
  | .stringCopyStore binding targetByteLength offset source => by
      rw [statementCode, statementRequests]
      exact (typesWhen_findStorage context _).after fun _ _ =>
        (exprCode_meetsRequests source).view.before fun _ _ => typesWhen_ok _
  | .implAssignment callee binding targetByteLength offset value => by
      rw [statementCode, statementRequests]
      exact (typesWhen_findStorage context _).after fun _ _ =>
        (exprCode_meetsRequests value).view.before fun _ _ => typesWhen_ok _
  | .localMemory binding byteLength templateName => by
      rw [statementCode, statementRequests]
      exact (typesWhen_findStorage context _).after fun _ _ => typesWhen_ok _
  | .bindingRebind binding address => by
      rw [statementCode, statementRequests]
      exact (typesWhen_findStorage context _).after fun _ _ =>
        TypesWhen.branch (fun _ => typesWhen_unsupported _ _) fun _ =>
          ((exprCode_meetsRequests address).integer _ _).before fun _ _ => typesWhen_ok _
  | .captureView captureName source => by
      rw [statementCode, statementRequests]
      exact (exprCode_meetsRequests source).view.before fun _ _ => typesWhen_ok _
  | .sequence first second => by
      rw [statementCode, statementRequests]
      exact (statementCode_typesWhen first).bind fun _ _ =>
        (statementCode_typesWhen second).before fun _ _ => typesWhen_ok _

end

end HitSimple.Codegen

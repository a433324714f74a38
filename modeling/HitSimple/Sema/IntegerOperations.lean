import HitSimple.Sema.BinaryRules

namespace HitSimple.Sema
open Literal

/-- The operand whose standard integer template selects the operation, if any has one. -/
def templateOperand (left right : ViewSemantics) : Option ViewSemantics :=
  if left.templateName.isStandardInteger then some left
  else if right.templateName.isStandardInteger then some right
  else none

/-- The width of an integer operation by Standard 8.3 and 11.3. -/
def prescribedLength (op : OperatorSpelling) (left right : ViewSemantics) : Nat :=
  match op.typed, templateOperand left right with
  | some { width := some byteLength, .. }, _ => byteLength
  | none, some selected => selected.staticByteLength
  | _, _ => max left.staticByteLength right.staticByteLength

def prescribedUnsigned (op : OperatorSpelling) (left right : ViewSemantics) : Bool :=
  match op.typed, templateOperand left right with
  | some typedPrefix, _ => typedPrefix.marker == .u
  | none, some selected => selected.templateName.isUnsigned
  | none, none => left.isUnsigned || right.isUnsigned

/-- The View of an accepted integer operation: an ordinary `%` is taken for a typed operator. -/
def IntegerResult (op : OperatorSpelling) (left right result : ViewSemantics) : Prop :=
  if op.symbol.isComparison then result = booleanResult
  else if op.isPlainModulo then result = signedIntegerResult 4
  else result.category ≠ .boolean ∧ result.staticByteLength = prescribedLength op left right ∧
    result.isUnsigned = prescribedUnsigned op left right

section Selection
variable (op : OperatorSpelling) (left right : ViewSemantics) (scope : Scope)

theorem isTypedIntegerOperator_facts {width : Option Nat} {marker : OperatorMarker}
    {symbol : BinaryOperator}
    (typed : OperatorSpelling.isTypedIntegerOperator
      { typed := some { width, marker }, symbol } = true) :
    marker ≠ .f ∧ symbol.isLogical = false ∧
      (width.getD 4 = 1 ∨ width.getD 4 = 2 ∨ width.getD 4 = 4 ∨ width.getD 4 = 8) := by
  have computed : (OperatorSpelling.integerByteLengthForOperator
      { typed := some { width, marker }, symbol }).isSome = true := by
    simpa [OperatorSpelling.isTypedIntegerOperator, OperatorSpelling.startsWithPercent] using typed
  have notFloat : marker ≠ .f := by
    rintro rfl
    simp [OperatorSpelling.integerByteLengthForOperator] at computed
  have notLogical : symbol.isLogical = false := by
    cases logical : symbol.isLogical with
    | false => rfl
    | true => simp [OperatorSpelling.integerByteLengthForOperator, logical] at computed
  refine ⟨notFloat, notLogical, ?_⟩
  by_contra other
  simp [OperatorSpelling.integerByteLengthForOperator, notFloat, notLogical, other] at computed

theorem typedIntegerComputationLength_eq {width : Option Nat} {marker : OperatorMarker}
    {symbol : BinaryOperator}
    (typed : OperatorSpelling.isTypedIntegerOperator
      { typed := some { width, marker }, symbol } = true) :
    OperatorSpelling.typedIntegerComputationLength { typed := some { width, marker }, symbol }
        left.staticByteLength right.staticByteLength =
      prescribedLength { typed := some { width, marker }, symbol } left right := by
  obtain ⟨notFloat, notLogical, standard⟩ := isTypedIntegerOperator_facts typed
  cases width with
  | none =>
      cases marker with
      | f => exact absurd rfl notFloat
      | d | u =>
          simp [OperatorSpelling.typedIntegerComputationLength, prescribedLength,
            OperatorSpelling.integerByteLengthForOperator, OperatorSpelling.omitsWidth, notLogical]
  | some width =>
      rw [Option.getD_some] at standard
      simp [OperatorSpelling.typedIntegerComputationLength, prescribedLength, standard,
        OperatorSpelling.integerByteLengthForOperator, OperatorSpelling.omitsWidth, notLogical,
        notFloat]

theorem prescribedLength_cases (supported : op.integerSymbol?.isNone = false) :
    (0 < prescribedLength op left right ∧ prescribedLength op left right ≤ pointerByteLength) ∨
      prescribedLength op left right = left.staticByteLength ∨
      prescribedLength op left right = right.staticByteLength := by
  have longer := max_choice left.staticByteLength right.staticByteLength
  obtain ⟨typedPrefix, symbol⟩ := op
  cases typedPrefix with
  | none =>
      right
      simp only [prescribedLength, templateOperand]
      split_ifs with leftTemplate rightTemplate
      · exact .inl rfl
      · exact .inr rfl
      · exact longer
  | some typedPrefix =>
      obtain ⟨width, marker⟩ := typedPrefix
      have typed : OperatorSpelling.isTypedIntegerOperator
          { typed := some { width, marker }, symbol } = true := by
        simpa [OperatorSpelling.integerSymbol?] using supported
      have standard := (isTypedIntegerOperator_facts typed).2.2
      cases width with
      | none => exact .inr longer
      | some width =>
          left
          simp only [prescribedLength, Option.getD_some, pointerByteLength] at standard ⊢
          omega

theorem hasUnsignedMarker_eq {typedPrefix : TypedPrefix} {symbol : BinaryOperator} :
    OperatorSpelling.hasUnsignedMarker { typed := some typedPrefix, symbol } =
      (typedPrefix.marker == .u) := by
  obtain ⟨width, marker⟩ := typedPrefix
  cases marker <;> rfl

theorem integerResult_of_sign {result : ViewSemantics} (isUnsigned : Bool)
    (arithmetic : op.symbol.isComparison = false) (ordinary : op.isPlainModulo = false)
    (sign : prescribedUnsigned op left right = isUnsigned)
    (built : result = if isUnsigned then unsignedIntegerResult (prescribedLength op left right)
      else signedIntegerResult (prescribedLength op left right)) :
    IntegerResult op left right result := by
  rw [IntegerResult, arithmetic, if_neg (by simp), ordinary, if_neg (by simp), built, sign]
  cases isUnsigned <;> exact ⟨nofun, rfl, rfl⟩

theorem selectTyped_result {selected : SelectedOperation} {typedPrefix : TypedPrefix}
    {symbol : BinaryOperator}
    (typed : OperatorSpelling.isTypedIntegerOperator { typed := some typedPrefix, symbol } = true)
    (accepted : selectTyped scope { typed := some typedPrefix, symbol } left right = .ok selected) :
    IntegerResult { typed := some typedPrefix, symbol } left right selected.result ∧
      selected.kind = .untemplatedInteger := by
  simp only [selectTyped, typedIntegerComputationLength_eq left right typed,
    hasUnsignedMarker_eq] at accepted
  split at accepted
  · cases accepted
  split at accepted
  · cases accepted
  cases accepted
  refine ⟨?_, rfl⟩
  cases comparison : symbol.isComparison with
  | true => simp [IntegerResult, comparisonOr, comparison]
  | false =>
      apply integerResult_of_sign _ _ _ (typedPrefix.marker == .u) comparison rfl
      · simp [prescribedUnsigned]
      · simp [comparisonOr, comparison]

theorem selectTyped_plainModulo {selected : SelectedOperation}
    (accepted : selectTyped scope (.ordinary .modulo) left right = .ok selected) :
    IntegerResult (.ordinary .modulo) left right selected.result ∧
      selected.kind = .untemplatedInteger := by
  simp only [selectTyped] at accepted
  split at accepted
  · cases accepted
  split at accepted
  · cases accepted
  cases accepted
  exact ⟨rfl, rfl⟩

theorem selectUntemplated_result {symbol : BinaryOperator} (notModulo : symbol ≠ .modulo)
    (untemplated : templateOperand left right = none) :
    IntegerResult (.ordinary symbol) left right (selectUntemplated symbol left right).result := by
  cases comparison : symbol.isComparison with
  | true =>
      simp [IntegerResult, selectUntemplated, comparisonOr, OperatorSpelling.ordinary, comparison]
  | false =>
      apply integerResult_of_sign _ _ _ (left.isUnsigned || right.isUnsigned) comparison
      · simp [OperatorSpelling.isPlainModulo, OperatorSpelling.ordinary, notModulo]
      · simp [prescribedUnsigned, OperatorSpelling.ordinary, untemplated]
      · simp [selectUntemplated, comparisonOr, comparison, prescribedLength,
          OperatorSpelling.ordinary, untemplated]

theorem fixedResult_standard {templateName : TemplateName} (byteLength : Nat)
    (standard : templateName.isStandardInteger = true) :
    (fixedResult templateName byteLength).category ≠ .boolean ∧
      (fixedResult templateName byteLength).staticByteLength = byteLength ∧
      (fixedResult templateName byteLength).isUnsigned = templateName.isUnsigned := by
  cases templateName with
  | signedInteger size | unsignedInteger size =>
      have sizes : size = 1 ∨ size = 2 ∨ size = 4 ∨ size = 8 := by
        simpa [TemplateName.isStandardInteger, or_assoc] using standard
      have nonzero : size ≠ 0 := by omega
      simp only [fixedResult, viewSemanticsForTemplate, sizes, if_true]
      refine ⟨fun same => ?_, rfl, by simp [staticViewSemantics, ViewSemantics.isUnsigned,
        TemplateName.isUnsigned, nonzero]⟩
      cases same
  | _ => cases standard

theorem selectStandardInteger_result {symbol : BinaryOperator} (notModulo : symbol ≠ .modulo)
    (templated : left.templateName.isStandardInteger = true ∨
      right.templateName.isStandardInteger = true)
    {selected : SelectedOperation}
    (accepted : selectStandardInteger symbol left right = .ok selected) :
    IntegerResult (.ordinary symbol) left right selected.result ∧
      selected.kind = .standardInteger := by
  have template : ∃ view, templateOperand left right = some view ∧
      view.templateName.isStandardInteger = true ∧ selected = {
        kind := .standardInteger
        byteLength := view.staticByteLength
        result := comparisonOr symbol (fixedResult view.templateName view.staticByteLength) } := by
    unfold selectStandardInteger at accepted
    by_cases leftTemplate : left.templateName.isStandardInteger = true
    · refine ⟨left, by rw [templateOperand, if_pos leftTemplate], leftTemplate, ?_⟩
      simp only [if_pos leftTemplate] at accepted
      split_ifs at accepted
      exact (Except.ok.inj accepted).symm
    · have rightTemplate := templated.resolve_left leftTemplate
      refine ⟨right, by rw [templateOperand, if_neg leftTemplate, if_pos rightTemplate],
        rightTemplate, ?_⟩
      simp only [if_neg leftTemplate] at accepted
      split_ifs at accepted
      exact (Except.ok.inj accepted).symm
  obtain ⟨view, selects, standard, rfl⟩ := template
  refine ⟨?_, rfl⟩
  cases comparison : symbol.isComparison with
  | true => simp [IntegerResult, comparisonOr, OperatorSpelling.ordinary, comparison]
  | false =>
      have plain : OperatorSpelling.isPlainModulo (.ordinary symbol) = false := by
        simp [OperatorSpelling.isPlainModulo, OperatorSpelling.ordinary, notModulo]
      obtain ⟨category, length, sign⟩ := fixedResult_standard view.staticByteLength standard
      rw [IntegerResult, plain, if_neg (by simp [OperatorSpelling.ordinary, comparison]),
        if_neg Bool.false_ne_true]
      simp only [comparisonOr, comparison, prescribedLength, prescribedUnsigned,
        OperatorSpelling.ordinary, selects, Bool.false_eq_true, if_false]
      exact ⟨category, length, sign⟩

/-- What an accepted operation on integer Views is resolved to. -/
theorem selectOperation_result (leftInteger : left.IsInteger) (rightInteger : right.IsInteger)
    (supported : op.integerSymbol?.isNone = false) {selected : SelectedOperation}
    (accepted : selectOperation scope op left right = .ok selected) :
    IntegerResult op left right selected.result ∧
      (selected.kind = .untemplatedInteger ∨ selected.kind = .standardInteger) := by
  obtain ⟨typedPrefix, symbol⟩ := op
  unfold selectOperation at accepted
  cases typedPrefix with
  | some typedPrefix =>
      have typed : OperatorSpelling.isTypedIntegerOperator
          { typed := some typedPrefix, symbol } = true := by
        simpa [OperatorSpelling.integerSymbol?] using supported
      rw [if_pos typed] at accepted
      obtain ⟨result, kind⟩ := selectTyped_result left right scope typed accepted
      exact ⟨result, .inl kind⟩
  | none =>
      by_cases modulo : symbol = .modulo
      · subst modulo
        obtain ⟨result, kind⟩ := selectTyped_plainModulo left right scope accepted
        exact ⟨result, .inl kind⟩
      · have untyped : OperatorSpelling.isTypedIntegerOperator { typed := none, symbol } = false := by
          simp [OperatorSpelling.isTypedIntegerOperator, OperatorSpelling.startsWithPercent, modulo]
        simp only [untyped, Bool.false_eq_true, if_false, leftInteger.numeric,
          rightInteger.numeric, Bool.and_true, Bool.and_eq_true, beq_iff_eq,
          Bool.or_eq_true] at accepted
        split at accepted
        · rename_i untemplated
          cases accepted
          exact ⟨selectUntemplated_result left right modulo (by
            simp [templateOperand, untemplated, TemplateName.isStandardInteger]), .inl rfl⟩
        · rename_i template
          have templated : left.templateName.isStandardInteger = true ∨
              right.templateName.isStandardInteger = true := by
            rcases leftInteger.template with leftNone | leftTemplate
            · exact .inr (rightInteger.template.resolve_left fun rightNone =>
                template ⟨leftNone, rightNone⟩).1
            · exact .inl leftTemplate.1
          rw [if_pos templated] at accepted
          obtain ⟨result, kind⟩ := selectStandardInteger_result left right modulo templated accepted
          exact ⟨result, .inr kind⟩

end Selection

section Nodes
variable {scope : Scope} {op : OperatorSpelling} {rightLiteral : Option Spelling}
  {left right : Hir.Expr} {result : ViewSemantics} {kind : Hir.StandardOperationKind}
  {bounds : Option Hir.ViewOffsetBounds}

theorem isLogical_of_integerSymbol (supported : op.integerSymbol?.isNone = false)
    (ordinary : (op.typed.isNone && op.symbol.isLogical) = false) :
    op.symbol.isLogical = false := by
  obtain ⟨typedPrefix, symbol⟩ := op
  cases typedPrefix with
  | none => simpa using ordinary
  | some typedPrefix =>
      cases logical : symbol.isLogical with
      | false => rfl
      | true =>
          simp [OperatorSpelling.integerSymbol?, OperatorSpelling.isTypedIntegerOperator,
            OperatorSpelling.integerByteLengthForOperator, logical] at supported

theorem buildBinary_eq_binary {selected : SelectedOperation} {first second : Hir.Expr}
    (built : buildBinary op selected first second =
      .ok (.binary left op right result kind bounds)) :
    result = selected.result ∧ kind = selected.kind ∧ bounds = none := by
  unfold buildBinary at built
  split at built
  · split at built
    · cases built
      exact ⟨rfl, rfl, rfl⟩
    · unfold foldLiterals at built
      split at built
      · split at built
        · cases built
        · dsimp only at built
          split at built <;> cases built
      · cases built
  · cases built
    exact ⟨rfl, rfl, rfl⟩

/-- An operation on integer Views that stays in the program as a binary node. -/
theorem analyzeBinary_operation (leftInteger : left.result.IsInteger)
    (rightInteger : right.result.IsInteger)
    (accepted : analyzeBinary scope op rightLiteral left right =
      .ok (.binary left op right result kind bounds))
    (notAddress : kind ≠ .addressOffset) :
    op.integerSymbol?.isNone = false ∧ op.symbol.isLogical = false ∧
      IntegerResult op left.result right.result result ∧
      (kind = .untemplatedInteger ∨ kind = .standardInteger) ∧ bounds = none := by
  unfold analyzeBinary at accepted
  split at accepted
  · split at accepted
    · cases accepted
    · have node := Except.ok.inj accepted
      injection node with test
      have numeric := leftInteger.numeric
      rw [← test] at numeric
      cases numeric
  rename_i ordinary
  rw [leftInteger.isUser_eq_false, rightInteger.isUser_eq_false, Bool.or_self,
    if_neg Bool.false_ne_true] at accepted
  split at accepted
  · simp only [analyzeTypedFloating, bne_iff_ne, ne_eq, leftInteger.category_ne_floating,
      not_false_eq_true, true_or, Bool.or_eq_true, if_true] at accepted
    cases accepted
  rw [if_neg (by simp [leftInteger.category_ne_floating, rightInteger.category_ne_floating])]
    at accepted
  unfold analyzeIntegerBinary at accepted
  dsimp only at accepted
  split at accepted
  · cases accepted
  rename_i supported
  split at accepted
  · cases accepted
  split at accepted
  · cases accepted
  replace supported : op.integerSymbol?.isNone = false := Bool.eq_false_iff.mpr supported
  have notLogical := isLogical_of_integerSymbol supported (Bool.eq_false_iff.mpr ordinary)
  cases selection : selectOperation scope op left.result right.result with
  | error message =>
      rw [selection] at accepted
      cases accepted
  | ok selected =>
      obtain ⟨resolved, integerKind⟩ :=
        selectOperation_result op _ _ scope leftInteger rightInteger supported selection
      have notBoolean : selected.kind ≠ .standardBoolean := by
        rcases integerKind with kind | kind <;> simp [kind]
      simp only [selection, if_neg notBoolean] at accepted
      split at accepted
      · exact absurd (buildBinary_eq_binary accepted).2.1 notAddress
      · obtain ⟨rfl, rfl, rfl⟩ := buildBinary_eq_binary accepted
        exact ⟨supported, notLogical, resolved, integerKind, rfl⟩

end Nodes

end HitSimple.Sema

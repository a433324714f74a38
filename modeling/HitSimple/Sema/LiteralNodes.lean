import HitSimple.Sema.NodeLengths

namespace HitSimple.Sema
open FixedWidth Literal

/-- The texts and Views of integer literal nodes: truth values, integers at their own length, and
sizes. -/
inductive StoredLiteral : Spelling → ViewSemantics → Prop where
  | boolean (holds : Bool) : StoredLiteral (if holds then ['1'] else ['0']) booleanResult
  | integer (isUnsigned : Bool) {text : Spelling} {byteLength value : Nat}
      (positive : 0 < byteLength) (small : byteLength ≤ 8)
      (parsed : parseUnsignedIntegerLiteral text = some value)
      (bound : value < 2 ^ (byteLength * 8)) :
      StoredLiteral text
        (if isUnsigned then unsignedIntegerResult byteLength else signedIntegerResult byteLength)
  | size (text : Spelling) : StoredLiteral text (fixedResult (.unsignedInteger 8) 8)

/-- What the analyser builds a literal node from: a character of an integer interpretation is one
byte. -/
def IsStored : Hir.Expr → Prop
  | .integerLiteral text result => StoredLiteral text result
  | .characterLiteral bytes result => result.integerInterpretation ≠ .rawOnly →
      result = unsignedIntegerResult 1 ∧ ∃ byte, bytes = [byte]
  | _ => True

/-- A standard integer template of a literal is the one of a size. -/
theorem StoredLiteral.eq_size {text : Spelling} {view : ViewSemantics}
    (stored : StoredLiteral text view) (standard : view.templateName.isStandardInteger = true) :
    view = fixedResult (.unsignedInteger 8) 8 := by
  cases stored with
  | boolean holds => cases standard
  | integer isUnsigned => cases isUnsigned <;> cases standard
  | size => rfl

section Folding
variable {scope : Scope} {spelling : OperatorSpelling}

theorem foldIntegerOperation_lt {op : BinaryOperator} {left right folded : BitVec 64}
    {byteLength : Nat} (computed : foldIntegerOperation op left right byteLength = some folded) :
    0 < byteLength ∧ byteLength ≤ 8 ∧ folded.toNat < 2 ^ (byteLength * 8) := by
  by_cases accepted : byteLength = 0 ∨ 8 < byteLength
  · rw [foldIntegerOperation, if_pos accepted] at computed
    cases computed
  have positive : 0 < byteLength := by omega
  have small : byteLength ≤ 8 := by omega
  rw [foldIntegerOperation_eq positive small] at computed
  obtain ⟨pattern, -, rfl⟩ := Option.map_eq_some_iff.mp computed
  refine ⟨positive, small, ?_⟩
  rw [BitVec.toNat_setWidth_of_le (by omega)]
  exact pattern.isLt

/-- What an arithmetic operation on two literals is resolved to. -/
theorem selectOperation_arithmetic {leftText rightText : Spelling} {left right : ViewSemantics}
    {selected : SelectedOperation} (leftStored : StoredLiteral leftText left)
    (rightStored : StoredLiteral rightText right)
    (arithmetic : spelling.symbol.isComparison = false)
    (analyzed : selectOperation scope spelling left right = .ok selected) :
    (∃ isUnsigned : Bool, selected.result =
      if isUnsigned then unsignedIntegerResult selected.byteLength
      else signedIntegerResult selected.byteLength) ∨
    selected.byteLength = 8 ∧ selected.result = fixedResult (.unsignedInteger 8) 8 := by
  unfold selectOperation at analyzed
  split at analyzed
  · unfold selectTyped at analyzed
    dsimp only at analyzed
    split at analyzed
    · cases analyzed
    split at analyzed
    · cases analyzed
    · cases analyzed
      refine .inl ⟨spelling.hasUnsignedMarker, ?_⟩
      simp only [comparisonOr, arithmetic, Bool.false_eq_true, if_false]
  split at analyzed
  · cases analyzed
    refine .inl ⟨left.isUnsigned || right.isUnsigned, ?_⟩
    simp only [selectUntemplated, comparisonOr, arithmetic, Bool.false_eq_true, if_false]
  split at analyzed
  · rename_i standard
    right
    have size : (if left.templateName.isStandardInteger = true then (left, right)
        else (right, left)).1 = fixedResult (.unsignedInteger 8) 8 := by
      split
      · rename_i leftStandard
        exact leftStored.eq_size leftStandard
      · rename_i leftOther
        rw [Bool.or_eq_true] at standard
        exact rightStored.eq_size (standard.resolve_left leftOther)
    unfold selectStandardInteger at analyzed
    generalize (if left.templateName.isStandardInteger = true then (left, right)
      else (right, left)) = operands at analyzed size
    dsimp only at analyzed
    split at analyzed
    · cases analyzed
    · cases analyzed
      simp only [size, comparisonOr, arithmetic, Bool.false_eq_true, if_false]
      exact ⟨rfl, rfl⟩
  · exfalso
    unfold selectComparison at analyzed
    have noEquality : (spelling.symbol == .equal || spelling.symbol == .notEqual) = false := by
      cases symbol : spelling.symbol <;> simp [symbol, BinaryOperator.isComparison] at arithmetic ⊢
    simp only [arithmetic, noEquality] at analyzed
    repeat' (split at analyzed)
    all_goals first
      | contradiction
      | simp_all

theorem foldLiterals_isStored {leftText rightText : Spelling} {left right : ViewSemantics}
    {selected : SelectedOperation} {node : Hir.Expr} (leftStored : StoredLiteral leftText left)
    (rightStored : StoredLiteral rightText right)
    (selection : selectOperation scope spelling left right = .ok selected)
    (folded : foldLiterals spelling.symbol selected leftText rightText left right = .ok node) :
    IsStored node := by
  unfold foldLiterals at folded
  split at folded
  · dsimp only at folded
    split at folded
    · cases folded
      exact .boolean _
    · rename_i arithmetic
      split at folded
      · cases folded
      · rename_i value computed
        cases folded
        obtain ⟨positive, small, bound⟩ := foldIntegerOperation_lt computed
        have parsed : parseUnsignedIntegerLiteral (decimal value.toNat) = some value.toNat :=
          parseUnsignedIntegerLiteral_decimal (Nat.le_sub_one_of_lt value.isLt)
        show StoredLiteral (decimal value.toNat) selected.result
        rcases selectOperation_arithmetic leftStored rightStored (by simpa using arithmetic)
          selection with ⟨isUnsigned, view⟩ | ⟨-, view⟩
        · rw [view]
          exact .integer isUnsigned positive small parsed bound
        · rw [view]
          exact .size _
  · cases folded

theorem analyzeIntegerBinary_isStored {rightLiteral : Option Spelling} {left right node : Hir.Expr}
    (leftStored : IsStored left) (rightStored : IsStored right)
    (analyzed : analyzeIntegerBinary scope spelling rightLiteral left right = .ok node) :
    IsStored node := by
  unfold analyzeIntegerBinary at analyzed
  dsimp only at analyzed
  split at analyzed
  · cases analyzed
  split at analyzed
  · cases analyzed
  split at analyzed
  · cases analyzed
  cases selection : selectOperation scope spelling left.result right.result with
  | error message => simp only [selection] at analyzed; cases analyzed
  | ok selected =>
      simp only [selection] at analyzed
      split at analyzed
      · cases analyzed
        trivial
      split at analyzed
      · rename_i offset
        have pointer : isUnsignedAddressOf left = true := by
          simp only [Bool.and_eq_true] at offset
          exact offset.2
        unfold buildBinary at analyzed
        split at analyzed
        · cases pointer
        · cases analyzed
          trivial
      · unfold buildBinary at analyzed
        split at analyzed
        · split at analyzed
          · cases analyzed
            trivial
          · exact foldLiterals_isStored leftStored rightStored selection analyzed
        · cases analyzed
          trivial

theorem analyzeBinary_isStored {rightLiteral : Option Spelling} {left right node : Hir.Expr}
    (leftStored : IsStored left) (rightStored : IsStored right)
    (analyzed : analyzeBinary scope spelling rightLiteral left right = .ok node) :
    IsStored node := by
  unfold analyzeBinary at analyzed
  split at analyzed
  · split at analyzed
    · cases analyzed
    · cases analyzed
      trivial
  split at analyzed
  · split at analyzed
    · cases analyzed
      trivial
    · cases analyzed
  split at analyzed
  · unfold analyzeTypedFloating at analyzed
    dsimp only at analyzed
    repeat' (split at analyzed)
    all_goals first | contradiction | (cases analyzed; trivial)
  split at analyzed
  · unfold analyzeFloatingBinary at analyzed
    dsimp only at analyzed
    repeat' (split at analyzed)
    all_goals first | contradiction | (cases analyzed; trivial)
  · exact analyzeIntegerBinary_isStored leftStored rightStored analyzed

end Folding

section Leaves
variable {scope : Scope}

theorem storedLiteral_of_source {text : Spelling}
    (nonzero : inferIntegerLiteralByteLength text ≠ 0) :
    StoredLiteral text
      (if 2 ^ 63 ≤ (parseUnsignedIntegerLiteral text).getD 0 then
        unsignedIntegerResult (inferIntegerLiteralByteLength text)
      else signedIntegerResult (inferIntegerLiteralByteLength text)) := by
  unfold inferIntegerLiteralByteLength at nonzero ⊢
  cases parsed : parseUnsignedIntegerLiteral text with
  | none => simp [parsed] at nonzero
  | some value =>
      have limit := parseUnsignedIntegerLiteral_le parsed
      rw [maxUInt64] at limit
      rw [show (if 2 ^ 63 ≤ (some value).getD 0 then _ else _ : ViewSemantics) =
        if decide (2 ^ 63 ≤ value) then _ else _ by simp; rfl]
      apply StoredLiteral.integer _ _ _ parsed
      all_goals split_ifs <;> omega

theorem addressOfReferenceForm_isStored {source : Ast.Expr} {node : Hir.Expr}
    (analyzed : addressOfReferenceForm scope source = .ok node) : IsStored node := by
  unfold addressOfReferenceForm at analyzed
  split at analyzed
  · cases analyzed
  · cases analyzed
  · cases analyzed
    trivial

end Leaves

/-- The forms of an expression that stand for a node of its own. -/
structure FormsAreStored (forms : AnalyzedForms) : Prop where
  expression : ∀ node, forms.expression = .ok node → IsStored node
  addressOf : ∀ node, forms.addressOf = .ok node → IsStored node

theorem plainForms_areStored (scope : Scope) (source : Ast.Expr) {expression : Analysis Hir.Expr}
    (stored : ∀ node, expression = .ok node → IsStored node) :
    FormsAreStored (plainForms scope source expression) where
  expression := stored
  addressOf := fun _ analyzed => addressOfReferenceForm_isStored analyzed

theorem analyzeForms_areStored (scope : Scope) (source : Ast.Expr) :
    FormsAreStored (analyzeForms scope source) := by
  induction source with
  | identifier name =>
      rw [analyzeForms]
      apply plainForms_areStored
      intro node analyzed
      unfold analyzeIdentifier at analyzed
      split at analyzed <;> cases analyzed
      trivial
  | integerLiteral value =>
      rw [analyzeForms]
      apply plainForms_areStored
      intro node analyzed
      unfold analyzeIntegerLiteral at analyzed
      dsimp only at analyzed
      split at analyzed
      · cases analyzed
      · rename_i nonzero
        cases analyzed
        exact storedLiteral_of_source nonzero
  | stringLiteral bytes =>
      rw [analyzeForms]
      apply plainForms_areStored
      intro node analyzed
      cases analyzed
      trivial
  | charLiteral bytes =>
      rw [analyzeForms]
      apply plainForms_areStored
      intro node analyzed
      unfold analyzeCharLiteral at analyzed
      split at analyzed <;> cases analyzed
      intro interpreted
      split at interpreted
      · rename_i single
        exact ⟨if_pos single, List.length_eq_one_iff.mp single⟩
      · exact absurd rfl interpreted
  | floatLiteral value =>
      rw [analyzeForms]
      constructor
      · intro node analyzed
        cases analyzed
        trivial
      · intro node analyzed
        exact addressOfReferenceForm_isStored
          (show addressOfReferenceForm scope (.floatLiteral value) = _ from analyzed)
  | boolLiteral value =>
      rw [analyzeForms]
      apply plainForms_areStored
      intro node analyzed
      cases analyzed
      exact .boolean value
  | addressOf operand stored =>
      rw [analyzeForms]
      exact plainForms_areStored scope _ stored.addressOf
  | unary op operand stored =>
      rw [analyzeForms]
      apply plainForms_areStored
      intro node analyzed
      split at analyzed
      · cases analyzed
      · unfold analyzeUnary at analyzed
        dsimp only at analyzed
        repeat' (split at analyzed)
        all_goals first | contradiction | (cases analyzed; trivial)
  | binary left op right leftStored rightStored =>
      rw [analyzeForms]
      constructor
      · intro node analyzed
        obtain ⟨first, second, leftFound, rightFound, built⟩ := map₂_eq_ok analyzed
        exact analyzeBinary_isStored (leftStored.expression first leftFound)
          (rightStored.expression second rightFound) built
      · intro node analyzed
        exact addressOfReferenceForm_isStored
          (show addressOfReferenceForm scope (.binary left op right) = _ from analyzed)
  | ternary condition thenExpr elseExpr =>
      rw [analyzeForms]
      apply plainForms_areStored
      intro node analyzed
      obtain ⟨test, branches, -, -, built⟩ := map₂_eq_ok analyzed
      unfold analyzeTernary at built
      repeat' (split at built)
      all_goals first | contradiction | (cases built; trivial)
  | unsigned operand byteLength stored =>
      rw [analyzeForms]
      apply plainForms_areStored
      intro node analyzed
      split at analyzed
      · unfold analyzeUnsignedLiteral at analyzed
        dsimp only at analyzed
        repeat' (split at analyzed)
        all_goals first | contradiction | (cases analyzed; trivial)
      · obtain ⟨lowered, found, rfl⟩ := analysis_map_eq_ok analyzed
        unfold analyzeUnsigned
        split
        · exact stored.expression lowered found
        · split <;> trivial
  | integerCast operand byteLength isSigned stored =>
      rw [analyzeForms]
      apply plainForms_areStored
      intro node analyzed
      split at analyzed
      · cases analyzed
      · unfold analyzeIntegerCast at analyzed
        repeat' (split at analyzed)
        all_goals first | contradiction | (cases analyzed; trivial)
  | asView operand templateName stored =>
      rw [analyzeForms]
      apply plainForms_areStored
      intro node analyzed
      split at analyzed
      · cases analyzed
      · unfold analyzeAs at analyzed
        dsimp only at analyzed
        repeat' (split at analyzed)
        all_goals first | contradiction | (cases analyzed; trivial)
  | index base index =>
      rw [analyzeForms]
      constructor
      · intro node analyzed
        obtain ⟨address, -, rfl⟩ := analysis_map_eq_ok analyzed
        trivial
      · intro node analyzed
        change lowerIndexAddress scope base _ = _ at analyzed
        unfold lowerIndexAddress at analyzed
        repeat' (split at analyzed)
        all_goals first | contradiction | (cases analyzed; trivial)
  | slice base start stop lengthMode =>
      rw [analyzeForms]
      constructor
      · intro node analyzed
        obtain ⟨lowered, -, rfl⟩ := analysis_map_eq_ok analyzed
        trivial
      · intro node analyzed
        obtain ⟨lowered, found, rfl⟩ := analysis_map_eq_ok analyzed
        unfold lowerSlice at found
        repeat' (split at found)
        all_goals first | contradiction | (cases found; trivial)
  | member object path =>
      rw [analyzeForms]
      apply plainForms_areStored
      intro node analyzed
      obtain ⟨reference, -, rfl⟩ := analysis_map_eq_ok analyzed
      trivial
  | sizeofTemplate templateName =>
      rw [analyzeForms]
      apply plainForms_areStored
      intro node analyzed
      unfold analyzeSizeof at analyzed
      repeat' (split at analyzed)
      all_goals first | contradiction | (cases analyzed; exact .size _)
  | deref length address stored =>
      rw [analyzeForms]
      constructor
      · intro node analyzed
        obtain ⟨lowered, -, rfl⟩ := analysis_map_eq_ok analyzed
        trivial
      · exact stored.expression
  | call callee =>
      rw [analyzeForms]
      apply plainForms_areStored
      intro node analyzed
      unfold analyzeCall at analyzed
      repeat' (split at analyzed)
      all_goals first | contradiction | (cases analyzed; trivial)
  | assignment target op unsignedTarget value =>
      rw [analyzeForms]
      apply plainForms_areStored
      intro node analyzed
      obtain ⟨lowered, -, rfl⟩ := analysis_map_eq_ok analyzed
      trivial

/-- The literals among the nodes of the analyser are stored at their own length. -/
theorem analyze_isStored {scope : Scope} {source : Ast.Expr} {node : Hir.Expr}
    (analyzed : analyze scope source = .ok node) : IsStored node :=
  (analyzeForms_areStored scope source).expression node analyzed

end HitSimple.Sema

import HitSimple.Sema.ConstantRules

namespace HitSimple.Sema
open FixedWidth Standard Literal

theorem foldComparison_eq (op : BinaryOperator) (comparison : op.isComparison = true)
    (isUnsigned : Bool) (left right : BitVec 64) :
    foldComparison op isUnsigned left right =
      integerComparison op (reading isUnsigned left) (reading isUnsigned right) := by
  cases op with
  | equal => exact (integerComparison_equal left right isUnsigned).symm
  | notEqual =>
      have equal := integerComparison_equal left right isUnsigned
      show (left != right) = decide (reading isUnsigned left ≠ reading isUnsigned right)
      rw [bne, ← equal, integerComparison, decide_not]
  | less => exact (integerComparison_less left right isUnsigned).symm
  | greater =>
      rw [integerComparison_greater, integerComparison_less]
      rfl
  | lessEqual => exact (integerComparison_lessEqual left right isUnsigned).symm
  | greaterEqual =>
      rw [integerComparison_greaterEqual, integerComparison_lessEqual]
      rfl
  | _ => cases comparison

/-- The literal node of a folded value, or the refusal of the operation. -/
def foldedNode : Option IntegerValue → Analysis Hir.Expr
  | none => .error "invalid constant integer operation"
  | some view => .ok (.integerLiteral (decimal view.bits.toNat) (integerView view))

/-- Whether the outcome of the folder agrees with the value the language rules give. -/
theorem foldedNode_agrees_iff (folded expected : Option IntegerValue)
    (constant : ∀ view, folded = some view → IsConstantView view) :
    ((∀ text view, foldedNode folded = .ok (.integerLiteral text view) →
        ∃ value, readLiteral text view = some value ∧ expected.map Value.integer = some value) ∧
      ((expected.map Value.integer).isSome →
        foldedNode folded ≠ .error "invalid constant integer operation")) ↔
      folded = expected := by
  cases folded with
  | none =>
      cases expected with
      | none => simp [foldedNode]
      | some expected => simp [foldedNode]
  | some view =>
      have parsed := parseUnsignedIntegerLiteral_decimal (constant view rfl).toNat_le_maxUInt64
      constructor
      · rintro ⟨agrees, -⟩
        obtain ⟨value, read, evaluated⟩ := agrees _ _ rfl
        rw [readLiteral_integerView parsed] at read
        cases read
        obtain ⟨expected, rfl, same⟩ := Option.map_eq_some_iff.mp evaluated
        cases same
        rfl
      · rintro rfl
        refine ⟨?_, fun _ => by simp [foldedNode]⟩
        rintro text literalView ⟨⟩
        exact ⟨_, readLiteral_integerView parsed, rfl⟩

section FoldLiterals
variable (op : SourceOperator) (left right : IntegerValue)

def foldedValue (byteLength : Nat) : Option IntegerValue :=
  (foldPattern op.spelling.symbol
      (left.bits.setWidth (resolvedLength op.spelling byteLength * 8))
      (right.bits.setWidth (resolvedLength op.spelling byteLength * 8))).map fun bits =>
    { byteLength := resolvedLength op.spelling byteLength
      isUnsigned := resolvedSign op.spelling
        (isUnsignedOperation op.spelling left.isUnsigned right.isUnsigned)
      bits }

def expectedValue (byteLength : Nat) : Option IntegerValue :=
  let isUnsigned := isUnsignedOperation op.spelling left.isUnsigned right.isUnsigned
  (integerOperation op.spelling.symbol isUnsigned (left.extended byteLength)
    (right.extended byteLength)).map fun bits => { byteLength, isUnsigned, bits }

variable {op left right}

theorem foldLiterals_arithmetic (leftView : IsConstantView left) (rightView : IsConstantView right)
    {leftText rightText : Spelling} {byteLength : Nat}
    (lengthCases : byteLength = 1 ∨ byteLength = 2 ∨ byteLength = 4 ∨ byteLength = 8)
    (leftParsed : parseUnsignedIntegerLiteral leftText = some left.bits.toNat)
    (rightParsed : parseUnsignedIntegerLiteral rightText = some right.bits.toNat)
    (arithmetic : op.spelling.symbol.isComparison = false) (kind : Hir.StandardOperationKind) :
    foldLiterals op.spelling.symbol {
        kind
        byteLength := resolvedLength op.spelling byteLength
        result := comparisonOr op.spelling.symbol
          (if resolvedSign op.spelling
              (isUnsignedOperation op.spelling left.isUnsigned right.isUnsigned) then
            unsignedIntegerResult (resolvedLength op.spelling byteLength)
          else signedIntegerResult (resolvedLength op.spelling byteLength)) }
        leftText rightText (integerView left) (integerView right) =
      foldedNode (foldedValue op left right byteLength) := by
  have resolved : 0 < resolvedLength op.spelling byteLength ∧
      resolvedLength op.spelling byteLength ≤ 8 := by
    unfold resolvedLength
    split <;> omega
  have word (view : IntegerValue) (constant : IsConstantView view) (width : Nat) :
      (BitVec.ofNat 64 view.bits.toNat).setWidth width = view.bits.setWidth width := by
    apply BitVec.eq_of_toNat_eq
    have bound := constant.toNat_le_maxUInt64
    rw [maxUInt64] at bound
    rw [BitVec.toNat_setWidth, BitVec.toNat_setWidth, BitVec.toNat_ofNat,
      Nat.mod_eq_of_lt (show view.bits.toNat < 2 ^ 64 by omega)]
  rw [foldLiterals, leftParsed, rightParsed]
  simp only [arithmetic, Bool.false_eq_true, if_false, comparisonOr]
  rw [foldIntegerOperation_eq resolved.1 resolved.2, word left leftView, word right rightView,
    foldedValue]
  cases foldPattern op.spelling.symbol
      (left.bits.setWidth (resolvedLength op.spelling byteLength * 8))
      (right.bits.setWidth (resolvedLength op.spelling byteLength * 8)) with
  | none => rfl
  | some bits =>
      simp only [Option.map_some, foldedNode, integerView]
      rw [BitVec.toNat_setWidth_of_le (by omega)]

theorem length_of_unsignedOperation {byteLength : Nat} (leftView : IsConstantView left)
    (rightView : IsConstantView right)
    (length : operationLength op.spelling left.byteLength right.byteLength = some byteLength)
    (isUnsigned : isUnsignedOperation op.spelling left.isUnsigned right.isUnsigned = true) :
    byteLength = 8 := by
  have leftSmall := leftView.small
  have rightSmall := rightView.small
  obtain ⟨⟨typed, symbol⟩, isInteger, isTypedArithmetic⟩ := op
  cases typed with
  | none =>
      cases length
      rcases (Bool.or_eq_true _ _).mp isUnsigned with leftUnsigned | rightUnsigned
      · have := leftView.unsignedLength leftUnsigned
        omega
      · have := rightView.unsignedLength rightUnsigned
        omega
  | some typedPrefix =>
      obtain ⟨marked, -⟩ := isTypedArithmetic typedPrefix rfl
      simp [isUnsignedOperation, marked] at isUnsigned

theorem isConstantView_foldedValue {byteLength : Nat} (leftView : IsConstantView left)
    (rightView : IsConstantView right)
    (length : operationLength op.spelling left.byteLength right.byteLength = some byteLength)
    {view : IntegerValue} (folded : foldedValue op left right byteLength = some view) :
    IsConstantView view := by
  have cases := operationLength_cases op left right leftView rightView length
  obtain ⟨bits, -, rfl⟩ := Option.map_eq_some_iff.mp folded
  simp only [resolvedLength, resolvedSign]
  by_cases plain : op.spelling.isPlainModulo = true
  · exact { length := by simp [plain], unsignedLength := by simp [plain] }
  · refine { length := by simpa [plain] using cases, unsignedLength := fun isUnsigned => ?_ }
    simp only [plain, Bool.not_false, Bool.true_and] at isUnsigned
    simpa [plain] using length_of_unsignedOperation leftView rightView length isUnsigned

private theorem map_view_eq_iff {byteLength : Nat} {isUnsigned : Bool}
    {first second : Option (BitVec (byteLength * 8))} :
    (first.map fun bits => ({ byteLength, isUnsigned, bits } : IntegerValue)) =
        second.map (fun bits => { byteLength, isUnsigned, bits }) ↔ first = second := by
  refine (Option.map_injective fun left right same => ?_).eq_iff
  cases same
  rfl

/-- Of the folder's computations only the ordinary `%` is made at another width than the operation
asks for. -/
theorem foldsExactly_iff {byteLength : Nat} (leftView : IsConstantView left)
    (rightView : IsConstantView right)
    (length : operationLength op.spelling left.byteLength right.byteLength = some byteLength)
    (arithmetic : op.spelling.symbol.isComparison = false) :
    FoldsExactly op.spelling left right ↔
      (op.spelling.isPlainModulo → right.value ≠ 0 → byteLength = 4 ∧
          isUnsignedOperation op.spelling left.isUnsigned right.isUnsigned = false) ∧
        foldPattern op.spelling.symbol (left.bits.setWidth (byteLength * 8))
            (right.bits.setWidth (byteLength * 8)) =
          integerOperation op.spelling.symbol
            (isUnsignedOperation op.spelling left.isUnsigned right.isUnsigned)
            (left.extended byteLength) (right.extended byteLength) := by
  have cases := operationLength_cases op left right leftView rightView length
  simp only [FoldsExactly, length, arithmetic, Bool.false_eq_true, if_false]
  rw [foldPattern_eq_extended_iff _ _ _ _ _ (by omega) (by omega) rightView.positive]

private theorem setWidth_of_value_zero {view : IntegerValue} (zero : view.value = 0)
    (width : Nat) : view.bits.setWidth width = 0#(width) := by
  rw [(reading_eq_zero_iff _ _).mp zero, BitVec.setWidth_zero]

private theorem extended_of_value_zero {view : IntegerValue} (zero : view.value = 0)
    (byteLength : Nat) : view.extended byteLength = 0#(byteLength * 8) := by
  rw [IntegerValue.extended, resize_eq_ofInt]
  exact congrArg (BitVec.ofInt _) zero

private theorem extended_ne_zero {view : IntegerValue} (nonzero : view.value ≠ 0)
    {byteLength : Nat} (wider : view.byteLength ≤ byteLength) :
    view.extended byteLength ≠ 0#(byteLength * 8) := by
  intro zero
  apply nonzero
  rw [IntegerValue.value, ← reading_resize_of_le view.isUnsigned view.bits
    (show view.byteLength * 8 ≤ byteLength * 8 by omega), reading_eq_zero_iff]
  exact zero

/-- An ordinary `%` is folded at four signed bytes, so its View is right only at that length. -/
private theorem plainModulo_eq_iff (op : OperatorSpelling) (plain : op.isPlainModulo = true)
    {byteLength : Nat} (wider : right.byteLength ≤ byteLength) (isUnsigned : Bool) :
    ((foldPattern op.symbol (left.bits.setWidth (4 * 8)) (right.bits.setWidth (4 * 8))).map
        fun bits => ({ byteLength := 4, isUnsigned := false, bits } : IntegerValue)) =
      ((integerOperation op.symbol isUnsigned (left.extended byteLength)
        (right.extended byteLength)).map fun bits => { byteLength, isUnsigned, bits }) ↔
    (right.value ≠ 0 → byteLength = 4 ∧ isUnsigned = false) ∧
      foldPattern op.symbol (left.bits.setWidth (byteLength * 8))
          (right.bits.setWidth (byteLength * 8)) =
        integerOperation op.symbol isUnsigned (left.extended byteLength)
          (right.extended byteLength) := by
  have modulo : op.symbol = .modulo := by
    rw [OperatorSpelling.isPlainModulo, Bool.and_eq_true, beq_iff_eq] at plain
    exact plain.2
  rw [modulo]
  by_cases zero : right.value = 0
  · have reads : reading isUnsigned (right.extended byteLength) = 0 := by
      rw [extended_of_value_zero zero, reading_eq_zero_iff]
    simp [foldPattern, integerOperation, setWidth_of_value_zero zero, reads, zero]
  · by_cases four : byteLength = 4 ∧ isUnsigned = false
    · obtain ⟨rfl, rfl⟩ := four
      rw [map_view_eq_iff]
      simp
    · have reads : reading isUnsigned (right.extended byteLength) ≠ 0 := by
        rw [ne_eq, reading_eq_zero_iff]
        exact extended_ne_zero zero wider
      refine iff_of_false ?_ fun both => four (both.1 zero)
      simp only [integerOperation, if_neg reads, Option.map_some]
      intro same
      obtain ⟨bits, -, view⟩ := Option.map_eq_some_iff.mp same
      cases view
      exact four ⟨rfl, rfl⟩

/-- The folded value is the expected one exactly under the condition. -/
theorem foldedValue_eq_expectedValue_iff {byteLength : Nat} (leftView : IsConstantView left)
    (rightView : IsConstantView right)
    (length : operationLength op.spelling left.byteLength right.byteLength = some byteLength)
    (arithmetic : op.spelling.symbol.isComparison = false) :
    foldedValue op left right byteLength = expectedValue op left right byteLength ↔
      FoldsExactly op.spelling left right := by
  rw [foldsExactly_iff leftView rightView length arithmetic]
  by_cases plain : op.spelling.isPlainModulo = true
  · have resolved : resolvedLength op.spelling byteLength = 4 := by
      simp [resolvedLength, plain]
    have sign (isUnsigned : Bool) : resolvedSign op.spelling isUnsigned = false := by
      simp [resolvedSign, plain]
    have wider : right.byteLength ≤ byteLength := by
      have ordinary : op.spelling.typed = none := by
        rw [OperatorSpelling.isPlainModulo, Bool.and_eq_true, Option.isNone_iff_eq_none] at plain
        exact plain.1
      rw [operationLength, ordinary] at length
      cases length
      omega
    rw [foldedValue, expectedValue, sign, resolved, plainModulo_eq_iff op.spelling plain wider]
    simp [plain]
  · have resolved : resolvedLength op.spelling byteLength = byteLength := by
      simp [resolvedLength, plain]
    have sign (isUnsigned : Bool) : resolvedSign op.spelling isUnsigned = isUnsigned := by
      simp [resolvedSign, plain]
    rw [foldedValue, expectedValue, sign, resolved, map_view_eq_iff]
    simp [plain]

/-- A View that is not stored as a positive number is compared at its value. -/
private theorem reading_stored {view : IntegerValue} (constant : IsConstantView view)
    (stored : ¬isStoredPositive view) (isUnsigned : Bool) {byteLength : Nat}
    (wider : view.byteLength ≤ byteLength) (signed : isUnsigned = false → view.isUnsigned = false)
    (unsigned : isUnsigned = true → byteLength = 8) :
    reading isUnsigned (BitVec.ofNat 64 view.bits.toNat) =
      reading isUnsigned (view.extended byteLength) := by
  have small := constant.small
  have word : BitVec.ofNat 64 view.bits.toNat = view.extended 8 := by
    rw [IntegerValue.extended_eq_setWidth stored, BitVec.ofNat_toNat]
  rw [word]
  cases isUnsigned with
  | true => rw [unsigned rfl]
  | false =>
      rw [IntegerValue.extended, IntegerValue.extended, signed rfl,
        reading_resize_of_le _ _ (by omega), reading_resize_of_le _ _ (by omega)]

/-- Comparing stored patterns is comparing values exactly under the condition. -/
theorem storedComparison_eq_iff {byteLength : Nat} (leftView : IsConstantView left)
    (rightView : IsConstantView right)
    (length : operationLength op.spelling left.byteLength right.byteLength = some byteLength)
    (comparison : op.spelling.symbol.isComparison = true) :
    storedComparison op.spelling.symbol
        (isUnsignedOperation op.spelling left.isUnsigned right.isUnsigned) left right =
      integerComparison op.spelling.symbol
        (reading (isUnsignedOperation op.spelling left.isUnsigned right.isUnsigned)
          (left.extended byteLength))
        (reading (isUnsignedOperation op.spelling left.isUnsigned right.isUnsigned)
          (right.extended byteLength)) ↔
      FoldsExactly op.spelling left right := by
  have unsigned := length_of_unsignedOperation leftView rightView length
  simp only [FoldsExactly, length, comparison, if_true]
  refine ⟨fun same _ => same, fun exact => ?_⟩
  by_cases stored : isStoredPositive left ∨ isStoredPositive right
  · exact exact stored
  obtain ⟨leftStored, rightStored⟩ := not_or.mp stored
  have ordinary := op.ordinary_of_isComparison comparison
  have maximum : byteLength = max left.byteLength right.byteLength := by
    rw [operationLength, ordinary] at length
    cases length
    rfl
  have signs : isUnsignedOperation op.spelling left.isUnsigned right.isUnsigned =
      (left.isUnsigned || right.isUnsigned) := by
    rw [isUnsignedOperation, ordinary]
  have signed := fun unsignedOperation : isUnsignedOperation op.spelling left.isUnsigned
      right.isUnsigned = false => Bool.or_eq_false_iff.mp (signs ▸ unsignedOperation)
  rw [storedComparison,
    reading_stored leftView leftStored _ (by omega) (fun h => (signed h).1) unsigned,
    reading_stored rightView rightStored _ (by omega) (fun h => (signed h).2) unsigned]

end FoldLiterals

/-- What the analyser can make of an operation on two constants. -/
inductive ConstantOutcome (op : SourceOperator) (left right : IntegerValue) :
    Analysis Hir.Expr → Prop where
  | unsupported (message : Diagnostic)
      (length : operationLength op.spelling left.byteLength right.byteLength = none) :
      ConstantOutcome op left right (.error message)
  | compared (byteLength : Nat)
      (length : operationLength op.spelling left.byteLength right.byteLength = some byteLength)
      (comparison : op.spelling.symbol.isComparison = true) :
      ConstantOutcome op left right (.ok (.integerLiteral
        (if storedComparison op.spelling.symbol
            (isUnsignedOperation op.spelling left.isUnsigned right.isUnsigned) left right then ['1']
          else ['0']) booleanResult))
  | zeroDivisor (byteLength : Nat)
      (length : operationLength op.spelling left.byteLength right.byteLength = some byteLength)
      (arithmetic : op.spelling.symbol.isComparison = false)
      (folded : foldedValue op left right byteLength = none)
      (expected : expectedValue op left right byteLength = none) :
      ConstantOutcome op left right (.error "division by zero in binary expression")
  | computed (byteLength : Nat)
      (length : operationLength op.spelling left.byteLength right.byteLength = some byteLength)
      (arithmetic : op.spelling.symbol.isComparison = false) :
      ConstantOutcome op left right (foldedNode (foldedValue op left right byteLength))

section IntegerOperations
variable {op : SourceOperator} {left right : IntegerValue} {byteLength : Nat}

theorem values_of_division_by_zero (left : IntegerValue) (byteLength : Nat)
    (division : op.spelling.symbol.isDivision = true)
    (zero : right.value = 0) :
    foldedValue op left right byteLength = none ∧ expectedValue op left right byteLength = none := by
  have cases : op.spelling.symbol = .divide ∨ op.spelling.symbol = .modulo := by
    simpa [BinaryOperator.isDivision] using division
  have reads (isUnsigned : Bool) : reading isUnsigned (right.extended byteLength) = 0 := by
    rw [extended_of_value_zero zero, reading_eq_zero_iff]
  rcases cases with symbol | symbol <;>
    simp [foldedValue, expectedValue, foldPattern, integerOperation, symbol,
      setWidth_of_value_zero zero, reads]

theorem foldedNode_represents (folded : Option IntegerValue)
    (constant : ∀ view, folded = some view → IsConstantView view) :
    Represents (foldedNode folded) (folded.map .integer) := by
  cases folded with
  | none => exact .refused _
  | some view =>
      exact .integer _ view (constant view rfl)
        (parseUnsignedIntegerLiteral_decimal (constant view rfl).toNat_le_maxUInt64)

theorem evaluateIntegers_arithmetic
    (length : operationLength op.spelling left.byteLength right.byteLength = some byteLength)
    (arithmetic : op.spelling.symbol.isComparison = false) :
    evaluateIntegers op.spelling left right =
      (expectedValue op left right byteLength).map .integer := by
  simp only [evaluateIntegers, operate, length, arithmetic, Bool.false_eq_true, if_false, expectedValue,
    Option.map_map]
  rfl

variable {leftText rightText : Spelling}
  (leftParsed : parseUnsignedIntegerLiteral leftText = some left.bits.toNat)
  (rightParsed : parseUnsignedIntegerLiteral rightText = some right.bits.toNat)

include leftParsed rightParsed in
theorem foldLiterals_comparison (comparison : op.spelling.symbol.isComparison = true)
    (selected : SelectedOperation) :
    foldLiterals op.spelling.symbol selected leftText rightText (integerView left)
        (integerView right) =
      .ok (.integerLiteral
        (if storedComparison op.spelling.symbol
            (isUnsignedOperation op.spelling left.isUnsigned right.isUnsigned) left right then ['1']
          else ['0']) booleanResult) := by
  rw [foldLiterals, leftParsed, rightParsed, isUnsignedOperation,
    op.ordinary_of_isComparison comparison]
  simp only [comparison, if_true, foldComparison_eq _ comparison, integerView_isUnsigned]
  rfl

variable (scope : Scope) (rightLiteral : Option Spelling)
  (leftView : IsConstantView left) (rightView : IsConstantView right)
  (literal : rightLiteral.bind parseUnsignedIntegerLiteral = some 0 → right.value = 0)

include leftParsed rightParsed leftView rightView literal

theorem analyzeBinary_outcome :
    ConstantOutcome op left right (analyzeBinary scope op.spelling rightLiteral
      (.integerLiteral leftText (integerView left))
      (.integerLiteral rightText (integerView right))) := by
  cases length : operationLength op.spelling left.byteLength right.byteLength with
  | none =>
      rw [analyzeBinary_eq_integer scope op rightLiteral
        (by simp [Hir.Expr.result, TemplateName.isUser])
        (by simp [Hir.Expr.result, TemplateName.isUser]) (by simp [Hir.Expr.result])
        (by simp [Hir.Expr.result]), analyzeIntegerBinary, if_pos (integerSymbol_isNone length)]
      exact .unsupported _ length
  | some byteLength =>
      have lengthCases := operationLength_cases op left right leftView rightView length
      rw [analyzeBinary_integers scope op left right rightLiteral length (by omega)]
      by_cases comparison : op.spelling.symbol.isComparison = true
      · have division := BinaryOperator.isDivision_of_isComparison comparison
        rw [if_neg fun both => by simp [division] at both,
          foldLiterals_comparison leftParsed rightParsed comparison]
        exact .compared byteLength length comparison
      · have arithmetic : op.spelling.symbol.isComparison = false := by simpa using comparison
        split
        · rename_i zeroLiteral
          obtain ⟨folded, expected⟩ :=
            values_of_division_by_zero left byteLength zeroLiteral.1 (literal zeroLiteral.2)
          exact .zeroDivisor byteLength length arithmetic folded expected
        · rw [foldLiterals_arithmetic leftView rightView lengthCases leftParsed rightParsed
            arithmetic]
          exact .computed byteLength length arithmetic

omit leftParsed rightParsed literal
variable {node : Analysis Hir.Expr} (outcome : ConstantOutcome op left right node)

include outcome

theorem ConstantOutcome.represents (exact : FoldsExactly op.spelling left right) :
    Represents node (evaluateIntegers op.spelling left right) := by
  cases outcome with
  | unsupported message length =>
      rw [evaluateIntegers, length]
      exact .refused message
  | compared byteLength length comparison =>
      rw [(storedComparison_eq_iff leftView rightView length comparison).mpr exact,
        evaluateIntegers, length]
      simp only [operate, comparison, if_true]
      refine .boolean _ _ ?_
      split <;> rename_i holds <;> simp [holds] <;> decide
  | zeroDivisor byteLength length arithmetic folded expected =>
      rw [evaluateIntegers_arithmetic length arithmetic, expected]
      exact .refused _
  | computed byteLength length arithmetic =>
      rw [evaluateIntegers_arithmetic length arithmetic,
        ← (foldedValue_eq_expectedValue_iff leftView rightView length arithmetic).mpr exact]
      exact foldedNode_represents _ fun view folded =>
        isConstantView_foldedValue leftView rightView length folded

theorem ConstantOutcome.foldsExactly
    (literal : ∀ text view, node = .ok (.integerLiteral text view) → ∃ value,
      readLiteral text view = some value ∧
        evaluateIntegers op.spelling left right = some value)
    (accepted : (evaluateIntegers op.spelling left right).isSome →
      node ≠ .error "invalid constant integer operation") :
    FoldsExactly op.spelling left right := by
  cases outcome with
  | unsupported message length => simp only [FoldsExactly, length]
  | compared byteLength length comparison =>
      refine (storedComparison_eq_iff leftView rightView length comparison).mp ?_
      obtain ⟨value, read, evaluated⟩ := literal _ _ rfl
      simp only [evaluateIntegers, operate, length, comparison, if_true] at evaluated
      cases evaluated
      generalize storedComparison _ _ _ _ = stored at read ⊢
      generalize integerComparison _ _ _ = expected at read ⊢
      revert read
      revert stored expected
      decide
  | zeroDivisor byteLength length arithmetic folded expected =>
      rw [← foldedValue_eq_expectedValue_iff leftView rightView length arithmetic, folded, expected]
  | computed byteLength length arithmetic =>
      rw [evaluateIntegers_arithmetic length arithmetic] at literal accepted
      rw [← foldedValue_eq_expectedValue_iff leftView rightView length arithmetic]
      exact (foldedNode_agrees_iff _ _ fun view folded =>
        isConstantView_foldedValue leftView rightView length folded).mp ⟨literal, accepted⟩

end IntegerOperations

end HitSimple.Sema

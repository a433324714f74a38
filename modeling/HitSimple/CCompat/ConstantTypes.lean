import HitSimple.CCompat.ConstantMeaning
import HitSimple.CCompat.NumeralValues

namespace HitSimple.CCompat
open Literal (Spelling parseUnsignedIntegerLiteral parseUnsignedIntegerLiteral_le)
open Lexer (digitsValue)
open FixedWidth (IntegerFormat)

theorem ok_of_bind {Error Value Result : Type} {action : Except Error Value}
    {next : Value → Except Error Result} {result : Result} (done : action >>= next = .ok result) :
    ∃ value, action = .ok value ∧ next value = .ok result := by
  cases action with
  | error message => cases done
  | ok value => exact ⟨value, rfl, done⟩

/-! ### Descriptions of types -/

def formatOf (type : TypeInfo) : IntegerFormat :=
  ⟨type.abi.byteLength * 8, type.abi.isSigned⟩

/-- The description of a type of C; a type narrower than `int` may stand for `int`. -/
def Agrees (described : TypeInfo) : ValueType → Prop
  | .integer format =>
      described.abi.kind = .integer ∧ IsStandard described.abi.byteLength ∧
        (formatOf described = format ∨ described.abi.byteLength < 4 ∧ format = int32)
  | .address => described.abi.kind = .pointer
  | .floating => described.abi.kind = .floating

section
variable {described left right : TypeInfo} {format leftFormat rightFormat : IntegerFormat}

theorem formatOf_integerType {bytes : Nat} {isSigned : Bool} :
    formatOf (integerType bytes isSigned) = ⟨bytes * 8, isSigned⟩ := rfl

theorem formatOf_promoteInteger :
    formatOf (promoteInteger described) = promoted (formatOf described) := by
  unfold promoteInteger promoted formatOf
  by_cases narrow : described.abi.byteLength < 4
  · rw [if_pos narrow, if_pos (by dsimp only; omega)]
    rfl
  · rw [if_neg narrow, if_neg (by dsimp only; omega)]

theorem promoted_of_agrees (agrees : Agrees described (.integer format)) :
    promoted format = promoted (formatOf described) := by
  obtain ⟨_, _, rfl | ⟨narrow, rfl⟩⟩ := agrees
  · rfl
  · rw [promoted, promoted, if_pos (show (formatOf described).width < 32 by unfold formatOf; dsimp only; omega)]
    rfl

theorem formatOf_usualIntegerType :
    formatOf (usualIntegerType left right) = usual (formatOf left) (formatOf right) := by
  unfold usualIntegerType usual
  rw [← formatOf_promoteInteger, ← formatOf_promoteInteger]
  generalize promoteInteger left = left
  generalize promoteInteger right = right
  unfold formatOf
  dsimp only
  cases leftSigned : left.abi.isSigned <;> cases rightSigned : right.abi.isSigned <;>
    simp only [Bool.false_eq_true, if_true, if_false, reduceCtorEq] <;>
    split <;> grind [integerType, scalar, TypeInfo.abi]

theorem usual_of_agrees (agreesLeft : Agrees left (.integer leftFormat))
    (agreesRight : Agrees right (.integer rightFormat)) :
    usual leftFormat rightFormat = formatOf (usualIntegerType left right) := by
  rw [formatOf_usualIntegerType, usual, usual, promoted_of_agrees agreesLeft,
    promoted_of_agrees agreesRight]

theorem kind_promoteInteger (isInteger : described.abi.kind = .integer) :
    (promoteInteger described).abi.kind = .integer := by
  unfold promoteInteger
  split
  · rfl
  · exact isInteger

theorem kind_usualIntegerType (isLeft : left.abi.kind = .integer)
    (isRight : right.abi.kind = .integer) :
    (usualIntegerType left right).abi.kind = .integer := by
  have kindLeft := kind_promoteInteger isLeft
  have kindRight := kind_promoteInteger isRight
  unfold usualIntegerType
  dsimp only
  split_ifs <;> first | rfl | assumption

theorem standard_promoteInteger (standard : IsStandard described.abi.byteLength) :
    IsStandard (promoteInteger described).abi.byteLength := by
  unfold promoteInteger
  split
  · exact .inr (.inr (.inl rfl))
  · exact standard

theorem standard_usualIntegerType (standardLeft : IsStandard left.abi.byteLength)
    (standardRight : IsStandard right.abi.byteLength) :
    IsStandard (usualIntegerType left right).abi.byteLength := by
  have promotedLeft := standard_promoteInteger standardLeft
  have promotedRight := standard_promoteInteger standardRight
  unfold usualIntegerType
  dsimp only
  split_ifs <;> assumption

theorem agrees_describedType {type : ValueType} (denoted : describedType described = some type) :
    Agrees described type := by
  unfold describedType at denoted
  split at denoted
  next integer =>
    split at denoted
    next standard =>
      cases denoted
      exact ⟨integer, standard, .inl rfl⟩
    next => cases denoted
  next pointer =>
    cases denoted
    exact pointer
  next floating =>
    cases denoted
    exact floating
  · cases denoted

end

/-! ### Lowered operators -/

section
variable {scope : Scope} {op : BinaryOperator} {left right lowered : ExprResult}

theorem type_of_floating (done : lowerFloating op left right = .ok lowered) :
    (isComparison op = true ∧ lowered.type = integerType 1 false) ∨
      (isComparison op = false ∧ isLogical op = false ∧ lowered.type.abi.kind = .floating) := by
  unfold lowerFloating at done
  split at done
  · cases done
  next arithmetic =>
    cases done
    dsimp only
    split
    next comparing => exact .inl ⟨comparing, rfl⟩
    next notComparing =>
      have notLogical : isLogical op = false := by
        cases op <;> first | rfl | simp [isComparison] at arithmetic
      exact .inr ⟨by simpa using notComparing, notLogical, rfl⟩

theorem type_of_truth (testing : isComparison op = true ∨ isLogical op = true)
    (done : scope.lowerBinary op left right = .ok lowered) :
    lowered.type = integerType 1 false := by
  have notShift : isShift op = false := by
    cases op <;> simp [isShift, isComparison, isLogical] at testing ⊢
  have notSum : op ≠ .add ∧ op ≠ .subtract := by
    constructor <;> rintro rfl <;> simp [isComparison, isLogical] at testing
  have tested : (isComparison op || isLogical op) = true := by simpa using testing
  unfold Scope.lowerBinary Scope.lowerPointer at done
  simp only [notShift, notSum.1, notSum.2, tested, decide_false, Bool.false_and, Bool.or_self,
    Bool.false_eq_true, if_false, if_true] at done
  split at done
  · cases done
    rfl
  split at done
  · rcases type_of_floating done with ⟨_, same⟩ | ⟨notComparing, notLogical, _⟩
    · exact same
    · simp [notComparing, notLogical] at tested
  split at done
  · cases done
  split at done
  · cases done
    rfl
  next notLogical =>
    rw [if_pos (testing.resolve_right notLogical)] at done
    cases done
    rfl

theorem type_of_pointerOffset {pointer index : ExprResult}
    (done : scope.pointerOffset op pointer index = .ok lowered) : lowered.type = pointer.type := by
  unfold Scope.pointerOffset at done
  split at done
  · split at done
    · cases done
    · obtain ⟨_, _, done⟩ := ok_of_bind done
      cases done
      rfl
  · cases done

theorem type_of_pointerDifference (done : scope.pointerDifference left right = .ok lowered) :
    lowered.type = integerType 8 true := by
  unfold Scope.pointerDifference at done
  split at done
  · split at done
    · cases done
    · obtain ⟨_, _, done⟩ := ok_of_bind done
      cases done
      rfl
  · cases done

theorem lowerBinary_of_integers (isLeft : left.type.abi.kind = .integer)
    (isRight : right.type.abi.kind = .integer)
    (done : scope.lowerBinary op left right = .ok lowered) :
    (isShift op = true ∧ checkShiftCount right (promoteInteger left.type) = .ok () ∧
      lowered = ⟨preserveUnsigned (.binary (preserveUnsigned left.expression left.type)
          (cIntegerOperator (promoteInteger left.type).abi.byteLength
            (promoteInteger left.type).abi.isSigned op.lexeme)
          (preserveUnsigned right.expression right.type)) (promoteInteger left.type),
        promoteInteger left.type⟩) ∨
    (isLogical op = true ∧ lowered = ⟨.binary (preserveUnsigned left.expression left.type) op.lexeme
      (preserveUnsigned right.expression right.type), integerType 1 false⟩) ∨
    (isShift op = false ∧ isLogical op = false ∧
      let operationType := usualIntegerType left.type right.type
      let core := CoreExpr.binary (preserveUnsigned left.expression left.type)
        (cIntegerOperator operationType.abi.byteLength operationType.abi.isSigned op.lexeme)
        (preserveUnsigned right.expression right.type)
      lowered = if isComparison op then ⟨core, integerType 1 false⟩
        else ⟨preserveUnsigned core operationType, operationType⟩) := by
  have kinds : isInteger left.type = true ∧ isInteger right.type = true ∧
      isPointer left.type = false ∧ isPointer right.type = false ∧
      isFloating left.type = false ∧ isFloating right.type = false := by
    simp [isInteger, isPointer, isFloating, isLeft, isRight]
  obtain ⟨integerLeft, integerRight, pointerLeft, pointerRight, floatLeft, floatRight⟩ := kinds
  unfold Scope.lowerBinary at done
  simp only [integerLeft, integerRight, pointerLeft, pointerRight, floatLeft, floatRight,
    Bool.or_self, Bool.not_true, Bool.false_eq_true, if_false] at done
  split at done
  next shifting =>
    obtain ⟨⟨⟩, checked, same⟩ := ok_of_bind done
    exact .inl ⟨shifting, checked, (Except.ok.inj same).symm⟩
  next notShift =>
    have noShift : isShift op = false := by simpa using notShift
    split at done
    next logical => exact .inr (.inl ⟨logical, (Except.ok.inj done).symm⟩)
    next notLogical =>
      refine .inr (.inr ⟨noShift, by simpa using notLogical, ?_⟩)
      dsimp only
      split at done
      next comparing => rw [if_pos comparing]; exact (Except.ok.inj done).symm
      next notComparing => rw [if_neg notComparing]; exact (Except.ok.inj done).symm

end

/-! ### Literals -/

theorem holds_natCast (value : Nat) :
    (int32.Holds value ↔ value < 2 ^ 31) ∧ (uint32.Holds value ↔ value < 2 ^ 32) ∧
      (long64.Holds value ↔ value < 2 ^ 63) ∧ (unsignedLong64.Holds value ↔ value < 2 ^ 64) := by
  simp only [IntegerFormat.Holds, int32, uint32, long64, unsignedLong64, if_true,
    Bool.false_eq_true, if_false]
  omega

theorem format_of_literal {base parsed : Nat} {numeral suffix : Spelling} {nonDecimal : Bool}
    {literal : CIntegerLiteral} {format : IntegerFormat}
    (typed : cIntegerType numeral parsed nonDecimal
      (decide (0 < suffix.countP isUnsignedMark)) (suffix.countP isLongMark) = some literal)
    (found : (literalTypes base suffix).find? (fun candidate => candidate.Holds (parsed : Int)) =
      some format)
    (other : nonDecimal = true → base ≠ 10) (decimal : nonDecimal = false → base = 10 ∨ parsed = 0)
    (bound : parsed < 2 ^ 64) :
    format = ⟨literal.byteLength * 8, literal.isSigned⟩ := by
  have unsignedMarks : suffix.any isUnsignedMark = decide (0 < suffix.countP isUnsignedMark) := by
    rw [Bool.eq_iff_iff, decide_eq_true_iff, List.countP_pos_iff, List.any_eq_true]
  have longMarks : suffix.any isLongMark = decide (0 < suffix.countP isLongMark) := by
    rw [Bool.eq_iff_iff, decide_eq_true_iff, List.countP_pos_iff, List.any_eq_true]
  obtain ⟨inInt, inUnsigned, inLong, inUnsignedLong⟩ := holds_natCast parsed
  unfold int32 at inInt
  unfold uint32 at inUnsigned
  unfold long64 at inLong
  unfold unsignedLong64 at inUnsignedLong
  unfold literalTypes at found
  rw [unsignedMarks, longMarks] at found
  unfold cIntegerType at typed
  generalize suffix.countP isUnsignedMark = unsignedCount at typed found
  generalize suffix.countP isLongMark = longCount at typed found
  by_cases unsignedSuffix : 0 < unsignedCount <;> by_cases longSuffix : 0 < longCount <;>
    by_cases ten : base = 10 <;>
    simp [unsignedSuffix, longSuffix, ten, int32, uint32, long64, unsignedLong64] at found typed
  all_goals grind

/-- The literal that the front end reads has the type and the value of the numeral. -/
theorem parsed_of_means {text : Spelling} {format : IntegerFormat} {value : Int}
    {literal : CIntegerLiteral} (means : LiteralMeans text format value)
    (parsed : parseCIntegerLiteral text = some literal) :
    format = ⟨literal.byteLength * 8, literal.isSigned⟩ ∧
      ∃ base digits, Numeral base digits literal.value ∧ value = digitsValue base digits ∧
        parseUnsignedIntegerLiteral literal.value = some (digitsValue base digits) ∧
        format.Holds value := by
  obtain ⟨base, digits, numeral, suffix, rfl, isNumeral, isSuffix, rfl, found⟩ := means
  obtain ⟨scanned, behind, magnitude, scans, _, read, typed⟩ := parseCIntegerLiteral_eq_some.mp parsed
  obtain ⟨wholeScans, decimal⟩ := isNumeral.scans isSuffix
  obtain rfl := scans.unique wholeScans
  obtain rfl := List.append_cancel_left scans.numeral.1
  have same := parseUnsignedIntegerLiteral_numeral isNumeral
  rw [read] at same
  split at same
  next fits =>
    cases same
    have bound : digitsValue base digits < 2 ^ 64 := by
      unfold Literal.maxUInt64 at fits
      omega
    have other : (cIntegerRadix (scanned ++ suffix)).nonDecimal = true → base ≠ 10 := by
      rintro nonDecimal rfl
      cases isNumeral with
      | decimal digits leading =>
          obtain ⟨first, more, rfl, _⟩ := digits.head
          have plain : (first :: more ++ suffix).head? ≠ some '0' := leading
          rw [cIntegerRadix_decimal plain] at nonDecimal
          cases nonDecimal
      | radix known => cases known
    have holds := List.find?_some found
    refine ⟨format_of_literal typed found other ?_ bound, base, digits, ?_, rfl, ?_, ?_⟩
    · intro isDecimal
      rcases decimal with nonDecimal | rest
      · rw [isDecimal] at nonDecimal
        cases nonDecimal
      · exact rest
    · rw [cIntegerType_value typed]
      exact isNumeral
    · rw [cIntegerType_value typed]
      exact read
    · exact of_decide_eq_true holds
  next => cases same

theorem length_of_parsed {text : Spelling} {literal : CIntegerLiteral}
    (parsed : parseCIntegerLiteral text = some literal) :
    literal.byteLength = 4 ∨ literal.byteLength = 8 := by
  obtain ⟨_, _, _, _, _, _, typed⟩ := parseCIntegerLiteral_eq_some.mp parsed
  unfold cIntegerType at typed
  grind

/-- No character of a numeral is one of a suffix. -/
theorem Numeral.rdropWhile {base : Nat} {digits numeral : Spelling}
    (isNumeral : Numeral base digits numeral) :
    numeral.rdropWhile isLiteralSuffix = numeral := by
  have mark {ch : Char} (suffix : isLiteralSuffix ch = true) :
      isUnsignedMark ch = true ∨ isLongMark ch = true := by
    simpa [isLiteralSuffix, isUnsignedMark, isLongMark, or_assoc] using suffix
  have plain {base : Nat} {run : Spelling} (valid : Lexer.Digits (isDigitOf base) run) {ch : Char}
      (member : ch ∈ run) : isLiteralSuffix ch = false := by
    rw [← Bool.not_eq_true]
    intro suffix
    obtain ⟨notSeparator, notDigit⟩ := not_isDigitOf_mark base (mark suffix)
    rcases valid.mem ch member with digit | separator
    · rw [notDigit] at digit
      cases digit
    · exact notSeparator separator
  rw [List.rdropWhile_eq_self_iff]
  intro nonempty
  have last := List.getLast_mem nonempty
  generalize numeral.getLast nonempty = ch at last
  rw [Bool.not_eq_true]
  cases isNumeral with
  | decimal valid => exact plain valid last
  | octal valid => exact plain valid last
  | radix known valid =>
      rcases List.mem_cons.mp last with rfl | last
      · rfl
      rcases List.mem_cons.mp last with rfl | last
      · cases known <;> rfl
      · exact plain valid last

/-! ### Lowered expressions -/

section
variable {scope : Scope} {lowered : ExprResult}

attribute [local simp] Scope.lowerExpr

theorem lowerInteger_ok {text : String} (done : lowerInteger text = .ok lowered) :
    ∃ parsed, parseCIntegerLiteral text.toList = some parsed ∧
      lowered = ⟨if parsed.isSigned then .integerLiteral parsed.value
        else .unsigned (.integerLiteral parsed.value) parsed.byteLength,
        integerType parsed.byteLength parsed.isSigned⟩ := by
  unfold lowerInteger at done
  split at done
  · cases done
  next parsed found => exact ⟨parsed, found, (Except.ok.inj done).symm⟩

theorem lowerExpr_unary {op : UnaryOperator} {operand : Expr}
    (arithmetic : op = .not ∨ op = .plus ∨ op = .negate ∨ op = .complement)
    (done : scope.lowerExpr (.unary op operand) = .ok lowered) :
    ∃ inner, scope.lowerExpr operand = .ok inner ∧ lowerUnary op inner = .ok lowered := by
  rw [Scope.lowerExpr, if_neg (by rcases arithmetic with rfl | rfl | rfl | rfl <;> decide)] at done
  exact ok_of_bind done

theorem lowerUnary_ok {op : UnaryOperator} {inner : ExprResult}
    (done : lowerUnary op inner = .ok lowered) :
    (op = .not ∧ (inner.type.abi.kind = .integer ∨ inner.type.abi.kind = .pointer) ∧
      lowered = ⟨.unary .not inner.expression, integerType 1 false⟩) ∨
    (op ≠ .not ∧ inner.type.abi.kind = .integer ∧
      lowered = ⟨preserveUnsigned (.unary op (preserveUnsigned inner.expression inner.type))
        (promoteInteger inner.type), promoteInteger inner.type⟩) := by
  unfold lowerUnary at done
  split at done
  next isNot =>
    split at done
    · cases done
    next kinds =>
      refine .inl ⟨isNot, ?_, (Except.ok.inj done).symm⟩
      simp only [isInteger, isPointer, Bool.and_eq_true, Bool.not_eq_true', decide_eq_false_iff_not,
        not_and_or, not_not] at kinds
      exact kinds
  next notNot =>
    split at done
    · cases done
    next kinds =>
      refine .inr ⟨notNot, ?_, (Except.ok.inj done).symm⟩
      simpa [isInteger] using kinds

theorem lowerExpr_binary {op : BinaryOperator} {left right : Expr}
    (done : scope.lowerExpr (.binary op left right) = .ok lowered) :
    ∃ leftResult rightResult, scope.lowerExpr left = .ok leftResult ∧
      scope.lowerExpr right = .ok rightResult ∧
      scope.lowerBinary op leftResult rightResult = .ok lowered := by
  rw [Scope.lowerExpr] at done
  obtain ⟨leftResult, loweredLeft, done⟩ := ok_of_bind done
  obtain ⟨rightResult, loweredRight, done⟩ := ok_of_bind done
  exact ⟨leftResult, rightResult, loweredLeft, loweredRight, done⟩

theorem lowerExpr_conditional {condition thenExpr elseExpr : Expr}
    (done : scope.lowerExpr (.conditional condition thenExpr elseExpr) = .ok lowered) :
    ∃ conditionResult thenResult elseResult, scope.lowerExpr condition = .ok conditionResult ∧
      scope.lowerExpr thenExpr = .ok thenResult ∧ scope.lowerExpr elseExpr = .ok elseResult ∧
      sameType thenResult.type elseResult.type = true ∧
      lowered = ⟨.ternary conditionResult.expression thenResult.expression elseResult.expression,
        thenResult.type⟩ := by
  rw [Scope.lowerExpr] at done
  obtain ⟨conditionResult, loweredCondition, done⟩ := ok_of_bind done
  obtain ⟨thenResult, loweredThen, done⟩ := ok_of_bind done
  obtain ⟨elseResult, loweredElse, done⟩ := ok_of_bind done
  unfold Scope.lowerConditional at done
  split at done
  · cases done
  next same =>
    exact ⟨conditionResult, thenResult, elseResult, loweredCondition, loweredThen, loweredElse,
      by simpa using same, (Except.ok.inj done).symm⟩

theorem lowerExpr_cast {source : CType} {pointerDepth : Nat} {operand : Expr}
    (done : scope.lowerExpr (.cast source pointerDepth operand) = .ok lowered) :
    ∃ target inner, scope.declarations.resolveType source pointerDepth = some target ∧
      scope.lowerExpr operand = .ok inner ∧ Scope.lowerCast target inner = .ok lowered := by
  rw [Scope.lowerExpr] at done
  obtain ⟨target, resolved, done⟩ := ok_of_bind done
  obtain ⟨inner, loweredOperand, done⟩ := ok_of_bind done
  refine ⟨target, inner, ?_, loweredOperand, done⟩
  unfold elsewhere at resolved
  split at resolved
  next found => rw [found, Except.ok.inj resolved]
  · cases resolved

theorem lowerAccess_ok {expression : Expr} (done : scope.lowerAccess expression = .ok lowered) :
    ∃ described, scope.access expression = some described ∧ lowered = ⟨.other, described⟩ := by
  obtain ⟨described, found, done⟩ := ok_of_bind done
  refine ⟨described, ?_, (Except.ok.inj done).symm⟩
  unfold elsewhere at found
  split at found
  next same => rw [same, Except.ok.inj found]
  · cases found

theorem lowerExpr_access {expression : Expr} (accessing : isAccess expression = true) :
    scope.lowerExpr expression = scope.lowerAccess expression := by
  cases expression with
  | unary op operand => rw [Scope.lowerExpr, if_pos (by simpa [isAccess] using accessing)]
  | identifier => rfl
  | index => rfl
  | call => rfl
  | member => rfl
  | _ => cases accessing

theorem type_of_cast {target : TypeInfo} {inner : ExprResult}
    (done : Scope.lowerCast target inner = .ok lowered) : lowered.type = target := by
  unfold Scope.lowerCast at done
  split_ifs at done <;> first | (cases done; rfl) | cases done

theorem lowerExpr_assignment {op : AssignmentOperator} {target value : Expr}
    (done : scope.lowerExpr (.assignment op target value) = .ok lowered) :
    scope.lvalue target = some lowered.type := by
  rw [Scope.lowerExpr] at done
  obtain ⟨described, found, done⟩ := ok_of_bind done
  obtain ⟨valueResult, _, done⟩ := ok_of_bind done
  obtain ⟨_, _, done⟩ := ok_of_bind done
  have same : lowered.type = described := by
    cases done
    rfl
  unfold elsewhere at found
  split at found
  next known => rw [known, same, Except.ok.inj found]
  · cases found

theorem lowerSizeof_ok {expression : Expr} (done : scope.lowerSizeof expression = .ok lowered) :
    ∃ byteLength, scope.sizeOf expression = .ok byteLength ∧
      lowered = ⟨.integerLiteral (toString byteLength).toList,
        integerType scope.declarations.pointerByteLength false⟩ := by
  obtain ⟨byteLength, size, done⟩ := ok_of_bind done
  split at done
  · cases done
  next => exact ⟨byteLength, size, (Except.ok.inj done).symm⟩

end

/-! ### The types of C -/

section
variable {scope : Scope}

theorem abi_of_sameType {left right : TypeInfo} (same : sameType left right = true) :
    left.abi.kind = right.abi.kind ∧ left.abi.byteLength = right.abi.byteLength ∧
      left.abi.isSigned = right.abi.isSigned := by
  obtain ⟨leftAbi, _, leftPointee⟩ := left
  obtain ⟨rightAbi, _, rightPointee⟩ := right
  have sameAbis : sameAbi leftAbi rightAbi = true := by
    cases leftPointee <;> cases rightPointee <;> simp_all [sameType]
  simp only [sameAbi, decide_eq_true_eq] at sameAbis
  exact ⟨sameAbis.1, sameAbis.2.1, sameAbis.2.2.1⟩

theorem usual_self {format : IntegerFormat} : usual format format = promoted format := by
  unfold usual
  dsimp only
  rw [if_neg (lt_irrefl _), if_neg (lt_irrefl _), Bool.and_self]

theorem Agrees.promote {described : TypeInfo} {format : IntegerFormat}
    (agrees : Agrees described (.integer format)) :
    Agrees (promoteInteger described) (.integer (promoted format)) :=
  ⟨kind_promoteInteger agrees.1, standard_promoteInteger agrees.2.1,
    .inl (by rw [formatOf_promoteInteger, promoted_of_agrees agrees])⟩

theorem Agrees.conditional {left right : TypeInfo} {leftFormat rightFormat : IntegerFormat}
    (agreesLeft : Agrees left (.integer leftFormat))
    (agreesRight : Agrees right (.integer rightFormat)) (same : sameType left right = true) :
    Agrees left (.integer (usual leftFormat rightFormat)) := by
  obtain ⟨_, lengths, signs⟩ := abi_of_sameType same
  have formats : formatOf right = formatOf left := by rw [formatOf, formatOf, lengths, signs]
  rw [usual_of_agrees agreesLeft agreesRight, formatOf_usualIntegerType, formats, usual_self]
  refine ⟨agreesLeft.1, agreesLeft.2.1, ?_⟩
  unfold promoted
  split
  next narrow =>
    refine .inr ⟨?_, rfl⟩
    unfold formatOf at narrow
    dsimp only at narrow
    omega
  next => exact .inl rfl

theorem not_logical_of_shift {op : BinaryOperator} (shifting : isShift op = true) :
    isLogical op = false := by
  cases op <;> simp [isShift, isLogical] at shifting ⊢

theorem agrees_truth : Agrees (integerType 1 false) (.integer int32) :=
  ⟨rfl, .inl rfl, .inr ⟨by decide, rfl⟩⟩

theorem agrees_size (lp64 : scope.declarations.pointerByteLength = 8) :
    Agrees (integerType scope.declarations.pointerByteLength false) (.integer unsignedLong64) := by
  rw [lp64]
  exact ⟨rfl, .inr (.inr (.inr rfl)), .inl rfl⟩

theorem agrees_of_lowered (lp64 : scope.declarations.pointerByteLength = 8) {expression : Expr}
    {type : ValueType} (typed : HasType scope expression type) :
    ∀ lowered, scope.lowerExpr expression = .ok lowered → Agrees lowered.type type := by
  induction typed with
  | @integer text format value means =>
      intro lowered done
      obtain ⟨parsed, found, rfl⟩ := lowerInteger_ok done
      have same := (parsed_of_means means found).1
      exact ⟨rfl, .inr (.inr (length_of_parsed found)), .inl same.symm⟩
  | float =>
      intro lowered done
      cases done
      rfl
  | string =>
      intro lowered done
      cases done
      rfl
  | character =>
      intro lowered done
      cases done
      exact agrees_truth
  | access accessing found denoted =>
      intro lowered done
      rw [lowerExpr_access accessing] at done
      obtain ⟨described, same, rfl⟩ := lowerAccess_ok done
      rw [found] at same
      cases same
      exact agrees_describedType denoted
  | not typed ih =>
      intro lowered done
      obtain ⟨inner, _, done⟩ := lowerExpr_unary (.inl rfl) done
      rcases lowerUnary_ok done with ⟨_, _, rfl⟩ | ⟨notNot, _⟩
      · exact agrees_truth
      · exact absurd rfl notNot
  | unary arithmetic typed ih =>
      intro lowered done
      obtain ⟨inner, loweredOperand, done⟩ := lowerExpr_unary (.inr arithmetic) done
      rcases lowerUnary_ok done with ⟨rfl, _⟩ | ⟨_, _, rfl⟩
      · rcases arithmetic with h | h | h <;> cases h
      · exact (ih inner loweredOperand).promote
  | truth testing leftTyped rightTyped =>
      intro lowered done
      obtain ⟨_, _, _, _, done⟩ := lowerExpr_binary done
      rw [type_of_truth testing done]
      exact agrees_truth
  | shift shifting leftTyped rightTyped ihLeft ihRight =>
      intro lowered done
      obtain ⟨left, right, loweredLeft, loweredRight, done⟩ := lowerExpr_binary done
      have agreesLeft := ihLeft left loweredLeft
      have agreesRight := ihRight right loweredRight
      rcases lowerBinary_of_integers agreesLeft.1 agreesRight.1 done with
        ⟨_, _, rfl⟩ | ⟨logical, _⟩ | ⟨notShift, _⟩
      · exact agreesLeft.promote
      · rw [not_logical_of_shift shifting] at logical
        cases logical
      · rw [shifting] at notShift
        cases notShift
  | arithmetic plain leftTyped rightTyped ihLeft ihRight =>
      intro lowered done
      obtain ⟨left, right, loweredLeft, loweredRight, done⟩ := lowerExpr_binary done
      have agreesLeft := ihLeft left loweredLeft
      have agreesRight := ihRight right loweredRight
      obtain ⟨notComparison, notLogical, notShift⟩ := plain
      rcases lowerBinary_of_integers agreesLeft.1 agreesRight.1 done with
        ⟨shifting, _⟩ | ⟨logical, _⟩ | ⟨_, _, same⟩
      · rw [notShift] at shifting
        cases shifting
      · rw [notLogical] at logical
        cases logical
      · rw [notComparison] at same
        subst same
        exact ⟨kind_usualIntegerType agreesLeft.1 agreesRight.1,
          standard_usualIntegerType agreesLeft.2.1 agreesRight.2.1,
          .inl (usual_of_agrees agreesLeft agreesRight).symm⟩
  | floating plain leftTyped rightTyped ihLeft ihRight =>
      intro lowered done
      obtain ⟨left, right, loweredLeft, loweredRight, done⟩ := lowerExpr_binary done
      have agreesLeft : left.type.abi.kind = .floating := ihLeft left loweredLeft
      have agreesRight : right.type.abi.kind = .floating := ihRight right loweredRight
      simp only [Scope.lowerBinary, isPointer, isFloating, agreesLeft, agreesRight, reduceCtorEq,
        decide_false, decide_true, Bool.or_self, Bool.false_eq_true, if_false, if_true] at done
      rcases type_of_floating done with ⟨comparing, _⟩ | ⟨_, _, kind⟩
      · rw [plain] at comparing
        cases comparing
      · exact kind
  | difference leftTyped rightTyped ihLeft ihRight =>
      intro lowered done
      obtain ⟨left, right, loweredLeft, loweredRight, done⟩ := lowerExpr_binary done
      have agreesLeft : left.type.abi.kind = .pointer := ihLeft left loweredLeft
      have agreesRight : right.type.abi.kind = .pointer := ihRight right loweredRight
      simp only [Scope.lowerBinary, Scope.lowerPointer, isPointer, agreesLeft, agreesRight,
        decide_true, Bool.or_self, Bool.and_self, if_true] at done
      rw [type_of_pointerDifference done]
      exact ⟨rfl, .inr (.inr (.inr rfl)), .inl rfl⟩
  | @offset op _ _ _ additive leftTyped rightTyped ihLeft ihRight =>
      intro lowered done
      obtain ⟨left, right, loweredLeft, loweredRight, done⟩ := lowerExpr_binary done
      have agreesLeft : left.type.abi.kind = .pointer := ihLeft left loweredLeft
      have agreesRight : right.type.abi.kind = .integer := (ihRight right loweredRight).1
      have offsets : scope.pointerOffset op left right = .ok lowered := by
        rcases additive with rfl | rfl <;>
          simpa [Scope.lowerBinary, Scope.lowerPointer, isPointer, isInteger, agreesLeft,
            agreesRight] using done
      exact (congrArg (·.abi.kind) (type_of_pointerOffset offsets)).trans agreesLeft
  | offsetRight leftTyped rightTyped ihLeft ihRight =>
      intro lowered done
      obtain ⟨left, right, loweredLeft, loweredRight, done⟩ := lowerExpr_binary done
      have agreesLeft : left.type.abi.kind = .integer := (ihLeft left loweredLeft).1
      have agreesRight : right.type.abi.kind = .pointer := ihRight right loweredRight
      have offsets : scope.pointerOffset .add right left = .ok lowered := by
        simpa [Scope.lowerBinary, Scope.lowerPointer, isPointer, agreesLeft, agreesRight] using done
      exact (congrArg (·.abi.kind) (type_of_pointerOffset offsets)).trans agreesRight
  | conditional conditionTyped leftTyped rightTyped _ ihThen ihElse =>
      intro lowered done
      obtain ⟨_, thenResult, elseResult, _, loweredThen, loweredElse, same, rfl⟩ :=
        lowerExpr_conditional done
      exact (ihThen thenResult loweredThen).conditional (ihElse elseResult loweredElse) same
  | sameBranches conditionTyped other leftTyped rightTyped _ ihThen ihElse =>
      intro lowered done
      obtain ⟨_, thenResult, elseResult, _, loweredThen, _, _, rfl⟩ := lowerExpr_conditional done
      exact ihThen thenResult loweredThen
  | assignment found denoted =>
      intro lowered done
      have same := lowerExpr_assignment done
      rw [found] at same
      rw [← Option.some.inj same]
      exact agrees_describedType denoted
  | cast found denoted =>
      intro lowered done
      obtain ⟨target, inner, resolved, _, done⟩ := lowerExpr_cast done
      rw [found] at resolved
      rw [type_of_cast done, ← Option.some.inj resolved]
      exact agrees_describedType denoted
  | sizeofType =>
      intro lowered done
      obtain ⟨_, _, rfl⟩ := lowerSizeof_ok done
      exact agrees_size lp64
  | sizeofIdentifier =>
      intro lowered done
      obtain ⟨_, _, rfl⟩ := lowerSizeof_ok done
      exact agrees_size lp64

end

end HitSimple.CCompat

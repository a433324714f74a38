import HitSimple.CCompat.ConstantAgreement

namespace HitSimple.CCompat
open FixedWidth (IntegerFormat)

section
variable {scope : Scope}

/-- A count that is converted to the promoted type of its operand is as good as the count for the
tests; where the conversion loses the sign, the count becomes too large. -/
theorem converted_count {described : TypeInfo} {value promotedValue : ConstantInteger}
    {count converted : Int} {width : Nat} (standard : IsStandard described.abi.byteLength)
    (holds : (formatOf described).Holds count) (short : width ≤ 64) (normal : promotedValue.Normal)
    (format : promotedValue.format = promoted value.format) (reads : promotedValue.reading = count)
    (same : (formatOf (promoteInteger described)).convert promotedValue.bits = converted) :
    converted < 0 ∨ width ≤ converted.natAbs ↔ count < 0 ∨ (width : Int) ≤ count := by
  have fits : (formatOf (promoteInteger described)).Holds count := by
    rw [formatOf_promoteInteger]
    exact holds_promoted holds
  have positive := (standard_promoteInteger standard).positive
  by_cases kept : promotedValue.KeepsSign (promoteInteger described).abi.byteLength
  · have equal : converted = count := by
      rw [← same, ← IntegerFormat.convert_of_holds positive fits, ← reads]
      exact ConstantInteger.convert_bits _ normal kept
    rw [equal]
    omega
  · obtain ⟨wider, negative⟩ : promotedValue.byteLength < (promoteInteger described).abi.byteLength ∧
        promotedValue.reading < 0 := by
      unfold ConstantInteger.KeepsSign at kept
      omega
    have wide : 32 ≤ promotedValue.byteLength * 8 := by
      have widths : promotedValue.byteLength * 8 = (promoted value.format).width :=
        congrArg IntegerFormat.width format
      rw [widths]
      unfold promoted
      split
      · exact le_refl 32
      · omega
    have lengths : promotedValue.byteLength = 4 ∧ (promoteInteger described).abi.byteLength = 8 := by
      have narrow := normal.standard
      have long := standard_promoteInteger standard
      unfold IsStandard at narrow long
      omega
    have bits := normal.reading_eq
    have bound := normal.bound
    rw [lengths.1] at bits bound
    have large : converted = promotedValue.bits := by
      rw [← same]
      refine IntegerFormat.convert_of_holds positive ?_
      unfold IntegerFormat.Holds formatOf
      rw [lengths.2]
      dsimp only
      split <;> omega
    split at bits <;> omega

theorem checkShiftCount_error {right : ExprResult} {operationType : TypeInfo}
    {value : ConstantInteger} {count : Int} (isInteger : right.type.abi.kind = .integer)
    (denotes : Denotes right.type value count)
    (evaluated : evaluateIntegerConstant right.expression = .ok value)
    (short : operationType.abi.byteLength * 8 ≤ 64) :
    (∃ message, checkShiftCount right operationType = .error message) ↔
      count < 0 ∨ ((formatOf operationType).width : Int) ≤ count := by
  obtain ⟨standard, reads, _, holds⟩ := (denotes_integer isInteger).mp denotes
  obtain ⟨promotedValue, normal, format, same, counted⟩ :=
    constantShiftCount_eq (promoteInteger right.type).abi.isSigned (standard_promoteInteger standard)
      evaluated
  have decided := converted_count standard holds short normal format (same.trans reads) rfl
  unfold formatOf at decided ⊢
  rw [← decided]
  unfold checkShiftCount
  dsimp only
  rw [counted _ rfl]
  dsimp only
  split
  next negative => exact iff_of_true ⟨_, rfl⟩ (.inl (of_decide_eq_true negative))
  next nonneg =>
    split
    next large => exact iff_of_true ⟨_, rfl⟩ (.inr large)
    next small =>
      refine iff_of_false nofun ?_
      rintro (negative | large)
      · exact nonneg (decide_eq_true negative)
      · exact small large

theorem error_of_bind {Value : Type} {check : Lowered Unit} {next : Unit → Lowered Value}
    (continues : ∃ value, next () = .ok value) :
    (∃ message, (check >>= next) = .error message) ↔ ∃ message, check = .error message := by
  obtain ⟨value, done⟩ := continues
  cases check with
  | error message => exact iff_of_true ⟨message, rfl⟩ ⟨message, rfl⟩
  | ok _ => exact iff_of_false (fun ⟨_, same⟩ => by cases done.symm.trans same) nofun

theorem lowerBinary_of_shift {op : BinaryOperator} {left right : ExprResult}
    (shifting : isShift op = true) (isLeft : left.type.abi.kind = .integer)
    (isRight : right.type.abi.kind = .integer) :
    scope.lowerBinary op left right = lowerShift op left right := by
  simp [Scope.lowerBinary, isPointer, isFloating, isInteger, isLeft, isRight, shifting]

/-- A shift, by an operator or in an assignment, with the type of what is shifted and the count. -/
inductive ShiftBy (scope : Scope) : Expr → IntegerFormat → Expr → Prop
  | binary {op : BinaryOperator} {left count : Expr} {lowered : ExprResult}
      {format : IntegerFormat} (shifting : isShift op = true)
      (accepted : scope.lowerExpr left = .ok lowered)
      (typed : HasType scope left (.integer format)) :
      ShiftBy scope (.binary op left count) format count
  | assignment {op : AssignmentOperator} {target count : Expr} {described : TypeInfo}
      {format : IntegerFormat} (shifting : Scope.isShiftAssignment op = true)
      (accepted : scope.lvalue target = some described)
      (denoted : describedType described = some (.integer format)) :
      ShiftBy scope (.assignment op target count) format count

/-- The errors of a shift of accepted operands are those of the check of its count. -/
theorem error_of_shift (lp64 : scope.declarations.pointerByteLength = 8) {expression count : Expr}
    {format countFormat : IntegerFormat} {right : ExprResult}
    (shift : ShiftBy scope expression format count) (accepted : scope.lowerExpr count = .ok right)
    (typed : HasType scope count (.integer countFormat)) :
    ∃ operationType, formatOf operationType = promoted format ∧
      IsStandard operationType.abi.byteLength ∧
      ((∃ message, scope.lowerExpr expression = .error message) ↔
        ∃ message, checkShiftCount right operationType = .error message) := by
  have isRight := (agrees_of_lowered lp64 typed right accepted).1
  cases shift with
  | @binary op left _ lowered _ shifting acceptedLeft typedLeft =>
      have agrees := agrees_of_lowered lp64 typedLeft lowered acceptedLeft
      refine ⟨promoteInteger lowered.type, ?_, standard_promoteInteger agrees.2.1, ?_⟩
      · rw [formatOf_promoteInteger, promoted_of_agrees agrees]
      · rw [Scope.lowerExpr, acceptedLeft, accepted]
        change (∃ message, scope.lowerBinary op lowered right = .error message) ↔ _
        rw [lowerBinary_of_shift shifting agrees.1 isRight]
        exact error_of_bind ⟨_, rfl⟩
  | @assignment op target _ described _ shifting acceptedTarget denoted =>
      have agrees := agrees_describedType denoted
      refine ⟨promoteInteger described, ?_, standard_promoteInteger agrees.2.1, ?_⟩
      · rw [formatOf_promoteInteger, promoted_of_agrees agrees]
      · rw [Scope.lowerExpr, accepted, acceptedTarget]
        change (∃ message, (Scope.checkAssignment op described right >>= _) = .error message) ↔ _
        have checks : Scope.checkAssignment op described right =
            checkShiftCount right (promoteInteger described) := by
          have notAssign : op ≠ .assign := by
            rintro rfl
            cases shifting
          simp [Scope.checkAssignment, notAssign, isInteger, agrees.1, isRight, shifting]
        rw [checks]
        exact error_of_bind ⟨_, rfl⟩

/-! ### The evaluator and C -/

/-- The type in which the evaluator carries a value of a type of C: a narrower one for some values
of `int`, and a signed one for some of 64 bits. -/
def CarriedAs (format : IntegerFormat) (value : ConstantInteger) : Prop :=
  value.format = format ∨ value.byteLength < 4 ∧ format = int32 ∨
    format.width = 64 ∧ value.isSigned = true ∧ 4 ≤ value.byteLength

def StandsFor : ValueType → ConstantInteger → Int → Prop
  | .integer format, value, constant => value.reading = constant ∧ CarriedAs format value
  | .address, value, constant => unsignedLong64.convert value.reading = constant
  | .floating, _, _ => False

theorem standsFor_of_denotes {described : TypeInfo} {type : ValueType} {value : ConstantInteger}
    {constant : Int} (agrees : Agrees described type)
    (denotes : Denotes described value constant) : StandsFor type value constant := by
  cases type with
  | integer format =>
      obtain ⟨isInteger, _, same⟩ := agrees
      obtain ⟨_, reads, carried, _⟩ := (denotes_integer isInteger).mp denotes
      refine ⟨reads, ?_⟩
      rcases same with rfl | ⟨narrow, rfl⟩
      · exact carried.imp_right .inr
      · rcases carried with same | ⟨width, _⟩
        · have length : value.byteLength * 8 = described.abi.byteLength * 8 :=
            congrArg IntegerFormat.width same
          exact .inr (.inl ⟨by omega, rfl⟩)
        · simp only [formatOf] at width
          omega
  | address => exact (denotes_pointer agrees).mp denotes
  | floating =>
      have kind : described.abi.kind = .floating := agrees
      rcases denotes.kind with other | other <;> rw [kind] at other <;> cases other

end

/-- The evaluator's values are those of C, up to the types in which it carries them; a shift is
reported if and only if the value of its count is out of range; nothing overflows. -/
theorem constants_agree (scope : Scope) (lp64 : scope.declarations.pointerByteLength = 8) :
    (∀ expression lowered type value constant, scope.lowerExpr expression = .ok lowered →
      HasType scope expression type → Means scope expression constant →
      evaluateIntegerConstant lowered.expression = .ok value → Undisturbed lowered.expression →
        StandsFor type value constant) ∧
    (∀ expression format count countFormat lowered, ShiftBy scope expression format count →
      scope.lowerExpr count = .ok lowered → HasType scope count (.integer countFormat) →
        (∀ value constant, evaluateIntegerConstant lowered.expression = .ok value →
          Undisturbed lowered.expression → Means scope count constant →
            ((∃ message, scope.lowerExpr expression = .error message) ↔
              constant < 0 ∨ ((promoted format).width : Int) ≤ constant)) ∧
        ((∀ value, evaluateIntegerConstant lowered.expression ≠ .ok value) →
          ¬∃ message, scope.lowerExpr expression = .error message)) ∧
    ∀ core, evaluateIntegerConstant core ≠ .error .overflow ∧
      ∀ byteLength isSigned, constantShiftCount core byteLength isSigned ≠ .error .overflow := by
  refine ⟨?_, ?_, fun core => ⟨(gives_evaluate core).safe, constantShiftCount_safe core⟩⟩
  · intro expression lowered type value constant accepted typed means evaluated undisturbed
    exact standsFor_of_denotes (agrees_of_lowered lp64 typed lowered accepted)
      (sound_of_means lp64 means lowered value accepted evaluated undisturbed)
  · intro expression format count countFormat lowered shift accepted typed
    have isInteger := (agrees_of_lowered lp64 typed lowered accepted).1
    obtain ⟨operationType, same, standard, reported⟩ := error_of_shift lp64 shift accepted typed
    rw [reported]
    constructor
    · intro value constant evaluated undisturbed means
      have denotes := sound_of_means lp64 means lowered value accepted evaluated undisturbed
      rw [checkShiftCount_error isInteger denotes evaluated standard.le, same]
    · intro valueless
      have unevaluated : ∃ stop, evaluateIntegerConstant lowered.expression = .error stop := by
        cases evaluated : evaluateIntegerConstant lowered.expression with
        | error stop => exact ⟨stop, rfl⟩
        | ok value => exact absurd evaluated (valueless value)
      obtain ⟨stop, stopped⟩ := unevaluated
      rintro ⟨message, failed⟩
      unfold checkShiftCount constantShiftCount at failed
      rw [stopped] at failed
      cases failed

/-! ### Single expressions -/

def emptyScope : Scope :=
  ⟨⟨8, fun _ => none, fun _ => none⟩, fun _ => none, fun _ => none, fun _ => none⟩

theorem isSuffix_of_marks {suffix : Literal.Spelling}
    (known : suffix = [] ∨ suffix = ['U'] ∨ suffix = ['L']) : IsSuffix suffix := by
  rcases known with rfl | rfl | rfl <;>
    exact ⟨by simp [isUnsignedMark, isLongMark], by decide, by decide⟩

theorem literalMeans_one {suffix : Literal.Spelling} {format : IntegerFormat}
    (known : suffix = [] ∨ suffix = ['U'] ∨ suffix = ['L'])
    (found : (literalTypes 10 suffix).find? (fun candidate => candidate.Holds 1) = some format) :
    LiteralMeans ('1' :: suffix) format 1 :=
  ⟨10, ['1'], ['1'], suffix, rfl, .decimal (.one rfl) (by decide), isSuffix_of_marks known, rfl,
    found⟩

theorem literalMeans_thirtyTwo : LiteralMeans ['3', '2'] int32 32 :=
  ⟨10, ['3', '2'], ['3', '2'], [], rfl, .decimal (.next rfl (.one rfl)) (by decide),
    isSuffix_of_marks (.inl rfl), rfl, rfl⟩

theorem constants_agree_at_shift :
    StandsFor (.integer int32) ⟨32, 4, true⟩ 32 ∧
      ∃ message, emptyScope.lowerExpr
        (.binary .shiftLeft (.literal .integer "1U") (.literal .integer "32")) = .error message := by
  obtain ⟨values, reports, _⟩ := constants_agree emptyScope rfl
  have typed : HasType emptyScope (.literal .integer "32") (.integer int32) :=
    .integer literalMeans_thirtyTwo
  have means : Means emptyScope (.literal .integer "32") 32 := .integer literalMeans_thirtyTwo
  have one : HasType emptyScope (.literal .integer "1U") (.integer uint32) :=
    .integer (literalMeans_one (.inr (.inl rfl)) rfl)
  have accepted : emptyScope.lowerExpr (.literal .integer "32") =
      .ok ⟨.integerLiteral ['3', '2'], integerType 4 true⟩ := rfl
  have evaluated : evaluateIntegerConstant (.integerLiteral ['3', '2']) = .ok ⟨32, 4, true⟩ := rfl
  refine ⟨values _ _ _ _ _ accepted typed means evaluated trivial, ?_⟩
  exact ((reports _ _ _ _ _ (.binary rfl rfl one) accepted typed).1 _ 32 evaluated trivial
    means).mpr (.inr (by decide))

/-- A comparison is carried in one byte and not as an `int`; a negative value loses its sign where it
is made wider, so that a shift by zero is reported. -/
theorem constants_disagree :
    (let less : Expr := .binary .less (.literal .integer "1") (.literal .integer "1L")
      ∃ lowered, emptyScope.lowerExpr less = .ok lowered ∧
        evaluateIntegerConstant lowered.expression = .ok ⟨0, 1, false⟩ ∧
        HasType emptyScope less (.integer int32) ∧
        ∀ type, HasType emptyScope less type → type = .integer int32) ∧
    let sum : Expr :=
      .binary .add (.unary .negate (.literal .integer "1")) (.literal .integer "1L")
    (∃ lowered, emptyScope.lowerExpr sum = .ok lowered ∧
      evaluateIntegerConstant lowered.expression = .ok ⟨2 ^ 32, 8, true⟩ ∧
      HasType emptyScope sum (.integer long64) ∧ Means emptyScope sum 0) ∧
    ∃ message, emptyScope.lowerExpr (.binary .shiftLeft (.literal .integer "1U") sum) =
      .error message := by
  have int : LiteralMeans ['1'] int32 1 := literalMeans_one (.inl rfl) rfl
  have long : LiteralMeans ['1', 'L'] long64 1 := literalMeans_one (.inr (.inr rfl)) rfl
  have intTyped : HasType emptyScope (.literal .integer "1") (.integer int32) := .integer int
  have longTyped : HasType emptyScope (.literal .integer "1L") (.integer long64) := .integer long
  have one : Means emptyScope (.literal .integer "1") 1 := .integer int
  have negative : Means emptyScope (.unary .negate (.literal .integer "1")) (-1) :=
    .unary intTyped one rfl
  have negativeTyped :
      HasType emptyScope (.unary .negate (.literal .integer "1")) (.integer int32) :=
    .unary (.inr (.inl rfl)) intTyped
  refine ⟨⟨_, rfl, rfl, .truth (.inl rfl) intTyped longTyped, ?_⟩,
    ⟨_, rfl, rfl, ?_, ?_⟩, _, rfl⟩
  · intro type typed
    cases typed with
    | access accessing => cases accessing
    | truth => rfl
    | shift shifting => cases shifting
    | arithmetic plain => cases plain.1
    | floating plain => cases plain
    | offset additive => rcases additive with same | same <;> cases same
  · exact .arithmetic ⟨rfl, rfl, rfl⟩ negativeTyped longTyped
  · exact .arithmetic negativeTyped longTyped negative (.integer long) rfl

end HitSimple.CCompat

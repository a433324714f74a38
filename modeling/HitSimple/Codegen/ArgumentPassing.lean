import HitSimple.Codegen.ViewReading
import HitSimple.Sema.CallAcceptance

namespace HitSimple.Codegen
open FixedWidth Sema

/-- The forms of a call: a statement, an expression, or the source of several targets. -/
inductive CallForm where
  | statement | expression | multiReturn
  deriving DecidableEq, Repr

/-- A parameter at the entry of the callee: the word its storage is initialised with. -/
structure ParameterObject where
  byteLength : Nat
  word : BitVec (byteLength * 8)

def ParameterObject.byte (object : ParameterObject) : Nat → Byte :=
  byteAt object.word

/-- Only the expression form carries a conversion plan for each argument, whose source is the
operand of an inserted conversion. -/
def argumentIsUnsigned : CallForm → Hir.Expr → Bool
  | .expression, .integerCast operand _ _ => operand.isUnsigned
  | .expression, argument => argument.isUnsigned
  | .statement, argument | .multiReturn, argument => argument.result.sourceUsesZeroExtension

section Emission
variable (context : Context)

/-- A floating parameter has a floating type, every other parameter of an ordinary function the
integer type of its length. -/
def emitArgument (form : CallForm) (parameter : Parameter) (argument : Hir.Expr) :
    Emission (Run ParameterObject) :=
  if isFloatTemplate parameter.templateName then
    return do return ⟨parameter.byteLength, ← context.floatValue argument parameter.byteLength⟩
  else do
    let code ← emitIntegerValue context argument parameter.byteLength
      (argumentIsUnsigned form argument)
    let value ← code.typed (parameter.byteLength * 8)
    return do return ⟨parameter.byteLength, ← value⟩

def emitEachArgument (form : CallForm) :
    List Parameter → List Hir.Expr → Emission (Run (List ParameterObject))
  | parameter :: parameters, argument :: arguments => do
      let first ← emitArgument context form parameter argument
      let others ← emitEachArgument form parameters arguments
      return do
        let object ← first
        return object :: (← others)
  | _, _ => return return []

def emitCallArguments (form : CallForm) (callee : String) (parameters : List Parameter)
    (arguments : List Hir.Expr) : Emission (Run (List ParameterObject)) :=
  if parameters.length ≠ arguments.length then
    unsupported ("function argument count does not match declaration for '" ++ callee ++ "'")
  else emitEachArgument context form parameters arguments

/-- What a parameter that is no floating one receives: the bytes of the argument View, converted to
the length of the parameter under the interpretation of the argument. -/
def passedObject (parameter : Parameter) (argument : Hir.Expr) :
    Emission (Run ParameterObject) := do
  let view ← emitViewValue context argument
  context.integerType argument.byteLength
  context.integerType parameter.byteLength
  return do
    let word ← loadView context view argument.byteLength
    return ⟨parameter.byteLength, resize argument.isUnsigned (parameter.byteLength * 8) word⟩

end Emission

section Passing
variable {context : Context} {parameter : Parameter} {argument value : Hir.Expr}

theorem passedObject_eq_ok_iff {run : Run ParameterObject} :
    passedObject context parameter argument = .ok run ↔
      context.integerType parameter.byteLength = .ok () ∧ ∃ code,
        viewInteger context argument = .ok { width := argument.byteLength * 8, run := code } ∧
        run = (do
          let word ← code
          return ⟨parameter.byteLength,
            resize argument.isUnsigned (parameter.byteLength * 8) word⟩) := by
  unfold passedObject viewInteger
  cases emitViewValue context argument with
  | error error => simp
  | ok view =>
      cases context.integerType argument.byteLength with
      | error error => simp
      | ok =>
          cases context.integerType parameter.byteLength with
          | error error => simp
          | ok => simp [eq_comm]

/-- An argument of the length of its parameter is passed as it is. -/
theorem emitArgument_view_iff (form : CallForm) (reads : ReadsView context argument)
    (notFloating : isFloatTemplate parameter.templateName = false)
    (length : argument.byteLength = parameter.byteLength) (run : Run ParameterObject) :
    emitArgument context form parameter argument = .ok run ↔
      passedObject context parameter argument = .ok run := by
  obtain ⟨own, templateName, spelledNone, isString, positive, untemplated⟩ := parameter
  obtain rfl : argument.byteLength = own := length
  rw [passedObject_eq_ok_iff, emitArgument, notFloating]
  simp only [Bool.false_eq_true, if_false, resize_self]
  constructor
  · intro emitted
    obtain ⟨code, found, rest⟩ := emission_bind_eq_ok emitted
    have view := (reads _ _).mp found
    obtain ⟨source, -, supported, rfl⟩ := viewInteger_eq_ok_iff.mp view
    refine ⟨supported, _, view, ?_⟩
    rw [IntegerCode.typed_self, emission_ok_bind] at rest
    cases rest
    rfl
  · rintro ⟨supported, code, view, rfl⟩
    rw [(reads _ _).mpr view, emission_ok_bind, IntegerCode.typed_self, emission_ok_bind]
    rfl

/-- A conversion inserted by the analyser extends its operand by the interpretation of the
operand. -/
theorem emitArgument_cast_iff (form : CallForm) (reads : ReadsView context argument)
    (notFloating : isFloatTemplate parameter.templateName = false) (isSigned : Bool)
    (run : Run ParameterObject) :
    emitArgument context form parameter (.integerCast argument isSigned
        (fixedResult parameter.templateName parameter.byteLength)) = .ok run ↔
      passedObject context parameter argument = .ok run := by
  have length : (fixedResult parameter.templateName parameter.byteLength).staticByteLength =
      parameter.byteLength := viewSemanticsForTemplate_byteLength _ _ _ _
  rw [passedObject_eq_ok_iff, emitArgument, notFloating]
  simp only [Bool.false_eq_true, if_false, emitIntegerValue, exprCode, integerExprCode_integer,
    emitIntegerCast]
  rw [length]
  constructor
  · intro emitted
    obtain ⟨code, found, rest⟩ := emission_bind_eq_ok emitted
    obtain ⟨⟨⟩, supported, found⟩ := emission_bind_eq_ok found
    obtain ⟨source, operand, found⟩ := emission_bind_eq_ok found
    have view := (reads _ _).mp operand
    obtain ⟨place, -, -, rfl⟩ := viewInteger_eq_ok_iff.mp view
    refine ⟨supported, _, view, ?_⟩
    rw [supported, emission_ok_bind] at found
    cases found
    simp only [IntegerCode.resize, IntegerCode.typed_self, emission_ok_bind, emission_pure,
      resize_self, Functor.map_map] at rest
    cases rest
    simp only [bind_map_left]
  · rintro ⟨supported, code, view, rfl⟩
    have operand := (reads argument.isUnsigned _).mpr view
    rw [emitIntegerValue] at operand
    simp only [supported, operand, emission_ok_bind, emission_pure, IntegerCode.resize,
      IntegerCode.typed_self, resize_self, Functor.map_map, bind_map_left]

variable {scope : Scope} {source : Ast.Expr} {callee : String} {index : Nat}

theorem matchOrdinaryArgument_cases
    (matched : matchOrdinaryArgument callee index parameter argument = .ok value) :
    (value = argument ∧ argument.byteLength = parameter.byteLength ∨
      ∃ isSigned, value = .integerCast argument isSigned
        (fixedResult parameter.templateName parameter.byteLength)) ∧
    (parameter.isConvertible argument = true ∨
      value = argument ∧ argument.byteLength = parameter.byteLength ∧
        argument.result.templateName = parameter.templateName) := by
  unfold matchOrdinaryArgument at matched
  cases convertible : parameter.isConvertible argument with
  | true =>
      simp only [convertible, Bool.not_true, Bool.false_and, Bool.or_false, Bool.false_or,
        Bool.true_and] at matched
      split at matched
      · cases matched
      split at matched
      · cases matched
      split at matched
      · cases matched
        exact ⟨.inr ⟨_, rfl⟩, .inl rfl⟩
      · rename_i same
        cases matched
        exact ⟨.inl ⟨rfl, by simpa using same⟩, .inl rfl⟩
  | false =>
      simp only [convertible, Bool.not_false, Bool.true_and, Bool.false_and, Bool.false_eq_true,
        if_false] at matched
      split at matched
      · cases matched
      · rename_i exactly
        split at matched
        · cases matched
        · cases matched
          simp only [Bool.or_eq_true, not_or, Bool.not_eq_true', Bool.not_eq_false, bne_iff_ne,
            ne_eq, not_not, Parameter.hasTemplateOf_iff] at exactly
          exact ⟨.inl ⟨rfl, exactly.2⟩, .inr ⟨rfl, exactly.2, exactly.1.1.1⟩⟩

theorem category_ne_floating (analyzed : analyze scope source = .ok argument)
    (notFloating : isFloatTemplate parameter.templateName = false)
    (matched : matchOrdinaryArgument callee index parameter argument = .ok value) :
    argument.result.category ≠ .floating := by
  intro floating
  rcases (matchOrdinaryArgument_cases matched).2 with convertible | ⟨-, -, template⟩
  · have stored := analyze_isStored analyzed
    have other : argument.isIntegerLiteral = false ∧ isIntegerCharacter argument = false ∧
        argument.result.isIntegerExpression = false := by
      refine ⟨?_, ?_, ?_⟩
      · cases argument with
        | integerLiteral text result =>
            exfalso
            cases stored with
            | boolean => cases floating
            | integer isUnsigned => cases isUnsigned <;> cases floating
            | size => cases floating
        | _ => rfl
      · cases argument with
        | characterLiteral bytes result =>
            by_contra interpreted
            have view := stored (by simpa [isIntegerCharacter] using interpreted)
            rw [Hir.Expr.result, view.1] at floating
            cases floating
        | _ => rfl
      · simp [ViewSemantics.isIntegerExpression, ViewSemantics.isIntegerNumeric, floating]
    simp [Parameter.isConvertible, Parameter.literalMatchesInteger,
      Parameter.acceptsUntemplatedInteger, other.1, other.2.1, other.2.2] at convertible
  · have standard := (analyze_isFormed analyzed).floats floating
    rw [template, notFloating] at standard
    cases standard

/-- Every form of a call passes the bytes the rules prescribe. -/
theorem emitArgument_iff_passedObject (form : CallForm)
    (analyzed : analyze scope source = .ok argument)
    (notFloating : isFloatTemplate parameter.templateName = false)
    (matched : matchOrdinaryArgument callee index parameter argument = .ok value)
    (integer : hasIntegerCode argument = true) (run : Run ParameterObject) :
    emitArgument context form parameter value = .ok run ↔
      passedObject context parameter argument = .ok run := by
  have reads := analyze_readsView context analyzed
    (category_ne_floating analyzed notFloating matched) integer
  rcases (matchOrdinaryArgument_cases matched).1 with ⟨rfl, length⟩ | ⟨isSigned, rfl⟩
  · exact emitArgument_view_iff form reads notFloating length run
  · exact emitArgument_cast_iff form reads notFloating isSigned run

/-- A literal without integer code is matched by its View and then not emitted. -/
theorem emitArgument_of_missing (form : CallForm)
    (analyzed : analyze scope source = .ok argument)
    (notFloating : isFloatTemplate parameter.templateName = false)
    (matched : matchOrdinaryArgument callee index parameter argument = .ok value)
    (missing : hasIntegerCode argument = false) :
    ∃ context run, passedObject context parameter argument = .ok run ∧
      emitArgument context form parameter value ≠ .ok run := by
  have notConvertible : parameter.isConvertible argument = false := by
    have stored := analyze_isStored analyzed
    have category := (analyze_isFormed analyzed).categorized
    cases argument with
    | stringLiteral bytes result =>
        have text : result.category = .cString := category
        simp [Parameter.isConvertible, Parameter.literalMatchesInteger,
          Parameter.acceptsUntemplatedInteger, Hir.Expr.isIntegerLiteral, isIntegerCharacter,
          ViewSemantics.isIntegerExpression, ViewSemantics.isIntegerNumeric, Hir.Expr.result, text]
    | characterLiteral bytes result =>
        have raw : result.category = .rawBytes := by simpa [hasIntegerCode] using missing
        have interpretation : result.integerInterpretation = .rawOnly := by
          by_contra interpreted
          rw [(stored interpreted).1] at raw
          cases raw
        simp [Parameter.isConvertible, Parameter.literalMatchesInteger,
          Parameter.acceptsUntemplatedInteger, Hir.Expr.isIntegerLiteral, isIntegerCharacter,
          ViewSemantics.isIntegerExpression, ViewSemantics.isIntegerNumeric, Hir.Expr.result, raw,
          interpretation]
    | _ => cases missing
  obtain ⟨rfl, length, -⟩ := (matchOrdinaryArgument_cases matched).2.resolve_left
    (Bool.eq_false_iff.mp notConvertible)
  have positive := parameter.positive
  let context : Context := { Context.ofObject 0 0 with
    maxIntegerByteLength := max pointerByteLength parameter.byteLength
    pointerFits := le_max_left _ _ }
  have supported : context.integerType parameter.byteLength = .ok () :=
    Context.Supports.integerType_eq_ok ⟨positive, le_max_right _ _⟩
  have view : ∃ view, emitViewValue context value = .ok view := by
    cases value with
    | stringLiteral | characterLiteral => exact ⟨_, rfl⟩
    | _ => cases missing
  obtain ⟨view, found⟩ := view
  refine ⟨context, ?_, ?_, ?_⟩
  · exact do
      let word ← loadView context view value.byteLength
      return ⟨parameter.byteLength, resize value.isUnsigned (parameter.byteLength * 8) word⟩
  · rw [passedObject, found, emission_ok_bind, length, supported]
    rfl
  · intro emitted
    rw [emitArgument, notFloating] at emitted
    obtain ⟨code, integer, -⟩ := emission_bind_eq_ok emitted
    cases value with
    | stringLiteral => cases integer
    | characterLiteral bytes result =>
        have raw : result.category = .rawBytes := by simpa [hasIntegerCode] using missing
        have interpretation : result.integerInterpretation ≠ .unsigned := by
          intro interpreted
          have view := (analyze_isStored analyzed) (by simp [interpreted])
          rw [view.1] at raw
          cases raw
        obtain ⟨-, -, literal⟩ := emission_bind_eq_ok integer
        split at literal
        · rw [if_pos interpretation] at literal
          cases literal
        · cases literal
    | _ => cases missing

end Passing

section Calls
variable (scope : Scope) (signature : FunctionSignature) (callee : String)
  (arguments : List Ast.Expr)

/-- Standard 12.1 and 12.3 for the arguments of one call: it is accepted when the rules admit every
argument, and then each form of the call initialises each parameter object as they prescribe. -/
structure CallMeetsStandard : Prop where
  accepted : (∃ passed, analyzeCallArguments scope signature callee arguments = .ok passed) ↔
    List.Forall₂ (IsAdmissible scope) signature.parameters arguments
  passes : ∀ passed, analyzeCallArguments scope signature callee arguments = .ok passed →
    ∀ (position : Nat) (parameter : Parameter) (argument : Ast.Expr) (value : Hir.Expr),
      signature.parameters[position]? = some parameter → arguments[position]? = some argument →
        passed[position]? = some value → isFloatTemplate parameter.templateName = false →
          ∃ node, analyze scope argument = .ok node ∧
            ∀ (context : Context) (form : CallForm) (run : Run ParameterObject),
              emitArgument context form parameter value = .ok run ↔
                passedObject context parameter node = .ok run

/-- Whether an argument is a literal the emitter has no integer code for. -/
def LacksIntegerCode (parameter : Parameter) (argument : Ast.Expr) : Prop :=
  isFloatTemplate parameter.templateName = false ∧
    ∃ node, analyze scope argument = .ok node ∧ hasIntegerCode node = false

/-- The calls whose arguments are judged as the rules say: there is an argument neither side takes,
or arguments are misjudged in both directions or in none. -/
def IsJudgedRightly : Prop :=
  signature.parameters.length ≠ arguments.length ∨
    (∃ pair ∈ signature.parameters.zip arguments,
      ¬IsAdmissible scope pair.1 pair.2 ∧ ¬IsOveraccepted scope pair.1 pair.2) ∨
    ((∃ pair ∈ signature.parameters.zip arguments, IsRefused scope pair.1 pair.2) ↔
      ∃ pair ∈ signature.parameters.zip arguments, IsOveraccepted scope pair.1 pair.2)

/-- The calls that are rejected or whose arguments have integer code. -/
def IsEmittable : Prop :=
  signature.parameters.length ≠ arguments.length ∨
    (∃ pair ∈ signature.parameters.zip arguments, ¬IsTaken scope pair.1 pair.2) ∨
    ∀ pair ∈ signature.parameters.zip arguments, ¬LacksIntegerCode scope pair.1 pair.2

variable {scope signature callee arguments}

theorem isRefused_isAdmissible (parameter : Parameter) (argument : Ast.Expr)
    (refused : IsRefused scope parameter argument) : IsAdmissible scope parameter argument := by
  obtain ⟨node, analyzed, refuses⟩ := refused
  have notFloating : isFloatTemplate parameter.templateName = false := by
    by_contra floating
    obtain ⟨notStandard, templated, notHandle⟩ :=
      not_isStandardInteger_of_isFloatTemplate (Bool.eq_true_of_not_eq_false floating)
    exact refuses_iff_of_other notHandle notStandard templated refuses
  rw [IsAdmissible, notFloating]
  exact ⟨node, analyzed, refuses.admits⟩

theorem isOveraccepted_not_isAdmissible (parameter : Parameter) (argument : Ast.Expr)
    (overaccepted : IsOveraccepted scope parameter argument) :
    ¬IsAdmissible scope parameter argument := by
  obtain ⟨node, analyzed, excess⟩ := overaccepted
  have notFloating : isFloatTemplate parameter.templateName = false := by
    by_contra floating
    exact not_overaccepts_of_other (not_isStandardInteger_of_isFloatTemplate
      (Bool.eq_true_of_not_eq_false floating)).1 excess
  rw [IsAdmissible, notFloating]
  rintro ⟨other, found, admitted⟩
  rw [analyzed] at found
  cases found
  exact excess.not_admits (analyze_isStored analyzed) admitted

theorem accepted_iff_isJudgedRightly
    (ordinary : isOrdinaryUserFunction scope signature = true) :
    ((∃ passed, analyzeCallArguments scope signature callee arguments = .ok passed) ↔
      List.Forall₂ (IsAdmissible scope) signature.parameters arguments) ↔
      IsJudgedRightly scope signature arguments := by
  rw [analyzeCallArguments_isOk_iff callee ordinary]
  exact forall₂_iff_forall₂_iff isRefused_isAdmissible isOveraccepted_not_isAdmissible _ _

/-- An accepted call passes for each argument what the match of its parameter yields. -/
theorem analyzeCallArguments_getElem? {passed : List Hir.Expr}
    (ordinary : isOrdinaryUserFunction scope signature = true)
    (accepted : analyzeCallArguments scope signature callee arguments = .ok passed)
    {position : Nat} {parameter : Parameter} {argument : Ast.Expr}
    (hasParameter : signature.parameters[position]? = some parameter)
    (hasArgument : arguments[position]? = some argument)
    (notFloating : isFloatTemplate parameter.templateName = false) :
    ∃ node value, passed[position]? = some value ∧ analyze scope argument = .ok node ∧
      matchOrdinaryArgument callee position parameter node = .ok value := by
  rw [analyzeCallArguments] at accepted
  split at accepted
  · cases accepted
  split at accepted
  · cases accepted
  · obtain ⟨value, member, found⟩ :=
      analyzeEachArgument_getElem? callee accepted hasParameter hasArgument
    rw [analyzeCallArgument, notFloating, Nat.zero_add] at found
    simp only [Bool.false_eq_true, if_false, ordinary, if_true] at found
    cases analyzed : analyze scope argument with
    | error message => simp [analyzed] at found
    | ok node =>
        simp only [analyzed] at found
        exact ⟨node, value, member, rfl, found⟩

/-- A call of an ordinary user function meets the rules exactly when its arguments are misjudged in
both directions or in none, or one is taken by neither side, and it passes no literal without
integer code. -/
theorem callArguments_meet_iff (callee : String) (arguments : List Ast.Expr)
    (ordinary : isOrdinaryUserFunction scope signature = true) :
    CallMeetsStandard scope signature callee arguments ↔
      IsJudgedRightly scope signature arguments ∧ IsEmittable scope signature arguments := by
  constructor
  · intro meets
    refine ⟨(accepted_iff_isJudgedRightly ordinary).mp meets.accepted, ?_⟩
    by_contra missing
    rw [IsEmittable, not_or, not_or, not_not] at missing
    obtain ⟨count, taken, lacking⟩ := missing
    push Not at taken lacking
    have every : List.Forall₂ (IsTaken scope) signature.parameters arguments := by
      rw [List.forall₂_iff_zip]
      exact ⟨count, fun member => taken _ member⟩
    obtain ⟨passed, accepted⟩ := (analyzeCallArguments_isOk_iff callee ordinary arguments).mpr every
    obtain ⟨⟨parameter, argument⟩, member, notFloating, node, analyzed, noCode⟩ := lacking
    obtain ⟨position, located⟩ := List.mem_iff_getElem?.mp member
    obtain ⟨hasParameter, hasArgument⟩ := List.getElem?_zip_eq_some.mp located
    obtain ⟨other, value, hasValue, found, matched⟩ :=
      analyzeCallArguments_getElem? ordinary accepted hasParameter hasArgument notFloating
    obtain rfl : node = other := by
      rw [analyzed] at found
      exact Except.ok.inj found
    obtain ⟨context, run, prescribed, unemitted⟩ :=
      emitArgument_of_missing .statement analyzed notFloating matched noCode
    obtain ⟨same, foundAgain, agree⟩ := meets.passes passed accepted position parameter argument
      value hasParameter hasArgument hasValue notFloating
    rw [analyzed] at foundAgain
    cases foundAgain
    exact unemitted ((agree context .statement run).mpr prescribed)
  · rintro ⟨judged, emittable⟩
    refine ⟨(accepted_iff_isJudgedRightly ordinary).mpr judged, ?_⟩
    intro passed accepted position parameter argument value hasParameter hasArgument hasValue
      notFloating
    obtain ⟨node, other, member, analyzed, matched⟩ :=
      analyzeCallArguments_getElem? ordinary accepted hasParameter hasArgument notFloating
    obtain rfl : value = other := by
      rw [hasValue] at member
      exact Option.some.inj member
    refine ⟨node, analyzed, fun context form run => ?_⟩
    have every := (analyzeCallArguments_isOk_iff callee ordinary arguments).mp ⟨passed, accepted⟩
    rw [List.forall₂_iff_zip] at every
    have inside : (parameter, argument) ∈ signature.parameters.zip arguments :=
      List.mem_iff_getElem?.mpr ⟨position, List.getElem?_zip_eq_some.mpr ⟨hasParameter, hasArgument⟩⟩
    have integer : hasIntegerCode node = true := by
      rcases emittable with count | ⟨pair, listed, untaken⟩ | emitted
      · exact absurd every.1 count
      · exact absurd (every.2 listed) untaken
      · by_contra noCode
        exact emitted _ inside ⟨notFloating, node, analyzed, Bool.eq_false_iff.mpr noCode⟩
    exact emitArgument_iff_passedObject form analyzed notFloating matched integer run

end Calls

/-- The signature of a user function with one `i32` parameter. -/
def signatureOfInteger : FunctionSignature where
  parameters := [{
    byteLength := 4
    templateName := .signedInteger 4
    spelledNone := false
    isString := false
    positive := by decide
    untemplated := nofun }]
  isExtern := false
  isCAbi := false

theorem callArguments_meet_iff_name :
    CallMeetsStandard (Scope.ofObject (.signedInteger 4) 4) signatureOfInteger "f"
      [.identifier "x"] := by
  have analyzed : analyze (Scope.ofObject (.signedInteger 4) 4) (.identifier "x") =
      .ok (objectVariable (.signedInteger 4) 4) := rfl
  apply (callArguments_meet_iff "f" [.identifier "x"] (by decide)).mpr
  constructor
  · refine .inr (.inr (iff_of_false ?_ ?_))
    · rintro ⟨pair, member, node, found, refused⟩
      obtain rfl := List.mem_singleton.mp member
      rw [analyzed] at found
      cases found
      cases refused with
      | handle template => cases template
      | spelledNone spelled => cases spelled
    · rintro ⟨pair, member, node, found, overaccepted⟩
      obtain rfl := List.mem_singleton.mp member
      rw [analyzed] at found
      cases found
      cases overaccepted
  · refine .inr (.inr ?_)
    rintro pair member ⟨-, node, found, missing⟩
    obtain rfl := List.mem_singleton.mp member
    rw [analyzed] at found
    cases found
    cases missing

/-- The negative literal `-1` is not accepted for an `i32` parameter. -/
theorem negativeArgument_not_meets :
    ¬CallMeetsStandard emptyScope signatureOfInteger "f"
      [.unary .negate (.integerLiteral ['1'])] := by
  intro meets
  have admitted : List.Forall₂ (IsAdmissible emptyScope) signatureOfInteger.parameters
      [.unary .negate (.integerLiteral ['1'])] := by
    refine .cons ⟨_, rfl, ?_⟩ .nil
    exact .constant rfl (show _ = some (-1 : Int) by decide) (by decide)
  obtain ⟨passed, accepted⟩ := meets.accepted.mpr admitted
  exact absurd accepted (show Except.error _ ≠ Except.ok passed by nofun)

end HitSimple.Codegen

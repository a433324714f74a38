import HitSimple.Sema.ArgumentRules

namespace HitSimple.Sema
open FixedWidth Literal

section Agreement

/-- Two judgements of paired elements that differ by exceptions in both directions, over lists. -/
theorem forall₂_iff_forall₂_iff {α β : Type} {admits refuses overaccepts : α → β → Prop}
    (refused : ∀ first second, refuses first second → admits first second)
    (excess : ∀ first second, overaccepts first second → ¬admits first second)
    (firsts : List α) (seconds : List β) :
    (List.Forall₂ (fun first second =>
        (admits first second ∧ ¬refuses first second) ∨ overaccepts first second) firsts seconds ↔
      List.Forall₂ admits firsts seconds) ↔
    firsts.length ≠ seconds.length ∨
      (∃ pair ∈ firsts.zip seconds, ¬admits pair.1 pair.2 ∧ ¬overaccepts pair.1 pair.2) ∨
      ((∃ pair ∈ firsts.zip seconds, refuses pair.1 pair.2) ↔
        ∃ pair ∈ firsts.zip seconds, overaccepts pair.1 pair.2) := by
  rw [List.forall₂_iff_zip, List.forall₂_iff_zip]
  by_cases count : firsts.length = seconds.length
  · simp only [count, true_and, ne_eq, not_true_eq_false, false_or]
    constructor
    · intro agree
      by_cases hopeless : ∃ pair ∈ firsts.zip seconds,
          ¬admits pair.1 pair.2 ∧ ¬overaccepts pair.1 pair.2
      · exact .inl hopeless
      · right
        have decided (pair : α × β) (member : pair ∈ firsts.zip seconds) :
            admits pair.1 pair.2 ∨ overaccepts pair.1 pair.2 := by
          by_contra neither
          exact hopeless ⟨pair, member, not_or.mp neither⟩
        constructor
        · rintro ⟨pair, member, refusal⟩
          by_contra none
          have all : ∀ {first second}, (first, second) ∈ firsts.zip seconds →
              admits first second := by
            intro first second inside
            refine (decided _ inside).resolve_right ?_
            exact fun extra => none ⟨_, inside, extra⟩
          rcases agree.mpr all member with taken | extra
          · exact taken.2 refusal
          · exact excess _ _ extra (refused _ _ refusal)
        · rintro ⟨pair, member, extra⟩
          by_contra none
          refine excess _ _ extra (agree.mp ?_ member)
          intro first second inside
          rcases decided _ inside with admitted | other
          · exact .inl ⟨admitted, fun refusal => none ⟨_, inside, refusal⟩⟩
          · exact .inr other
    · rintro (⟨pair, member, rejected, untaken⟩ | balanced)
      · constructor
        · intro taken
          exact absurd (taken member) (not_or.mpr ⟨fun inside => rejected inside.1, untaken⟩)
        · exact fun admitted => absurd (admitted member) rejected
      · constructor
        · intro taken first second inside
          rcases taken inside with admitted | extra
          · exact admitted.1
          · obtain ⟨pair, member, refusal⟩ := balanced.mpr ⟨_, inside, extra⟩
            rcases taken member with admitted | other
            · exact absurd refusal admitted.2
            · exact absurd (refused _ _ refusal) (excess _ _ other)
        · intro admitted first second inside
          refine .inl ⟨admitted inside, fun refusal => ?_⟩
          obtain ⟨pair, member, extra⟩ := balanced.mp ⟨_, inside, refusal⟩
          exact excess _ _ extra (admitted member)
  · exact iff_of_true (iff_of_false (fun both => count both.1) fun both => count both.1)
      (.inl count)

end Agreement

section Arguments
variable {scope : Scope} {parameter : Parameter} {argument : Ast.Expr} {node : Hir.Expr}

/-- An argument with the syntax of a handle denotes a handle. -/
theorem view_of_isHandleExpression (isHandle : isHandleExpression scope argument = true)
    (analyzed : analyze scope argument = .ok node) :
    node.result.templateName = .handle ∧ node.result.category = .handle ∧
      node.isIntegerLiteral = false ∧ constantValue node = none := by
  unfold analyze at analyzed
  cases argument with
  | identifier name =>
      rw [analyzeForms] at analyzed
      change analyzeIdentifier scope name = .ok node at analyzed
      simp only [isHandleExpression, analyzeIdentifier] at isHandle analyzed
      cases found : scope.lookup name with
      | none => simp [found] at isHandle
      | some symbol =>
          simp only [found, beq_iff_eq] at isHandle analyzed
          cases analyzed
          simp [Hir.Expr.result, isHandle, mutableResult, viewSemanticsForTemplate,
            staticViewSemantics, Hir.Expr.isIntegerLiteral, constantValue]
  | asView operand templateName =>
      rw [analyzeForms] at analyzed
      simp only [plainForms] at analyzed
      obtain rfl : templateName = .handle := by simpa [isHandleExpression] using isHandle
      split at analyzed
      · cases analyzed
      · unfold analyzeAs at analyzed
        dsimp only at analyzed
        repeat' (split at analyzed)
        all_goals first
          | contradiction
          | (cases analyzed; exact ⟨rfl, rfl, rfl, rfl⟩)
  | member object path =>
      rw [analyzeForms] at analyzed
      simp only [plainForms] at analyzed
      obtain ⟨reference, found, rfl⟩ := analysis_map_eq_ok analyzed
      have template : reference.templateName = .handle := by
        simpa [isHandleExpression, found] using isHandle
      simp [Hir.Expr.result, template, mutableResult, viewSemanticsForTemplate,
        staticViewSemantics, Hir.Expr.isIntegerLiteral, constantValue]
  | call callee =>
      rw [analyzeForms] at analyzed
      change analyzeCall scope callee = .ok node at analyzed
      simp only [isHandleExpression, analyzeCall] at isHandle analyzed
      repeat' (split at analyzed)
      all_goals first
        | contradiction
        | skip
      rename_i item found
      cases analyzed
      have template : item.templateName = .handle := by simpa [found] using isHandle
      simp [Hir.Expr.result, template, viewSemanticsForTemplate, staticViewSemantics,
        Hir.Expr.isIntegerLiteral, constantValue]
  | _ => cases isHandle

theorem Parameter.Refuses.admits (refused : parameter.Refuses scope argument node) :
    parameter.Admits node := by
  cases refused with
  | handle template view length => exact .view (view.trans template.symm) length
  | negation standard constant represents => exact .constant standard constant represents
  | literal standard constant represents => exact .constant standard constant represents
  | spelledNone spelled view length =>
      exact .view (view.trans (parameter.untemplated spelled).symm) length
  | size template view length => exact .view (view.trans template.symm) length

theorem Parameter.Overaccepts.not_admits (overaccepted : parameter.Overaccepts node)
    (stored : IsStored node) : ¬parameter.Admits node := by
  intro admitted
  cases overaccepted with
  | boolean standard small category =>
      cases admitted with
      | view template =>
          rw [← template] at standard
          have view := StoredLiteral.eq_size stored standard
          rw [view] at category
          cases category
      | constant _ constant => simp [constantValue, ViewSemantics.isIntegerNumeric, category] at constant
      | untemplated template => simp [template, TemplateName.isStandardInteger] at standard
  | negative standard small isUnsigned narrow constant negative =>
      cases admitted with
      | view template =>
          rw [← template] at standard
          rw [StoredLiteral.eq_size stored standard, constantValue] at constant
          obtain ⟨value, -, rfl⟩ := Option.map_eq_some_iff.mp constant
          exact absurd negative (not_lt.mpr (reading_nonneg_of_unsigned _))
      | constant _ found represents =>
          rw [constant] at found
          cases found
          rw [Parameter.Represents, isUnsigned, if_pos rfl] at represents
          omega
      | untemplated template => simp [template, TemplateName.isStandardInteger] at standard
  | character standard isSigned single interpreted high =>
      obtain ⟨rfl, -⟩ := stored interpreted
      cases admitted with
      | view template =>
          rw [← template] at standard
          cases standard
      | constant _ found represents =>
          rw [constantValue, if_neg interpreted] at found
          cases found
          rw [Parameter.Represents, isSigned, single] at represents
          simp only [Bool.false_eq_true, if_false] at represents
          omega
      | untemplated template => simp [template, TemplateName.isStandardInteger] at standard

variable (scope parameter argument)

/-- Whether the rules admit an argument.  A floating parameter takes what can be analysed at its
width. -/
def IsAdmissible : Prop :=
  if isFloatTemplate parameter.templateName then
    ∃ node, (analyzeForms scope argument).floatOperand parameter.byteLength = .ok node
  else ∃ node, analyze scope argument = .ok node ∧ parameter.Admits node

def IsRefused : Prop :=
  ∃ node, analyze scope argument = .ok node ∧ parameter.Refuses scope argument node

def IsOveraccepted : Prop :=
  ∃ node, analyze scope argument = .ok node ∧ parameter.Overaccepts node

/-- The arguments the analyser takes. -/
def IsTaken : Prop :=
  (IsAdmissible scope parameter argument ∧ ¬IsRefused scope parameter argument) ∨
    IsOveraccepted scope parameter argument

def HandleMatches : Prop :=
  parameter.templateName = .handle ↔ isHandleExpression scope argument = true

variable {scope parameter argument}

theorem not_isStandardInteger_of_isFloatTemplate {templateName : TemplateName}
    (floating : isFloatTemplate templateName = true) :
    templateName.isStandardInteger = false ∧ templateName ≠ .none ∧ templateName ≠ .handle := by
  cases templateName <;> first | cases floating | exact ⟨rfl, nofun, nofun⟩

theorem plainForms_floatOperand_eq_ok {source : Ast.Expr} {expression : Analysis Hir.Expr}
    {byteLength : Nat}
    (analyzed : (plainForms scope source expression).floatOperand byteLength = .ok node) :
    ∃ operand, (plainForms scope source expression).expression = .ok operand ∧
      checkFloatOperand byteLength operand = .ok node := by
  cases expression with
  | error message => cases analyzed
  | ok operand => exact ⟨operand, rfl, analyzed⟩

theorem not_floatOperand_of_isHandleExpression {byteLength : Nat}
    (isHandle : isHandleExpression scope argument = true) :
    (analyzeForms scope argument).floatOperand byteLength ≠ .ok node := by
  intro analyzed
  cases argument with
  | identifier | asView | member | call =>
      rw [analyzeForms] at analyzed
      obtain ⟨operand, found, checked⟩ := plainForms_floatOperand_eq_ok analyzed
      have view := view_of_isHandleExpression isHandle (show analyze scope _ = .ok operand by
        rw [analyze, analyzeForms]
        exact found)
      simp [checkFloatOperand, view.2.1] at checked
  | _ => cases isHandle

/-- An argument passes the handle check and the match of its parameter exactly when it is taken. -/
theorem isTaken_iff {signature : FunctionSignature}
    (ordinary : isOrdinaryUserFunction scope signature = true) (callee : String) (index : Nat) :
    HandleMatches scope parameter argument ∧
        (∃ passed, analyzeCallArgument scope signature callee index parameter argument =
          .ok passed) ↔ IsTaken scope parameter argument := by
  unfold analyzeCallArgument IsTaken IsAdmissible IsRefused IsOveraccepted HandleMatches
  cases floating : isFloatTemplate parameter.templateName with
  | true =>
      obtain ⟨notStandard, templated, notHandle⟩ :=
        not_isStandardInteger_of_isFloatTemplate floating
      simp only [if_true, notHandle, false_iff, refuses_iff_of_other notHandle notStandard templated,
        not_overaccepts_of_other notStandard, and_false, exists_false, not_false_iff, and_true,
        or_false]
      constructor
      · exact fun accepted => accepted.2
      · rintro ⟨node, analyzed⟩
        exact ⟨fun isHandle => not_floatOperand_of_isHandleExpression isHandle analyzed, node,
          analyzed⟩
  | false =>
      simp only [Bool.false_eq_true, if_false, ordinary, if_true]
      cases analyzed : analyze scope argument with
      | error message => simp
      | ok node =>
          have stored := analyze_isStored analyzed
          have static := (analyze_isSized analyzed).static
          simp only [Except.ok.injEq, exists_eq_left']
          by_cases notHandle : parameter.templateName = .handle
          · have notStandard : parameter.templateName.isStandardInteger = false := by
              rw [notHandle]
              rfl
            have templated : parameter.templateName ≠ .none := by simp [notHandle]
            rw [matches_of_other callee index static stored notStandard templated]
            simp only [notHandle, true_iff, not_overaccepts_of_other notStandard, or_false]
            constructor
            · rintro ⟨recognized, admitted⟩
              refine ⟨admitted, ?_⟩
              intro refused
              cases refused with
              | handle _ _ _ unrecognized => simp [recognized] at unrecognized
              | negation standard => simp [notStandard] at standard
              | literal standard => simp [notStandard] at standard
              | spelledNone spelled => exact templated (parameter.untemplated spelled)
              | size template => simp [notHandle] at template
            · rintro ⟨admitted, taken⟩
              obtain ⟨template, length⟩ := (admits_iff_of_other notStandard templated).mp admitted
              refine ⟨?_, admitted⟩
              by_contra unrecognized
              exact taken (.handle notHandle (template.trans notHandle) length
                (Bool.eq_false_iff.mpr unrecognized))
          · rw [matches_iff callee index static stored notHandle]
            simp only [notHandle, false_iff]
            constructor
            · exact fun accepted => accepted.2
            · intro taken
              refine ⟨?_, taken⟩
              intro isHandle
              obtain ⟨template, category, notLiteral, noConstant⟩ :=
                view_of_isHandleExpression isHandle analyzed
              rcases taken with ⟨admitted, -⟩ | overaccepted
              · cases admitted with
                | view same => exact notHandle (same.symm.trans template)
                | constant _ constant => simp [noConstant] at constant
                | untemplated _ integer =>
                    simp [ViewSemantics.isIntegerExpression, ViewSemantics.isIntegerNumeric,
                      category] at integer
              · cases overaccepted with
                | boolean => cases notLiteral
                | negative => cases notLiteral
                | character _ _ _ interpreted => simp [constantValue, interpreted] at noConstant

end Arguments

section Calls
variable {scope : Scope} {signature : FunctionSignature} (callee : String)

theorem validateHandleCallArguments_isOk_iff (index : Nat) {parameters : List Parameter}
    {arguments : List Ast.Expr} (count : parameters.length = arguments.length) :
    validateHandleCallArguments scope callee index parameters arguments = .ok () ↔
      List.Forall₂ (HandleMatches scope) parameters arguments := by
  induction parameters generalizing arguments index with
  | nil =>
      obtain rfl := List.length_eq_zero_iff.mp count.symm
      exact iff_of_true rfl .nil
  | cons parameter parameters ih =>
      cases arguments with
      | nil => cases count
      | cons argument arguments =>
          rw [List.forall₂_cons, ← ih (index + 1) (Nat.succ.inj count), HandleMatches,
            validateHandleCallArguments]
          cases isHandle : isHandleExpression scope argument <;>
            by_cases expects : parameter.templateName = .handle <;> simp [expects]

theorem analyzeEachArgument_getElem? {index : Nat} {parameters : List Parameter}
    {arguments : List Ast.Expr} {passed : List Hir.Expr}
    (analyzed : analyzeEachArgument scope signature callee index parameters arguments = .ok passed)
    {position : Nat} {parameter : Parameter} {argument : Ast.Expr}
    (hasParameter : parameters[position]? = some parameter)
    (hasArgument : arguments[position]? = some argument) :
    ∃ value, passed[position]? = some value ∧
      analyzeCallArgument scope signature callee (index + position) parameter argument =
        .ok value := by
  induction parameters generalizing arguments index passed position with
  | nil => cases hasParameter
  | cons first parameters ih =>
      cases arguments with
      | nil => cases hasArgument
      | cons second arguments =>
          rw [analyzeEachArgument] at analyzed
          split at analyzed
          · cases analyzed
          · rename_i value found
            obtain ⟨rest, others, rfl⟩ := analysis_map_eq_ok analyzed
            cases position with
            | zero =>
                cases hasParameter
                cases hasArgument
                exact ⟨value, rfl, found⟩
            | succ position =>
                obtain ⟨later, member, found⟩ := ih others hasParameter hasArgument
                refine ⟨later, member, ?_⟩
                rw [← found]
                congr 1
                omega

theorem analyzeEachArgument_isOk_iff (ordinary : isOrdinaryUserFunction scope signature = true)
    (index : Nat) {parameters : List Parameter} {arguments : List Ast.Expr}
    (count : parameters.length = arguments.length) :
    List.Forall₂ (HandleMatches scope) parameters arguments ∧
        (∃ passed, analyzeEachArgument scope signature callee index parameters arguments =
          .ok passed) ↔
      List.Forall₂ (IsTaken scope) parameters arguments := by
  induction parameters generalizing arguments index with
  | nil =>
      obtain rfl := List.length_eq_zero_iff.mp count.symm
      exact iff_of_true ⟨.nil, [], rfl⟩ .nil
  | cons parameter parameters ih =>
      cases arguments with
      | nil => cases count
      | cons argument arguments =>
          rw [List.forall₂_cons, List.forall₂_cons, ← isTaken_iff ordinary callee index,
            ← ih (index + 1) (Nat.succ.inj count), analyzeEachArgument]
          cases analyzed : analyzeCallArgument scope signature callee index parameter argument with
          | error message => simp
          | ok first =>
              cases rest : analyzeEachArgument scope signature callee (index + 1) parameters
                  arguments with
              | error message => simp [Except.map]
              | ok others => simp [Except.map]

/-- A call is accepted exactly when each of its arguments is taken. -/
theorem analyzeCallArguments_isOk_iff (ordinary : isOrdinaryUserFunction scope signature = true)
    (arguments : List Ast.Expr) :
    (∃ passed, analyzeCallArguments scope signature callee arguments = .ok passed) ↔
      List.Forall₂ (IsTaken scope) signature.parameters arguments := by
  by_cases count : arguments.length = signature.parameters.length
  · rw [← analyzeEachArgument_isOk_iff callee ordinary 0 count.symm,
      ← validateHandleCallArguments_isOk_iff callee 0 count.symm, analyzeCallArguments,
      if_neg (not_not.mpr count)]
    cases validateHandleCallArguments scope callee 0 signature.parameters arguments <;> simp
  · rw [analyzeCallArguments, if_pos count]
    simp only [reduceCtorEq, exists_false, false_iff]
    intro taken
    exact count taken.length_eq.symm

end Calls

end HitSimple.Sema

import HitSimple.Safety.Structured

namespace HitSimple.Safety
open Dataflow Validator

/-- How control leaves a statement. -/
inductive Outcome where
  | fallsThrough | breaks | continues
  deriving DecidableEq, Repr

/-- What statements and conditions do to a store, and what a fact says of one. -/
structure Semantics (Leaf Expr Store : Type) where
  executes : Leaf → Store → Store → Prop
  tests : Expr → Store → Bool → Store → Prop
  holds : Fact → Store → Prop

/-- What is executed: a statement, statements in order, or what is left of a loop before its
condition is tested. -/
inductive Code (Leaf Expr : Type) where
  | statement (statement : Stmt Leaf Expr)
  | inOrder (statements : Block Leaf Expr)
  | whileRounds (condition : Expr) (body : Block Leaf Expr)
  | forRounds (condition : Option Expr) (post body : Block Leaf Expr)

section Semantics
variable {Leaf Expr Store : Type} (semantics : Semantics Leaf Expr Store)

/-- A `for` without a condition goes on. -/
def Semantics.testsOptional : Option Expr → Store → Bool → Store → Prop
  | some condition, before, value, after => semantics.tests condition before value after
  | none, before, value, after => value = true ∧ after = before

/-- The executions of structured statements. -/
inductive Executes : Code Leaf Expr → Store → Outcome → Store → Prop where
  | leaf {leaf : Leaf} {before after : Store} (executed : semantics.executes leaf before after) :
      Executes (.statement (.leaf leaf)) before .fallsThrough after
  | statementList {statements : Block Leaf Expr} {before after : Store} {outcome : Outcome}
      (executed : Executes (.inOrder statements) before outcome after) :
      Executes (.statement (.statementList statements)) before outcome after
  | nil {before : Store} : Executes (.inOrder .nil) before .fallsThrough before
  | cons {statement : Stmt Leaf Expr} {rest : Block Leaf Expr} {before middle after : Store}
      {outcome : Outcome} (first : Executes (.statement statement) before .fallsThrough middle)
      (later : Executes (.inOrder rest) middle outcome after) :
      Executes (.inOrder (.cons statement rest)) before outcome after
  | leave {statement : Stmt Leaf Expr} {rest : Block Leaf Expr} {before after : Store}
      {outcome : Outcome} (first : Executes (.statement statement) before outcome after)
      (leaves : outcome ≠ .fallsThrough) :
      Executes (.inOrder (.cons statement rest)) before outcome after
  | ifThen {condition : Expr} {thenBlock : Block Leaf Expr} {before middle after : Store}
      {outcome : Outcome} (test : semantics.tests condition before true middle)
      (executed : Executes (.inOrder thenBlock) middle outcome after) :
      Executes (.statement (.ifThen condition thenBlock)) before outcome after
  | ifSkip {condition : Expr} {thenBlock : Block Leaf Expr} {before after : Store}
      (test : semantics.tests condition before false after) :
      Executes (.statement (.ifThen condition thenBlock)) before .fallsThrough after
  | ifTrue {condition : Expr} {thenBlock elseBlock : Block Leaf Expr}
      {before middle after : Store} {outcome : Outcome}
      (test : semantics.tests condition before true middle)
      (executed : Executes (.inOrder thenBlock) middle outcome after) :
      Executes (.statement (.ifElse condition thenBlock elseBlock)) before outcome after
  | ifFalse {condition : Expr} {thenBlock elseBlock : Block Leaf Expr}
      {before middle after : Store} {outcome : Outcome}
      (test : semantics.tests condition before false middle)
      (executed : Executes (.inOrder elseBlock) middle outcome after) :
      Executes (.statement (.ifElse condition thenBlock elseBlock)) before outcome after
  | breakLoop {before : Store} : Executes (.statement .breakLoop) before .breaks before
  | continueLoop {before : Store} : Executes (.statement .continueLoop) before .continues before
  | whileLoop {condition : Expr} {body : Block Leaf Expr} {before after : Store}
      (executed : Executes (.whileRounds condition body) before .fallsThrough after) :
      Executes (.statement (.whileLoop condition body)) before .fallsThrough after
  | whileDone {condition : Expr} {body : Block Leaf Expr} {before after : Store}
      (test : semantics.tests condition before false after) :
      Executes (.whileRounds condition body) before .fallsThrough after
  | whileBreak {condition : Expr} {body : Block Leaf Expr} {before middle after : Store}
      (test : semantics.tests condition before true middle)
      (round : Executes (.inOrder body) middle .breaks after) :
      Executes (.whileRounds condition body) before .fallsThrough after
  | whileNext {condition : Expr} {body : Block Leaf Expr} {before middle next after : Store}
      {outcome : Outcome} (test : semantics.tests condition before true middle)
      (round : Executes (.inOrder body) middle outcome next) (stays : outcome ≠ .breaks)
      (later : Executes (.whileRounds condition body) next .fallsThrough after) :
      Executes (.whileRounds condition body) before .fallsThrough after
  | forLoop {init : Block Leaf Expr} {condition : Option Expr} {post body : Block Leaf Expr}
      {before middle after : Store} (start : Executes (.inOrder init) before .fallsThrough middle)
      (executed : Executes (.forRounds condition post body) middle .fallsThrough after) :
      Executes (.statement (.forLoop init condition post body)) before .fallsThrough after
  | forDone {condition : Option Expr} {post body : Block Leaf Expr} {before after : Store}
      (test : semantics.testsOptional condition before false after) :
      Executes (.forRounds condition post body) before .fallsThrough after
  | forBreak {condition : Option Expr} {post body : Block Leaf Expr} {before middle after : Store}
      (test : semantics.testsOptional condition before true middle)
      (round : Executes (.inOrder body) middle .breaks after) :
      Executes (.forRounds condition post body) before .fallsThrough after
  | forNext {condition : Option Expr} {post body : Block Leaf Expr}
      {before middle stepped next after : Store} {outcome : Outcome}
      (test : semantics.testsOptional condition before true middle)
      (round : Executes (.inOrder body) middle outcome stepped) (stays : outcome ≠ .breaks)
      (step : Executes (.inOrder post) stepped .fallsThrough next)
      (later : Executes (.forRounds condition post body) next .fallsThrough after) :
      Executes (.forRounds condition post body) before .fallsThrough after

/-- What is known after a step is true, or was known before it and is not made false. -/
def Semantics.Accounts (before after : StaticSafetyState) (store store' : Store) : Prop :=
  ∀ fact, after.Knows fact → semantics.holds fact store' ∨
    (before.Knows fact ∧ (semantics.holds fact store → semantics.holds fact store'))

end Semantics

section Runs
variable {Context Leaf Expr Store : Type} (transfers : Transfers Context Leaf Expr)

/-- The flow after a condition has been validated. -/
def Flow.tested (condition : Option Expr) (flow : Flow Context) : Flow Context :=
  { flow with analyzer := condition.elim flow.analyzer fun condition =>
      (transfers.expression condition).run flow.analyzer }

/-- What the analyzer decides of a condition that has been validated. -/
def Flow.decision (condition : Option Expr) (flow : Flow Context) : Option Bool :=
  condition.bind (transfers.staticBooleanValue · flow.analyzer)

/-- The flow in which the second branch is validated. -/
def Flow.otherwise (decision : Option Bool) (thenBlock : Validator Context)
    (flow : Flow Context) : Option (Flow Context) :=
  match decision with
  | some _ => some flow
  | none => (thenBlock flow).map fun result => result.2.restart flow.analyzer.state

variable (fuel : Nat) (semantics : Semantics Leaf Expr Store)

/-- A test goes the way the analyzer has decided, where it has. -/
structure Follows (flow : Flow Context) (condition : Option Expr) (before : Store) (value : Bool)
    (after : Store) : Prop where
  tested : semantics.testsOptional condition before value after
  accounts : semantics.Accounts flow.analyzer.state
    (flow.tested transfers condition).analyzer.state before after
  decided : ∀ known,
    (flow.tested transfers condition).decision transfers condition = some known → known = value

/-- What every `break` of the body of a `while` knows. -/
def KnownAtBreaks (entry : Flow Context) (body : Block Leaf Expr) (fact : Fact) : Prop :=
  ∀ falls after, validateSafety transfers fuel body entry.enterLoop = some (falls, after) →
    ∀ loop ∈ after.loops.head?, ∀ state ∈ loop.breakState, state.Knows fact

/-- A round of a `while` that the analyzer takes for endless keeps what is known at its entry and
at its breaks. -/
def Steady (entry : Flow Context) (condition : Expr) (body : Block Leaf Expr)
    (before after : Store) : Prop :=
  entry.decision transfers (some condition) = some true → ∀ fact,
    entry.analyzer.state.Knows fact → KnownAtBreaks transfers fuel entry body fact →
      semantics.holds fact before → semantics.holds fact after

/-- The executions in which every statement and every condition does what the analyzer makes of
it in the flow it is validated in, and no `break` or `continue` belongs to a `for`. -/
inductive Runs : Flow Context → Code Leaf Expr → Store → Outcome → Store → Prop where
  | leaf {flow : Flow Context} {leaf : Leaf} {before after : Store}
      (executed : semantics.executes leaf before after)
      (accounts : semantics.Accounts flow.analyzer.state
        ((transfers.statement leaf).run flow.analyzer).state before after) :
      Runs flow (.statement (.leaf leaf)) before .fallsThrough after
  | statementList {flow : Flow Context} {statements : Block Leaf Expr} {before after : Store}
      {outcome : Outcome} (run : Runs flow (.inOrder statements) before outcome after) :
      Runs flow (.statement (.statementList statements)) before outcome after
  | nil {flow : Flow Context} {before : Store} : Runs flow (.inOrder .nil) before .fallsThrough before
  | cons {flow next : Flow Context} {falls : Bool} {statement : Stmt Leaf Expr}
      {rest : Block Leaf Expr} {before middle after : Store} {outcome : Outcome}
      (first : Runs flow (.statement statement) before .fallsThrough middle)
      (validated : validateStmt transfers fuel statement flow = some (falls, next))
      (later : Runs next (.inOrder rest) middle outcome after) :
      Runs flow (.inOrder (.cons statement rest)) before outcome after
  | leave {flow : Flow Context} {statement : Stmt Leaf Expr} {rest : Block Leaf Expr}
      {before after : Store} {outcome : Outcome}
      (first : Runs flow (.statement statement) before outcome after)
      (leaves : outcome ≠ .fallsThrough) :
      Runs flow (.inOrder (.cons statement rest)) before outcome after
  | ifThen {flow : Flow Context} {condition : Expr} {thenBlock : Block Leaf Expr}
      {before middle after : Store} {outcome : Outcome}
      (test : Follows transfers semantics flow (some condition) before true middle)
      (run : Runs (flow.tested transfers (some condition)).enterBlock (.inOrder thenBlock) middle
        outcome after) :
      Runs flow (.statement (.ifThen condition thenBlock)) before outcome after
  | ifSkip {flow : Flow Context} {condition : Expr} {thenBlock : Block Leaf Expr}
      {before after : Store}
      (test : Follows transfers semantics flow (some condition) before false after) :
      Runs flow (.statement (.ifThen condition thenBlock)) before .fallsThrough after
  | ifTrue {flow : Flow Context} {condition : Expr} {thenBlock elseBlock : Block Leaf Expr}
      {before middle after : Store} {outcome : Outcome}
      (test : Follows transfers semantics flow (some condition) before true middle)
      (run : Runs (flow.tested transfers (some condition)).enterBlock (.inOrder thenBlock) middle
        outcome after) :
      Runs flow (.statement (.ifElse condition thenBlock elseBlock)) before outcome after
  | ifFalse {flow next : Flow Context} {condition : Expr} {thenBlock elseBlock : Block Leaf Expr}
      {before middle after : Store} {outcome : Outcome}
      (test : Follows transfers semantics flow (some condition) before false middle)
      (validated : (flow.tested transfers (some condition)).otherwise
        ((flow.tested transfers (some condition)).decision transfers (some condition))
        (validateSafety transfers fuel thenBlock) = some next)
      (run : Runs next.enterBlock (.inOrder elseBlock) middle outcome after) :
      Runs flow (.statement (.ifElse condition thenBlock elseBlock)) before outcome after
  | breakLoop {flow : Flow Context} {before : Store} :
      Runs flow (.statement .breakLoop) before .breaks before
  | continueLoop {flow : Flow Context} {before : Store} :
      Runs flow (.statement .continueLoop) before .continues before
  | whileLoop {flow : Flow Context} {condition : Expr} {body : Block Leaf Expr}
      {before after : Store}
      (run : Runs flow (.whileRounds condition body) before .fallsThrough after) :
      Runs flow (.statement (.whileLoop condition body)) before .fallsThrough after
  | whileDone {flow : Flow Context} {condition : Expr} {body : Block Leaf Expr}
      {before after : Store}
      (test : Follows transfers semantics flow (some condition) before false after) :
      Runs flow (.whileRounds condition body) before .fallsThrough after
  | whileBreak {flow : Flow Context} {condition : Expr} {body : Block Leaf Expr}
      {before middle after : Store}
      (test : Follows transfers semantics flow (some condition) before true middle)
      (round : Runs (flow.tested transfers (some condition)).enterLoop.enterBlock (.inOrder body)
        middle .breaks after) :
      Runs flow (.whileRounds condition body) before .fallsThrough after
  | whileNext {flow : Flow Context} {condition : Expr} {body : Block Leaf Expr}
      {before middle next after : Store} {outcome : Outcome}
      (test : Follows transfers semantics flow (some condition) before true middle)
      (round : Runs (flow.tested transfers (some condition)).enterLoop.enterBlock (.inOrder body)
        middle outcome next)
      (stays : outcome ≠ .breaks)
      (steady : Steady transfers fuel semantics (flow.tested transfers (some condition)) condition
        body before next)
      (later : Runs flow (.whileRounds condition body) next .fallsThrough after) :
      Runs flow (.whileRounds condition body) before .fallsThrough after
  | forLoop {flow next : Flow Context} {falls : Bool} {init : Block Leaf Expr}
      {condition : Option Expr} {post body : Block Leaf Expr} {before middle after : Store}
      (start : Runs flow (.inOrder init) before .fallsThrough middle)
      (validated : validateInOrder transfers fuel init flow = some (falls, next))
      (run : Runs next (.forRounds condition post body) middle .fallsThrough after) :
      Runs flow (.statement (.forLoop init condition post body)) before .fallsThrough after
  | forDone {flow : Flow Context} {condition : Option Expr} {post body : Block Leaf Expr}
      {before after : Store} (test : Follows transfers semantics flow condition before false after) :
      Runs flow (.forRounds condition post body) before .fallsThrough after
  | forNext {flow ended : Flow Context} {falls : Bool} {condition : Option Expr}
      {post body : Block Leaf Expr} {before middle stepped next after : Store}
      (test : Follows transfers semantics flow condition before true middle)
      (round : Runs (flow.tested transfers condition).enterBlock (.inOrder body) middle
        .fallsThrough stepped)
      (validated : validateSafety transfers fuel body (flow.tested transfers condition) =
        some (falls, ended))
      (step : Runs ended (.inOrder post) stepped .fallsThrough next)
      (later : Runs flow (.forRounds condition post body) next .fallsThrough after) :
      Runs flow (.forRounds condition post body) before .fallsThrough after

variable {transfers fuel semantics}

/-- These are executions. -/
theorem Runs.executes {flow : Flow Context} {code : Code Leaf Expr} {before after : Store}
    {outcome : Outcome} (run : Runs transfers fuel semantics flow code before outcome after) :
    Executes semantics code before outcome after := by
  induction run with
  | leaf executed => exact .leaf executed
  | statementList _ ih => exact .statementList ih
  | nil => exact .nil
  | cons _ _ _ first later => exact .cons first later
  | leave _ leaves ih => exact .leave ih leaves
  | ifThen test _ ih => exact .ifThen test.tested ih
  | ifSkip test => exact .ifSkip test.tested
  | ifTrue test _ ih => exact .ifTrue test.tested ih
  | ifFalse test _ _ ih => exact .ifFalse test.tested ih
  | breakLoop => exact .breakLoop
  | continueLoop => exact .continueLoop
  | whileLoop _ ih => exact .whileLoop ih
  | whileDone test => exact .whileDone test.tested
  | whileBreak test _ ih => exact .whileBreak test.tested ih
  | whileNext test _ stays _ _ round later => exact .whileNext test.tested round stays later
  | forLoop _ _ _ start ih => exact .forLoop start ih
  | forDone test => exact .forDone test.tested
  | forNext test _ _ _ _ round step later => exact .forNext test.tested round nofun step later

end Runs

end HitSimple.Safety

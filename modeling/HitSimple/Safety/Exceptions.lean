import HitSimple.Safety.Execution

namespace HitSimple.Safety
open Dataflow Validator

/-- How control leaves a statement of a function that goes on. -/
inductive Exit where
  | fallsThrough | breaks | continues | throws
  | jumps (label : String)
  deriving DecidableEq, Repr

/-- A loop goes on, or tests its condition again. -/
def Exit.staysInLoop : Exit → Bool
  | .fallsThrough | .continues => true
  | _ => false

/-- The loops around a statement are left as well. -/
def Exit.leavesLoop : Exit → Bool
  | .throws | .jumps _ => true
  | _ => false

section Syntax
variable {Leaf Expr : Type}

def Stmt.carries (name : String) : Stmt Leaf Expr → Bool
  | .label carried statement => carried = name || statement.carries name
  | _ => false

/-- The statements of a block from the one that carries a label. -/
def Block.target? (name : String) : Block Leaf Expr → Option (Block Leaf Expr)
  | .nil => none
  | .cons statement rest =>
      if statement.carries name then some (.cons statement rest) else rest.target? name

/-- What is executed; of a block, the statements that are left. -/
inductive Region (Leaf Expr : Type) where
  | statement (statement : Stmt Leaf Expr)
  | inOrder (statements : Block Leaf Expr)
  | block (whole rest : Block Leaf Expr)
  | whileRounds (condition : Expr) (body : Block Leaf Expr)
  | forRounds (condition : Option Expr) (post body : Block Leaf Expr)

end Syntax

section Semantics
variable {Leaf Expr Store : Type} (semantics : Semantics Leaf Expr Store)

/-- The executions of statements.  A throw delivers its value and goes to the innermost catch; a
jump goes to the innermost block that has the label. -/
inductive Performs : Region Leaf Expr → Store → Exit → Store → Prop where
  | leaf {leaf : Leaf} {before after : Store} (executed : semantics.executes leaf before after) :
      Performs (.statement (.leaf leaf)) before .fallsThrough after
  | statementList {statements : Block Leaf Expr} {before after : Store} {exit : Exit}
      (performed : Performs (.inOrder statements) before exit after) :
      Performs (.statement (.statementList statements)) before exit after
  | nil {before : Store} : Performs (.inOrder .nil) before .fallsThrough before
  | cons {statement : Stmt Leaf Expr} {rest : Block Leaf Expr} {before middle after : Store}
      {exit : Exit} (first : Performs (.statement statement) before .fallsThrough middle)
      (later : Performs (.inOrder rest) middle exit after) :
      Performs (.inOrder (.cons statement rest)) before exit after
  | leave {statement : Stmt Leaf Expr} {rest : Block Leaf Expr} {before after : Store}
      {exit : Exit} (first : Performs (.statement statement) before exit after)
      (leaves : exit ≠ .fallsThrough) : Performs (.inOrder (.cons statement rest)) before exit after
  | block {whole rest : Block Leaf Expr} {before after : Store} {exit : Exit}
      (performed : Performs (.inOrder rest) before exit after)
      (outside : ∀ label, exit = .jumps label → whole.target? label = none) :
      Performs (.block whole rest) before exit after
  | jump {whole rest target : Block Leaf Expr} {before middle after : Store} {label : String}
      {exit : Exit} (performed : Performs (.inOrder rest) before (.jumps label) middle)
      (inside : whole.target? label = some target)
      (later : Performs (.block whole target) middle exit after) :
      Performs (.block whole rest) before exit after
  | ifThen {condition : Expr} {thenBlock : Block Leaf Expr} {before middle after : Store}
      {exit : Exit} (test : semantics.tests condition before true middle)
      (performed : Performs (.block thenBlock thenBlock) middle exit after) :
      Performs (.statement (.ifThen condition thenBlock)) before exit after
  | ifSkip {condition : Expr} {thenBlock : Block Leaf Expr} {before after : Store}
      (test : semantics.tests condition before false after) :
      Performs (.statement (.ifThen condition thenBlock)) before .fallsThrough after
  | ifTrue {condition : Expr} {thenBlock elseBlock : Block Leaf Expr}
      {before middle after : Store} {exit : Exit}
      (test : semantics.tests condition before true middle)
      (performed : Performs (.block thenBlock thenBlock) middle exit after) :
      Performs (.statement (.ifElse condition thenBlock elseBlock)) before exit after
  | ifFalse {condition : Expr} {thenBlock elseBlock : Block Leaf Expr}
      {before middle after : Store} {exit : Exit}
      (test : semantics.tests condition before false middle)
      (performed : Performs (.block elseBlock elseBlock) middle exit after) :
      Performs (.statement (.ifElse condition thenBlock elseBlock)) before exit after
  | whileLoop {condition : Expr} {body : Block Leaf Expr} {before after : Store} {exit : Exit}
      (performed : Performs (.whileRounds condition body) before exit after) :
      Performs (.statement (.whileLoop condition body)) before exit after
  | whileDone {condition : Expr} {body : Block Leaf Expr} {before after : Store}
      (test : semantics.tests condition before false after) :
      Performs (.whileRounds condition body) before .fallsThrough after
  | whileBreak {condition : Expr} {body : Block Leaf Expr} {before middle after : Store}
      (test : semantics.tests condition before true middle)
      (round : Performs (.block body body) middle .breaks after) :
      Performs (.whileRounds condition body) before .fallsThrough after
  | whileLeave {condition : Expr} {body : Block Leaf Expr} {before middle after : Store}
      {exit : Exit} (test : semantics.tests condition before true middle)
      (round : Performs (.block body body) middle exit after) (leaves : exit.leavesLoop = true) :
      Performs (.whileRounds condition body) before exit after
  | whileNext {condition : Expr} {body : Block Leaf Expr} {before middle next after : Store}
      {exit last : Exit} (test : semantics.tests condition before true middle)
      (round : Performs (.block body body) middle exit next) (stays : exit.staysInLoop = true)
      (later : Performs (.whileRounds condition body) next last after) :
      Performs (.whileRounds condition body) before last after
  | forLoop {init : Block Leaf Expr} {condition : Option Expr} {post body : Block Leaf Expr}
      {before middle after : Store} {exit : Exit}
      (start : Performs (.inOrder init) before .fallsThrough middle)
      (performed : Performs (.forRounds condition post body) middle exit after) :
      Performs (.statement (.forLoop init condition post body)) before exit after
  | forStart {init : Block Leaf Expr} {condition : Option Expr} {post body : Block Leaf Expr}
      {before after : Store} {exit : Exit} (start : Performs (.inOrder init) before exit after)
      (leaves : exit ≠ .fallsThrough) :
      Performs (.statement (.forLoop init condition post body)) before exit after
  | forDone {condition : Option Expr} {post body : Block Leaf Expr} {before after : Store}
      (test : semantics.testsOptional condition before false after) :
      Performs (.forRounds condition post body) before .fallsThrough after
  | forBreak {condition : Option Expr} {post body : Block Leaf Expr}
      {before middle after : Store} (test : semantics.testsOptional condition before true middle)
      (round : Performs (.block body body) middle .breaks after) :
      Performs (.forRounds condition post body) before .fallsThrough after
  | forLeave {condition : Option Expr} {post body : Block Leaf Expr}
      {before middle after : Store} {exit : Exit}
      (test : semantics.testsOptional condition before true middle)
      (round : Performs (.block body body) middle exit after) (leaves : exit.leavesLoop = true) :
      Performs (.forRounds condition post body) before exit after
  | forNext {condition : Option Expr} {post body : Block Leaf Expr}
      {before middle stepped next after : Store} {exit last : Exit}
      (test : semantics.testsOptional condition before true middle)
      (round : Performs (.block body body) middle exit stepped) (stays : exit.staysInLoop = true)
      (step : Performs (.inOrder post) stepped .fallsThrough next)
      (later : Performs (.forRounds condition post body) next last after) :
      Performs (.forRounds condition post body) before last after
  | forStep {condition : Option Expr} {post body : Block Leaf Expr}
      {before middle stepped after : Store} {exit last : Exit}
      (test : semantics.testsOptional condition before true middle)
      (round : Performs (.block body body) middle exit stepped) (stays : exit.staysInLoop = true)
      (step : Performs (.inOrder post) stepped last after) (leaves : last.leavesLoop = true) :
      Performs (.forRounds condition post body) before last after
  | breakLoop {before : Store} : Performs (.statement .breakLoop) before .breaks before
  | continueLoop {before : Store} : Performs (.statement .continueLoop) before .continues before
  | gotoLabel {label : String} {before : Store} :
      Performs (.statement (.gotoLabel label)) before (.jumps label) before
  | label {label : String} {statement : Stmt Leaf Expr} {before after : Store} {exit : Exit}
      (performed : Performs (.statement statement) before exit after) :
      Performs (.statement (.label label statement)) before exit after
  | thrown {delivery : Block Leaf Expr} {before after : Store}
      (delivered : Performs (.inOrder delivery) before .fallsThrough after) :
      Performs (.statement (.thrown delivery)) before .throws after
  | tried {tryBlock catchBlock : Block Leaf Expr} {before after : Store} {exit : Exit}
      (performed : Performs (.block tryBlock tryBlock) before exit after)
      (uncaught : exit ≠ .throws) :
      Performs (.statement (.tryCatch tryBlock catchBlock)) before exit after
  | caught {tryBlock catchBlock : Block Leaf Expr} {before thrown after : Store} {exit : Exit}
      (performed : Performs (.block tryBlock tryBlock) before .throws thrown)
      (handled : Performs (.block catchBlock catchBlock) thrown exit after) :
      Performs (.statement (.tryCatch tryBlock catchBlock)) before exit after

/-- The facts are not made false from one store to another. -/
def Semantics.Keeps (facts : Set Fact) (before after : Store) : Prop :=
  ∀ fact ∈ facts, semantics.holds fact before → semantics.holds fact after

/-- The steps that make none of the facts false. -/
def Semantics.keeping (facts : Set Fact) : Semantics Leaf Expr Store where
  executes leaf before after :=
    semantics.executes leaf before after ∧ semantics.Keeps facts before after
  tests condition before value after :=
    semantics.tests condition before value after ∧ semantics.Keeps facts before after
  holds := semantics.holds

variable {semantics} {facts : Set Fact}

theorem Semantics.Keeps.refl (store : Store) : semantics.Keeps facts store store :=
  fun _ _ holds => holds

theorem Semantics.Keeps.trans {first second third : Store}
    (one : semantics.Keeps facts first second) (two : semantics.Keeps facts second third) :
    semantics.Keeps facts first third :=
  fun fact member holds => two fact member (one fact member holds)

theorem Semantics.keeps_of_testsOptional {condition : Option Expr} {before after : Store}
    {value : Bool} (test : (semantics.keeping facts).testsOptional condition before value after) :
    semantics.Keeps facts before after := by
  cases condition with
  | none =>
      rw [test.2]
      exact .refl _
  | some condition => exact test.2

/-- An execution keeps what each of its steps keeps. -/
theorem Performs.keeps {region : Region Leaf Expr} {before after : Store} {exit : Exit}
    (performed : Performs (semantics.keeping facts) region before exit after) :
    semantics.Keeps facts before after := by
  induction performed with
  | leaf executed => exact executed.2
  | statementList _ ih => exact ih
  | nil => exact .refl _
  | cons _ _ first later => exact first.trans later
  | leave _ _ ih => exact ih
  | block _ _ ih => exact ih
  | jump _ _ _ first later => exact first.trans later
  | ifThen test _ ih => exact test.2.trans ih
  | ifSkip test => exact test.2
  | ifTrue test _ ih => exact test.2.trans ih
  | ifFalse test _ ih => exact test.2.trans ih
  | whileLoop _ ih => exact ih
  | whileDone test => exact test.2
  | whileBreak test _ ih => exact test.2.trans ih
  | whileLeave test _ _ ih => exact test.2.trans ih
  | whileNext test _ _ _ round later => exact (test.2.trans round).trans later
  | forLoop _ _ start ih => exact start.trans ih
  | forStart _ _ ih => exact ih
  | forDone test => exact semantics.keeps_of_testsOptional test
  | forBreak test _ ih => exact (semantics.keeps_of_testsOptional test).trans ih
  | forLeave test _ _ ih => exact (semantics.keeps_of_testsOptional test).trans ih
  | forNext test _ _ _ _ round step later =>
      exact (((semantics.keeps_of_testsOptional test).trans round).trans step).trans later
  | forStep test _ _ _ _ round step =>
      exact ((semantics.keeps_of_testsOptional test).trans round).trans step
  | breakLoop => exact .refl _
  | continueLoop => exact .refl _
  | gotoLabel => exact .refl _
  | label _ ih => exact ih
  | thrown _ ih => exact ih
  | tried _ _ ih => exact ih
  | caught _ _ attempt handled => exact attempt.trans handled

end Semantics

end HitSimple.Safety

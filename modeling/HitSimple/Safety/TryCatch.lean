import HitSimple.Safety.Exceptions
import HitSimple.Safety.WhileLoop

namespace HitSimple.Safety
open Dataflow FactMap Validator StaticSafetyState Codegen

section Execution
variable {Leaf Expr Store : Type} {semantics : Semantics Leaf Expr Store}

def Outcome.exit : Outcome → Exit
  | .fallsThrough => .fallsThrough
  | .breaks => .breaks
  | .continues => .continues

def Code.region : Code Leaf Expr → Region Leaf Expr
  | .statement executed => .statement executed
  | .inOrder executed => .inOrder executed
  | .whileRounds condition body => .whileRounds condition body
  | .forRounds condition post body => .forRounds condition post body

theorem Performs.asBlock {block : Block Leaf Expr} {before after : Store} {outcome : Outcome}
    (performed : Performs semantics (.inOrder block) before outcome.exit after) :
    Performs semantics (.block block block) before outcome.exit after := by
  apply Performs.block performed
  intro label jumps
  cases outcome <;> cases jumps

/-- Structured statements are executed as before. -/
theorem Executes.performs {code : Code Leaf Expr} {before after : Store} {outcome : Outcome}
    (executed : Executes semantics code before outcome after) :
    Performs semantics code.region before outcome.exit after := by
  induction executed with
  | leaf executed => exact .leaf executed
  | statementList _ ih => exact .statementList ih
  | nil => exact .nil
  | cons _ _ first later => exact .cons first later
  | @leave _ _ _ _ outcome _ leaves ih =>
      apply Performs.leave ih
      cases outcome with
      | fallsThrough => exact absurd rfl leaves
      | breaks => exact nofun
      | continues => exact nofun
  | ifThen test _ ih => exact .ifThen test ih.asBlock
  | ifSkip test => exact .ifSkip test
  | ifTrue test _ ih => exact .ifTrue test ih.asBlock
  | ifFalse test _ ih => exact .ifFalse test ih.asBlock
  | breakLoop => exact .breakLoop
  | continueLoop => exact .continueLoop
  | whileLoop _ ih => exact .whileLoop ih
  | whileDone test => exact .whileDone test
  | whileBreak test _ ih => exact .whileBreak test ih.asBlock
  | @whileNext _ _ _ _ _ _ outcome test _ stays _ round later =>
      refine .whileNext test round.asBlock ?_ later
      cases outcome with
      | breaks => exact absurd rfl stays
      | fallsThrough => rfl
      | continues => rfl
  | forLoop _ _ start ih => exact .forLoop start ih
  | forDone test => exact .forDone test
  | forBreak test _ ih => exact .forBreak test ih.asBlock
  | @forNext _ _ _ _ _ _ _ _ outcome test _ stays _ _ round step later =>
      refine .forNext test round.asBlock ?_ step later
      cases outcome with
      | breaks => exact absurd rfl stays
      | fallsThrough => rfl
      | continues => rfl

end Execution

section TryCatch
variable {Context Leaf Expr Store : Type} (transfers : Transfers Context Leaf Expr) (fuel : Nat)
  (semantics : Semantics Leaf Expr Store)

/-- The flow in which the catch block is validated. -/
def catchEntry (tryBlock : Block Leaf Expr) (flow : Flow Context) : Option (Flow Context) :=
  (validateSafety transfers fuel tryBlock flow).map fun result =>
    result.2.restart flow.analyzer.state

/-- From a throw on, the catch block does what the analyzer makes of it. -/
structure Handles (entry : Flow Context) (catchBlock : Block Leaf Expr) (thrown after : Store) :
    Prop where
  performed : Performs semantics (.block catchBlock catchBlock) thrown .fallsThrough after
  accounts : ∃ last, validateSafety transfers fuel catchBlock entry = some (true, last) ∧
    semantics.Accounts entry.analyzer.state last.analyzer.state thrown after

variable {transfers fuel semantics} {flow entry : Flow Context}
  {tryBlock catchBlock : Block Leaf Expr} {before thrown after : Store}

/-- The catch block is entered with what is known before the try block. -/
theorem knows_catchEntry (entered : catchEntry transfers fuel tryBlock flow = some entry)
    (fact : Fact) : entry.analyzer.state.Knows fact ↔ flow.analyzer.state.Knows fact := by
  obtain ⟨result, -, rfl⟩ := Option.map_eq_some_iff.mp entered
  cases fact <;> exact Iff.rfl

theorem describes_catchEntry_iff (entered : catchEntry transfers fuel tryBlock flow = some entry)
    (described : semantics.Describes flow.analyzer.state before) :
    semantics.Describes entry.analyzer.state thrown ↔
      semantics.Keeps { fact | flow.analyzer.state.Knows fact } before thrown := by
  constructor
  · intro describes fact known _
    exact describes fact ((knows_catchEntry entered fact).mpr known)
  · intro keeps fact known
    have known := (knows_catchEntry entered fact).mp known
    exact keeps fact known (described fact known)

/-- A structured catch block, each of whose steps does what the analyzer makes of it. -/
theorem Runs.handles (structured : catchBlock.isStructured transfers = true)
    (run : Runs transfers fuel semantics entry.enterBlock (.inOrder catchBlock) thrown
      .fallsThrough after) : Handles transfers fuel semantics entry catchBlock thrown after := by
  refine ⟨(Executes.performs run.executes).asBlock, ?_⟩
  obtain ⟨falls, last, validated, tells⟩ := Sound.block run.sound structured
    (semantics.trusts_suspected ∅ entry.analyzer.state thrown)
  obtain ⟨rfl, trusts⟩ := tells.lands
  refine ⟨last, validated, fun fact known => ?_⟩
  by_cases suspect : fact ∈ semantics.suspected ∅ entry.analyzer.state thrown
  · rcases suspect with none | ⟨wasKnown, wasFalse⟩
    · exact absurd none (Set.notMem_empty fact)
    · exact .inr ⟨wasKnown, fun holds => absurd holds wasFalse⟩
  · exact .inl (trusts fact known suspect)

theorem Handles.describes (entered : catchEntry transfers fuel tryBlock flow = some entry)
    (handles : Handles transfers fuel semantics entry catchBlock thrown after)
    (described : semantics.Describes entry.analyzer.state thrown) :
    ∃ last, validateStmt transfers fuel (.tryCatch tryBlock catchBlock) flow = some (true, last) ∧
      semantics.Describes last.analyzer.state after := by
  obtain ⟨⟨tryFalls, middle⟩, tried, rfl⟩ := Option.map_eq_some_iff.mp entered
  obtain ⟨last, validated, accounts⟩ := handles.accounts
  have joined : validateStmt transfers fuel (.tryCatch tryBlock catchBlock) flow = _ :=
    alternatives_eq tried validated
  rw [Bool.or_true] at joined
  refine ⟨_, joined, fun fact known => ?_⟩
  have atEnd : last.analyzer.state.Knows fact := by
    cases tryFalls with
    | true => exact mergeStates_weaker_right _ _ _ fact known
    | false => exact restore_weaker _ _ fact known
  rcases accounts fact atEnd with holds | ⟨wasKnown, keeps⟩
  · exact holds
  · exact keeps (described fact wasKnown)

end TryCatch

section Byte

/-- `x = digit; throw;` -/
def storeAndThrow (digit : Char) : Block IntegerStore PureExpr :=
  .cons (.leaf (byteStore digit)) (.cons (.thrown .nil) .nil)

end Byte

end HitSimple.Safety

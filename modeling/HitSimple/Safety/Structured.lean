import HitSimple.Safety.Knowledge

namespace HitSimple.Safety
open Validator

section Combinators
variable {Context : Type} {first second : Validator Context} {flow after : Flow Context}
  {falls : Bool}

/-- The flow inside a block without declarations and labels. -/
def Flow.enterBlock (flow : Flow Context) : Flow Context :=
  { flow with gotos := {
      labelIndex := fun _ => none
      pool := { entries := fun _ => none, waiting := [] }
      localBindings := [] } :: flow.gotos }

/-- The flow inside the body of a `while`. -/
def Flow.enterLoop (flow : Flow Context) : Flow Context :=
  { flow with loops := {
      exitScope := flow.gotos.length
      breakState := none
      continueState := none } :: flow.loops }

/-- The flow in which the second of two alternatives is validated. -/
def Flow.restart (flow : Flow Context) (entry : StaticSafetyState) : Flow Context :=
  { flow with analyzer := flow.analyzer.restoreStaticSafetyState entry }

def joinedAlternatives (firstState secondState : StaticSafetyState) (analyzer : Analyzer Context) :
    Bool → Bool → Analyzer Context
  | true, true => analyzer.mergeStaticSafetyStates firstState secondState
  | true, false => analyzer.restoreStaticSafetyState firstState
  | false, true => analyzer.restoreStaticSafetyState secondState
  | false, false => analyzer

theorem alternatives_eq {middle : Flow Context} {firstFalls secondFalls : Bool}
    (found : first flow = some (firstFalls, middle))
    (found' : second (middle.restart flow.analyzer.state) = some (secondFalls, after)) :
    alternatives first second flow = some (firstFalls || secondFalls, { after with
      analyzer := joinedAlternatives middle.analyzer.state after.analyzer.state after.analyzer
        firstFalls secondFalls }) := by
  have restarted : second { middle with
      analyzer := middle.analyzer.restoreStaticSafetyState flow.analyzer.state } =
        some (secondFalls, after) := found'
  cases firstFalls <;> cases secondFalls
  all_goals
    simp only [alternatives, found, restarted, bind, Option.bind]
    rfl

theorem plainBlock_eq (found : first flow.enterBlock = some (falls, after)) :
    plainBlock [] first flow = some (falls, { after with gotos := after.gotos.tail }) := by
  have entered : first { flow with gotos := {
      labelIndex := fun _ => none
      pool := { entries := fun _ => none, waiting := [] }
      localBindings := [] } :: flow.gotos } = some (falls, after) := found
  cases falls
  all_goals
    simp only [plainBlock, entered, bind, Option.bind]
    rfl

/-- The state after a `while` whose body was validated. -/
def Flow.leaveWhile (entry after : Flow Context) (condition : Option Bool)
    (bodyFallsThrough : Bool) : Flow Context :=
  let analyzer := after.analyzer.restoreStaticSafetyState entry.analyzer.state
  let exitState := after.loops.head?.bind
    (whileExit condition entry.analyzer.state after.analyzer.state bodyFallsThrough)
  { after with
    analyzer := match exitState with
      | some exitState => analyzer.restoreStaticSafetyState exitState
      | none => analyzer
    loops := after.loops.tail }

theorem whileLoop_eq {decides : Analyzer Context → Option Bool}
    (undecided : decides flow.analyzer ≠ some false)
    (found : first flow.enterLoop = some (falls, after)) :
    first.whileLoop decides flow =
      some (true, flow.leaveWhile after (decides flow.analyzer) falls) := by
  have entered : first { flow with loops := {
      exitScope := flow.gotos.length
      breakState := none
      continueState := none } :: flow.loops } = some (falls, after) := found
  simp only [whileLoop, if_neg undecided, entered, bind, Option.bind]
  rfl

/-- The state after a `for` whose body was validated. -/
def Flow.leaveFor (entry after : Flow Context) (bodyFallsThrough : Bool) : Flow Context :=
  let analyzer := after.analyzer.restoreStaticSafetyState entry.analyzer.state
  { after with
    analyzer := if bodyFallsThrough then
        analyzer.mergeStaticSafetyStates entry.analyzer.state after.analyzer.state
      else analyzer }

theorem forLoop_eq {decides : Analyzer Context → Option Bool}
    (undecided : decides flow.analyzer ≠ some false)
    (found : first flow = some (falls, after)) :
    first.forLoop decides flow = some (true, flow.leaveFor after falls) := by
  simp only [forLoop, if_neg undecided, found, bind, Option.bind]
  rfl

end Combinators

variable {Context Leaf Expr : Type} (transfers : Transfers Context Leaf Expr)

mutual

/-- Statements without labels, gotos and declarations, which control enters at the start only. -/
def Stmt.isStructured : Stmt Leaf Expr → Bool
  | .leaf leaf => (transfers.localBinding leaf).isNone
  | .statementList statements => statements.isStructured
  | .ifThen _ thenBlock => thenBlock.isStructured
  | .ifElse _ thenBlock elseBlock => thenBlock.isStructured && elseBlock.isStructured
  | .whileLoop _ body => body.isStructured
  | .forLoop init _ post body => init.isStructured && post.isStructured && body.isStructured
  | .breakLoop | .continueLoop => true
  | .gotoLabel _ | .label _ _ | .returned _ | .thrown _ | .tryCatch _ _ => false

def Block.isStructured : Block Leaf Expr → Bool
  | .nil => true
  | .cons statement rest => statement.isStructured && rest.isStructured

end

variable {transfers}

mutual

theorem Stmt.localBindings_structured : ∀ statement : Stmt Leaf Expr,
    statement.isStructured transfers = true → statement.localBindings transfers = []
  | .leaf leaf, structured => by
      rw [Stmt.localBindings, Option.isNone_iff_eq_none.mp structured]
      rfl
  | .statementList statements, structured =>
      Block.localBindings_structured statements structured
  | .ifThen _ _, _ | .ifElse _ _ _, _ | .whileLoop _ _, _ | .forLoop _ _ _ _, _
  | .breakLoop, _ | .continueLoop, _ => rfl

theorem Block.localBindings_structured : ∀ block : Block Leaf Expr,
    block.isStructured transfers = true → block.localBindings transfers = []
  | .nil, _ => rfl
  | .cons statement rest, structured => by
      obtain ⟨first, later⟩ := Bool.and_eq_true_iff.mp structured
      rw [Block.localBindings, Stmt.localBindings_structured statement first,
        Block.localBindings_structured rest later]
      rfl

end

theorem Block.hasLabel_structured : ∀ block : Block Leaf Expr,
    block.isStructured transfers = true → block.hasLabel = false
  | .nil, _ => rfl
  | .cons statement rest, structured => by
      obtain ⟨first, later⟩ := Bool.and_eq_true_iff.mp structured
      cases statement with
      | label label statement => cases first
      | _ => exact Block.hasLabel_structured rest later

/-- A structured block is validated in order. -/
theorem validateBlock_structured {block : Block Leaf Expr}
    (structured : block.isStructured transfers = true) (fuel : Nat) :
    validateBlock transfers fuel block (validateInOrder transfers fuel block)
        (validators transfers fuel block) =
      plainBlock [] (validateInOrder transfers fuel block) := by
  rw [validateBlock, Block.hasLabel_structured block structured,
    Block.localBindings_structured block structured]
  rfl

/-- States still arrive at the breaks and the continues of a loop. -/
structure KeepsArrivals (before after : StaticLoopContext) : Prop where
  exitScope : after.exitScope = before.exitScope
  breaks : Loses before.breakState after.breakState
  continues : Loses before.continueState after.continueState

theorem KeepsArrivals.refl (loop : StaticLoopContext) : KeepsArrivals loop loop :=
  ⟨rfl, .refl _, .refl _⟩

theorem KeepsArrivals.trans {first second third : StaticLoopContext}
    (one : KeepsArrivals first second) (two : KeepsArrivals second third) :
    KeepsArrivals first third :=
  ⟨two.exitScope.trans one.exitScope, one.breaks.trans two.breaks,
    one.continues.trans two.continues⟩

/-- What validating a structured statement leaves of the flow around it. -/
structure Stays (before after : Flow Context) : Prop where
  gotos : after.gotos = before.gotos
  loops : List.Forall₂ KeepsArrivals before.loops after.loops

namespace Stays

theorem of_eq {before after : Flow Context} (gotos : after.gotos = before.gotos)
    (loops : after.loops = before.loops) : Stays before after :=
  ⟨gotos, loops ▸ List.forall₂_same.mpr fun loop _ => .refl loop⟩

theorem trans {first second third : Flow Context} (one : Stays first second)
    (two : Stays second third) : Stays first third where
  gotos := two.gotos.trans one.gotos
  loops := by
    have loops := one.loops
    have later := two.loops
    generalize first.loops = firsts, second.loops = seconds, third.loops = thirds at loops later
    induction loops generalizing thirds with
    | nil =>
        cases later
        exact .nil
    | cons keeps _ ih =>
        cases later with
        | cons keeps' later => exact .cons (keeps.trans keeps') (ih _ later)

theorem loops_tail {before after : Flow Context} {loop : StaticLoopContext}
    {loops : List StaticLoopContext} (entered : before.loops = loop :: loops)
    (stays : Stays before after) : List.Forall₂ KeepsArrivals loops after.loops.tail := by
  have kept := stays.loops
  rw [entered] at kept
  obtain ⟨_, _, -, later, around⟩ := List.forall₂_cons_left_iff.mp kept
  rw [around]
  exact later

end Stays

/-- A validator that needs no fuel, and keeps what is around its statement. -/
def Validates (validator : Validator Context) : Prop :=
  ∀ flow, ∃ fallsThrough after, validator flow = some (fallsThrough, after) ∧ Stays flow after

namespace Validates
variable {first second : Validator Context}

theorem skip : Validates (skip : Validator Context) :=
  fun flow => ⟨true, flow, rfl, .of_eq rfl rfl⟩

theorem effect (effect : Effect Context) : Validates effect.validator :=
  fun _ => ⟨true, _, rfl, .of_eq rfl rfl⟩

theorem each (effects : List (Effect Context)) : Validates (validateEach effects) :=
  fun _ => ⟨true, _, rfl, .of_eq rfl rfl⟩

theorem andThen (one : Validates first) (two : Validates second) :
    Validates (first.andThen second) := by
  intro flow
  obtain ⟨falls, middle, found, stays⟩ := one flow
  cases falls with
  | false => exact ⟨false, middle, by simp [Validator.andThen, found], stays⟩
  | true =>
      obtain ⟨falls, after, found', stays'⟩ := two middle
      exact ⟨falls, after, by simp [Validator.andThen, found, found'], stays.trans stays'⟩

theorem alternatives (one : Validates first) (two : Validates second) :
    Validates (first.alternatives second) := by
  intro flow
  obtain ⟨firstFalls, middle, found, stays⟩ := one flow
  obtain ⟨secondFalls, after, found', stays'⟩ := two
    { middle with analyzer := middle.analyzer.restoreStaticSafetyState flow.analyzer.state }
  have whole : Stays flow after := stays.trans ⟨stays'.gotos, stays'.loops⟩
  have result := alternatives_eq found found'
  cases firstFalls <;> cases secondFalls
  all_goals exact ⟨_, _, result, ⟨whole.gotos, whole.loops⟩⟩

theorem branch (decides : Analyzer Context → Option Bool) (one : Validates first)
    (two : Validates second) : Validates (branch decides first second) := by
  intro flow
  rw [Validator.branch]
  cases decides flow.analyzer with
  | none => exact one.alternatives two flow
  | some holds =>
      cases holds with
      | true => exact one flow
      | false => exact two flow

theorem leaveLoop {record : StaticLoopContext → StaticSafetyState → StaticLoopContext}
    (keeps : ∀ loop state, KeepsArrivals loop (record loop state)) :
    Validates (leaveLoop record : Validator Context) := by
  intro flow
  rw [Validator.leaveLoop]
  cases found : flow.loops with
  | nil => exact ⟨false, flow, rfl, .of_eq rfl rfl⟩
  | cons loop loops =>
      refine ⟨false, _, rfl, rfl, ?_⟩
      rw [found]
      exact .cons (keeps loop _) (List.forall₂_same.mpr fun loop _ => .refl loop)

theorem plainBlock (validates : Validates first) : Validates (plainBlock [] first) := by
  intro flow
  obtain ⟨falls, after, found, stays⟩ := validates flow.enterBlock
  exact ⟨falls, _, plainBlock_eq found, ⟨congrArg List.tail stays.gotos, stays.loops⟩⟩

theorem whileLoop (decides : Analyzer Context → Option Bool) (body : Validates first) :
    Validates (first.whileLoop decides) := by
  intro flow
  by_cases decided : decides flow.analyzer = some false
  · exact ⟨true, flow, if_pos decided, .of_eq rfl rfl⟩
  · obtain ⟨falls, after, found, stays⟩ := body flow.enterLoop
    exact ⟨true, _, whileLoop_eq decided found, ⟨stays.gotos, stays.loops_tail rfl⟩⟩

theorem forLoop (decides : Analyzer Context → Option Bool) (body : Validates first) :
    Validates (first.forLoop decides) := by
  intro flow
  by_cases decided : decides flow.analyzer = some false
  · exact ⟨true, flow, if_pos decided, .of_eq rfl rfl⟩
  · obtain ⟨falls, after, found, stays⟩ := body flow
    exact ⟨true, _, forLoop_eq decided found, ⟨stays.gotos, stays.loops⟩⟩

end Validates

section Structured
variable (fuel : Nat)

mutual

theorem stmt_validates : ∀ statement : Stmt Leaf Expr,
    statement.isStructured transfers = true → Validates (validateStmt transfers fuel statement)
  | .leaf leaf, _ => .effect _
  | .statementList statements, structured => inOrder_validates statements structured
  | .ifThen condition thenBlock, structured =>
      (Validates.effect _).andThen (.branch _ (block_validates thenBlock structured) .skip)
  | .ifElse condition thenBlock elseBlock, structured => by
      obtain ⟨first, second⟩ := Bool.and_eq_true_iff.mp structured
      exact (Validates.effect _).andThen
        (.branch _ (block_validates thenBlock first) (block_validates elseBlock second))
  | .whileLoop condition body, structured =>
      (Validates.effect _).andThen (.whileLoop _ (block_validates body structured))
  | .forLoop init condition post body, structured => by
      obtain ⟨start, repeated⟩ := Bool.and_eq_true_iff.mp structured
      obtain ⟨start, step⟩ := Bool.and_eq_true_iff.mp start
      exact (inOrder_validates init start).andThen ((Validates.each _).andThen
        (.forLoop _ ((block_validates body repeated).andThen (inOrder_validates post step))))
  | .breakLoop, _ => .leaveLoop fun loop state => ⟨rfl, loses_mergeInto _ state, .refl _⟩
  | .continueLoop, _ => .leaveLoop fun loop state => ⟨rfl, .refl _, loses_mergeInto _ state⟩

theorem inOrder_validates : ∀ block : Block Leaf Expr,
    block.isStructured transfers = true → Validates (validateInOrder transfers fuel block)
  | .nil, _ => .skip
  | .cons statement rest, structured => by
      obtain ⟨first, later⟩ := Bool.and_eq_true_iff.mp structured
      exact (stmt_validates statement first).andThen (inOrder_validates rest later)

theorem block_validates : ∀ block : Block Leaf Expr,
    block.isStructured transfers = true →
      Validates (validateBlock transfers fuel block (validateInOrder transfers fuel block)
        (validators transfers fuel block))
  | block, structured => by
      rw [validateBlock_structured structured]
      exact (inOrder_validates block structured).plainBlock

end

end Structured

end HitSimple.Safety

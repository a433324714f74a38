import HitSimple.Safety.State

namespace HitSimple.Safety
open Dataflow FactMap

/-- The analyzer's snapshot state, and what restoring a snapshot leaves alone. -/
structure Analyzer (Context : Type) where
  state : StaticSafetyState
  context : Context

namespace Analyzer
variable {Context : Type}

/-- Object identifiers are not used again after a snapshot is restored. -/
def restoreStaticSafetyState (analyzer : Analyzer Context) (state : StaticSafetyState) :
    Analyzer Context :=
  { analyzer with state := { state with
      nextDynamicObjectId := max analyzer.state.nextDynamicObjectId state.nextDynamicObjectId } }

def mergeStaticSafetyStates (analyzer : Analyzer Context) (left right : StaticSafetyState) :
    Analyzer Context :=
  analyzer.restoreStaticSafetyState (mergedStaticSafetyStates left right)

end Analyzer

def expireFact (bindingName : String) (fact : StaticAddressFact) : StaticAddressFact :=
  match fact.range with
  | some range =>
      if range.bindingName = bindingName then
        { fact with origin := .expiredLocalObject, isBaseAddress := false }
      else fact
  | none => fact

def expireFacts (bindingName : String) (facts : FactMap String (Option StaticAddressFact)) :
    FactMap String (Option StaticAddressFact) :=
  tabulate (facts.keys.erase bindingName) fun key =>
    (facts.lookup key).map (Option.map (expireFact bindingName))

def StaticSafetyState.expire (state : StaticSafetyState) (bindingName : String) :
    StaticSafetyState :=
  { state with
    integerValues := state.integerValues.erase bindingName
    unsignedIntegerValues := state.unsignedIntegerValues.erase bindingName
    addressFacts := expireFacts bindingName state.addressFacts
    bindingAddressFacts := expireFacts bindingName state.bindingAddressFacts
    cstrTerminations := state.cstrTerminations.erase bindingName }

def Analyzer.expireStaticLocalBindings {Context : Type} (analyzer : Analyzer Context)
    (bindingNames : List String) : Analyzer Context :=
  { analyzer with state := bindingNames.foldl StaticSafetyState.expire analyzer.state }

/-- What validating a statement without control flow, or an expression, does to the analyzer.  It
can record addresses for some names only, and makes a dynamic object only if it allocates. -/
structure Effect (Context : Type) where
  run : Analyzer Context → Analyzer Context
  names : Finset String
  allocates : Bool
  binds : ∀ analyzer, (run analyzer).state.bindingAddressFacts.keys ⊆
    analyzer.state.bindingAddressFacts.keys ∪ names
  grows : ∀ analyzer,
    analyzer.state.nextDynamicObjectId ≤ (run analyzer).state.nextDynamicObjectId
  counts : allocates = false → ∀ analyzer,
    (run analyzer).state.nextDynamicObjectId = analyzer.state.nextDynamicObjectId

/-- How the statements without control flow and the expressions of a program are validated. -/
structure Transfers (Context Leaf Expr : Type) where
  statement : Leaf → Effect Context
  expression : Expr → Effect Context
  staticBooleanValue : Expr → Analyzer Context → Option Bool
  localBinding : Leaf → Option String

mutual

inductive Stmt (Leaf Expr : Type) where
  | leaf (leaf : Leaf)
  | statementList (statements : Block Leaf Expr)
  | ifThen (condition : Expr) (thenBlock : Block Leaf Expr)
  | ifElse (condition : Expr) (thenBlock elseBlock : Block Leaf Expr)
  | whileLoop (condition : Expr) (body : Block Leaf Expr)
  | forLoop (init : Block Leaf Expr) (condition : Option Expr) (post body : Block Leaf Expr)
  | gotoLabel (label : String)
  | label (label : String) (statement : Stmt Leaf Expr)
  | returned (values : List Expr)
  | thrown (delivery : Block Leaf Expr)
  | tryCatch (tryBlock catchBlock : Block Leaf Expr)
  | breakLoop
  | continueLoop

inductive Block (Leaf Expr : Type) where
  | nil
  | cons (statement : Stmt Leaf Expr) (rest : Block Leaf Expr)

end

section Syntax
variable {Context Leaf Expr : Type}

def Block.length : Block Leaf Expr → Nat
  | .nil => 0
  | .cons _ rest => rest.length + 1

/-- The first statement that carries a label, directly in the block. -/
def Block.labelIndex : Block Leaf Expr → String → Option Nat
  | .nil, _ => none
  | .cons (.label label _) rest, name =>
      if label = name then some 0 else (rest.labelIndex name).map (· + 1)
  | .cons _ rest, name => (rest.labelIndex name).map (· + 1)

def Block.hasLabel : Block Leaf Expr → Bool
  | .nil => false
  | .cons (.label _ _) _ => true
  | .cons _ rest => rest.hasLabel

mutual

def Stmt.localBindings (transfers : Transfers Context Leaf Expr) : Stmt Leaf Expr → List String
  | .leaf leaf => (transfers.localBinding leaf).toList
  | .statementList statements => statements.localBindings transfers
  | _ => []

def Block.localBindings (transfers : Transfers Context Leaf Expr) : Block Leaf Expr → List String
  | .nil => []
  | .cons statement rest => statement.localBindings transfers ++ rest.localBindings transfers

end

end Syntax

/-- A block that is being validated. -/
structure StaticGotoContext where
  labelIndex : String → Option Nat
  pool : Pool StaticSafetyState
  localBindings : List String

/-- A loop that is being validated; `exitScope` counts the blocks around it. -/
structure StaticLoopContext where
  exitScope : Nat
  breakState : Option StaticSafetyState
  continueState : Option StaticSafetyState

/-- The analyzer with the blocks and the loops around a statement, the innermost first. -/
structure Flow (Context : Type) where
  analyzer : Analyzer Context
  gotos : List StaticGotoContext
  loops : List StaticLoopContext

/-- Validation of a statement: whether control falls through, or nothing without the fuel for a
worklist. -/
abbrev Validator (Context : Type) := Flow Context → Option (Bool × Flow Context)

section Validation
variable {Context Leaf Expr : Type}

def mergeInto (stored : Option StaticSafetyState) (incoming : StaticSafetyState) :
    StaticSafetyState :=
  match stored with
  | some state => mergedStaticSafetyStates state incoming
  | none => incoming

/-- An edge that may not be there joins the others. -/
def arrive (stored incoming : Option StaticSafetyState) : Option StaticSafetyState :=
  match incoming with
  | some state => some (mergeInto stored state)
  | none => stored

def StaticGotoContext.enqueue (goto : StaticGotoContext) (index : Nat)
    (incoming : StaticSafetyState) (prioritizeFallthrough : Bool) : StaticGotoContext :=
  { goto with pool :=
      goto.pool.enqueue mergedStaticSafetyStates index incoming prioritizeFallthrough }

/-- Control falls through to a statement of the innermost block. -/
def Flow.fallTo (flow : Flow Context) (index : Nat) : Flow Context :=
  { flow with gotos :=
      flow.gotos.modify 0 fun goto => goto.enqueue index flow.analyzer.state true }

/-- Leaves the innermost blocks, one after another. -/
def exitStaticScopes (exited : List StaticGotoContext) (analyzer : Analyzer Context)
    (incoming : StaticSafetyState) : Analyzer Context × StaticSafetyState :=
  exited.foldl (fun (analyzer, outgoing) goto =>
    let analyzer := (analyzer.restoreStaticSafetyState outgoing).expireStaticLocalBindings
      goto.localBindings
    (analyzer, analyzer.state)) (analyzer, incoming)

def enqueueStaticGoto (label : String) (flow : Flow Context) : Flow Context :=
  match flow.gotos.findIdx? fun goto => (goto.labelIndex label).isSome with
  | none => flow
  | some depth =>
      let exit := exitStaticScopes (flow.gotos.take depth) flow.analyzer flow.analyzer.state
      { flow with
        analyzer := exit.1
        gotos := flow.gotos.modify depth fun goto => match goto.labelIndex label with
          | some index => goto.enqueue index exit.2 false
          | none => goto }

def Effect.validator (effect : Effect Context) : Validator Context := fun flow =>
  some (true, { flow with analyzer := effect.run flow.analyzer })

def validateEach (effects : List (Effect Context)) : Validator Context := fun flow =>
  some (true, { flow with
    analyzer := effects.foldl (fun analyzer effect => effect.run analyzer) flow.analyzer })

namespace Validator

def stop : Validator Context := fun flow => some (false, flow)

def skip : Validator Context := fun flow => some (true, flow)

def andThen (first second : Validator Context) : Validator Context := fun flow => do
  let (fallsThrough, flow) ← first flow
  if fallsThrough then second flow else some (false, flow)

/-- Two ways from one entry state, joined where both fall through. -/
def alternatives (first second : Validator Context) : Validator Context := fun flow => do
  let entry := flow.analyzer.state
  let (firstFalls, flow) ← first flow
  let firstState := flow.analyzer.state
  let (secondFalls, flow) ← second
    { flow with analyzer := flow.analyzer.restoreStaticSafetyState entry }
  let secondState := flow.analyzer.state
  match firstFalls, secondFalls with
  | true, true => some (true, { flow with
      analyzer := flow.analyzer.mergeStaticSafetyStates firstState secondState })
  | true, false => some (true, { flow with
      analyzer := flow.analyzer.restoreStaticSafetyState firstState })
  | false, true => some (true, { flow with
      analyzer := flow.analyzer.restoreStaticSafetyState secondState })
  | false, false => some (false, flow)

def branch (decides : Analyzer Context → Option Bool) (thenBlock elseBlock : Validator Context) :
    Validator Context := fun flow =>
  match decides flow.analyzer with
  | some true => thenBlock flow
  | some false => elseBlock flow
  | none => alternatives thenBlock elseBlock flow

/-- The state in which a `while` is left, unless it is left by a known condition only. -/
def whileExit (condition : Option Bool) (entry bodyState : StaticSafetyState)
    (bodyFallsThrough : Bool) (loop : StaticLoopContext) : Option StaticSafetyState :=
  let exitState := arrive (if condition = some true then none else some entry) loop.breakState
  let nextIteration := arrive (if bodyFallsThrough then some bodyState else none) loop.continueState
  if condition = some true then exitState
  else arrive exitState (nextIteration.map (mergedStaticSafetyStates entry))

/-- The body of a `while` is validated once. -/
def whileLoop (decides : Analyzer Context → Option Bool) (body : Validator Context) :
    Validator Context := fun flow =>
  let condition := decides flow.analyzer
  if condition = some false then some (true, flow)
  else do
    let entry := flow.analyzer.state
    let loop : StaticLoopContext := {
      exitScope := flow.gotos.length
      breakState := none
      continueState := none }
    let (bodyFallsThrough, flow) ← body { flow with loops := loop :: flow.loops }
    let bodyState := flow.analyzer.state
    let analyzer := flow.analyzer.restoreStaticSafetyState entry
    let exitState := flow.loops.head?.bind (whileExit condition entry bodyState bodyFallsThrough)
    let analyzer := match exitState with
      | some exitState => analyzer.restoreStaticSafetyState exitState
      | none => analyzer
    some (true, { flow with analyzer, loops := flow.loops.tail })

/-- A `for` has no loop context of its own. -/
def forLoop (decides : Analyzer Context → Option Bool) (body : Validator Context) :
    Validator Context := fun flow =>
  if decides flow.analyzer = some false then some (true, flow)
  else do
    let entry := flow.analyzer.state
    let (bodyFallsThrough, flow) ← body flow
    let bodyState := flow.analyzer.state
    let analyzer := flow.analyzer.restoreStaticSafetyState entry
    some (true, { flow with
      analyzer := if bodyFallsThrough then analyzer.mergeStaticSafetyStates entry bodyState
        else analyzer })

/-- A `break` or `continue` leaves the blocks inside the innermost loop context. -/
def leaveLoop (record : StaticLoopContext → StaticSafetyState → StaticLoopContext) :
    Validator Context := fun flow =>
  match flow.loops with
  | [] => some (false, flow)
  | loop :: loops =>
      let exit := exitStaticScopes (flow.gotos.take (flow.gotos.length - loop.exitScope))
        flow.analyzer flow.analyzer.state
      some (false, { flow with analyzer := exit.1, loops := record loop exit.2 :: loops })

/-- Takes statements from the worklist until none waits. -/
def drain (statements : List (Validator Context)) :
    Nat → Flow Context → Option StaticSafetyState → Option (Flow Context × Option StaticSafetyState)
  | fuel, flow, exitState => match flow.gotos with
    | [] => some (flow, exitState)
    | goto :: outer => match goto.pool.waiting with
      | [] => some (flow, exitState)
      | index :: waiting => match fuel with
        | 0 => none
        | fuel + 1 =>
          let goto := { goto with pool := { goto.pool with waiting := waiting } }
          match goto.pool.entries index, statements[index]? with
          | some entry, some statement => do
              let (fallsThrough, flow) ← statement { flow with
                analyzer := flow.analyzer.restoreStaticSafetyState entry
                gotos := goto :: outer }
              if fallsThrough then
                if index + 1 < statements.length then
                  drain statements fuel (flow.fallTo (index + 1)) exitState
                else
                  drain statements fuel flow (some (mergeInto exitState flow.analyzer.state))
              else drain statements fuel flow exitState
          | _, _ => drain statements fuel { flow with gotos := goto :: outer } exitState

/-- A label-free block, validated from its first statement to its last. -/
def plainBlock (localBindings : List String) (statements : Validator Context) :
    Validator Context := fun flow => do
  let goto : StaticGotoContext := {
    labelIndex := fun _ => none
    pool := { entries := fun _ => none, waiting := [] }
    localBindings := localBindings }
  let (fallsThrough, flow) ← statements { flow with gotos := goto :: flow.gotos }
  let flow := { flow with gotos := flow.gotos.tail }
  if fallsThrough then
    some (true, { flow with analyzer := flow.analyzer.expireStaticLocalBindings localBindings })
  else some (false, flow)

/-- A block with labels, validated by its worklist. -/
def labelledBlock (fuel : Nat) (labelIndex : String → Option Nat) (localBindings : List String)
    (statements : List (Validator Context)) : Validator Context := fun flow => do
  let goto : StaticGotoContext := {
    labelIndex := labelIndex
    pool := { entries := fun _ => none, waiting := [] }
    localBindings := localBindings }
  let (flow, exitState) ← drain statements fuel
    { flow with gotos := goto.enqueue 0 flow.analyzer.state false :: flow.gotos } none
  let flow := { flow with gotos := flow.gotos.tail }
  match exitState with
  | none => some (false, flow)
  | some exitState => some (true, { flow with
      analyzer := (flow.analyzer.restoreStaticSafetyState exitState).expireStaticLocalBindings
        localBindings })

end Validator

open Validator

def validateBlock (transfers : Transfers Context Leaf Expr) (fuel : Nat) (block : Block Leaf Expr)
    (inOrder : Validator Context) (statements : List (Validator Context)) : Validator Context :=
  if block.hasLabel then
    labelledBlock fuel block.labelIndex (block.localBindings transfers) statements
  else plainBlock (block.localBindings transfers) inOrder

mutual

def validateStmt (transfers : Transfers Context Leaf Expr) (fuel : Nat) :
    Stmt Leaf Expr → Validator Context
  | .leaf leaf => (transfers.statement leaf).validator
  | .statementList statements => validateInOrder transfers fuel statements
  | .ifThen condition thenBlock =>
      (transfers.expression condition).validator.andThen
        (branch (transfers.staticBooleanValue condition)
          (validateBlock transfers fuel thenBlock (validateInOrder transfers fuel thenBlock)
            (validators transfers fuel thenBlock)) skip)
  | .ifElse condition thenBlock elseBlock =>
      (transfers.expression condition).validator.andThen
        (branch (transfers.staticBooleanValue condition)
          (validateBlock transfers fuel thenBlock (validateInOrder transfers fuel thenBlock)
            (validators transfers fuel thenBlock))
          (validateBlock transfers fuel elseBlock (validateInOrder transfers fuel elseBlock)
            (validators transfers fuel elseBlock)))
  | .whileLoop condition body =>
      (transfers.expression condition).validator.andThen
        (whileLoop (transfers.staticBooleanValue condition)
          (validateBlock transfers fuel body (validateInOrder transfers fuel body)
            (validators transfers fuel body)))
  | .forLoop init condition post body =>
      (validateInOrder transfers fuel init).andThen
        ((validateEach (condition.toList.map transfers.expression)).andThen
          (forLoop (fun analyzer => condition.bind (transfers.staticBooleanValue · analyzer))
            ((validateBlock transfers fuel body (validateInOrder transfers fuel body)
              (validators transfers fuel body)).andThen (validateInOrder transfers fuel post))))
  | .gotoLabel label => fun flow => some (false, enqueueStaticGoto label flow)
  | .label _ statement => validateStmt transfers fuel statement
  | .returned values => (validateEach (values.map transfers.expression)).andThen stop
  | .thrown delivery => (validateInOrder transfers fuel delivery).andThen stop
  | .tryCatch tryBlock catchBlock =>
      alternatives
        (validateBlock transfers fuel tryBlock (validateInOrder transfers fuel tryBlock)
          (validators transfers fuel tryBlock))
        (validateBlock transfers fuel catchBlock (validateInOrder transfers fuel catchBlock)
          (validators transfers fuel catchBlock))
  | .breakLoop => leaveLoop fun loop outgoing =>
      { loop with breakState := some (mergeInto loop.breakState outgoing) }
  | .continueLoop => leaveLoop fun loop outgoing =>
      { loop with continueState := some (mergeInto loop.continueState outgoing) }

def validateInOrder (transfers : Transfers Context Leaf Expr) (fuel : Nat) :
    Block Leaf Expr → Validator Context
  | .nil => skip
  | .cons statement rest =>
      (validateStmt transfers fuel statement).andThen (validateInOrder transfers fuel rest)

def validators (transfers : Transfers Context Leaf Expr) (fuel : Nat) :
    Block Leaf Expr → List (Validator Context)
  | .nil => []
  | .cons statement rest =>
      validateStmt transfers fuel statement :: validators transfers fuel rest

end

/-- Validation of a block of a function. -/
def validateSafety (transfers : Transfers Context Leaf Expr) (fuel : Nat)
    (block : Block Leaf Expr) : Validator Context :=
  validateBlock transfers fuel block (validateInOrder transfers fuel block)
    (validators transfers fuel block)

end Validation

end HitSimple.Safety

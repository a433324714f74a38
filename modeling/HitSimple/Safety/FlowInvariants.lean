import HitSimple.Safety.Structured

namespace HitSimple.Safety
open Dataflow Validator

/-- A property of snapshots that joins, restores and ends of scopes keep. -/
structure IsStable (holds : StaticSafetyState → Prop) : Prop where
  merged : ∀ {left right}, holds left → holds right → holds (mergedStaticSafetyStates left right)
  restored : ∀ {state limit}, holds state → state.nextDynamicObjectId ≤ limit →
    holds { state with nextDynamicObjectId := limit }
  expired : ∀ {state}, holds state → ∀ bindingName, holds (state.expire bindingName)

section Flow
variable {Context : Type} (holds : StaticSafetyState → Prop)

/-- Every state that waits at a jump target of a loop has a property. -/
structure StaticLoopContext.Satisfies (loop : StaticLoopContext) : Prop where
  breaks : ∀ state ∈ loop.breakState, holds state
  continues : ∀ state ∈ loop.continueState, holds state

/-- Every snapshot of a flow has a property. -/
structure Flow.Satisfies (flow : Flow Context) : Prop where
  current : holds flow.analyzer.state
  entries : ∀ goto ∈ flow.gotos, goto.pool.Admits holds
  exits : ∀ loop ∈ flow.loops, loop.Satisfies holds

def Validator.Maintains (validator : Validator Context) : Prop :=
  ∀ flow fallsThrough after, flow.Satisfies holds → validator flow = some (fallsThrough, after) →
    after.Satisfies holds

end Flow

section Restores
variable {Context : Type} {holds : StaticSafetyState → Prop} (stable : IsStable holds)
include stable

theorem IsStable.restore {state : StaticSafetyState} (satisfied : holds state)
    (analyzer : Analyzer Context) : holds (analyzer.restoreStaticSafetyState state).state :=
  stable.restored satisfied (Nat.le_max_right _ _)

theorem IsStable.merge {left right : StaticSafetyState} (first : holds left) (second : holds right)
    (analyzer : Analyzer Context) : holds (analyzer.mergeStaticSafetyStates left right).state :=
  stable.restore (stable.merged first second) analyzer

theorem IsStable.expire (localBindings : List String) {analyzer : Analyzer Context}
    (satisfied : holds analyzer.state) :
    holds (analyzer.expireStaticLocalBindings localBindings).state := by
  show holds (localBindings.foldl StaticSafetyState.expire analyzer.state)
  induction localBindings generalizing analyzer with
  | nil => exact satisfied
  | cons bindingName rest ih =>
      exact @ih { analyzer with state := analyzer.state.expire bindingName }
        (stable.expired satisfied bindingName)

theorem IsStable.mergeInto {stored : Option StaticSafetyState} {incoming : StaticSafetyState}
    (satisfied : ∀ state ∈ stored, holds state) (arrives : holds incoming) :
    holds (mergeInto stored incoming) := by
  cases stored with
  | none => exact arrives
  | some state => exact stable.merged (satisfied state rfl) arrives

theorem IsStable.arrive {stored incoming : Option StaticSafetyState}
    (satisfied : ∀ state ∈ stored, holds state) (arrives : ∀ state ∈ incoming, holds state) :
    ∀ state ∈ arrive stored incoming, holds state := by
  cases incoming with
  | none => exact satisfied
  | some incoming =>
      intro state member
      obtain rfl := Option.mem_some.mp member
      exact stable.mergeInto satisfied (arrives incoming rfl)

theorem IsStable.enqueue {pool : Pool StaticSafetyState} (admitted : pool.Admits holds)
    (index : Nat) {incoming : StaticSafetyState} (arrives : holds incoming) (isFirst : Bool) :
    (pool.enqueue mergedStaticSafetyStates index incoming isFirst).Admits holds := by
  rcases pool.enqueue_cases mergedStaticSafetyStates index incoming isFirst with
    same | ⟨-, new⟩ | ⟨entry, found, -, new⟩
  · rw [same]
    exact admitted
  · rw [new]
    exact admitted.push index arrives isFirst
  · rw [new]
    exact admitted.push index (stable.merged (admitted index entry found) arrives) isFirst

theorem IsStable.exitScopes (exited : List StaticGotoContext) {analyzer : Analyzer Context}
    {incoming : StaticSafetyState} (satisfied : holds analyzer.state) (leaves : holds incoming) :
    holds (exitStaticScopes exited analyzer incoming).1.state ∧
      holds (exitStaticScopes exited analyzer incoming).2 := by
  induction exited generalizing analyzer incoming with
  | nil => exact ⟨satisfied, leaves⟩
  | cons goto rest ih =>
      have next := stable.expire goto.localBindings (stable.restore leaves analyzer)
      exact ih next next

theorem IsStable.whileExit {entry bodyState : StaticSafetyState} {loop : StaticLoopContext}
    (entered : holds entry) (stepped : holds bodyState) (left : loop.Satisfies holds)
    (condition : Option Bool) (fallsThrough : Bool) :
    ∀ state ∈ whileExit condition entry bodyState fallsThrough loop, holds state := by
  have exits : ∀ state ∈ Safety.arrive (if condition = some true then none else some entry)
      loop.breakState, holds state := by
    apply stable.arrive _ left.breaks
    intro state member
    split at member
    · cases member
    · exact Option.mem_some.mp member ▸ entered
  unfold Validator.whileExit
  dsimp only
  split
  · rename_i known
    rwa [if_pos known] at exits
  · rename_i unknown
    rw [if_neg unknown] at exits
    apply stable.arrive exits
    intro state member
    obtain ⟨next, found, rfl⟩ := Option.mem_map.mp member
    apply stable.merged entered
    apply stable.arrive _ left.continues next found
    intro state member
    split at member
    · exact Option.mem_some.mp member ▸ stepped
    · cases member

end Restores

namespace Flow.Satisfies
variable {Context : Type} {holds : StaticSafetyState → Prop} {flow : Flow Context}

/-- The current state is replaced. -/
theorem replace (satisfies : flow.Satisfies holds) {analyzer : Analyzer Context}
    (satisfied : holds analyzer.state) : { flow with analyzer }.Satisfies holds :=
  ⟨satisfied, satisfies.entries, satisfies.exits⟩

theorem push (satisfies : flow.Satisfies holds) (goto : StaticGotoContext)
    (admitted : goto.pool.Admits holds) :
    { flow with gotos := goto :: flow.gotos }.Satisfies holds where
  current := satisfies.current
  entries := by
    intro other member
    rcases List.mem_cons.mp member with rfl | outer
    · exact admitted
    · exact satisfies.entries other outer
  exits := satisfies.exits

theorem pop (satisfies : flow.Satisfies holds) :
    { flow with gotos := flow.gotos.tail }.Satisfies holds where
  current := satisfies.current
  entries goto member := satisfies.entries goto (List.mem_of_mem_tail member)
  exits := satisfies.exits

theorem leave (satisfies : flow.Satisfies holds) :
    { flow with loops := flow.loops.tail }.Satisfies holds where
  current := satisfies.current
  entries := satisfies.entries
  exits loop member := satisfies.exits loop (List.mem_of_mem_tail member)

end Flow.Satisfies

theorem admits_empty (holds : StaticSafetyState → Prop) :
    Pool.Admits holds { entries := fun _ => none, waiting := [] } :=
  nofun

/-- One entry of a list is changed. -/
theorem forall_mem_modify {Item : Type} {holds : Item → Prop} {change : Item → Item}
    (changed : ∀ item, holds item → holds (change item)) (index : Nat) {items : List Item}
    (satisfied : ∀ item ∈ items, holds item) : ∀ item ∈ items.modify index change, holds item := by
  intro item member
  rw [List.mem_iff_getElem?] at member
  obtain ⟨position, found⟩ := member
  rw [List.getElem?_modify] at found
  obtain ⟨earlier, known, rfl⟩ := Option.map_eq_some_iff.mp found
  have holdsEarlier := satisfied earlier (List.mem_of_getElem? known)
  split
  · exact changed earlier holdsEarlier
  · exact holdsEarlier

section Combinators
variable {Context : Type} {holds : StaticSafetyState → Prop} (stable : IsStable holds)
  {first second : Validator Context}

theorem maintains_skip : Maintains holds (skip : Validator Context) := by
  intro flow fallsThrough after satisfies found
  obtain ⟨-, rfl⟩ := Prod.mk.inj (Option.some.inj found)
  exact satisfies

theorem maintains_stop : Maintains holds (stop : Validator Context) := by
  intro flow fallsThrough after satisfies found
  obtain ⟨-, rfl⟩ := Prod.mk.inj (Option.some.inj found)
  exact satisfies

/-- An effect keeps a property of its state. -/
def Effect.Maintains (holds : StaticSafetyState → Prop) (effect : Effect Context) : Prop :=
  ∀ analyzer, holds analyzer.state → holds (effect.run analyzer).state

theorem maintains_effect {effect : Effect Context} (maintains : effect.Maintains holds) :
    effect.validator.Maintains holds := by
  intro flow fallsThrough after satisfies found
  obtain ⟨-, rfl⟩ := Prod.mk.inj (Option.some.inj found)
  exact satisfies.replace (maintains flow.analyzer satisfies.current)

theorem maintains_each {effects : List (Effect Context)}
    (maintains : ∀ effect ∈ effects, effect.Maintains holds) :
    Maintains holds (validateEach effects) := by
  have kept (analyzer : Analyzer Context) (satisfied : holds analyzer.state) :
      holds (effects.foldl (fun analyzer effect => effect.run analyzer) analyzer).state := by
    induction effects generalizing analyzer with
    | nil => exact satisfied
    | cons effect rest ih =>
        apply ih
        · intro other member
          exact maintains other (List.mem_cons_of_mem _ member)
        · exact maintains effect List.mem_cons_self analyzer satisfied
  intro flow fallsThrough after satisfies found
  obtain ⟨-, rfl⟩ := Prod.mk.inj (Option.some.inj found)
  exact satisfies.replace (kept flow.analyzer satisfies.current)

theorem Validator.Maintains.andThen (one : first.Maintains holds) (two : second.Maintains holds) :
    (first.andThen second).Maintains holds := by
  intro flow fallsThrough after satisfies found
  obtain ⟨⟨falls, middle⟩, found, rest⟩ := Option.bind_eq_some_iff.mp found
  have between := one flow falls middle satisfies found
  cases falls with
  | false =>
      obtain ⟨-, rfl⟩ := Prod.mk.inj (Option.some.inj rest)
      exact between
  | true => exact two middle fallsThrough after between rest

include stable

theorem Validator.Maintains.alternatives (one : first.Maintains holds)
    (two : second.Maintains holds) : (alternatives first second).Maintains holds := by
  intro flow fallsThrough after satisfies found
  obtain ⟨⟨firstFalls, middle⟩, found', rest⟩ := Option.bind_eq_some_iff.mp found
  obtain ⟨⟨secondFalls, last⟩, found'', -⟩ := Option.bind_eq_some_iff.mp rest
  have between := one flow firstFalls middle satisfies found'
  have restarted := between.replace (stable.restore satisfies.current middle.analyzer)
  have done := two _ secondFalls last restarted found''
  rw [alternatives_eq found' found''] at found
  obtain ⟨-, rfl⟩ := Prod.mk.inj (Option.some.inj found)
  apply done.replace
  cases firstFalls with
  | false => cases secondFalls with
    | false => exact done.current
    | true => exact stable.restore done.current _
  | true => cases secondFalls with
    | false => exact stable.restore between.current _
    | true => exact stable.merge between.current done.current _

theorem Validator.Maintains.branch (one : first.Maintains holds) (two : second.Maintains holds)
    (decides : Analyzer Context → Option Bool) : (branch decides first second).Maintains holds := by
  intro flow fallsThrough after satisfies found
  unfold Validator.branch at found
  split at found
  · exact one flow fallsThrough after satisfies found
  · exact two flow fallsThrough after satisfies found
  · exact one.alternatives stable two flow fallsThrough after satisfies found

theorem Validator.Maintains.whileLoop (body : first.Maintains holds)
    (decides : Analyzer Context → Option Bool) : (first.whileLoop decides).Maintains holds := by
  intro flow fallsThrough after satisfies found
  by_cases never : decides flow.analyzer = some false
  · rw [Validator.whileLoop, if_pos never] at found
    obtain ⟨-, rfl⟩ := Prod.mk.inj (Option.some.inj found)
    exact satisfies
  · have ran := found
    rw [Validator.whileLoop, if_neg never] at ran
    obtain ⟨⟨falls, last⟩, entered, -⟩ := Option.bind_eq_some_iff.mp ran
    have entry : flow.enterLoop.Satisfies holds := by
      refine ⟨satisfies.current, satisfies.entries, ?_⟩
      intro loop member
      rcases List.mem_cons.mp member with rfl | outer
      · refine ⟨fun state exits => ?_, fun state exits => ?_⟩ <;> cases exits
      · exact satisfies.exits loop outer
    have done := body flow.enterLoop falls last entry entered
    rw [whileLoop_eq never entered] at found
    obtain ⟨-, rfl⟩ := Prod.mk.inj (Option.some.inj found)
    apply done.leave.replace
    have restored := stable.restore satisfies.current last.analyzer
    split
    · rename_i exitState exits
      obtain ⟨loop, head, exits⟩ := Option.bind_eq_some_iff.mp exits
      have left := done.exits loop (List.mem_of_head? head)
      exact stable.restore (stable.whileExit satisfies.current done.current left _ _ exitState exits) _
    · exact restored

theorem Validator.Maintains.forLoop (body : first.Maintains holds)
    (decides : Analyzer Context → Option Bool) : (first.forLoop decides).Maintains holds := by
  intro flow fallsThrough after satisfies found
  by_cases never : decides flow.analyzer = some false
  · rw [Validator.forLoop, if_pos never] at found
    obtain ⟨-, rfl⟩ := Prod.mk.inj (Option.some.inj found)
    exact satisfies
  · have ran := found
    rw [Validator.forLoop, if_neg never] at ran
    obtain ⟨⟨falls, last⟩, entered, -⟩ := Option.bind_eq_some_iff.mp ran
    have done := body flow falls last satisfies entered
    rw [forLoop_eq never entered] at found
    obtain ⟨-, rfl⟩ := Prod.mk.inj (Option.some.inj found)
    apply done.replace
    split
    · exact stable.merge satisfies.current done.current _
    · exact stable.restore satisfies.current _

theorem maintains_leaveLoop
    {record : StaticLoopContext → StaticSafetyState → StaticLoopContext}
    (recorded : ∀ loop state, loop.Satisfies holds → holds state →
      (record loop state).Satisfies holds) :
    Maintains holds (leaveLoop record : Validator Context) := by
  intro flow fallsThrough after satisfies found
  unfold leaveLoop at found
  split at found
  · obtain ⟨-, rfl⟩ := Prod.mk.inj (Option.some.inj found)
    exact satisfies
  · rename_i loop loops inside
    obtain ⟨-, rfl⟩ := Prod.mk.inj (Option.some.inj found)
    obtain ⟨current, outgoing⟩ := stable.exitScopes
      (flow.gotos.take (flow.gotos.length - loop.exitScope)) satisfies.current satisfies.current
    have inner := satisfies.exits
    rw [inside] at inner
    refine ⟨current, satisfies.entries, ?_⟩
    intro other member
    rcases List.mem_cons.mp member with rfl | outer
    · exact recorded loop _ (inner loop List.mem_cons_self) outgoing
    · exact inner other (List.mem_cons_of_mem _ outer)

theorem maintains_goto (label : String) :
    Maintains holds (fun flow => some (false, enqueueStaticGoto label flow) :
      Validator Context) := by
  intro flow fallsThrough after satisfies found
  obtain ⟨-, rfl⟩ := Prod.mk.inj (Option.some.inj found)
  unfold enqueueStaticGoto
  split
  · exact satisfies
  · rename_i depth _
    obtain ⟨current, outgoing⟩ := stable.exitScopes (flow.gotos.take depth) satisfies.current
      satisfies.current
    refine ⟨current, ?_, satisfies.exits⟩
    apply forall_mem_modify _ depth satisfies.entries
    intro goto admitted
    split
    · exact stable.enqueue admitted _ outgoing false
    · exact admitted

theorem Flow.Satisfies.fallTo {flow : Flow Context} (satisfies : flow.Satisfies holds)
    (index : Nat) : (flow.fallTo index).Satisfies holds := by
  refine ⟨satisfies.current, ?_, satisfies.exits⟩
  apply forall_mem_modify _ 0 satisfies.entries
  intro goto admitted
  exact stable.enqueue admitted index satisfies.current true

theorem maintains_drain {statements : List (Validator Context)}
    (each : ∀ statement ∈ statements, Maintains holds statement) :
    ∀ (fuel : Nat) (flow : Flow Context) (exitState : Option StaticSafetyState)
      (after : Flow Context) (exitState' : Option StaticSafetyState), flow.Satisfies holds →
      (∀ state ∈ exitState, holds state) →
      drain statements fuel flow exitState = some (after, exitState') →
      after.Satisfies holds ∧ ∀ state ∈ exitState', holds state := by
  intro fuel
  induction fuel with
  | zero =>
      intro flow exitState after exitState' satisfies exits found
      unfold drain at found
      split at found
      · obtain ⟨rfl, rfl⟩ := Prod.mk.inj (Option.some.inj found)
        exact ⟨satisfies, exits⟩
      · split at found
        · obtain ⟨rfl, rfl⟩ := Prod.mk.inj (Option.some.inj found)
          exact ⟨satisfies, exits⟩
        · cases found
  | succ fuel ih =>
      intro flow exitState after exitState' satisfies exits found
      unfold drain at found
      split at found
      · obtain ⟨rfl, rfl⟩ := Prod.mk.inj (Option.some.inj found)
        exact ⟨satisfies, exits⟩
      · rename_i goto outer gotos
        have inner := satisfies.entries
        rw [gotos] at inner
        have admitted := inner goto List.mem_cons_self
        split at found
        · obtain ⟨rfl, rfl⟩ := Prod.mk.inj (Option.some.inj found)
          exact ⟨satisfies, exits⟩
        · rename_i index waiting _
          have taken : ({ flow with gotos := { goto with pool := { goto.pool with
              waiting } } :: outer } : Flow Context).Satisfies holds := by
            refine ⟨satisfies.current, ?_, satisfies.exits⟩
            intro other member
            rcases List.mem_cons.mp member with rfl | member
            · exact admitted
            · exact inner other (List.mem_cons_of_mem _ member)
          dsimp only at found
          split at found
          · rename_i entry statement entered stands
            obtain ⟨⟨falls, next⟩, ran, rest⟩ := Option.bind_eq_some_iff.mp found
            have start := taken.replace (stable.restore (admitted index entry entered) flow.analyzer)
            have done := each statement (List.mem_of_getElem? stands) _ falls next start ran
            dsimp only at rest
            split at rest
            · split at rest
              · exact ih _ _ _ _ (done.fallTo stable _) exits rest
              · apply ih _ _ _ _ done _ rest
                intro state member
                obtain rfl := Option.mem_some.mp member
                exact stable.mergeInto exits done.current
            · exact ih _ _ _ _ done exits rest
          · exact ih _ _ _ _ taken exits found

theorem Validator.Maintains.plainBlock (statements : first.Maintains holds)
    (localBindings : List String) : (plainBlock localBindings first).Maintains holds := by
  intro flow fallsThrough after satisfies found
  obtain ⟨⟨falls, last⟩, entered, rest⟩ := Option.bind_eq_some_iff.mp found
  let goto : StaticGotoContext := {
    labelIndex := fun _ => none
    pool := { entries := fun _ => none, waiting := [] }
    localBindings }
  have inside := satisfies.push goto (admits_empty holds)
  have done := (statements _ falls last inside entered).pop
  cases falls with
  | false =>
      obtain ⟨-, rfl⟩ := Prod.mk.inj (Option.some.inj rest)
      exact done
  | true =>
      obtain ⟨-, rfl⟩ := Prod.mk.inj (Option.some.inj rest)
      exact done.replace (stable.expire localBindings done.current)

theorem maintains_labelledBlock {statements : List (Validator Context)}
    (each : ∀ statement ∈ statements, Maintains holds statement) (fuel : Nat)
    (labelIndex : String → Option Nat) (localBindings : List String) :
    Maintains holds (labelledBlock fuel labelIndex localBindings statements) := by
  intro flow fallsThrough after satisfies found
  obtain ⟨⟨last, exitState⟩, drained, rest⟩ := Option.bind_eq_some_iff.mp found
  let goto : StaticGotoContext := {
    labelIndex
    pool := { entries := fun _ => none, waiting := [] }
    localBindings }
  have entered := satisfies.push (goto.enqueue 0 flow.analyzer.state false)
    (stable.enqueue (admits_empty holds) 0 satisfies.current false)
  obtain ⟨done, exits⟩ := maintains_drain stable each fuel _ none last exitState entered nofun drained
  cases exitState with
  | none =>
      obtain ⟨-, rfl⟩ := Prod.mk.inj (Option.some.inj rest)
      exact done.pop
  | some exitState =>
      obtain ⟨-, rfl⟩ := Prod.mk.inj (Option.some.inj rest)
      apply done.pop.replace
      exact stable.expire localBindings (stable.restore (exits exitState rfl) last.analyzer)

end Combinators

section Statements
variable {Context Leaf Expr : Type} {transfers : Transfers Context Leaf Expr}
  {holds : StaticSafetyState → Prop}

theorem maintains_validateBlock (stable : IsStable holds) {fuel : Nat} {block : Block Leaf Expr}
    (together : Maintains holds (validateInOrder transfers fuel block))
    (each : ∀ statement ∈ validators transfers fuel block, Maintains holds statement) :
    Maintains holds (validateBlock transfers fuel block (validateInOrder transfers fuel block)
      (validators transfers fuel block)) := by
  unfold validateBlock
  split
  · exact maintains_labelledBlock stable each fuel _ _
  · exact together.plainBlock stable _

variable (stable : IsStable holds) (leaves : ∀ leaf, (transfers.statement leaf).Maintains holds)
  (expressions : ∀ expression, (transfers.expression expression).Maintains holds) (fuel : Nat)
include stable leaves expressions

set_option linter.unusedSectionVars false in
mutual

/-- Validating a statement keeps what its leaves and its expressions keep. -/
theorem validateStmt_maintains : ∀ statement : Stmt Leaf Expr,
    Maintains holds (validateStmt transfers fuel statement)
  | .leaf leaf => maintains_effect (leaves leaf)
  | .statementList statements => validateInOrder_maintains statements
  | .ifThen condition thenBlock => by
      have chosen := maintains_validateBlock stable
        (validateInOrder_maintains thenBlock) (validators_maintains thenBlock)
      exact (maintains_effect (expressions condition)).andThen
        (chosen.branch stable maintains_skip _)
  | .ifElse condition thenBlock elseBlock => by
      have first := maintains_validateBlock stable
        (validateInOrder_maintains thenBlock) (validators_maintains thenBlock)
      have second := maintains_validateBlock stable
        (validateInOrder_maintains elseBlock) (validators_maintains elseBlock)
      exact (maintains_effect (expressions condition)).andThen (first.branch stable second _)
  | .whileLoop condition body => by
      have round := maintains_validateBlock stable
        (validateInOrder_maintains body) (validators_maintains body)
      exact (maintains_effect (expressions condition)).andThen (round.whileLoop stable _)
  | .forLoop init condition post body => by
      have round := maintains_validateBlock stable
        (validateInOrder_maintains body) (validators_maintains body)
      have stepped := round.andThen (validateInOrder_maintains post)
      have tested : Maintains holds (validateEach (condition.toList.map transfers.expression)) := by
        apply maintains_each
        intro effect member
        obtain ⟨expression, -, rfl⟩ := List.mem_map.mp member
        exact expressions expression
      exact (validateInOrder_maintains init).andThen
        (tested.andThen (stepped.forLoop stable _))
  | .gotoLabel label => maintains_goto stable label
  | .label _ statement => validateStmt_maintains statement
  | .returned values => by
      have evaluated : Maintains holds (validateEach (values.map transfers.expression)) := by
        apply maintains_each
        intro effect member
        obtain ⟨expression, -, rfl⟩ := List.mem_map.mp member
        exact expressions expression
      exact evaluated.andThen maintains_stop
  | .thrown delivery => (validateInOrder_maintains delivery).andThen maintains_stop
  | .tryCatch tryBlock catchBlock => by
      have first := maintains_validateBlock stable
        (validateInOrder_maintains tryBlock) (validators_maintains tryBlock)
      have second := maintains_validateBlock stable
        (validateInOrder_maintains catchBlock) (validators_maintains catchBlock)
      exact first.alternatives stable second
  | .breakLoop => by
      apply maintains_leaveLoop stable
      intro loop state left arrives
      constructor
      · intro merged member
        obtain rfl := Option.mem_some.mp member
        exact stable.mergeInto left.breaks arrives
      · exact left.continues
  | .continueLoop => by
      apply maintains_leaveLoop stable
      intro loop state left arrives
      constructor
      · exact left.breaks
      · intro merged member
        obtain rfl := Option.mem_some.mp member
        exact stable.mergeInto left.continues arrives

theorem validateInOrder_maintains : ∀ block : Block Leaf Expr,
    Maintains holds (validateInOrder transfers fuel block)
  | .nil => maintains_skip
  | .cons statement rest =>
      (validateStmt_maintains statement).andThen (validateInOrder_maintains rest)

theorem validators_maintains : ∀ block : Block Leaf Expr,
    ∀ statement ∈ validators transfers fuel block, Maintains holds statement
  | .nil, _, member => nomatch member
  | .cons statement rest, validator, member => by
      rcases List.mem_cons.mp member with rfl | later
      · exact validateStmt_maintains statement
      · exact validators_maintains rest validator later

end

end Statements

end HitSimple.Safety

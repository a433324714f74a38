import HitSimple.Safety.Effects
import HitSimple.Safety.Progress

namespace HitSimple.Safety
open Dataflow FactMap Validator

variable {Context Leaf Expr : Type}

/-- Merging into the states of a worklist can change each of them finitely often. -/
def weighing (names : Finset String) (limit : Nat) : Weighing mergedStaticSafetyStates where
  admits := StaticSafetyState.Within names limit
  weight := StaticSafetyState.weight names limit
  join_admits := StaticSafetyState.Within.merged
  join_lt _ := StaticSafetyState.merged_weight_lt

/-- What the statements of a block with labels do to its worklist.  Before the bound control goes
on only; from the bound on it stays, and nothing is allocated. -/
structure Loops (names : Finset String) (labels : List String) (allocates : Bool)
    (labelIndex : String → Option Nat) (bound : Nat) (statements : List (Nat → Validator Context))
    (targets : Nat → List String) (allocating : Nat → Bool) : Prop where
  each : ∀ index (inside : index < statements.length),
    Settles names (targets index) (allocating index) statements[index]
  covered : ∀ index, targets index ⊆ labels
  counted : allocates = false → ∀ index, allocating index = false
  inside : ∀ label target, labelIndex label = some target → target < statements.length
  fits : bound ≤ statements.length
  onward : ∀ index < bound, ∀ label ∈ targets index, ∀ target, labelIndex label = some target →
    index < target
  stays : ∀ index, bound ≤ index → index < statements.length → ∀ label ∈ targets index, ∀ target,
    labelIndex label = some target → bound ≤ target
  frugal : ∀ index, bound ≤ index → index < statements.length → allocating index = false

section Drain
variable {names : Finset String} {labels : List String} {allocates : Bool}
  {labelIndex : String → Option Nat} {bound : Nat} {statements : List (Nat → Validator Context)}
  {targets : Nat → List String} {allocating : Nat → Bool}

/-- A worklist that still runs. -/
structure Draining (names : Finset String) (labelIndex : String → Option Nat)
    (flow : Flow Context) (goto : StaticGotoContext) (outer : List StaticGotoContext)
    (exitState : Option StaticSafetyState) : Prop where
  gotos : flow.gotos = goto :: outer
  labels : goto.labelIndex = labelIndex
  admits : goto.pool.Admits (StaticSafetyState.Within names flow.limit)
  bound : flow.BoundIn names
  exits : ∀ state ∈ exitState, state.Within names flow.limit

/-- The worklist runs empty from a flow. -/
def Drains (names : Finset String) (labels : List String) (allocates : Bool)
    (statements : List (Nat → Validator Context)) (flow : Flow Context)
    (exitState : Option StaticSafetyState) : Prop :=
  ∃ fuel after exitState', drain (statements.map (· fuel)) fuel flow exitState =
      some (after, exitState') ∧
    Keeps names labels allocates { flow with gotos := flow.gotos.tail }
      { after with gotos := after.gotos.tail } ∧
    ∀ state ∈ exitState', state.Within names after.limit

theorem drain_empty {flow : Flow Context} {goto : StaticGotoContext}
    {outer : List StaticGotoContext} {exitState : Option StaticSafetyState}
    (draining : Draining names labelIndex flow goto outer exitState)
    (waiting : goto.pool.waiting = []) :
    Drains names labels allocates statements flow exitState := by
  refine ⟨0, flow, exitState, ?_, .refl draining.bound, draining.exits⟩
  rw [drain, draining.gotos]
  simp only [waiting]

/-- A block after its first waiting statement is taken. -/
def StaticGotoContext.take (goto : StaticGotoContext) (waiting : List Nat) : StaticGotoContext :=
  { goto with pool := { goto.pool with waiting := waiting } }

theorem drain_drop {validators : List (Validator Context)} {flow : Flow Context}
    {goto : StaticGotoContext} {outer : List StaticGotoContext} {index : Nat} {waiting : List Nat}
    (gotos : flow.gotos = goto :: outer) (waits : goto.pool.waiting = index :: waiting)
    (missing : goto.pool.entries index = none ∨ validators[index]? = none) (fuel : Nat)
    (exitState : Option StaticSafetyState) :
    drain validators (fuel + 1) flow exitState =
      drain validators fuel { flow with gotos := goto.take waiting :: outer } exitState := by
  rw [drain, gotos]
  simp only [waits]
  rcases missing with noEntry | noStatement
  · simp only [noEntry]
    rfl
  · cases entry : goto.pool.entries index with
    | none => rfl
    | some entry =>
        simp only [noStatement]
        rfl

theorem drain_take {validators : List (Validator Context)} {flow : Flow Context}
    {goto : StaticGotoContext} {outer : List StaticGotoContext} {index : Nat} {waiting : List Nat}
    {entry : StaticSafetyState} {statement : Validator Context}
    (gotos : flow.gotos = goto :: outer) (waits : goto.pool.waiting = index :: waiting)
    (entered : goto.pool.entries index = some entry)
    (taken : validators[index]? = some statement) {fuel : Nat} {fallsThrough : Bool}
    {after : Flow Context}
    (found : statement { flow with
      analyzer := flow.analyzer.restoreStaticSafetyState entry
      gotos := goto.take waiting :: outer } = some (fallsThrough, after))
    (exitState : Option StaticSafetyState) :
    drain validators (fuel + 1) flow exitState =
      if fallsThrough then
        if index + 1 < validators.length then
          drain validators fuel (after.fallTo (index + 1)) exitState
        else drain validators fuel after (some (mergeInto exitState after.analyzer.state))
      else drain validators fuel after exitState := by
  rw [drain, gotos]
  simp only [waits, entered, taken]
  rw [StaticGotoContext.take] at found
  simp only [found, bind, Option.bind_some]

/-- The states that a taken statement sends on. -/
theorem Draining.step {flow : Flow Context} {goto : StaticGotoContext}
    {outer : List StaticGotoContext} {exitState : Option StaticSafetyState} {index : Nat}
    {waiting : List Nat} {entry : StaticSafetyState}
    (draining : Draining names labelIndex flow goto outer exitState)
    (entered : goto.pool.entries index = some entry) {sent : List String} {mayAllocate : Bool}
    {after : Flow Context}
    (keeps : Keeps names sent mayAllocate
      { flow with
        analyzer := flow.analyzer.restoreStaticSafetyState entry
        gotos := goto.take waiting :: outer } after) :
    flow.limit ≤ after.limit ∧ (mayAllocate = false → after.limit = flow.limit) ∧
      ∃ later outer', after.gotos = later :: outer' ∧ later.labelIndex = labelIndex ∧
        Enqueues mergedStaticSafetyStates
          (fun target => ∃ label ∈ sent, labelIndex label = some target)
          (StaticSafetyState.Within names after.limit) { goto.pool with waiting } later.pool ∧
        later.pool.Admits (StaticSafetyState.Within names after.limit) := by
  have within := draining.admits index entry entered
  have sameLimit : (flow.analyzer.restoreStaticSafetyState entry).state.nextDynamicObjectId =
      flow.limit := restore_limit within.allocated
  obtain ⟨-, grows, counts, keptGotos, -⟩ := keeps
  rw [Flow.limit, sameLimit] at grows
  refine ⟨grows, fun frugal => (counts frugal).trans sameLimit, ?_⟩
  generalize whole : after.gotos = gotos at keptGotos
  cases keptGotos with
  | @cons _ later _ outer' kept _ =>
      refine ⟨later, outer', rfl, kept.labelIndex.trans draining.labels, ?_, ?_⟩
      · simpa only [StaticGotoContext.take, draining.labels] using kept.enqueues
      · refine Enqueues.admits (weighing names after.limit) kept.enqueues ?_
        intro target state found
        exact (draining.admits target state found).mono subset_rfl grows

/-- Where control can go from a statement of the block. -/
def Arrives (labelIndex : String → Option Nat) (sent : List String) (size index target : Nat) :
    Prop :=
  (∃ label ∈ sent, labelIndex label = some target) ∨ target = index + 1 ∧ target < size

theorem Loops.fewer
    (loops : Loops names labels allocates labelIndex bound statements targets allocating)
    {index : Nat} (inside : index < statements.length) {pool later : Pool StaticSafetyState}
    {waiting : List Nat} (waits : pool.waiting = index :: waiting) {limit limit' : Nat}
    (sameLimit : allocating index = false → limit' = limit)
    (admits : pool.Admits (StaticSafetyState.Within names limit))
    (enqueues : Enqueues mergedStaticSafetyStates
      (Arrives labelIndex (targets index) statements.length index)
      (StaticSafetyState.Within names limit') { pool with waiting } later) :
    Fewer (later.remaining bound statements.length (StaticSafetyState.weight names limit'))
      (pool.remaining bound statements.length (StaticSafetyState.weight names limit)) := by
  by_cases before : index < bound
  · refine Enqueues.fewer_of_lt waits before (enqueues.mono ?_ fun _ within => within) _ _
    rintro target (⟨label, sent, found⟩ | ⟨rfl, -⟩)
    · exact loops.onward index before label sent target found
    · exact Nat.lt_succ_self index
  · have notBefore : bound ≤ index := by omega
    rw [sameLimit (loops.frugal index notBefore inside)] at enqueues ⊢
    refine Enqueues.fewer_of_ge (weighing names limit) waits notBefore admits
      (enqueues.mono ?_ fun _ within => within)
    rintro target (⟨label, sent, found⟩ | ⟨rfl, next⟩)
    · exact ⟨loops.stays index notBefore inside label sent target found,
        loops.inside label target found⟩
    · exact ⟨by omega, next⟩

/-- A statement that cannot be taken leaves less to do as well. -/
theorem fewer_drop {pool : Pool StaticSafetyState} {index : Nat} {waiting : List Nat}
    (waits : pool.waiting = index :: waiting) {limit : Nat}
    (admits : pool.Admits (StaticSafetyState.Within names limit)) (bound size : Nat) :
    Fewer
      (Pool.remaining bound size (StaticSafetyState.weight names limit) { pool with waiting })
      (pool.remaining bound size (StaticSafetyState.weight names limit)) := by
  by_cases before : index < bound
  · have stays : Enqueues mergedStaticSafetyStates (index < ·)
        (StaticSafetyState.Within names limit) { pool with waiting } { pool with waiting } := .refl
    exact stays.fewer_of_lt waits before _ _
  · exact Enqueues.fewer_of_ge (weighing names limit) waits (by omega) admits .refl

/-- What follows a taken statement. -/
structure Continues (names : Finset String) (labels : List String) (allocates : Bool)
    (labelIndex : String → Option Nat) (bound size : Nat) (flow : Flow Context)
    (pool : Pool StaticSafetyState) (next : Flow Context)
    (exitState : Option StaticSafetyState) : Prop where
  draining : ∃ later outer, Draining names labelIndex next later outer exitState ∧
    Fewer (later.pool.remaining bound size (StaticSafetyState.weight names next.limit))
      (pool.remaining bound size (StaticSafetyState.weight names flow.limit))
  keeps : Keeps names labels allocates { flow with gotos := flow.gotos.tail }
    { next with gotos := next.gotos.tail }

/-- A taken statement leaves less to do, whether or not it falls through. -/
theorem Loops.continues
    (loops : Loops names labels allocates labelIndex bound statements targets allocating)
    {flow : Flow Context} {goto : StaticGotoContext} {outer : List StaticGotoContext}
    {exitState : Option StaticSafetyState} {index : Nat} {waiting : List Nat}
    {entry : StaticSafetyState} (draining : Draining names labelIndex flow goto outer exitState)
    (waits : goto.pool.waiting = index :: waiting) (inside : index < statements.length)
    (entered : goto.pool.entries index = some entry) {after : Flow Context}
    (keeps : Keeps names (targets index) (allocating index)
      { flow with
        analyzer := flow.analyzer.restoreStaticSafetyState entry
        gotos := goto.take waiting :: outer } after) :
    Continues names labels allocates labelIndex bound statements.length flow goto.pool after
        exitState ∧
      Continues names labels allocates labelIndex bound statements.length flow goto.pool after
        (some (mergeInto exitState after.analyzer.state)) ∧
      (index + 1 < statements.length →
        Continues names labels allocates labelIndex bound statements.length flow goto.pool
          (after.fallTo (index + 1)) exitState) := by
  obtain ⟨grows, sameLimit, later, outer', gotos, sameLabels, enqueues, admits⟩ :=
    draining.step entered keeps
  have within := draining.admits index entry entered
  have popped : Keeps names labels allocates { flow with gotos := flow.gotos.tail }
      { after with gotos := after.gotos.tail } := by
    have start : Keeps names labels allocates { flow with gotos := flow.gotos.tail }
      { flow with gotos := flow.gotos.tail } := .refl draining.bound
    refine (start.restore within).trans (Keeps.pop _ (goto.take waiting) ?_)
    rw [draining.gotos]
    exact keeps.mono (loops.covered index) fun frugal => loops.counted frugal index
  have exits : ∀ state ∈ exitState, state.Within names after.limit :=
    fun state member => (draining.exits state member).mono subset_rfl grows
  have arrives : Enqueues mergedStaticSafetyStates
      (Arrives labelIndex (targets index) statements.length index)
      (StaticSafetyState.Within names after.limit) { goto.pool with waiting } later.pool :=
    enqueues.mono (fun target sent => .inl sent) fun _ within => within
  have fewer := loops.fewer inside waits sameLimit draining.admits arrives
  refine ⟨⟨⟨later, outer', ⟨gotos, sameLabels, admits, keeps.bound, exits⟩, fewer⟩, popped⟩,
    ⟨⟨later, outer', ⟨gotos, sameLabels, admits, keeps.bound, ?_⟩, fewer⟩, popped⟩,
    fun next => ⟨⟨later.enqueue (index + 1) after.analyzer.state true, outer', ⟨?_, sameLabels, ?_,
      keeps.bound, exits⟩, ?_⟩, ?_⟩⟩
  · intro state member
    obtain rfl := Option.mem_some.mp member
    exact Settles.mergeInto_within exits keeps.bound.within
  · rw [Flow.fallTo, gotos]
    rfl
  · exact admits.enqueue (weighing names after.limit) (index + 1) keeps.bound.within true
  · exact loops.fewer inside waits sameLimit draining.admits
      (arrives.tail ⟨index + 1, _, true, .inr ⟨rfl, next⟩, keeps.bound.within, rfl⟩)
  · have sameTail : (after.fallTo (index + 1)).gotos.tail = after.gotos.tail := by
      rw [Flow.fallTo, gotos]
      rfl
    rw [sameTail]
    exact popped

theorem Drains.of_continues {flow next : Flow Context} {pool : Pool StaticSafetyState} {size : Nat}
    {exitState exitState' : Option StaticSafetyState}
    (continues : Continues names labels allocates labelIndex bound size flow pool next exitState')
    (drains : Drains names labels allocates statements next exitState')
    (step : ∀ fuel outcome,
      drain (statements.map (· fuel)) fuel next exitState' = some outcome →
        ∃ fuel', drain (statements.map (· fuel')) fuel' flow exitState = some outcome) :
    Drains names labels allocates statements flow exitState := by
  obtain ⟨fuel, after, exits, found, keeps, within⟩ := drains
  obtain ⟨fuel', found'⟩ := step fuel _ found
  exact ⟨fuel', after, exits, found', continues.keeps.trans keeps, within⟩

theorem Loops.drain_refines
    (loops : Loops names labels allocates labelIndex bound statements targets allocating)
    {fuel fuel' : Nat} (enough : fuel ≤ fuel') :
    List.Forall₂ Refines (statements.map (· fuel)) (statements.map (· fuel')) := by
  rw [List.forall₂_map_left_iff, List.forall₂_map_right_iff, List.forall₂_same]
  intro statement member
  obtain ⟨index, inside, rfl⟩ := List.mem_iff_getElem.mp member
  exact (loops.each index inside).refines enough

/-- The worklist of a block runs empty. -/
theorem Loops.drains
    (loops : Loops names labels allocates labelIndex bound statements targets allocating)
    {flow : Flow Context} {goto : StaticGotoContext} {outer : List StaticGotoContext}
    {exitState : Option StaticSafetyState}
    (draining : Draining names labelIndex flow goto outer exitState) :
    Drains names labels allocates statements flow exitState := by
  generalize measured : goto.pool.remaining bound statements.length
    (StaticSafetyState.weight names flow.limit) = measure
  induction measure using wellFounded_fewer.induction generalizing flow goto outer exitState with
  | h measure ih =>
      subst measured
      cases waits : goto.pool.waiting with
      | nil => exact drain_empty draining waits
      | cons index waiting =>
          by_cases missing : goto.pool.entries index = none ∨ statements.length ≤ index
          · have noStatement (fuel : Nat) : goto.pool.entries index = none ∨
                (statements.map (· fuel))[index]? = none := by
              simpa using missing
            have next : Draining names labelIndex
                { flow with gotos := goto.take waiting :: outer } (goto.take waiting) outer
                exitState :=
              ⟨rfl, draining.labels, draining.admits, draining.bound, draining.exits⟩
            have fewer := fewer_drop waits draining.admits bound statements.length
            obtain ⟨fuel, after, exits, found, keeps, within⟩ := ih _ fewer next rfl
            refine ⟨fuel + 1, after, exits, ?_, ?_, within⟩
            · rw [drain_drop draining.gotos waits (noStatement (fuel + 1)) fuel exitState]
              exact Refines.drain (loops.drain_refines (Nat.le_succ fuel)) le_rfl found
            · simpa only [draining.gotos, List.tail_cons] using keeps
          · rw [not_or, not_le] at missing
            obtain ⟨entry, entered⟩ := Option.ne_none_iff_exists'.mp missing.1
            have inside := missing.2
            obtain ⟨fuel, fallsThrough, after, found, keeps⟩ :=
              (loops.each index inside).outcome { flow with
                analyzer := flow.analyzer.restoreStaticSafetyState entry
                gotos := goto.take waiting :: outer } (draining.admits index entry entered).bound
            obtain ⟨stops, ends, goesOn⟩ := loops.continues draining waits inside entered keeps
            have follows {next : Flow Context} {exitState' : Option StaticSafetyState}
                (continues : Continues names labels allocates labelIndex bound statements.length
                  flow goto.pool next exitState')
                (step : ∀ more more', drain (statements.map (· more)) more' next exitState' =
                  (if fallsThrough then
                    if index + 1 < (statements.map (· more)).length then
                      drain (statements.map (· more)) more' (after.fallTo (index + 1)) exitState
                    else drain (statements.map (· more)) more' after
                      (some (mergeInto exitState after.analyzer.state))
                  else drain (statements.map (· more)) more' after exitState)) :
                Drains names labels allocates statements flow exitState := by
              obtain ⟨later, outer', draining', fewer⟩ := continues.draining
              refine .of_continues continues (ih _ fewer draining' rfl) fun fuel' outcome drained => ?_
              have enough : fuel ≤ max fuel fuel' + 1 := by omega
              have taken : (statements.map (· (max fuel fuel' + 1)))[index]? =
                  some (statements[index] (max fuel fuel' + 1)) := by
                simp [List.getElem?_eq_getElem inside]
              refine ⟨max fuel fuel' + 1, ?_⟩
              rw [drain_take draining.gotos waits entered taken
                ((loops.each index inside).refines enough _ _ found) exitState, ← step]
              exact Refines.drain (loops.drain_refines (by omega)) (le_max_right fuel fuel') drained
            cases fallsThrough with
            | false => exact follows stops fun _ _ => rfl
            | true =>
                by_cases hasNext : index + 1 < statements.length
                · exact follows (goesOn hasNext) fun more _ => by
                    rw [if_pos rfl, if_pos (by simpa using hasNext)]
                · exact follows ends fun more _ => by
                    rw [if_pos rfl, if_neg (by simpa using hasNext)]

theorem Loops.labelledBlock
    (loops : Loops names labels allocates labelIndex bound statements targets allocating)
    (localBindings : List String) :
    Settles names labels allocates fun fuel =>
      Validator.labelledBlock fuel labelIndex localBindings (statements.map (· fuel)) where
  refines enough := .labelledBlock (loops.drain_refines enough) enough labelIndex localBindings
  outcome flow bound := by
    let goto : StaticGotoContext := {
      labelIndex := labelIndex
      pool := { entries := fun _ => none, waiting := [] }
      localBindings := localBindings }
    have nothing : goto.pool.Admits (StaticSafetyState.Within names flow.limit) := nofun
    have draining : Draining names labelIndex
        { flow with gotos := goto.enqueue 0 flow.analyzer.state false :: flow.gotos }
        (goto.enqueue 0 flow.analyzer.state false) flow.gotos none :=
      ⟨rfl, rfl, nothing.enqueue (weighing names flow.limit) 0 bound.within false, bound, nofun⟩
    obtain ⟨fuel, after, exitState, found, keeps, exits⟩ := loops.drains draining
    cases exitState with
    | none =>
        refine ⟨fuel, false, _, ?_, keeps⟩
        simp only [Validator.labelledBlock, goto] at found ⊢
        simp only [found, bind, Option.bind_some]
    | some exitState =>
        refine ⟨fuel, true, _, ?_, (keeps.restore (exits exitState rfl)).expire localBindings⟩
        simp only [Validator.labelledBlock, goto] at found ⊢
        simp only [found, bind, Option.bind_some]

end Drain

section Syntax
variable (transfers : Transfers Context Leaf Expr)

def Block.toList : Block Leaf Expr → List (Stmt Leaf Expr)
  | .nil => []
  | .cons statement rest => statement :: rest.toList

mutual

/-- Whether validating a statement can make a dynamic object. -/
def Stmt.allocates : Stmt Leaf Expr → Bool
  | .leaf leaf => (transfers.statement leaf).allocates
  | .statementList statements => statements.allocates
  | .ifThen condition thenBlock =>
      (transfers.expression condition).allocates || thenBlock.allocates
  | .ifElse condition thenBlock elseBlock =>
      (transfers.expression condition).allocates || thenBlock.allocates || elseBlock.allocates
  | .whileLoop condition body => (transfers.expression condition).allocates || body.allocates
  | .forLoop init condition post body =>
      init.allocates || (condition.toList.map transfers.expression).any (·.allocates) ||
        post.allocates || body.allocates
  | .gotoLabel _ | .breakLoop | .continueLoop => false
  | .label _ statement => statement.allocates
  | .returned values => (values.map transfers.expression).any (·.allocates)
  | .thrown delivery => delivery.allocates
  | .tryCatch tryBlock catchBlock => tryBlock.allocates || catchBlock.allocates

def Block.allocates : Block Leaf Expr → Bool
  | .nil => false
  | .cons statement rest => statement.allocates || rest.allocates

end

mutual

/-- The labels that the gotos of a statement name. -/
def Stmt.targets : Stmt Leaf Expr → List String
  | .gotoLabel label => [label]
  | .statementList statements => statements.targets
  | .ifThen _ thenBlock => thenBlock.targets
  | .ifElse _ thenBlock elseBlock => thenBlock.targets ++ elseBlock.targets
  | .whileLoop _ body => body.targets
  | .forLoop init _ post body => init.targets ++ post.targets ++ body.targets
  | .label _ statement => statement.targets
  | .thrown delivery => delivery.targets
  | .tryCatch tryBlock catchBlock => tryBlock.targets ++ catchBlock.targets
  | .leaf _ | .returned _ | .breakLoop | .continueLoop => []

def Block.targets : Block Leaf Expr → List String
  | .nil => []
  | .cons statement rest => statement.targets ++ rest.targets

end

/-- The labelled statements of a block to which a later one, or the statement itself, goes back. -/
def Block.backTargets (block : Block Leaf Expr) : List Nat :=
  block.toList.zipIdx.flatMap fun entry =>
    (entry.1.targets.filterMap block.labelIndex).filter (· ≤ entry.2)

/-- No statement allocates from the first one that control goes back to. -/
def Block.allocatesBeforeLoops (block : Block Leaf Expr) : Bool :=
  block.toList.zipIdx.all fun entry =>
    !entry.1.allocates transfers || block.backTargets.all (entry.2 < ·)

mutual

/-- The same for each block of a statement. -/
def Stmt.allocatesOnce : Stmt Leaf Expr → Bool
  | .leaf _ | .gotoLabel _ | .returned _ | .breakLoop | .continueLoop => true
  | .statementList statements => statements.allocatesOnce
  | .ifThen _ thenBlock => thenBlock.allocatesBeforeLoops transfers && thenBlock.allocatesOnce
  | .ifElse _ thenBlock elseBlock =>
      thenBlock.allocatesBeforeLoops transfers && thenBlock.allocatesOnce &&
        elseBlock.allocatesBeforeLoops transfers && elseBlock.allocatesOnce
  | .whileLoop _ body => body.allocatesBeforeLoops transfers && body.allocatesOnce
  | .forLoop init _ post body =>
      init.allocatesOnce && post.allocatesOnce && body.allocatesBeforeLoops transfers &&
        body.allocatesOnce
  | .label _ statement => statement.allocatesOnce
  | .thrown delivery => delivery.allocatesOnce
  | .tryCatch tryBlock catchBlock =>
      tryBlock.allocatesBeforeLoops transfers && tryBlock.allocatesOnce &&
        catchBlock.allocatesBeforeLoops transfers && catchBlock.allocatesOnce

def Block.allocatesOnce : Block Leaf Expr → Bool
  | .nil => true
  | .cons statement rest => statement.allocatesOnce && rest.allocatesOnce

end

def effectNames (effects : List (Effect Context)) : Finset String :=
  effects.foldr (fun effect names => effect.names ∪ names) ∅

theorem names_subset_effectNames {effects : List (Effect Context)} {effect : Effect Context}
    (member : effect ∈ effects) : effect.names ⊆ effectNames effects := by
  induction effects with
  | nil => cases member
  | cons first rest ih =>
      rw [effectNames, List.foldr_cons]
      rcases List.mem_cons.mp member with rfl | later
      · exact Finset.subset_union_left
      · exact (ih later).trans Finset.subset_union_right

mutual

/-- The names whose addresses validating a statement can record. -/
def Stmt.names : Stmt Leaf Expr → Finset String
  | .leaf leaf => (transfers.statement leaf).names
  | .statementList statements => statements.names
  | .ifThen condition thenBlock => (transfers.expression condition).names ∪ thenBlock.names
  | .ifElse condition thenBlock elseBlock =>
      (transfers.expression condition).names ∪ thenBlock.names ∪ elseBlock.names
  | .whileLoop condition body => (transfers.expression condition).names ∪ body.names
  | .forLoop init condition post body =>
      init.names ∪ effectNames (condition.toList.map transfers.expression) ∪ post.names ∪ body.names
  | .gotoLabel _ | .breakLoop | .continueLoop => ∅
  | .label _ statement => statement.names
  | .returned values => effectNames (values.map transfers.expression)
  | .thrown delivery => delivery.names
  | .tryCatch tryBlock catchBlock => tryBlock.names ∪ catchBlock.names

def Block.names : Block Leaf Expr → Finset String
  | .nil => ∅
  | .cons statement rest => statement.names ∪ rest.names

end

end Syntax

section Blocks
variable {transfers : Transfers Context Leaf Expr} {names : Finset String}

theorem labelIndex_lt {label : String} : ∀ {block : Block Leaf Expr} {target : Nat},
    block.labelIndex label = some target → target < block.toList.length
  | .nil, _, found => by cases found
  | .cons statement rest, target, found => by
      have later (found : (rest.labelIndex label).map (· + 1) = some target) :
          target < (Block.cons statement rest).toList.length := by
        obtain ⟨inner, foundInner, rfl⟩ := Option.map_eq_some_iff.mp found
        exact Nat.succ_lt_succ (labelIndex_lt foundInner)
      cases statement with
      | label name statement =>
          rw [Block.labelIndex] at found
          split at found
          · cases found
            exact Nat.succ_pos _
          · exact later found
      | _ => exact later found

theorem targets_subset : ∀ {block : Block Leaf Expr} {statement : Stmt Leaf Expr},
    statement ∈ block.toList → statement.targets ⊆ block.targets
  | .nil, _, member => by cases member
  | .cons first rest, statement, member => by
      rcases List.mem_cons.mp member with rfl | later
      · exact List.subset_append_left _ _
      · exact List.Subset.trans (targets_subset later) (List.subset_append_right _ _)

theorem allocates_of_mem : ∀ {block : Block Leaf Expr} {statement : Stmt Leaf Expr},
    block.allocates transfers = false → statement ∈ block.toList →
      statement.allocates transfers = false
  | .nil, _, _, member => by cases member
  | .cons first rest, statement, frugal, member => by
      rw [Block.allocates, Bool.or_eq_false_iff] at frugal
      rcases List.mem_cons.mp member with rfl | later
      · exact frugal.1
      · exact allocates_of_mem frugal.2 later

theorem mem_backTargets {block : Block Leaf Expr} {index target : Nat} {label : String}
    (inside : index < block.toList.length) (sent : label ∈ block.toList[index].targets)
    (found : block.labelIndex label = some target) (back : target ≤ index) :
    target ∈ block.backTargets := by
  refine List.mem_flatMap.mpr ⟨(block.toList[index], index), ?_, ?_⟩
  · exact List.mem_zipIdx_iff_getElem?.mpr (List.getElem?_eq_getElem inside)
  · exact List.mem_filter.mpr ⟨List.mem_filterMap.mpr ⟨label, sent, found⟩, by simpa using back⟩

/-- A least element of a list, or a bound that exceeds all. -/
theorem exists_bound (indexes : List Nat) (size : Nat) : ∃ bound ≤ size,
    (bound = size ∨ bound ∈ indexes) ∧ ∀ index ∈ indexes, index < size → bound ≤ index := by
  induction indexes with
  | nil => exact ⟨size, le_rfl, .inl rfl, nofun⟩
  | cons first rest ih =>
      obtain ⟨bound, fits, reached, least⟩ := ih
      by_cases smaller : first < bound
      · refine ⟨first, by omega, .inr List.mem_cons_self, fun index member inside => ?_⟩
        rcases List.mem_cons.mp member with rfl | later
        · exact le_rfl
        · exact smaller.le.trans (least index later inside)
      · refine ⟨bound, fits, reached.imp_right (List.mem_cons_of_mem _), fun index member inside => ?_⟩
        rcases List.mem_cons.mp member with rfl | later
        · omega
        · exact least index later inside

theorem block_loops {block : Block Leaf Expr}
    (each : ∀ index (inside : index < block.toList.length),
      Settles names block.toList[index].targets (block.toList[index].allocates transfers)
        fun fuel => validateStmt transfers fuel block.toList[index])
    (before : block.allocatesBeforeLoops transfers = true) : ∃ bound,
      Loops names block.targets (block.allocates transfers) block.labelIndex bound
        (block.toList.map fun statement fuel => validateStmt transfers fuel statement)
        (fun index => (block.toList[index]?.map Stmt.targets).getD [])
        fun index => (block.toList[index]?.map (Stmt.allocates transfers)).getD false := by
  obtain ⟨bound, fits, reached, least⟩ := exists_bound block.backTargets block.toList.length
  refine ⟨bound, ?_, ?_, ?_, ?_, ?_, ?_, ?_, ?_⟩
  · intro index inside
    rw [List.length_map] at inside
    simpa [List.getElem?_eq_getElem inside] using each index inside
  · intro index
    cases found : block.toList[index]? with
    | none => exact List.nil_subset _
    | some statement => exact targets_subset (List.mem_of_getElem? found)
  · intro frugal index
    cases found : block.toList[index]? with
    | none => rfl
    | some statement => exact allocates_of_mem frugal (List.mem_of_getElem? found)
  · intro label target found
    rw [List.length_map]
    exact labelIndex_lt found
  · rw [List.length_map]
    exact fits
  · intro index isBefore label sent target found
    have inside : index < block.toList.length := by omega
    by_contra back
    rw [List.getElem?_eq_getElem inside] at sent
    have reaches := mem_backTargets inside sent found (by omega)
    have atLeast := least target reaches (labelIndex_lt found)
    omega
  · intro index notBefore inside label sent target found
    rw [List.length_map] at inside
    by_contra back
    rw [List.getElem?_eq_getElem inside] at sent
    have reaches := mem_backTargets inside sent found (by omega)
    exact back (least target reaches (labelIndex_lt found))
  · intro index notBefore inside
    rw [List.length_map] at inside
    rw [List.getElem?_eq_getElem inside]
    have entry : (block.toList[index], index) ∈ block.toList.zipIdx :=
      List.mem_zipIdx_iff_getElem?.mpr (List.getElem?_eq_getElem inside)
    have frugal := List.all_eq_true.mp before _ entry
    simp only [Bool.or_eq_true, Bool.not_eq_true', List.all_eq_true, decide_eq_true_eq] at frugal
    refine frugal.resolve_right fun precedes => ?_
    rcases reached with rfl | member
    · omega
    · have first := precedes bound member
      omega

theorem validators_eq (fuel : Nat) (block : Block Leaf Expr) :
    validators transfers fuel block =
      (block.toList.map fun statement fuel => validateStmt transfers fuel statement).map (· fuel) := by
  cases block with
  | nil => rfl
  | cons statement rest =>
      rw [validators, validators_eq fuel rest]
      rfl

theorem block_settles {block : Block Leaf Expr}
    (inOrder : Settles names block.targets (block.allocates transfers)
      fun fuel => validateInOrder transfers fuel block)
    (each : ∀ index (inside : index < block.toList.length),
      Settles names block.toList[index].targets (block.toList[index].allocates transfers)
        fun fuel => validateStmt transfers fuel block.toList[index])
    (before : block.allocatesBeforeLoops transfers = true) :
    Settles names block.targets (block.allocates transfers)
      fun fuel => validateBlock transfers fuel block (validateInOrder transfers fuel block)
        (validators transfers fuel block) := by
  by_cases labelled : block.hasLabel = true
  · obtain ⟨bound, loops⟩ := block_loops each before
    simp only [validateBlock, if_pos labelled, validators_eq]
    exact loops.labelledBlock _
  · simp only [validateBlock, if_neg labelled]
    exact inOrder.plainBlock _

theorem effects_settle {effects : List (Effect Context)} (covered : effectNames effects ⊆ names) :
    Settles names [] (effects.any (·.allocates)) fun _ => validateEach effects := by
  refine .each effects (fun effect member => (names_subset_effectNames member).trans covered) ?_
  intro frugal effect member
  simpa using List.any_eq_false.mp frugal effect member

mutual

theorem stmt_settles : ∀ statement : Stmt Leaf Expr, statement.names transfers ⊆ names →
    statement.allocatesOnce transfers = true →
    Settles names statement.targets (statement.allocates transfers)
      fun fuel => validateStmt transfers fuel statement
  | .leaf leaf, covered, _ => .effect (transfers.statement leaf) covered
  | .statementList statements, covered, once => inOrder_settles statements covered once
  | .gotoLabel label, _, _ => .goto label List.mem_cons_self
  | .label _ statement, covered, once => stmt_settles statement covered once
  | .ifThen condition thenBlock, covered, once => by
      rw [Stmt.names, Finset.union_subset_iff] at covered
      rw [Stmt.allocatesOnce, Bool.and_eq_true] at once
      have chosen := block_settles (inOrder_settles thenBlock covered.2 once.2)
        (each_settles thenBlock covered.2 once.2) once.1
      refine ((Settles.effect _ covered.1).mono (List.Subset.refl _) fun frugal => ?_).andThen
        (.branch (chosen.mono (List.Subset.refl _) fun frugal => ?_) .skip _)
      · exact (Bool.or_eq_false_iff.mp frugal).1
      · exact (Bool.or_eq_false_iff.mp frugal).2
  | .ifElse condition thenBlock elseBlock, covered, once => by
      simp only [Stmt.names, Finset.union_subset_iff] at covered
      simp only [Stmt.allocatesOnce, Bool.and_eq_true] at once
      obtain ⟨⟨tested, thenCovered⟩, elseCovered⟩ := covered
      obtain ⟨⟨⟨thenBefore, thenOnce⟩, elseBefore⟩, elseOnce⟩ := once
      have first := block_settles (inOrder_settles thenBlock thenCovered thenOnce)
        (each_settles thenBlock thenCovered thenOnce) thenBefore
      have second := block_settles (inOrder_settles elseBlock elseCovered elseOnce)
        (each_settles elseBlock elseCovered elseOnce) elseBefore
      simp only [Stmt.allocates, Stmt.targets]
      refine ((Settles.effect _ tested).mono (List.Subset.refl _) fun frugal => ?_).andThen
        (.branch (first.mono (List.subset_append_left _ _) fun frugal => ?_)
          (second.mono (List.subset_append_right _ _) fun frugal => ?_) _)
      all_goals
        simp only [Bool.or_eq_false_iff] at frugal
        simp only [frugal]
  | .whileLoop condition body, covered, once => by
      rw [Stmt.names, Finset.union_subset_iff] at covered
      rw [Stmt.allocatesOnce, Bool.and_eq_true] at once
      have repeated := block_settles (inOrder_settles body covered.2 once.2)
        (each_settles body covered.2 once.2) once.1
      refine ((Settles.effect _ covered.1).mono (List.Subset.refl _) fun frugal => ?_).andThen
        ((repeated.mono (List.Subset.refl _) fun frugal => ?_).whileLoop _)
      · exact (Bool.or_eq_false_iff.mp frugal).1
      · exact (Bool.or_eq_false_iff.mp frugal).2
  | .forLoop init condition post body, covered, once => by
      simp only [Stmt.names, Finset.union_subset_iff] at covered
      simp only [Stmt.allocatesOnce, Bool.and_eq_true] at once
      obtain ⟨⟨⟨initCovered, tested⟩, postCovered⟩, bodyCovered⟩ := covered
      obtain ⟨⟨⟨initOnce, postOnce⟩, bodyBefore⟩, bodyOnce⟩ := once
      have starts := inOrder_settles init initCovered initOnce
      have tests := effects_settle tested
      have repeated := block_settles (inOrder_settles body bodyCovered bodyOnce)
        (each_settles body bodyCovered bodyOnce) bodyBefore
      have steps := inOrder_settles post postCovered postOnce
      simp only [Stmt.allocates, Stmt.targets]
      refine (starts.mono ?_ fun frugal => ?_).andThen
        ((tests.mono (List.nil_subset _) fun frugal => ?_).andThen
          (((repeated.mono ?_ fun frugal => ?_).andThen
            (steps.mono ?_ fun frugal => ?_)).forLoop _))
      · rw [List.append_assoc]
        exact List.subset_append_left _ _
      · simp only [Bool.or_eq_false_iff] at frugal
        exact frugal.1.1.1
      · simp only [Bool.or_eq_false_iff] at frugal
        exact frugal.1.1.2
      · exact List.subset_append_right _ _
      · exact (Bool.or_eq_false_iff.mp frugal).2
      · exact List.Subset.trans (List.subset_append_right _ _) (List.subset_append_left _ _)
      · simp only [Bool.or_eq_false_iff] at frugal
        exact frugal.1.2
  | .returned values, covered, _ => (effects_settle covered).andThen .stop
  | .thrown delivery, covered, once => (inOrder_settles delivery covered once).andThen .stop
  | .tryCatch tryBlock catchBlock, covered, once => by
      simp only [Stmt.names, Finset.union_subset_iff] at covered
      simp only [Stmt.allocatesOnce, Bool.and_eq_true] at once
      obtain ⟨⟨⟨tryBefore, tryOnce⟩, catchBefore⟩, catchOnce⟩ := once
      have first := block_settles (inOrder_settles tryBlock covered.1 tryOnce)
        (each_settles tryBlock covered.1 tryOnce) tryBefore
      have second := block_settles (inOrder_settles catchBlock covered.2 catchOnce)
        (each_settles catchBlock covered.2 catchOnce) catchBefore
      refine (first.mono (List.subset_append_left _ _) fun frugal => ?_).alternatives
        (second.mono (List.subset_append_right _ _) fun frugal => ?_)
      · exact (Bool.or_eq_false_iff.mp frugal).1
      · exact (Bool.or_eq_false_iff.mp frugal).2
  | .breakLoop, _, _ => by
      refine .leaveLoop _ (fun _ _ => rfl) fun loopWithin within => ⟨?_, loopWithin.2⟩
      intro state member
      obtain rfl := Option.mem_some.mp member
      exact Settles.mergeInto_within loopWithin.1 within
  | .continueLoop, _, _ => by
      refine .leaveLoop _ (fun _ _ => rfl) fun loopWithin within => ⟨loopWithin.1, ?_⟩
      intro state member
      obtain rfl := Option.mem_some.mp member
      exact Settles.mergeInto_within loopWithin.2 within

theorem inOrder_settles : ∀ block : Block Leaf Expr, block.names transfers ⊆ names →
    block.allocatesOnce transfers = true →
    Settles names block.targets (block.allocates transfers)
      fun fuel => validateInOrder transfers fuel block
  | .nil, _, _ => .skip
  | .cons statement rest, covered, once => by
      rw [Block.names, Finset.union_subset_iff] at covered
      rw [Block.allocatesOnce, Bool.and_eq_true] at once
      have first := stmt_settles statement covered.1 once.1
      have later := inOrder_settles rest covered.2 once.2
      exact (first.mono (List.subset_append_left _ _) fun frugal => (Bool.or_eq_false_iff.mp frugal).1).andThen
        (later.mono (List.subset_append_right _ _) fun frugal => (Bool.or_eq_false_iff.mp frugal).2)

theorem each_settles : ∀ block : Block Leaf Expr, block.names transfers ⊆ names →
    block.allocatesOnce transfers = true → ∀ index (inside : index < block.toList.length),
      Settles names block.toList[index].targets (block.toList[index].allocates transfers)
        fun fuel => validateStmt transfers fuel block.toList[index]
  | .cons statement rest, covered, once, index, inside => by
      rw [Block.names, Finset.union_subset_iff] at covered
      rw [Block.allocatesOnce, Bool.and_eq_true] at once
      cases index with
      | zero => exact stmt_settles statement covered.1 once.1
      | succ index => exact each_settles rest covered.2 once.2 index (Nat.lt_of_succ_lt_succ inside)

end

end Blocks

/-- The flow at the start of a function without globals. -/
def Flow.start : Flow StaticContext where
  analyzer := {
    state := .empty
    context := {
      definitionByteLengths := ∅
      globalBindings := ∅
      potentiallyReboundBindings := ∅ } }
  gotos := []
  loops := []

def integerConstant (value : String) : PureExpr :=
  ⟨.integerLiteral value.toList (signedIntegerResult 8), rfl⟩

/-- `p = alloc(4); L: x = 1; goto L;` -/
def loopAfterAllocation : Block Safety.Leaf PureExpr :=
  .cons (.leaf (.integerStore "p" 0 8 (.alloc (integerConstant "4") none)))
    (.cons (.label "L" (.leaf (.integerStore "x" 0 8 (.expression (integerConstant "1")))))
      (.cons (.gotoLabel "L") .nil))

end HitSimple.Safety

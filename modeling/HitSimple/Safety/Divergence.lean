import HitSimple.Safety.Termination

namespace HitSimple.Safety
open Dataflow Validator

section Diverges
variable {Context Leaf Expr : Type} {transfers : Transfers Context Leaf Expr}

/-- A labelled statement and the goto that goes back to it. -/
def backLoop (label : String) (leaf : Leaf) : Block Leaf Expr :=
  .cons (.label label (.leaf leaf)) (.cons (.gotoLabel label) .nil)

/-- One of the two statements waits, and it has seen fewer objects than the analyzer. -/
structure Circles (label : String) (flow : Flow Context) (goto : StaticGotoContext)
    (outer : List StaticGotoContext) : Prop where
  gotos : flow.gotos = goto :: outer
  labelled : goto.labelIndex label = some 0
  waits : (goto.pool.waiting = [0] ∧ (∃ entry, goto.pool.entries 0 = some entry) ∧
      ∀ entry ∈ goto.pool.entries 1, entry.nextDynamicObjectId ≤ flow.limit) ∨
    (goto.pool.waiting = [1] ∧ (∃ entry, goto.pool.entries 1 = some entry) ∧
      ∀ entry ∈ goto.pool.entries 0, entry.nextDynamicObjectId < flow.limit)

/-- A state with a higher object identifier changes every entry state. -/
theorem enqueue_higher {pool : Pool StaticSafetyState} {index : Nat} {incoming : StaticSafetyState}
    (higher : ∀ entry ∈ pool.entries index,
      entry.nextDynamicObjectId < incoming.nextDynamicObjectId) (isFirst : Bool) :
    ∃ entry, entry.nextDynamicObjectId = incoming.nextDynamicObjectId ∧
      pool.enqueue mergedStaticSafetyStates index incoming isFirst =
        pool.push index entry isFirst := by
  unfold Pool.enqueue
  cases stored : pool.entries index with
  | none => exact ⟨incoming, rfl, rfl⟩
  | some entry =>
      have less := higher entry stored
      have counter : (mergedStaticSafetyStates entry incoming).nextDynamicObjectId =
          incoming.nextDynamicObjectId := Nat.max_eq_right less.le
      refine ⟨mergedStaticSafetyStates entry incoming, counter, if_neg fun same => ?_⟩
      rw [same] at counter
      exact less.ne counter

theorem limit_le_restored (flow : Flow Context) (entry : StaticSafetyState) :
    flow.limit ≤ (flow.analyzer.restoreStaticSafetyState entry).state.nextDynamicObjectId :=
  Nat.le_max_left _ _

theorem entry_le_restored (flow : Flow Context) (entry : StaticSafetyState) :
    entry.nextDynamicObjectId ≤
      (flow.analyzer.restoreStaticSafetyState entry).state.nextDynamicObjectId :=
  Nat.le_max_right _ _

/-- A goto to a label of the innermost block. -/
theorem enqueueStaticGoto_innermost {label : String} {flow : Flow Context}
    {goto : StaticGotoContext} {outer : List StaticGotoContext} {index : Nat}
    (gotos : flow.gotos = goto :: outer) (labelled : goto.labelIndex label = some index) :
    enqueueStaticGoto label flow =
      { flow with gotos := goto.enqueue index flow.analyzer.state false :: outer } := by
  have found : flow.gotos.findIdx? (fun goto => (goto.labelIndex label).isSome) = some 0 := by
    rw [gotos, List.findIdx?_cons, labelled]
    rfl
  rw [enqueueStaticGoto, found]
  simp only [gotos, List.take_zero, exitStaticScopes, List.foldl_nil, List.modify_zero_cons,
    labelled]

section Step
variable {label : String} {leaf : Leaf} {flow : Flow Context} {goto : StaticGotoContext}
  {outer : List StaticGotoContext} {entry : StaticSafetyState}

/-- The labelled statement makes an object, so that the goto waits again. -/
theorem Circles.fallsThrough
    (grows : ∀ analyzer : Analyzer Context, analyzer.state.nextDynamicObjectId <
      ((transfers.statement leaf).run analyzer).state.nextDynamicObjectId)
    (gotos : flow.gotos = goto :: outer) (labelled : goto.labelIndex label = some 0)
    (waits : goto.pool.waiting = [0]) (entered : goto.pool.entries 0 = some entry)
    (older : ∀ entry ∈ goto.pool.entries 1, entry.nextDynamicObjectId ≤ flow.limit)
    (built fuel : Nat) (exitState : Option StaticSafetyState) :
    ∃ next later, Circles label next later outer ∧
      drain (validators transfers built (backLoop label leaf)) (fuel + 1) flow exitState =
        drain (validators transfers built (backLoop label leaf)) fuel next exitState := by
  let restored := flow.analyzer.restoreStaticSafetyState entry
  let after : Flow Context := { flow with
    analyzer := (transfers.statement leaf).run restored
    gotos := goto.take [] :: outer }
  have made : restored.state.nextDynamicObjectId < after.limit := grows restored
  have ran : validateStmt transfers built (.label label (.leaf leaf))
      { flow with analyzer := restored, gotos := goto.take [] :: outer } = some (true, after) := rfl
  have newer : ∀ entry ∈ (goto.take []).pool.entries 1, entry.nextDynamicObjectId < after.limit :=
    fun stored found => (older stored found).trans_lt ((limit_le_restored flow entry).trans_lt made)
  obtain ⟨stored, counter, pushed⟩ := enqueue_higher newer true
  refine ⟨after.fallTo 1, (goto.take []).enqueue 1 after.analyzer.state true, ?_, ?_⟩
  · refine ⟨rfl, labelled, .inr ⟨?_, ⟨stored, ?_⟩, ?_⟩⟩
    · rw [StaticGotoContext.enqueue, pushed]
      rfl
    · rw [StaticGotoContext.enqueue, pushed, Pool.push_entries, Function.update_self]
    · intro first found
      rw [StaticGotoContext.enqueue, pushed] at found
      simp only [Pool.push_entries] at found
      rw [Function.update_of_ne Nat.zero_ne_one] at found
      obtain rfl : entry = first := Option.some.inj (entered.symm.trans found)
      exact (entry_le_restored flow entry).trans_lt made
  · rw [drain_take gotos waits entered rfl ran]
    rfl

/-- The goto brings a state with a new object, so that the labelled statement waits again. -/
theorem Circles.goesBack (gotos : flow.gotos = goto :: outer)
    (labelled : goto.labelIndex label = some 0) (waits : goto.pool.waiting = [1])
    (entered : goto.pool.entries 1 = some entry)
    (older : ∀ entry ∈ goto.pool.entries 0, entry.nextDynamicObjectId < flow.limit)
    (built fuel : Nat) (exitState : Option StaticSafetyState) :
    ∃ next later, Circles label next later outer ∧
      drain (validators transfers built (backLoop label leaf)) (fuel + 1) flow exitState =
        drain (validators transfers built (backLoop label leaf)) fuel next exitState := by
  let restored := flow.analyzer.restoreStaticSafetyState entry
  let sent : Flow Context := { flow with
    analyzer := restored
    gotos := (goto.take []).enqueue 0 restored.state false :: outer }
  have ran : validateStmt transfers built (.gotoLabel label)
      { flow with analyzer := restored, gotos := goto.take [] :: outer } = some (false, sent) := by
    rw [validateStmt]
    exact congrArg (fun flow => some (false, flow)) (enqueueStaticGoto_innermost rfl labelled)
  have newer : ∀ entry ∈ (goto.take []).pool.entries 0, entry.nextDynamicObjectId <
      restored.state.nextDynamicObjectId :=
    fun stored found => (older stored found).trans_le (limit_le_restored flow entry)
  obtain ⟨stored, counter, pushed⟩ := enqueue_higher newer false
  refine ⟨sent, (goto.take []).enqueue 0 restored.state false, ?_, ?_⟩
  · refine ⟨rfl, labelled, .inl ⟨?_, ⟨stored, ?_⟩, ?_⟩⟩
    · rw [StaticGotoContext.enqueue, pushed]
      rfl
    · rw [StaticGotoContext.enqueue, pushed, Pool.push_entries, Function.update_self]
    · intro second found
      rw [StaticGotoContext.enqueue, pushed] at found
      simp only [Pool.push_entries] at found
      rw [Function.update_of_ne Nat.one_ne_zero] at found
      obtain rfl : entry = second := Option.some.inj (entered.symm.trans found)
      exact entry_le_restored flow entry
  · rw [drain_take gotos waits entered rfl ran]
    rfl

end Step

/-- No fuel is enough for a worklist that circles. -/
theorem Circles.drain_none {label : String} {leaf : Leaf}
    (grows : ∀ analyzer : Analyzer Context, analyzer.state.nextDynamicObjectId <
      ((transfers.statement leaf).run analyzer).state.nextDynamicObjectId)
    {outer : List StaticGotoContext} (built : Nat) (exitState : Option StaticSafetyState)
    (fuel : Nat) {flow : Flow Context} {goto : StaticGotoContext}
    (circles : Circles label flow goto outer) :
    drain (validators transfers built (backLoop label leaf)) fuel flow exitState = none := by
  induction fuel generalizing flow goto with
  | zero =>
      rw [drain, circles.gotos]
      rcases circles.waits with ⟨waits, -⟩ | ⟨waits, -⟩ <;> simp only [waits]
  | succ fuel ih =>
      obtain ⟨gotos, labelled, ⟨waits, ⟨entry, entered⟩, older⟩ | ⟨waits, ⟨entry, entered⟩, older⟩⟩ :=
        circles
      · obtain ⟨next, later, circles, same⟩ :=
          Circles.fallsThrough grows gotos labelled waits entered older built fuel exitState
        exact same.trans (ih circles)
      · obtain ⟨next, later, circles, same⟩ :=
          Circles.goesBack gotos labelled waits entered older built fuel exitState
        exact same.trans (ih circles)

/-- A loop by goto over a statement that allocates is validated forever. -/
theorem backLoop_diverges (label : String) (leaf : Leaf)
    (grows : ∀ analyzer : Analyzer Context, analyzer.state.nextDynamicObjectId <
      ((transfers.statement leaf).run analyzer).state.nextDynamicObjectId)
    (fuel : Nat) (flow : Flow Context) :
    validateSafety transfers fuel (backLoop label leaf) flow = none := by
  let block : Block Leaf Expr := backLoop label leaf
  let goto : StaticGotoContext := {
    labelIndex := block.labelIndex
    pool := { entries := fun _ => none, waiting := [] }
    localBindings := block.localBindings transfers }
  have labelled : block.labelIndex label = some 0 := if_pos rfl
  have circles : Circles label
      { flow with gotos := goto.enqueue 0 flow.analyzer.state false :: flow.gotos }
      (goto.enqueue 0 flow.analyzer.state false) flow.gotos :=
    ⟨rfl, labelled, .inl ⟨rfl, ⟨flow.analyzer.state, rfl⟩, nofun⟩⟩
  have none := circles.drain_none grows fuel Option.none fuel
  have labels : (backLoop label leaf : Block Leaf Expr).hasLabel = true := rfl
  rw [validateSafety, validateBlock, if_pos labels, labelledBlock]
  exact congrArg (Option.bind · _) none

end Diverges

/-- `L: p = alloc(4); goto L;` -/
def allocationLoop : Block Leaf PureExpr :=
  backLoop "L" (.integerStore "p" 0 8 (.alloc (integerConstant "4") none))

end HitSimple.Safety

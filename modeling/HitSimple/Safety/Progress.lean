import HitSimple.Safety.Fuel

namespace HitSimple.Safety
open Dataflow FactMap Validator

variable {Context Leaf Expr : Type}

/-- The object identifiers a flow has made. -/
def Flow.limit (flow : Flow Context) : Nat :=
  flow.analyzer.state.nextDynamicObjectId

def Flow.BoundIn (names : Finset String) (flow : Flow Context) : Prop :=
  flow.analyzer.state.bindingAddressFacts.keys ⊆ names

/-- A block around a statement only has states arrive at the labels that the statement names. -/
structure KeepsGoto (names : Finset String) (labels : List String) (limit : Nat)
    (before after : StaticGotoContext) : Prop where
  labelIndex : after.labelIndex = before.labelIndex
  localBindings : after.localBindings = before.localBindings
  enqueues : Enqueues mergedStaticSafetyStates
    (fun index => ∃ label ∈ labels, before.labelIndex label = some index)
    (StaticSafetyState.Within names limit) before.pool after.pool

def StaticLoopContext.Within (names : Finset String) (limit : Nat) (loop : StaticLoopContext) :
    Prop :=
  (∀ state ∈ loop.breakState, state.Within names limit) ∧
    ∀ state ∈ loop.continueState, state.Within names limit

structure KeepsLoop (names : Finset String) (limit : Nat) (before after : StaticLoopContext) :
    Prop where
  exitScope : after.exitScope = before.exitScope
  within : ∀ higher, limit ≤ higher → before.Within names higher → after.Within names higher

/-- What validating a statement leaves of the flow around it. -/
structure Keeps (names : Finset String) (labels : List String) (allocates : Bool)
    (before after : Flow Context) : Prop where
  bound : after.BoundIn names
  grows : before.limit ≤ after.limit
  counts : allocates = false → after.limit = before.limit
  gotos : List.Forall₂ (KeepsGoto names labels after.limit) before.gotos after.gotos
  loops : List.Forall₂ (KeepsLoop names after.limit) before.loops after.loops

section Keeps
variable {names : Finset String} {labels labels' : List String} {allocates allocates' : Bool}

theorem KeepsGoto.refl (limit : Nat) (goto : StaticGotoContext) :
    KeepsGoto names labels limit goto goto :=
  ⟨rfl, rfl, .refl⟩

theorem KeepsGoto.mono {limit limit' : Nat} {before after : StaticGotoContext}
    (keeps : KeepsGoto names labels limit before after) (moreLabels : labels ⊆ labels')
    (higher : limit ≤ limit') : KeepsGoto names labels' limit' before after where
  labelIndex := keeps.labelIndex
  localBindings := keeps.localBindings
  enqueues := keeps.enqueues.mono
    (fun _ ⟨label, member, found⟩ => ⟨label, moreLabels member, found⟩)
    fun _ within => within.mono subset_rfl higher

theorem KeepsGoto.trans {limit : Nat} {first second third : StaticGotoContext}
    (one : KeepsGoto names labels limit first second)
    (two : KeepsGoto names labels limit second third) : KeepsGoto names labels limit first third where
  labelIndex := two.labelIndex.trans one.labelIndex
  localBindings := two.localBindings.trans one.localBindings
  enqueues := one.enqueues.trans (by simpa only [one.labelIndex] using two.enqueues)

theorem KeepsLoop.refl (limit : Nat) (loop : StaticLoopContext) : KeepsLoop names limit loop loop :=
  ⟨rfl, fun _ _ within => within⟩

theorem KeepsLoop.mono {limit limit' : Nat} {before after : StaticLoopContext}
    (keeps : KeepsLoop names limit before after) (higher : limit ≤ limit') :
    KeepsLoop names limit' before after :=
  ⟨keeps.exitScope, fun _ above => keeps.within _ (higher.trans above)⟩

theorem KeepsLoop.trans {limit : Nat} {first second third : StaticLoopContext}
    (one : KeepsLoop names limit first second) (two : KeepsLoop names limit second third) :
    KeepsLoop names limit first third :=
  ⟨two.exitScope.trans one.exitScope,
    fun higher above within => two.within higher above (one.within higher above within)⟩

theorem forall₂_trans {Item : Type} {relation : Item → Item → Prop}
    (compose : ∀ first second third, relation first second → relation second third →
      relation first third) {first second third : List Item}
    (one : List.Forall₂ relation first second) (two : List.Forall₂ relation second third) :
    List.Forall₂ relation first third := by
  induction one generalizing third with
  | nil => exact two
  | cons head _ ih =>
      cases two with
      | cons head' rest' => exact .cons (compose _ _ _ head head') (ih rest')

theorem forall₂_modify {Item : Type} {relation : Item → Item → Prop}
    (same : ∀ item, relation item item) {change : Item → Item}
    (changed : ∀ item, relation item (change item)) (index : Nat) (items : List Item) :
    List.Forall₂ relation items (items.modify index change) := by
  induction items generalizing index with
  | nil =>
      rw [List.modify_nil]
      exact .nil
  | cons item rest ih =>
      cases index with
      | zero =>
          rw [List.modify_zero_cons]
          exact .cons (changed item) (List.forall₂_same.mpr fun other _ => same other)
      | succ index =>
          rw [List.modify_succ_cons]
          exact .cons (same item) (ih index)

theorem Keeps.refl {flow : Flow Context} (bound : flow.BoundIn names) :
    Keeps names labels allocates flow flow where
  bound := bound
  grows := le_rfl
  counts _ := rfl
  gotos := List.forall₂_same.mpr fun goto _ => .refl _ goto
  loops := List.forall₂_same.mpr fun loop _ => .refl _ loop

theorem Keeps.mono {before after : Flow Context} (keeps : Keeps names labels allocates before after)
    (moreLabels : labels ⊆ labels') (less : allocates' = false → allocates = false) :
    Keeps names labels' allocates' before after where
  bound := keeps.bound
  grows := keeps.grows
  counts frugal := keeps.counts (less frugal)
  gotos := keeps.gotos.imp fun _ _ kept => kept.mono moreLabels le_rfl
  loops := keeps.loops

theorem Keeps.trans {first second third : Flow Context}
    (one : Keeps names labels allocates first second)
    (two : Keeps names labels allocates second third) :
    Keeps names labels allocates first third := by
  have gotos : List.Forall₂ (KeepsGoto names labels third.limit) first.gotos second.gotos :=
    one.gotos.imp fun _ _ kept => kept.mono (List.Subset.refl _) two.grows
  have loops : List.Forall₂ (KeepsLoop names third.limit) first.loops second.loops :=
    one.loops.imp fun _ _ kept => kept.mono two.grows
  exact {
    bound := two.bound
    grows := one.grows.trans two.grows
    counts := fun frugal => (two.counts frugal).trans (one.counts frugal)
    gotos := forall₂_trans (fun _ _ _ one two => one.trans two) gotos two.gotos
    loops := forall₂_trans (fun _ _ _ one two => one.trans two) loops two.loops }

/-- The analyzer alone changes. -/
theorem Keeps.analyzer {before after : Flow Context} (keeps : Keeps names labels allocates before after)
    {analyzer : Analyzer Context} (bound : analyzer.state.bindingAddressFacts.keys ⊆ names)
    (same : analyzer.state.nextDynamicObjectId = after.limit) :
    Keeps names labels allocates before { after with analyzer } where
  bound := bound
  grows := keeps.grows.trans same.ge
  counts frugal := same.trans (keeps.counts frugal)
  gotos := keeps.gotos.imp fun _ _ kept => kept.mono (List.Subset.refl _) same.ge
  loops := keeps.loops.imp fun _ _ kept => kept.mono same.ge

theorem Flow.BoundIn.within {flow : Flow Context} (bound : flow.BoundIn names) :
    flow.analyzer.state.Within names flow.limit :=
  ⟨bound, le_rfl⟩

theorem restore_limit {analyzer : Analyzer Context} {state : StaticSafetyState}
    (allocated : state.nextDynamicObjectId ≤ analyzer.state.nextDynamicObjectId) :
    (analyzer.restoreStaticSafetyState state).state.nextDynamicObjectId =
      analyzer.state.nextDynamicObjectId :=
  max_eq_left allocated

/-- A snapshot is restored. -/
theorem Keeps.restore {before after : Flow Context} (keeps : Keeps names labels allocates before after)
    {state : StaticSafetyState} (within : state.Within names after.limit) :
    Keeps names labels allocates before
      { after with analyzer := after.analyzer.restoreStaticSafetyState state } :=
  keeps.analyzer within.bound (restore_limit within.allocated)

theorem expire_keys (state : StaticSafetyState) (bindingNames : List String) :
    (bindingNames.foldl StaticSafetyState.expire state).bindingAddressFacts.keys ⊆
      state.bindingAddressFacts.keys := by
  induction bindingNames generalizing state with
  | nil => exact subset_rfl
  | cons bindingName rest ih =>
      have expired : (state.expire bindingName).bindingAddressFacts =
          expireFacts bindingName state.bindingAddressFacts := rfl
      refine (ih (state.expire bindingName)).trans ?_
      rw [expired, expireFacts, keys_tabulate]
      exact (Finset.filter_subset _ _).trans (Finset.erase_subset _ _)

theorem expire_limit (state : StaticSafetyState) (bindingNames : List String) :
    (bindingNames.foldl StaticSafetyState.expire state).nextDynamicObjectId =
      state.nextDynamicObjectId := by
  induction bindingNames generalizing state with
  | nil => rfl
  | cons bindingName rest ih => exact ih (state.expire bindingName)

theorem Keeps.expire {before after : Flow Context} (keeps : Keeps names labels allocates before after)
    (bindingNames : List String) :
    Keeps names labels allocates before { after with
      analyzer := after.analyzer.expireStaticLocalBindings bindingNames } :=
  keeps.analyzer ((expire_keys _ _).trans keeps.bound) (expire_limit _ _)

/-- The innermost block is left. -/
theorem Keeps.pop (before : Flow Context) {after : Flow Context} (goto : StaticGotoContext)
    (keeps : Keeps names labels allocates { before with gotos := goto :: before.gotos } after) :
    Keeps names labels allocates before { after with gotos := after.gotos.tail } := by
  obtain ⟨analyzer, gotos, loops⟩ := after
  obtain ⟨bound, grows, counts, keptGotos, keptLoops⟩ := keeps
  cases keptGotos with
  | cons _ keptGotos => exact ⟨bound, grows, counts, keptGotos, keptLoops⟩

/-- Leaving scopes gives a state of the analyzer. -/
theorem exitStaticScopes_within (exited : List StaticGotoContext) (analyzer : Analyzer Context)
    {incoming : StaticSafetyState}
    (bound : analyzer.state.bindingAddressFacts.keys ⊆ names)
    (within : incoming.Within names analyzer.state.nextDynamicObjectId) :
    let exit := exitStaticScopes exited analyzer incoming
    exit.1.state.bindingAddressFacts.keys ⊆ names ∧
      exit.1.state.nextDynamicObjectId = analyzer.state.nextDynamicObjectId ∧
        exit.2.Within names analyzer.state.nextDynamicObjectId := by
  induction exited generalizing analyzer incoming with
  | nil => exact ⟨bound, rfl, within⟩
  | cons goto rest ih =>
      have left := (expire_keys (analyzer.restoreStaticSafetyState incoming).state
        goto.localBindings).trans within.bound
      have same := (expire_limit (analyzer.restoreStaticSafetyState incoming).state
        goto.localBindings).trans (restore_limit within.allocated)
      have rest := ih ((analyzer.restoreStaticSafetyState incoming).expireStaticLocalBindings
        goto.localBindings) left ⟨left, le_rfl⟩
      simp only [Analyzer.expireStaticLocalBindings, same] at rest
      exact rest

end Keeps

/-- With enough fuel a validator has an outcome, and it keeps the flow around. -/
structure Settles (names : Finset String) (labels : List String) (allocates : Bool)
    (validator : Nat → Validator Context) : Prop where
  refines : ∀ {fuel fuel'}, fuel ≤ fuel' → Refines (validator fuel) (validator fuel')
  outcome : ∀ flow, flow.BoundIn names → ∃ fuel fallsThrough after,
    validator fuel flow = some (fallsThrough, after) ∧ Keeps names labels allocates flow after

namespace Settles
variable {names : Finset String} {labels labels' : List String} {allocates allocates' : Bool}

theorem mono {validator : Nat → Validator Context}
    (settles : Settles names labels allocates validator) (moreLabels : labels ⊆ labels')
    (less : allocates' = false → allocates = false) : Settles names labels' allocates' validator where
  refines := settles.refines
  outcome flow bound := by
    obtain ⟨fuel, fallsThrough, after, found, keeps⟩ := settles.outcome flow bound
    exact ⟨fuel, fallsThrough, after, found, keeps.mono moreLabels less⟩

theorem skip : Settles names labels allocates fun _ => (skip : Validator Context) where
  refines _ := .refl _
  outcome flow bound := ⟨0, true, flow, rfl, .refl bound⟩

theorem stop : Settles names labels allocates fun _ => (stop : Validator Context) where
  refines _ := .refl _
  outcome flow bound := ⟨0, false, flow, rfl, .refl bound⟩

theorem run_keeps (effect : Effect Context) (covered : effect.names ⊆ names) {flow : Flow Context}
    (bound : flow.BoundIn names) :
    Keeps names labels effect.allocates flow { flow with analyzer := effect.run flow.analyzer } where
  bound := (effect.binds flow.analyzer).trans (Finset.union_subset bound covered)
  grows := effect.grows flow.analyzer
  counts frugal := effect.counts frugal flow.analyzer
  gotos := List.forall₂_same.mpr fun goto _ => .refl _ goto
  loops := List.forall₂_same.mpr fun loop _ => .refl _ loop

theorem effect (effect : Effect Context) (covered : effect.names ⊆ names) :
    Settles names labels effect.allocates fun _ => effect.validator where
  refines _ := .refl _
  outcome _ bound := ⟨0, true, _, rfl, run_keeps effect covered bound⟩

theorem each (effects : List (Effect Context)) (covered : ∀ effect ∈ effects, effect.names ⊆ names)
    (less : allocates = false → ∀ effect ∈ effects, effect.allocates = false) :
    Settles names labels allocates fun _ => validateEach effects where
  refines _ := .refl _
  outcome start bound := by
    refine ⟨0, true, _, rfl, ?_⟩
    induction effects generalizing start with
    | nil => exact .refl bound
    | cons effect rest ih =>
        have first : Keeps names labels allocates start _ :=
          (run_keeps effect (covered effect (by simp)) bound).mono (List.Subset.refl _)
            fun frugal => less frugal effect (by simp)
        exact first.trans (ih (fun other member => covered other (by simp [member]))
          (fun frugal other member => less frugal other (by simp [member])) _ first.bound)

theorem andThen {first second : Nat → Validator Context}
    (one : Settles names labels allocates first) (two : Settles names labels allocates second) :
    Settles names labels allocates fun fuel => (first fuel).andThen (second fuel) where
  refines enough := (one.refines enough).andThen (two.refines enough)
  outcome flow bound := by
    obtain ⟨fuel, fallsThrough, middle, found, keeps⟩ := one.outcome flow bound
    cases fallsThrough with
    | false => exact ⟨fuel, false, middle, by simp [Validator.andThen, found], keeps⟩
    | true =>
        obtain ⟨fuel', fallsThrough, after, found', keeps'⟩ := two.outcome middle keeps.bound
        refine ⟨max fuel fuel', fallsThrough, after, ?_, keeps.trans keeps'⟩
        have first := one.refines (le_max_left fuel fuel') _ _ found
        have second := two.refines (le_max_right fuel fuel') _ _ found'
        simp [Validator.andThen, first, second]

theorem alternatives {first second : Nat → Validator Context}
    (one : Settles names labels allocates first) (two : Settles names labels allocates second) :
    Settles names labels allocates fun fuel =>
      Validator.alternatives (first fuel) (second fuel) where
  refines enough := (one.refines enough).alternatives (two.refines enough)
  outcome flow bound := by
    obtain ⟨fuel, firstFalls, middle, found, keeps⟩ := one.outcome flow bound
    have entry : flow.analyzer.state.Within names middle.limit := ⟨bound, keeps.grows⟩
    have restored := keeps.restore entry
    obtain ⟨fuel', secondFalls, after, found', keeps'⟩ := two.outcome _ restored.bound
    have whole := restored.trans keeps'
    have firstState : middle.analyzer.state.Within names after.limit :=
      ⟨keeps.bound, (restore_limit entry.allocated).ge.trans keeps'.grows⟩
    have one' := one.refines (le_max_left fuel fuel') _ _ found
    have two' := two.refines (le_max_right fuel fuel') _ _ found'
    have merged := whole.restore (firstState.merged whole.bound.within)
    refine ⟨max fuel fuel', ?_⟩
    cases firstFalls <;> cases secondFalls <;>
      simp only [Validator.alternatives, one', two', bind, Option.bind_some]
    · exact ⟨_, _, rfl, whole⟩
    · exact ⟨_, _, rfl, whole.restore whole.bound.within⟩
    · exact ⟨_, _, rfl, whole.restore firstState⟩
    · exact ⟨_, _, rfl, merged⟩

theorem branch {thenBlock elseBlock : Nat → Validator Context}
    (thens : Settles names labels allocates thenBlock)
    (elses : Settles names labels allocates elseBlock) (decides : Analyzer Context → Option Bool) :
    Settles names labels allocates fun fuel =>
      Validator.branch decides (thenBlock fuel) (elseBlock fuel) where
  refines enough := (thens.refines enough).branch (elses.refines enough) decides
  outcome flow bound := by
    cases decision : decides flow.analyzer with
    | none =>
        simp only [Validator.branch, decision]
        exact (thens.alternatives elses).outcome flow bound
    | some holds =>
        cases holds with
        | true =>
            simp only [Validator.branch, decision]
            exact thens.outcome flow bound
        | false =>
            simp only [Validator.branch, decision]
            exact elses.outcome flow bound

theorem forLoop {body : Nat → Validator Context} (bodies : Settles names labels allocates body)
    (decides : Analyzer Context → Option Bool) :
    Settles names labels allocates fun fuel => Validator.forLoop decides (body fuel) where
  refines enough := (bodies.refines enough).forLoop decides
  outcome flow bound := by
    by_cases never : decides flow.analyzer = some false
    · exact ⟨0, true, flow, by simp [Validator.forLoop, never], .refl bound⟩
    · obtain ⟨fuel, fallsThrough, after, found, keeps⟩ := bodies.outcome flow bound
      have entry : flow.analyzer.state.Within names after.limit := ⟨bound, keeps.grows⟩
      have restored := keeps.restore entry
      have same := restore_limit entry.allocated
      have outcome (falls : Bool) (run : body fuel flow = some (falls, after)) :
          Validator.forLoop decides (body fuel) flow = some (true, { after with
            analyzer := if falls then
                (after.analyzer.restoreStaticSafetyState flow.analyzer.state).mergeStaticSafetyStates
                  flow.analyzer.state after.analyzer.state
              else after.analyzer.restoreStaticSafetyState flow.analyzer.state }) := by
        simp only [Validator.forLoop, if_neg never, run, bind, Option.bind_some]
      refine ⟨fuel, true, _, outcome fallsThrough found, ?_⟩
      cases fallsThrough with
      | false => exact restored
      | true =>
          refine restored.restore ?_
          rw [Flow.limit, same]
          exact entry.merged keeps.bound.within

theorem mergeInto_within {limit : Nat} {stored : Option StaticSafetyState}
    {incoming : StaticSafetyState} (within : ∀ state ∈ stored, state.Within names limit)
    (arrives : incoming.Within names limit) : (mergeInto stored incoming).Within names limit := by
  cases stored with
  | none => exact arrives
  | some state => exact (within state rfl).merged arrives

theorem arrive_within {limit : Nat} {stored incoming : Option StaticSafetyState}
    (within : ∀ state ∈ stored, state.Within names limit)
    (arrives : ∀ state ∈ incoming, state.Within names limit) :
    ∀ state ∈ arrive stored incoming, state.Within names limit := by
  cases incoming with
  | none => exact within
  | some incoming =>
      intro state member
      exact Option.mem_some.mp member ▸ mergeInto_within within (arrives incoming rfl)

theorem whileExit_within {limit : Nat} {entry bodyState : StaticSafetyState}
    {loop : StaticLoopContext} (entryWithin : entry.Within names limit)
    (bodyWithin : bodyState.Within names limit) (loopWithin : loop.Within names limit)
    (condition : Option Bool) (fallsThrough : Bool) :
    ∀ state ∈ whileExit condition entry bodyState fallsThrough loop, state.Within names limit := by
  have exits : ∀ state ∈ arrive (if condition = some true then none else some entry)
      loop.breakState, state.Within names limit := by
    refine arrive_within (fun state member => ?_) loopWithin.1
    split at member
    · cases member
    · exact Option.mem_some.mp member ▸ entryWithin
  by_cases known : condition = some true
  · simp only [whileExit, known, if_true] at exits ⊢
    exact exits
  · simp only [whileExit, if_neg known] at exits ⊢
    refine arrive_within exits fun state member => ?_
    obtain ⟨next, found, rfl⟩ := Option.mem_map.mp member
    refine entryWithin.merged (arrive_within (fun state member => ?_) loopWithin.2 next found)
    split at member
    · exact Option.mem_some.mp member ▸ bodyWithin
    · cases member

theorem whileLoop {body : Nat → Validator Context} (bodies : Settles names labels allocates body)
    (decides : Analyzer Context → Option Bool) :
    Settles names labels allocates fun fuel => Validator.whileLoop decides (body fuel) where
  refines enough := (bodies.refines enough).whileLoop decides
  outcome flow bound := by
    by_cases never : decides flow.analyzer = some false
    · exact ⟨0, true, flow, by simp [Validator.whileLoop, never], .refl bound⟩
    · obtain ⟨fuel, fallsThrough, after, found, keeps⟩ := bodies.outcome
        { flow with loops := {
            exitScope := flow.gotos.length
            breakState := none
            continueState := none } :: flow.loops } bound
      obtain ⟨analyzer, gotos, loops⟩ := after
      obtain ⟨bound', grows, counts, keptGotos, keptLoops⟩ := keeps
      cases keptLoops with
      | @cons _ loop _ loops keptLoop keptLoops =>
          have keeps : Keeps names labels allocates flow { analyzer, gotos, loops } :=
            ⟨bound', grows, counts, keptGotos, keptLoops⟩
          have entry : flow.analyzer.state.Within names analyzer.state.nextDynamicObjectId :=
            ⟨bound, grows⟩
          have loopWithin : loop.Within names analyzer.state.nextDynamicObjectId :=
            keptLoop.within _ le_rfl (by constructor <;> intro state member <;> cases member)
          have exits := whileExit_within entry ⟨bound', le_rfl⟩ loopWithin
            (decides flow.analyzer) fallsThrough
          have restored := keeps.restore entry
          refine ⟨fuel, true, _, by
            simp only [Validator.whileLoop, if_neg never, found, bind, Option.bind_some]
            rfl, ?_⟩
          simp only [List.head?_cons, Option.bind_some, List.tail_cons]
          cases exit : whileExit (decides flow.analyzer) flow.analyzer.state analyzer.state
              fallsThrough loop with
          | none => exact restored
          | some exitState =>
              refine restored.restore ?_
              rw [Flow.limit, restore_limit entry.allocated]
              exact exits exitState exit

theorem plainBlock {statements : Nat → Validator Context}
    (settles : Settles names labels allocates statements) (localBindings : List String) :
    Settles names labels allocates fun fuel =>
      Validator.plainBlock localBindings (statements fuel) where
  refines enough := (settles.refines enough).plainBlock localBindings
  outcome flow bound := by
    obtain ⟨fuel, fallsThrough, after, found, keeps⟩ := settles.outcome
      { flow with gotos := {
          labelIndex := fun _ => none
          pool := { entries := fun _ => none, waiting := [] }
          localBindings } :: flow.gotos } bound
    cases fallsThrough with
    | false => exact ⟨fuel, false, _, by simp [Validator.plainBlock, found], Keeps.pop flow _ keeps⟩
    | true =>
        refine ⟨fuel, true, _, ?_, (Keeps.pop flow _ keeps).expire localBindings⟩
        simp [Validator.plainBlock, found]

/-- A `goto` has its state arrive at the nearest label of that name. -/
theorem enqueueStaticGoto_keeps (label : String) {flow : Flow Context} (bound : flow.BoundIn names)
    (named : label ∈ labels) : Keeps names labels allocates flow (enqueueStaticGoto label flow) := by
  rw [enqueueStaticGoto]
  split
  · exact .refl bound
  · rename_i depth found
    obtain ⟨bound', same, exit⟩ := exitStaticScopes_within (flow.gotos.take depth) flow.analyzer bound
      bound.within
    refine ⟨bound', same.ge, fun _ => same, ?_, ?_⟩
    · refine forall₂_modify (KeepsGoto.refl _) (fun goto => ?_) depth flow.gotos
      cases index : goto.labelIndex label with
      | none => exact .refl _ goto
      | some index' =>
          refine ⟨rfl, rfl, .single ⟨index', _, false, ⟨label, named, index⟩, ?_, rfl⟩⟩
          exact exit.mono subset_rfl same.ge
    · exact List.forall₂_same.mpr fun loop _ => .refl _ loop

theorem goto (label : String) (named : label ∈ labels) :
    Settles names labels allocates fun _ => (fun flow =>
      some (false, enqueueStaticGoto label flow) : Validator Context) where
  refines _ := .refl _
  outcome _ bound := ⟨0, false, _, rfl, enqueueStaticGoto_keeps label bound named⟩

theorem leaveLoop (record : StaticLoopContext → StaticSafetyState → StaticLoopContext)
    (sameScope : ∀ loop state, (record loop state).exitScope = loop.exitScope)
    (within : ∀ {limit loop state}, loop.Within names limit → state.Within names limit →
      (record loop state).Within names limit) :
    Settles names labels allocates fun _ => (Validator.leaveLoop record : Validator Context) where
  refines _ := .refl _
  outcome flow bound := by
    obtain ⟨analyzer, gotos, loops⟩ := flow
    cases loops with
    | nil => exact ⟨0, false, _, rfl, .refl bound⟩
    | cons loop loops =>
        obtain ⟨bound', same, exit⟩ := exitStaticScopes_within
          (gotos.take (gotos.length - loop.exitScope)) analyzer bound bound.within
        refine ⟨0, false, _, rfl, bound', same.ge, fun _ => same, ?_, .cons ?_ ?_⟩
        · exact List.forall₂_same.mpr fun goto _ => .refl _ goto
        · refine ⟨sameScope loop _, fun higher above loopWithin => within loopWithin ?_⟩
          exact exit.mono subset_rfl (same.ge.trans above)
        · exact List.forall₂_same.mpr fun loop _ => .refl _ loop

end Settles

end HitSimple.Safety

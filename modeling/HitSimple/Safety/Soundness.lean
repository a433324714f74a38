import HitSimple.Safety.Execution

namespace HitSimple.Safety
open Dataflow Validator

section Trust
variable {Context Leaf Expr Store : Type} (semantics : Semantics Leaf Expr Store)

/-- What is known of a store is true, but for some suspects. -/
def Semantics.Trusts (suspects : Set Fact) (state : StaticSafetyState) (store : Store) : Prop :=
  ∀ fact, state.Knows fact → fact ∉ suspects → semantics.holds fact store

variable {semantics} {suspects : Set Fact} {before after : StaticSafetyState} {store store' : Store}

theorem Semantics.Trusts.weaker (weaker : after.Weaker before)
    (trusts : semantics.Trusts suspects before store) : semantics.Trusts suspects after store :=
  fun fact known trusted => trusts fact (weaker fact known) trusted

theorem Semantics.Trusts.accounts (trusts : semantics.Trusts suspects before store)
    (accounts : semantics.Accounts before after store store') :
    semantics.Trusts suspects after store' := by
  intro fact known trusted
  rcases accounts fact known with holds | ⟨earlier, keeps⟩
  · exact holds
  · exact keeps (trusts fact earlier trusted)

/-- The blocks between a `break` and its loop declare nothing. -/
def Clean (flow : Flow Context) : Prop :=
  ∀ loop ∈ flow.loops.head?, ∀ goto ∈ flow.gotos.take (flow.gotos.length - loop.exitScope),
    goto.localBindings = []

theorem Clean.enterBlock {flow : Flow Context} (clean : Clean flow) : Clean flow.enterBlock := by
  intro loop innermost goto member
  have deeper : flow.enterBlock.gotos.length - loop.exitScope ≤
      flow.gotos.length - loop.exitScope + 1 := by
    simp only [Flow.enterBlock, List.length_cons]
    omega
  have around := List.take_subset_take_left _ deeper member
  rw [Flow.enterBlock, List.take_succ_cons, List.mem_cons] at around
  rcases around with rfl | outer
  · rfl
  · exact clean loop innermost goto outer

theorem Clean.enterLoop (flow : Flow Context) : Clean flow.enterLoop := by
  intro loop innermost goto member
  cases innermost
  simp only [Flow.enterLoop, Nat.sub_self, List.take_zero] at member
  cases member

theorem Clean.stays {flow next : Flow Context} (clean : Clean flow) (stays : Stays flow next) :
    Clean next := by
  intro loop innermost goto member
  have loops := stays.loops
  rw [stays.gotos] at member
  cases around : next.loops with
  | nil =>
      rw [around] at innermost
      cases innermost
  | cons first others =>
      rw [around] at loops innermost
      obtain ⟨loop', others', keeps, -, around'⟩ := List.forall₂_cons_right_iff.mp loops
      obtain rfl : first = loop := Option.some.inj innermost
      rw [keeps.exitScope] at member
      exact clean loop' (by rw [around']; rfl) goto member

/-- Leaving blocks that declare nothing leaves the state as it is. -/
theorem exitStaticScopes_weaker (exited : List StaticGotoContext)
    (plain : ∀ goto ∈ exited, goto.localBindings = []) (analyzer : Analyzer Context)
    (incoming : StaticSafetyState) :
    (exitStaticScopes exited analyzer incoming).2.Weaker incoming := by
  induction exited generalizing analyzer incoming with
  | nil => exact .refl incoming
  | cons goto exited ih =>
      rw [List.forall_mem_cons] at plain
      have left : ((analyzer.restoreStaticSafetyState incoming).expireStaticLocalBindings
          goto.localBindings).state.Weaker incoming := by
        rw [plain.1]
        exact restore_weaker analyzer incoming
      exact (ih plain.2 _ _).trans left

end Trust

section Covers
variable {Context Leaf Expr Store : Type} (semantics : Semantics Leaf Expr Store)

/-- The store in which control leaves a statement is known where control arrives. -/
def Lands (suspects : Set Fact) (flow after : Flow Context) (falls : Bool) (store : Store) :
    Outcome → Prop
  | .fallsThrough => falls = true ∧ semantics.Trusts suspects after.analyzer.state store
  | .breaks => Clean flow → ∀ loop ∈ after.loops.head?,
      ∃ state ∈ loop.breakState, semantics.Trusts suspects state store
  | .continues => Clean flow → ∀ loop ∈ after.loops.head?,
      ∃ state ∈ loop.continueState, semantics.Trusts suspects state store

/-- Validation of a statement tells of an execution of it. -/
structure Tells (suspects : Set Fact) (flow : Flow Context) (falls : Bool) (after : Flow Context)
    (outcome : Outcome) (store : Store) : Prop where
  stays : Stays flow after
  lands : Lands semantics suspects flow after falls store outcome

def Covers (suspects : Set Fact) (validator : Validator Context) (flow : Flow Context)
    (outcome : Outcome) (store : Store) : Prop :=
  ∃ falls after, validator flow = some (falls, after) ∧
    Tells semantics suspects flow falls after outcome store

variable {semantics} {suspects : Set Fact} {flow next after : Flow Context} {falls : Bool}
  {outcome : Outcome} {store : Store} {first second : Validator Context}

/-- An arrival outside the statement is still there after more has been validated. -/
theorem Lands.later {falls' : Bool} (lands : Lands semantics suspects flow next falls store outcome)
    (leaves : outcome ≠ .fallsThrough) (stays : Stays next after) :
    Lands semantics suspects flow after falls' store outcome := by
  have keeps : ∀ loop ∈ after.loops.head?, ∃ loop' ∈ next.loops.head?, KeepsArrivals loop' loop := by
    intro loop innermost
    have loops := stays.loops
    cases around : after.loops with
    | nil =>
        rw [around] at innermost
        cases innermost
    | cons first others =>
        rw [around] at loops innermost
        obtain ⟨loop', others', keeps, -, around'⟩ := List.forall₂_cons_right_iff.mp loops
        obtain rfl : first = loop := Option.some.inj innermost
        exact ⟨loop', by rw [around']; rfl, keeps⟩
  cases outcome with
  | fallsThrough => exact absurd rfl leaves
  | breaks =>
      intro clean loop innermost
      obtain ⟨loop', innermost', keeps⟩ := keeps loop innermost
      obtain ⟨state, arrived, trusts⟩ := lands clean loop' innermost'
      obtain ⟨state', arrived', weaker⟩ := keeps.breaks state arrived
      exact ⟨state', arrived', trusts.weaker weaker⟩
  | continues =>
      intro clean loop innermost
      obtain ⟨loop', innermost', keeps⟩ := keeps loop innermost
      obtain ⟨state, arrived, trusts⟩ := lands clean loop' innermost'
      obtain ⟨state', arrived', weaker⟩ := keeps.continues state arrived
      exact ⟨state', arrived', trusts.weaker weaker⟩

/-- An arrival depends on the blocks and the loops around a statement only. -/
theorem Lands.enter (lands : Lands semantics suspects next after falls store outcome)
    (clean : Clean flow → Clean next) : Lands semantics suspects flow after falls store outcome := by
  cases outcome with
  | fallsThrough => exact lands
  | breaks => exact fun plain => lands (clean plain)
  | continues => exact fun plain => lands (clean plain)

namespace Covers

/-- Control leaves the first of two statements. -/
theorem leave (covers : Covers semantics suspects first flow outcome store)
    (leaves : outcome ≠ .fallsThrough) (validates : Validates second) :
    Covers semantics suspects (first.andThen second) flow outcome store := by
  obtain ⟨falls, middle, found, tells⟩ := covers
  cases falls with
  | false => exact ⟨false, middle, by simp [Validator.andThen, found], tells⟩
  | true =>
      obtain ⟨falls, after, found', stays⟩ := validates middle
      exact ⟨falls, after, by simp [Validator.andThen, found, found'],
        tells.stays.trans stays, tells.lands.later leaves stays⟩

/-- Control falls through the first of two statements. -/
theorem andThen {middle : Store} (covers : Covers semantics suspects first flow .fallsThrough middle)
    (validated : first flow = some (falls, next))
    (later : semantics.Trusts suspects next.analyzer.state middle →
      Covers semantics suspects second next outcome store) :
    Covers semantics suspects (first.andThen second) flow outcome store := by
  obtain ⟨_, _, found, tells⟩ := covers
  obtain ⟨rfl, rfl⟩ := Prod.mk.inj (Option.some.inj (validated.symm.trans found))
  obtain ⟨rfl, trusts⟩ := tells.lands
  obtain ⟨falls, after, found', tells'⟩ := later trusts
  refine ⟨falls, after, by simp [Validator.andThen, found, found'],
    tells.stays.trans tells'.stays, ?_⟩
  exact tells'.lands.enter fun clean => clean.stays tells.stays

theorem plainBlock (covers : Covers semantics suspects first flow.enterBlock outcome store) :
    Covers semantics suspects (plainBlock [] first) flow outcome store := by
  obtain ⟨falls, after, found, tells⟩ := covers
  refine ⟨falls, _, plainBlock_eq found, ⟨congrArg List.tail tells.stays.gotos, tells.stays.loops⟩, ?_⟩
  have lands := tells.lands.enter Clean.enterBlock
  cases outcome with
  | fallsThrough => exact lands
  | breaks => exact lands
  | continues => exact lands

/-- Control takes the first of two alternatives. -/
theorem firstAlternative (covers : Covers semantics suspects first flow outcome store)
    (validates : Validates second) :
    Covers semantics suspects (first.alternatives second) flow outcome store := by
  obtain ⟨falls, middle, found, tells⟩ := covers
  obtain ⟨falls', after, found', stays⟩ := validates (middle.restart flow.analyzer.state)
  have later : Stays middle after := ⟨stays.gotos, stays.loops⟩
  refine ⟨_, _, alternatives_eq found found', ?_, ?_⟩
  · have whole := tells.stays.trans later
    exact ⟨whole.gotos, whole.loops⟩
  · by_cases leaves : outcome = .fallsThrough
    · subst leaves
      obtain ⟨rfl, trusts⟩ := tells.lands
      refine ⟨rfl, trusts.weaker ?_⟩
      cases falls' with
      | true => exact mergeStates_weaker_left _ _ _
      | false => exact restore_weaker _ _
    · exact tells.lands.later leaves ⟨later.gotos, later.loops⟩

/-- Control takes the second of two alternatives. -/
theorem secondAlternative {middle : Flow Context} (validates : Validates first)
    (validated : first flow = some (falls, middle))
    (covers : Covers semantics suspects second (middle.restart flow.analyzer.state) outcome store) :
    Covers semantics suspects (first.alternatives second) flow outcome store := by
  obtain ⟨_, _, found, stays⟩ := validates flow
  obtain ⟨rfl, rfl⟩ := Prod.mk.inj (Option.some.inj (validated.symm.trans found))
  obtain ⟨falls', after, found', tells⟩ := covers
  have entered : Stays flow (middle.restart flow.analyzer.state) := ⟨stays.gotos, stays.loops⟩
  have whole := entered.trans tells.stays
  refine ⟨_, _, alternatives_eq found found', ⟨whole.gotos, whole.loops⟩, ?_⟩
  have lands := tells.lands.enter fun clean => clean.stays entered
  cases outcome with
  | fallsThrough =>
      obtain ⟨rfl, trusts⟩ := lands
      refine ⟨Bool.or_true _, trusts.weaker ?_⟩
      cases falls with
      | true => exact mergeStates_weaker_right _ _ _
      | false => exact restore_weaker _ _
  | breaks => exact lands
  | continues => exact lands

end Covers

end Covers

end HitSimple.Safety

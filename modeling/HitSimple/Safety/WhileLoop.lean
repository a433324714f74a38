import HitSimple.Codegen.Denotation
import HitSimple.Safety.IntegerStores
import HitSimple.Safety.LoopSoundness
import HitSimple.Safety.Termination

namespace HitSimple.Safety
open Dataflow FactMap FixedWidth Codegen

section Byte

/-- Stores a digit in the byte `x`. -/
def byteStore (digit : Char) : IntegerStore where
  binding := { bindingName := "x", storage := .local }
  targetByteLength := 1
  offset := 0
  value := ⟨.integerLiteral [digit] (signedIntegerResult 1), rfl⟩
  source := some (signedIntegerResult 1)

def byteCondition : PureExpr :=
  ⟨.booleanTest (objectVariable .none 1) booleanResult, rfl⟩

/-- A function in which at most the value of the byte `x` is known. -/
def byteFlow (value : Option Int) : Flow StaticContext where
  analyzer := {
    state := { StaticSafetyState.empty with integerValues := Finmap.singleton "x" value }
    context := {
      definitionByteLengths := Finmap.singleton "x" 1
      globalBindings := ∅
      potentiallyReboundBindings := ∅ } }
  gotos := []
  loops := []

/-- A program with one object, the byte `x`. -/
def byteContext : Codegen.Context :=
  { Codegen.Context.ofObject 0 1 with
    storage := fun name => if name = "x" then (Codegen.Context.ofObject 0 1).storage name else none }

def byteSemantics : Semantics IntegerStore PureExpr Machine :=
  machineSemantics byteContext fun _ _ _ => True

theorem knows_byteFlow {value : Option Int} {fact : Fact}
    (known : (byteFlow value).analyzer.state.Knows fact) :
    ∃ number, value = some number ∧ fact = .integer "x" number := by
  cases fact with
  | integer name number =>
      have found : (Finmap.singleton "x" value : FactMap String (Option Int)).lookup name =
        some (some number) := known
      have same : name = "x" := by
        have member := Finmap.mem_of_lookup_eq_some found
        rwa [Finmap.mem_singleton] at member
      subst same
      rw [Finmap.lookup_singleton_eq] at found
      exact ⟨number, Option.some.inj found, rfl⟩
  | unsignedInteger name number =>
      have found : (∅ : FactMap String (Option Nat)).lookup name = some (some number) := known
      rw [Finmap.lookup_empty] at found
      cases found
  | address name number =>
      have found : (∅ : FactMap String (Option StaticAddressFact)).lookup name =
        some (some number) := known
      rw [Finmap.lookup_empty] at found
      cases found
  | termination name number =>
      have found : (∅ : FactMap String (Option Bool)).lookup name = some (some number) := known
      rw [Finmap.lookup_empty] at found
      cases found

theorem decision_byteFlow (value : Option Int) :
    (byteFlow value).decision integerTransfers (some byteCondition) = value.map (· != 0) := by
  have key : staticContentKey (byteFlow value).analyzer.state (byteFlow value).analyzer.context
      "x" 0 1 = some "x" := by
    simp [staticContentKey, rangeContentKey, staticBindingAddressFact, byteFlow,
      StaticSafetyState.empty]
  have facts : staticFacts (byteFlow value).analyzer.state (byteFlow value).analyzer.context
      (objectVariable .none 1) = {
        signedInteger := value
        unsignedInteger := none
        addressFact := none } := by
    have length : (mutableResult .none 1).staticByteLength = 1 := rfl
    rw [objectVariable, staticFacts, length, key]
    simp [contentFacts, byteFlow, StaticSafetyState.empty]
  have decided (known : ExprFacts) (same : staticFacts (byteFlow value).analyzer.state
      (byteFlow value).analyzer.context (objectVariable .none 1) = known) :
      (byteFlow value).decision integerTransfers (some byteCondition) =
        (known.signedInteger.map (· != 0)).or (known.unsignedInteger.map (· != 0)) := by
    subst same
    rfl
  rw [decided _ facts]
  exact Option.or_none

/-- The memory after `x = value` where every byte was 1. -/
def byteMachine (value : Nat) : Machine :=
  { Machine.filledWith 1 with
    memory := (Machine.filledWith 1).memory.store 0 1 (BitVec.ofNat 8 value) }

theorem byteStore_clears :
    byteSemantics.executes (byteStore '0') (.filledWith 1) (byteMachine 0) :=
  ⟨_, rfl, rfl⟩

theorem byteFlow_describes_one :
    byteSemantics.Describes (byteFlow (some 1)).analyzer.state (.filledWith 1) := by
  intro fact known
  obtain ⟨_, same, rfl⟩ := knows_byteFlow known
  cases same
  intro storage found
  cases found
  exact .inl (by decide)

/-- The store of a digit does what the analyzer makes of it. -/
theorem byteStore_accounts {flow : Flow StaticContext}
    (bound : flow.analyzer.state.bindingAddressFacts = ∅)
    (sized : flow.analyzer.context.definitionByteLengths = Finmap.singleton "x" 1) :
    byteSemantics.Accounts flow.analyzer.state
      ((integerTransfers.statement (byteStore '0')).run flow.analyzer).state (.filledWith 1)
      (byteMachine 0) := by
  have range : storeRange flow.analyzer.state "x" 0 1 = some {
      bindingName := "x"
      lowerBound := 0
      offset := 0
      upperBound := 1 } := by
    simp [storeRange, staticBindingAddressFact, bound]
  apply storeInteger_accounts
  · intro key fact found told
    have named : key = "x" := by
      have recorded : rangeContentKey flow.analyzer.context (some {
          bindingName := "x", lowerBound := 0, offset := 0, upperBound := 1 }) 1 = some key :=
        range ▸ found
      simpa [rangeContentKey, sized, eq_comm] using recorded
    subst named
    cases fact with
    | integer name value =>
        obtain ⟨rfl, recorded⟩ := told
        obtain rfl : 0 = value := Option.some.inj recorded
        intro storage stored
        cases stored
        exact .inl (by decide)
    | unsignedInteger name value =>
        obtain ⟨rfl, recorded⟩ := told
        obtain rfl : 0 = value := Option.some.inj recorded
        intro storage stored
        cases stored
        decide
    | address => exact fun _ _ => trivial
    | termination name value => cases told.2
  · intro fact untouched _
    have other : fact.bindingName ≠ "x" := by
      simpa [Untouched, byteStore, range] using untouched
    have absent : byteContext.storage fact.bindingName = none := if_neg other
    cases fact with
    | integer | unsignedInteger | address | termination =>
        intro storage stored
        rw [Fact.bindingName] at absent
        rw [absent] at stored
        cases stored

theorem undecided_byteFlow {known : Bool}
    (decided : (byteFlow none).decision integerTransfers (some byteCondition) = some known) :
    False := by
  rw [decision_byteFlow] at decided
  cases decided

theorem follows_byteCondition {machine : Machine} {value : Bool}
    (tested : byteSemantics.tests byteCondition machine value machine) :
    Follows integerTransfers byteSemantics (byteFlow none) (some byteCondition) machine value
      machine where
  tested := tested
  accounts _ known := .inr ⟨known, id⟩
  decided _ decided := (undecided_byteFlow decided).elim

theorem byteFlow_describes (machine : Machine) :
    byteSemantics.Describes (byteFlow none).analyzer.state machine := by
  intro fact known
  obtain ⟨_, same, -⟩ := knows_byteFlow known
  cases same

end Byte

end HitSimple.Safety

import HitSimple.Dataflow.FactMap
import HitSimple.Dataflow.Worklist

namespace HitSimple.Safety
open Dataflow FactMap

structure StaticAddressRange where
  bindingName : String
  lowerBound : Int
  offset : Int
  upperBound : Nat
  deriving DecidableEq, Repr

inductive StaticAddressOrigin where
  | null | dynamicObject | nonDynamicObject | expiredLocalObject
  deriving DecidableEq, Repr

inductive StaticDynamicObjectState where
  | live | freed | unknown
  deriving DecidableEq, Repr

structure StaticAddressFact where
  origin : StaticAddressOrigin
  dynamicObjectId : Nat
  isBaseAddress : Bool
  range : Option StaticAddressRange
  deriving DecidableEq, Repr

def StaticAddressFact.null : StaticAddressFact where
  origin := .null
  dynamicObjectId := 0
  isBaseAddress := false
  range := none

/-- What the analyzer knows at a point of a function. -/
structure StaticSafetyState where
  integerValues : FactMap String (Option Int)
  unsignedIntegerValues : FactMap String (Option Nat)
  addressFacts : FactMap String (Option StaticAddressFact)
  bindingAddressFacts : FactMap String (Option StaticAddressFact)
  cstrTerminations : FactMap String (Option Bool)
  dynamicObjectStates : FactMap Nat StaticDynamicObjectState
  nextDynamicObjectId : Nat
  deriving DecidableEq

def StaticSafetyState.empty : StaticSafetyState where
  integerValues := ∅
  unsignedIntegerValues := ∅
  addressFacts := ∅
  bindingAddressFacts := ∅
  cstrTerminations := ∅
  dynamicObjectStates := ∅
  nextDynamicObjectId := 0

/-- A name without a binding address is at its definition; dynamic objects are known while both
states know them. -/
def mergedStaticSafetyStates (left right : StaticSafetyState) : StaticSafetyState where
  integerValues := retainCommon left.integerValues right.integerValues
  unsignedIntegerValues := retainCommon left.unsignedIntegerValues right.unsignedIntegerValues
  addressFacts := retainCommon left.addressFacts right.addressFacts
  bindingAddressFacts := joinUnknown left.bindingAddressFacts right.bindingAddressFacts
  cstrTerminations := retainCommon left.cstrTerminations right.cstrTerminations
  dynamicObjectStates := joinOr .unknown left.dynamicObjectStates right.dynamicObjectStates
  nextDynamicObjectId := max left.nextDynamicObjectId right.nextDynamicObjectId

namespace StaticSafetyState

/-- The binding addresses are among some names, and the object identifiers below a limit. -/
structure Within (names : Finset String) (limit : Nat) (state : StaticSafetyState) : Prop where
  bound : state.bindingAddressFacts.keys ⊆ names
  allocated : state.nextDynamicObjectId ≤ limit

/-- How often joins can still change a state. -/
def weight (names : Finset String) (limit : Nat) (state : StaticSafetyState) : Nat :=
  state.integerValues.keys.card + state.unsignedIntegerValues.keys.card +
    state.addressFacts.keys.card + losable names state.bindingAddressFacts +
    state.cstrTerminations.keys.card +
    (state.dynamicObjectStates.keys.card + (precise .unknown state.dynamicObjectStates).card) +
    (limit - state.nextDynamicObjectId)

theorem Within.merged {names : Finset String} {limit : Nat} {left right : StaticSafetyState}
    (leftWithin : left.Within names limit) (rightWithin : right.Within names limit) :
    (mergedStaticSafetyStates left right).Within names limit where
  bound := by
    rw [mergedStaticSafetyStates, keys_joinUnknown]
    exact Finset.union_subset leftWithin.bound rightWithin.bound
  allocated := Nat.max_le.mpr ⟨leftWithin.allocated, rightWithin.allocated⟩

theorem Within.mono {names names' : Finset String} {limit limit' : Nat} {state : StaticSafetyState}
    (more : names ⊆ names') (higher : limit ≤ limit') (within : state.Within names limit) :
    state.Within names' limit' :=
  ⟨within.bound.trans more, within.allocated.trans higher⟩

/-- A merged state that differs from the stored one has lost information. -/
theorem merged_weight_lt {names : Finset String} {limit : Nat} {left right : StaticSafetyState}
    (within : right.Within names limit) (different : mergedStaticSafetyStates left right ≠ left) :
    (mergedStaticSafetyStates left right).weight names limit < left.weight names limit := by
  have integers := retainCommon_eq_or_card_lt left.integerValues right.integerValues
  have unsigneds := retainCommon_eq_or_card_lt left.unsignedIntegerValues
    right.unsignedIntegerValues
  have addresses := retainCommon_eq_or_card_lt left.addressFacts right.addressFacts
  have bindings := joinUnknown_eq_or_losable_lt left.bindingAddressFacts within.bound
  have terminations := retainCommon_eq_or_card_lt left.cstrTerminations right.cstrTerminations
  have objects := joinOr_eq_or_card_lt StaticDynamicObjectState.unknown left.dynamicObjectStates
    right.dynamicObjectStates
  have counters : max left.nextDynamicObjectId right.nextDynamicObjectId =
      left.nextDynamicObjectId ∨
      limit - max left.nextDynamicObjectId right.nextDynamicObjectId <
        limit - left.nextDynamicObjectId := by
    have allocated := within.allocated
    omega
  have fewerIntegers := retainCommon_card_le left.integerValues right.integerValues
  have fewerUnsigneds := retainCommon_card_le left.unsignedIntegerValues
    right.unsignedIntegerValues
  have fewerAddresses := retainCommon_card_le left.addressFacts right.addressFacts
  have fewerBindings := joinUnknown_losable_le left.bindingAddressFacts within.bound
  have fewerTerminations := retainCommon_card_le left.cstrTerminations right.cstrTerminations
  have fewerObjects := joinOr_card_le StaticDynamicObjectState.unknown left.dynamicObjectStates
    right.dynamicObjectStates
  by_contra notLess
  simp only [weight, mergedStaticSafetyStates, not_lt] at notLess
  refine different ?_
  simp only [mergedStaticSafetyStates]
  rw [integers.resolve_right (by omega), unsigneds.resolve_right (by omega),
    addresses.resolve_right (by omega), bindings.resolve_right (by omega),
    terminations.resolve_right (by omega), objects.resolve_right (by omega),
    counters.resolve_right (by omega)]

end StaticSafetyState

end HitSimple.Safety

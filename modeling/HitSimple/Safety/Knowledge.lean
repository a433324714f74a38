import HitSimple.Safety.Flow

namespace HitSimple.Safety
open Dataflow FactMap

/-- What the analyzer can know of the contents of a named object. -/
inductive Fact where
  | integer (bindingName : String) (value : Int)
  | unsignedInteger (bindingName : String) (value : Nat)
  | address (bindingName : String) (fact : StaticAddressFact)
  | termination (bindingName : String) (isTerminated : Bool)
  deriving DecidableEq, Repr

namespace StaticSafetyState

def Knows (state : StaticSafetyState) : Fact → Prop
  | .integer bindingName value => state.integerValues.lookup bindingName = some (some value)
  | .unsignedInteger bindingName value =>
      state.unsignedIntegerValues.lookup bindingName = some (some value)
  | .address bindingName fact => state.addressFacts.lookup bindingName = some (some fact)
  | .termination bindingName isTerminated =>
      state.cstrTerminations.lookup bindingName = some (some isTerminated)

/-- A join knows what both states know. -/
theorem knows_merged {left right : StaticSafetyState} {fact : Fact}
    (known : (mergedStaticSafetyStates left right).Knows fact) :
    left.Knows fact ∧ right.Knows fact := by
  cases fact with
  | integer bindingName value =>
      obtain ⟨first, second, -⟩ := retainCommon_submap known
      exact ⟨first, second⟩
  | unsignedInteger bindingName value =>
      obtain ⟨first, second, -⟩ := retainCommon_submap known
      exact ⟨first, second⟩
  | address bindingName fact =>
      obtain ⟨first, second, -⟩ := retainCommon_submap known
      exact ⟨first, second⟩
  | termination bindingName isTerminated =>
      obtain ⟨first, second, -⟩ := retainCommon_submap known
      exact ⟨first, second⟩

/-- One state knows nothing that another one does not. -/
def Weaker (weak strong : StaticSafetyState) : Prop :=
  ∀ fact, weak.Knows fact → strong.Knows fact

theorem Weaker.refl (state : StaticSafetyState) : state.Weaker state := fun _ known => known

theorem Weaker.trans {first second third : StaticSafetyState} (one : first.Weaker second)
    (two : second.Weaker third) : first.Weaker third :=
  fun fact known => two fact (one fact known)

theorem merged_weaker_left (left right : StaticSafetyState) :
    (mergedStaticSafetyStates left right).Weaker left :=
  fun _ known => (knows_merged known).1

theorem merged_weaker_right (left right : StaticSafetyState) :
    (mergedStaticSafetyStates left right).Weaker right :=
  fun _ known => (knows_merged known).2

end StaticSafetyState

open StaticSafetyState

section Analyzer
variable {Context : Type} (analyzer : Analyzer Context)

theorem restore_weaker (state : StaticSafetyState) :
    (analyzer.restoreStaticSafetyState state).state.Weaker state := by
  intro fact known
  cases fact <;> exact known

theorem mergeStates_weaker_left (left right : StaticSafetyState) :
    (analyzer.mergeStaticSafetyStates left right).state.Weaker left :=
  (restore_weaker analyzer _).trans (merged_weaker_left left right)

theorem mergeStates_weaker_right (left right : StaticSafetyState) :
    (analyzer.mergeStaticSafetyStates left right).state.Weaker right :=
  (restore_weaker analyzer _).trans (merged_weaker_right left right)

end Analyzer

/-- What is known to arrive somewhere only gets less. -/
def Loses (before after : Option StaticSafetyState) : Prop :=
  ∀ state ∈ before, ∃ state' ∈ after, state'.Weaker state

theorem Loses.refl (before : Option StaticSafetyState) : Loses before before :=
  fun state member => ⟨state, member, .refl state⟩

theorem Loses.trans {first second third : Option StaticSafetyState} (one : Loses first second)
    (two : Loses second third) : Loses first third := by
  intro state member
  obtain ⟨middle, found, weaker⟩ := one state member
  obtain ⟨last, found', weaker'⟩ := two middle found
  exact ⟨last, found', weaker'.trans weaker⟩

theorem mergeInto_weaker (stored : Option StaticSafetyState) (incoming : StaticSafetyState) :
    (mergeInto stored incoming).Weaker incoming := by
  cases stored with
  | none => exact .refl incoming
  | some state => exact merged_weaker_right state incoming

theorem loses_mergeInto (stored : Option StaticSafetyState) (incoming : StaticSafetyState) :
    Loses stored (some (mergeInto stored incoming)) := by
  intro state member
  obtain rfl : stored = some state := member
  exact ⟨_, rfl, merged_weaker_left state incoming⟩

end HitSimple.Safety

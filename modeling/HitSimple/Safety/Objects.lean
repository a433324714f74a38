import HitSimple.Safety.IntegerStores
import HitSimple.Safety.Traversal

namespace HitSimple.Safety
open Dataflow FactMap

section Consistency

namespace StaticSafetyState

/-- The dynamic object of an address has been made, and its state is recorded. -/
def Tracks (state : StaticSafetyState) (fact : StaticAddressFact) : Prop :=
  fact.origin = .dynamicObject → fact.dynamicObjectId < state.nextDynamicObjectId ∧
    (state.dynamicObjectStates.lookup fact.dynamicObjectId).isSome = true

/-- Every address that is known of an object or of a name is tracked. -/
structure IsConsistent (state : StaticSafetyState) : Prop where
  contents : ∀ key fact, state.addressFacts.lookup key = some (some fact) → state.Tracks fact
  bindings : ∀ bindingName fact,
    state.bindingAddressFacts.lookup bindingName = some (some fact) → state.Tracks fact

theorem isConsistent_empty : empty.IsConsistent := by
  constructor
  · intro key fact found
    have found : (∅ : FactMap String (Option StaticAddressFact)).lookup key = some (some fact) :=
      found
    rw [Finmap.lookup_empty] at found
    cases found
  · intro bindingName fact found
    have found : (∅ : FactMap String (Option StaticAddressFact)).lookup bindingName =
      some (some fact) := found
    rw [Finmap.lookup_empty] at found
    cases found

variable {state before after : StaticSafetyState}

/-- The same objects, or more, are tracked. -/
def TracksMore (before after : StaticSafetyState) : Prop :=
  ∀ fact, before.Tracks fact → after.Tracks fact

theorem TracksMore.of_eq (objects : after.dynamicObjectStates = before.dynamicObjectStates)
    (allocated : before.nextDynamicObjectId ≤ after.nextDynamicObjectId) :
    before.TracksMore after := by
  intro fact tracks dynamic
  obtain ⟨made, recorded⟩ := tracks dynamic
  rw [objects]
  exact ⟨made.trans_le allocated, recorded⟩

/-- Tracking goes by the origin and the object of an address. -/
theorem Tracks.of_eq {fact fact' : StaticAddressFact} (tracks : state.Tracks fact)
    (origin : fact'.origin = fact.origin)
    (object : fact'.dynamicObjectId = fact.dynamicObjectId) : state.Tracks fact' := by
  intro dynamic
  rw [object]
  exact tracks (origin ▸ dynamic)

theorem tracks_of_origin {fact : StaticAddressFact} (origin : fact.origin ≠ .dynamicObject) :
    state.Tracks fact :=
  fun dynamic => absurd dynamic origin

theorem tracks_null : state.Tracks .null :=
  tracks_of_origin nofun

/-- The objects whose state is replaced are tracked still. -/
theorem tracksMore_insert (id : Nat) (objectState : StaticDynamicObjectState) :
    state.TracksMore { state with
      dynamicObjectStates := state.dynamicObjectStates.insert id objectState } := by
  intro fact tracks dynamic
  obtain ⟨made, recorded⟩ := tracks dynamic
  refine ⟨made, ?_⟩
  show ((state.dynamicObjectStates.insert id objectState).lookup fact.dynamicObjectId).isSome = true
  by_cases same : fact.dynamicObjectId = id
  · rw [same, Finmap.lookup_insert]
    rfl
  · rw [Finmap.lookup_insert_of_ne _ same]
    exact recorded

theorem IsConsistent.of_tracksMore (consistent : before.IsConsistent)
    (more : before.TracksMore after)
    (contents : ∀ key fact, after.addressFacts.lookup key = some (some fact) →
      before.addressFacts.lookup key = some (some fact) ∨ after.Tracks fact)
    (bindings : ∀ bindingName fact,
      after.bindingAddressFacts.lookup bindingName = some (some fact) →
        before.bindingAddressFacts.lookup bindingName = some (some fact) ∨ after.Tracks fact) :
    after.IsConsistent := by
  constructor
  · intro key fact found
    rcases contents key fact found with known | tracks
    · exact more fact (consistent.contents key fact known)
    · exact tracks
  · intro bindingName fact found
    rcases bindings bindingName fact found with known | tracks
    · exact more fact (consistent.bindings bindingName fact known)
    · exact tracks

/-- A join keeps the objects of the addresses it keeps. -/
theorem IsConsistent.merged {left right : StaticSafetyState} (one : left.IsConsistent)
    (two : right.IsConsistent) : (mergedStaticSafetyStates left right).IsConsistent := by
  have tracks {fact : StaticAddressFact} (first : left.Tracks fact) (second : right.Tracks fact) :
      (mergedStaticSafetyStates left right).Tracks fact := by
    intro dynamic
    obtain ⟨made, recorded⟩ := first dynamic
    obtain ⟨-, recorded'⟩ := second dynamic
    have both : fact.dynamicObjectId ∈
        left.dynamicObjectStates.keys ∩ right.dynamicObjectStates.keys := by
      rw [Finset.mem_inter, Finmap.mem_keys, Finmap.mem_keys]
      exact ⟨Finmap.lookup_isSome.mp recorded, Finmap.lookup_isSome.mp recorded'⟩
    refine ⟨made.trans_le (Nat.le_max_left _ _), ?_⟩
    rw [mergedStaticSafetyStates, lookup_joinOr, if_pos both]
    split
    · exact recorded
    · rfl
  constructor
  · intro key fact found
    obtain ⟨first, second, -⟩ := retainCommon_submap found
    exact tracks (one.contents key fact first) (two.contents key fact second)
  · intro bindingName fact found
    change (joinUnknown left.bindingAddressFacts right.bindingAddressFacts).lookup bindingName =
      some (some fact) at found
    rw [lookup_joinUnknown] at found
    split at found
    · have found := Option.some.inj found
      split at found
      · rename_i same
        have known : left.bindingAddressFacts.lookup bindingName = some (some fact) :=
          Option.join_eq_some_iff.mp found
        exact tracks (one.bindings bindingName fact known)
          (two.bindings bindingName fact (same ▸ known))
      · cases found
    · cases found

theorem IsConsistent.restored (consistent : state.IsConsistent) {limit : Nat}
    (allocated : state.nextDynamicObjectId ≤ limit) :
    { state with nextDynamicObjectId := limit }.IsConsistent :=
  consistent.of_tracksMore (TracksMore.of_eq rfl allocated) (fun _ _ found => .inl found)
    fun _ _ found => .inl found

theorem tracks_expireFact {bindingName : String} {fact : StaticAddressFact}
    (tracks : state.Tracks fact) : state.Tracks (expireFact bindingName fact) := by
  unfold expireFact
  split
  · split
    · exact tracks_of_origin nofun
    · exact tracks
  · exact tracks

theorem known_expireFacts {bindingName key : String}
    {facts : FactMap String (Option StaticAddressFact)} {fact : StaticAddressFact}
    (found : (expireFacts bindingName facts).lookup key = some (some fact)) :
    ∃ earlier, facts.lookup key = some (some earlier) ∧ fact = expireFact bindingName earlier := by
  rw [expireFacts, lookup_tabulate] at found
  split at found
  · obtain ⟨recorded, known, same⟩ := Option.map_eq_some_iff.mp found
    obtain ⟨earlier, rfl, rfl⟩ := Option.map_eq_some_iff.mp same
    exact ⟨earlier, known, rfl⟩
  · cases found

/-- A local that goes out of scope takes no object with it. -/
theorem IsConsistent.expire (consistent : state.IsConsistent) (bindingName : String) :
    (state.expire bindingName).IsConsistent := by
  constructor
  · intro key fact found
    obtain ⟨earlier, known, rfl⟩ := known_expireFacts found
    exact tracks_expireFact (consistent.contents key earlier known)
  · intro name fact found
    obtain ⟨earlier, known, rfl⟩ := known_expireFacts found
    exact tracks_expireFact (consistent.bindings name earlier known)

end StaticSafetyState

end Consistency

end HitSimple.Safety

import HitSimple.Safety.Stores

namespace HitSimple.Safety
open Dataflow FactMap

/-- The binding addresses and the object identifiers are the same. -/
structure StaticSafetyState.Frames (before after : StaticSafetyState) : Prop where
  bound : after.bindingAddressFacts = before.bindingAddressFacts
  allocated : after.nextDynamicObjectId = before.nextDynamicObjectId

namespace StaticSafetyState

theorem Frames.refl (state : StaticSafetyState) : state.Frames state := ⟨rfl, rfl⟩

theorem Frames.trans {first second third : StaticSafetyState} (one : first.Frames second)
    (two : second.Frames third) : first.Frames third :=
  ⟨two.bound.trans one.bound, two.allocated.trans one.allocated⟩

theorem Frames.merged {before left right : StaticSafetyState} (leftFrames : before.Frames left)
    (rightFrames : before.Frames right) :
    before.Frames (mergedStaticSafetyStates left right) where
  bound := by
    rw [mergedStaticSafetyStates, leftFrames.bound, rightFrames.bound]
    exact joinUnknown_self before.bindingAddressFacts
  allocated := by
    rw [mergedStaticSafetyStates, leftFrames.allocated, rightFrames.allocated]
    exact Nat.max_self before.nextDynamicObjectId

theorem invalidateStaticFactsOverlapping_frames (state : StaticSafetyState)
    (range : Option StaticAddressRange) (byteLength : Option Nat) :
    state.Frames (state.invalidateStaticFactsOverlapping range byteLength) := by
  unfold invalidateStaticFactsOverlapping
  split
  · exact .refl state
  · cases range with
    | none => exact ⟨rfl, rfl⟩
    | some range => exact ⟨rfl, rfl⟩

theorem prepareStaticNamedStore_frames (state : StaticSafetyState) (context : StaticContext)
    (bindingName : String) (offset byteLength : Nat) :
    state.Frames (state.prepareStaticNamedStore context bindingName offset byteLength).2 :=
  state.invalidateStaticFactsOverlapping_frames _ _

end StaticSafetyState

open StaticSafetyState

theorem validateExpr_frames (context : StaticContext) (expression : Hir.Expr)
    (state : StaticSafetyState) : state.Frames (validateExpr context expression state) := by
  fun_induction validateExpr context expression state with
  | case3 =>
      -- The right operand may be skipped.
      rename_i first second
      exact first.merged (first.trans second)
  | case9 =>
      rename_i tested first second
      exact (tested.trans first).merged (tested.trans second)
  | case2 | case4 | case5 | case6 | case7 | case8 =>
      rename_i first second
      exact first.trans second
  | case1 | case10 | case11 | case12 | case13 | case14 => assumption
  | _ => first | exact .refl _ | assumption

section Stores
variable (context : StaticContext) (state : StaticSafetyState)

theorem StoredValue.validate_frames (value : StoredValue) :
    state.Frames (value.validate context state) := by
  cases value with
  | expression value => exact validateExpr_frames context value state
  | alloc size => exact validateExpr_frames context size state
  | calloc count size =>
      exact (validateExpr_frames context count state).trans (validateExpr_frames context size _)
  | realloc object size =>
      exact (validateExpr_frames context size state).trans (validateExpr_frames context object _)

theorem releaseStaticDynamicObject_frames (fact : Option StaticAddressFact) :
    state.Frames (releaseStaticDynamicObject state fact) := by
  unfold releaseStaticDynamicObject
  split
  · split <;> exact ⟨rfl, rfl⟩
  · exact .refl state

theorem loseStaticDynamicObject_frames (fact : Option StaticAddressFact) :
    state.Frames (loseStaticDynamicObject state fact) := by
  unfold loseStaticDynamicObject
  split
  · split <;> exact ⟨rfl, rfl⟩
  · exact .refl state

/-- Only an allocation makes an object, and it makes one. -/
theorem recordStaticAddressAssignment_state (value : StoredValue) :
    (recordStaticAddressAssignment context state value).2.bindingAddressFacts =
        state.bindingAddressFacts ∧
      (recordStaticAddressAssignment context state value).2.nextDynamicObjectId =
        state.nextDynamicObjectId + value.allocates.toNat := by
  cases value with
  | expression value => exact ⟨rfl, rfl⟩
  | alloc size knownExtent => exact ⟨rfl, rfl⟩
  | calloc count size knownExtent => exact ⟨rfl, rfl⟩
  | realloc object size knownExtent =>
      simp only [recordStaticAddressAssignment, StoredValue.allocates, Bool.toNat_false, add_zero]
      split
      · have released := releaseStaticDynamicObject_frames state
          (staticFacts state context object).addressFact
        exact ⟨released.bound, released.allocated⟩
      · have lost := loseStaticDynamicObject_frames state
          (staticFacts state context object).addressFact
        exact ⟨lost.bound, lost.allocated⟩

theorem storeInteger_state (bindingName : String) (offset targetByteLength : Nat)
    (value : StoredValue) :
    (storeInteger bindingName offset targetByteLength value context state).bindingAddressFacts =
        state.bindingAddressFacts ∧
      (storeInteger bindingName offset targetByteLength value context state).nextDynamicObjectId =
        state.nextDynamicObjectId + value.allocates.toNat := by
  have validated := value.validate_frames context state
  have recorded := recordStaticAddressAssignment_state context (value.validate context state) value
  have prepared := fun state : StaticSafetyState =>
    state.prepareStaticNamedStore_frames context bindingName offset targetByteLength
  rw [← validated.bound, ← validated.allocated, ← recorded.1, ← recorded.2]
  simp only [storeInteger]
  split
  · exact ⟨(prepared _).bound, (prepared _).allocated⟩
  · exact ⟨(prepared _).bound, (prepared _).allocated⟩

theorem storeBool_frames (bindingName : String) (offset targetByteLength : Nat) (value : PureExpr) :
    state.Frames (storeBool bindingName offset targetByteLength value context state) := by
  refine (validateExpr_frames context value state).trans ?_
  have prepared := (validateExpr context value state).prepareStaticNamedStore_frames context
    bindingName offset targetByteLength
  simp only [storeBool]
  split
  · exact prepared
  · exact ⟨prepared.bound, prepared.allocated⟩

theorem storeBytes_frames (bindingName : String) (offset targetByteLength : Nat)
    (termination : Option Bool) :
    state.Frames (storeBytes bindingName offset targetByteLength termination context state) := by
  have prepared := state.prepareStaticNamedStore_frames context bindingName offset targetByteLength
  simp only [storeBytes]
  split
  · exact prepared
  · exact ⟨prepared.bound, prepared.allocated⟩

theorem storePointer_frames (address : PureExpr) (targetByteLength : Nat) (value : PureExpr) :
    state.Frames (storePointer address targetByteLength value context state) :=
  ((validateExpr_frames context address state).trans (validateExpr_frames context value _)).trans
    (StaticSafetyState.invalidateStaticFactsOverlapping_frames _ _ _)

end Stores

/-- A statement that leaves the binding addresses as they are. -/
def storeEffect (allocates : Bool) (run : StaticContext → StaticSafetyState → StaticSafetyState)
    (bound : ∀ context state, (run context state).bindingAddressFacts = state.bindingAddressFacts)
    (allocated : ∀ context state, (run context state).nextDynamicObjectId =
      state.nextDynamicObjectId + allocates.toNat) : Effect StaticContext where
  run analyzer := { analyzer with state := run analyzer.context analyzer.state }
  names := ∅
  allocates
  binds analyzer := by
    rw [bound, Finset.union_empty]
  grows analyzer := by
    rw [allocated]
    exact Nat.le_add_right _ _
  counts frugal analyzer := by
    rw [allocated, frugal]
    rfl

def framedEffect (run : StaticContext → StaticSafetyState → StaticSafetyState)
    (frames : ∀ context (state : StaticSafetyState), state.Frames (run context state)) : Effect StaticContext :=
  storeEffect false run (fun context state => (frames context state).bound)
    fun context state => (frames context state).allocated

theorem keys_insert_subset (facts : FactMap String (Option StaticAddressFact)) (key : String)
    (fact : Option StaticAddressFact) : (facts.insert key fact).keys ⊆ facts.keys ∪ {key} := by
  intro other member
  rw [Finmap.mem_keys, Finmap.mem_insert] at member
  rw [Finset.mem_union, Finset.mem_singleton, Finmap.mem_keys]
  exact member.symm

theorem rebind_state (bindingName : String) (address : StoredValue) (context : StaticContext)
    (state : StaticSafetyState) :
    (rebind bindingName address context state).bindingAddressFacts.keys ⊆
        state.bindingAddressFacts.keys ∪ {bindingName} ∧
      (rebind bindingName address context state).nextDynamicObjectId =
        state.nextDynamicObjectId + address.allocates.toNat := by
  have validated := address.validate_frames context state
  have recorded := recordStaticAddressAssignment_state context (address.validate context state)
    address
  refine ⟨?_, ?_⟩
  · rw [← validated.bound, ← recorded.1]
    exact keys_insert_subset _ _ _
  · rw [← validated.allocated, ← recorded.2]
    rfl

theorem declareLocal_state (bindingName : String) (byteLength : Nat) (storage : Hir.MemoryStorage)
    (analyzer : Analyzer StaticContext) :
    (declareLocal bindingName byteLength storage analyzer).state.bindingAddressFacts.keys ⊆
        analyzer.state.bindingAddressFacts.keys ∪ {bindingName} ∧
      (declareLocal bindingName byteLength storage analyzer).state.nextDynamicObjectId =
        analyzer.state.nextDynamicObjectId := by
  cases storage with
  | global => exact ⟨Finset.subset_union_left, rfl⟩
  | «local» =>
      refine ⟨?_, rfl⟩
      intro other member
      have kept := Finmap.mem_keys.mp member
      exact Finset.mem_union_left _ (Finmap.mem_keys.mpr (Finmap.mem_erase.mp kept).2)
  | staticLocal =>
      simp only [declareLocal]
      split
      · exact ⟨keys_insert_subset _ _ _, rfl⟩
      · exact ⟨Finset.subset_union_left, rfl⟩

/-- What validating a statement without control flow does. -/
def Leaf.effect : Leaf → Effect StaticContext
  | .integerStore bindingName offset targetByteLength value =>
      storeEffect value.allocates (storeInteger bindingName offset targetByteLength value)
        (fun context state => (storeInteger_state context state _ _ _ value).1)
        fun context state => (storeInteger_state context state _ _ _ value).2
  | .boolStore bindingName offset targetByteLength value =>
      framedEffect (storeBool bindingName offset targetByteLength value)
        fun context state => storeBool_frames context state _ _ _ value
  | .floatStore bindingName offset targetByteLength value =>
      framedEffect (fun context state =>
          ((validateExpr context value state).prepareStaticNamedStore context bindingName offset
            targetByteLength).2)
        fun context state => (validateExpr_frames context value state).trans
          (StaticSafetyState.prepareStaticNamedStore_frames _ context _ _ _)
  | .viewCopyStore bindingName offset targetByteLength value =>
      framedEffect (fun context state =>
          let state := validateExpr context value state
          storeBytes bindingName offset targetByteLength
            ((characterTermination targetByteLength value).or
              (staticCStringTerminated state context value)) context state)
        fun context state => (validateExpr_frames context value state).trans
          (storeBytes_frames context _ _ _ _ _)
  | .stringStore bindingName offset targetByteLength =>
      framedEffect (storeBytes bindingName offset targetByteLength (some true))
        fun context state => storeBytes_frames context state _ _ _ _
  | .pointerStore address targetByteLength value =>
      framedEffect (storePointer address targetByteLength value)
        fun context state => storePointer_frames context state address _ value
  | .localMemory bindingName byteLength storage => {
      run := declareLocal bindingName byteLength storage
      names := {bindingName}
      allocates := false
      binds := fun analyzer => (declareLocal_state bindingName byteLength storage analyzer).1
      grows := fun analyzer => (declareLocal_state bindingName byteLength storage analyzer).2.ge
      counts := fun _ analyzer => (declareLocal_state bindingName byteLength storage analyzer).2 }
  | .bindingRebind bindingName address => {
      run := fun analyzer =>
        { analyzer with state := rebind bindingName address analyzer.context analyzer.state }
      names := {bindingName}
      allocates := address.allocates
      binds := fun analyzer => (rebind_state bindingName address _ analyzer.state).1
      grows := fun analyzer =>
        (Nat.le_add_right _ _).trans (rebind_state bindingName address _ analyzer.state).2.ge
      counts := fun frugal analyzer => by
        rw [(rebind_state bindingName address _ analyzer.state).2, frugal]
        rfl }
  | .other effect => effect

/-- How the analyzer treats the statements and the expressions of a function. -/
def safetyTransfers : Transfers StaticContext Leaf PureExpr where
  statement := Leaf.effect
  expression expression := framedEffect (fun context => validateExpr context expression)
    fun context => validateExpr_frames context expression
  staticBooleanValue expression analyzer :=
    staticBooleanValue analyzer.state analyzer.context expression
  localBinding
    | .localMemory bindingName _ .local => some bindingName
    | _ => none

end HitSimple.Safety

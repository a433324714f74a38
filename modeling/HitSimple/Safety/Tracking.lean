import HitSimple.Safety.Objects

namespace HitSimple.Safety.Visitor
open Dataflow FactMap StaticSafetyState

section Facts
variable {state : StaticSafetyState} {fact : StaticAddressFact}

theorem tracks_advance (tracks : state.Tracks fact) (offset : Int) :
    state.Tracks (fact.advance offset) :=
  tracks.of_eq rfl rfl

theorem tracks_staticBindingAddressFact (consistent : state.IsConsistent) {bindingName : String}
    {offset byteLength : Nat}
    (found : staticBindingAddressFact state bindingName offset byteLength = some fact) :
    state.Tracks fact := by
  unfold staticBindingAddressFact at found
  split at found
  · obtain rfl := Option.some.inj found
    exact tracks_of_origin nofun
  · cases found
  · rename_i bound known
    have tracks := consistent.bindings bindingName bound known
    split at found
    · obtain rfl := Option.some.inj found
      exact tracks
    · split at found
      · cases found
      · obtain rfl := Option.some.inj found
        exact tracks_advance tracks offset

theorem tracks_contentFacts (consistent : state.IsConsistent) {key : Option String}
    (found : (contentFacts state key).addressFact = some fact) : state.Tracks fact := by
  obtain ⟨key, -, found⟩ := Option.bind_eq_some_iff.mp found
  exact consistent.contents key fact (Option.join_eq_some_iff.mp found)

theorem tracks_nullIfZero {signedInteger : Option Int}
    (found : nullIfZero signedInteger = some fact) : state.Tracks fact := by
  unfold nullIfZero at found
  split at found
  · obtain rfl := Option.some.inj found
    exact tracks_null
  · cases found

theorem tracks_offsetAddressFact {isAddressOffset isSubtraction : Bool}
    {base : Option StaticAddressFact} {offset : Option Int}
    (tracked : ∀ fact, base = some fact → state.Tracks fact)
    (found : offsetAddressFact isAddressOffset isSubtraction base offset = some fact) :
    state.Tracks fact := by
  obtain ⟨earlier, known, rfl⟩ := Option.map_eq_some_iff.mp found
  have tracks := tracked earlier known
  split
  · exact tracks.of_eq rfl rfl
  · split
    · split
      · exact tracks.of_eq rfl rfl
      · exact tracks_advance tracks _
    · exact tracks_advance tracks _

/-- Every address that is known of an expression is tracked. -/
theorem tracks_staticFacts (consistent : state.IsConsistent) (context : Context) :
    ∀ (node : Node) {fact : StaticAddressFact},
      (staticFacts state context node).addressFact = some fact → state.Tracks fact
  | .variableRef _ _ _, _, found => tracks_contentFacts consistent found
  | .captured _ _, _, found => tracks_contentFacts consistent found
  | .addressOf bindingName targetByteLength offset _, _, found => by
      obtain ⟨earlier, known, rfl⟩ := Option.map_eq_some_iff.mp found
      exact (tracks_staticBindingAddressFact consistent known).of_eq rfl rfl
  | .deref _ _, _, found => tracks_contentFacts consistent found
  | .binary left op right _ operationKind viewOffsetBounds, _, found => by
      simp only [staticFacts] at found
      split at found
      · exact tracks_offsetAddressFact (fun _ => tracks_staticFacts consistent context left) found
      · cases found
  | .unary _ _ _, _, found => tracks_nullIfZero found
  | .unsigned operand _, _, found => tracks_staticFacts consistent context operand found
  | .integerCast operand _ _, _, found => by
      simp only [staticFacts] at found
      split at found
      · exact tracks_staticFacts consistent context operand found
      · split at found
        · obtain rfl := Option.some.inj found
          exact tracks_null
        · cases found
  | .templateView operand _, _, found => tracks_staticFacts consistent context operand found
  | .literal _ _, _, found | .floatBinary _ _ _, _, found | .floatCompare _ _ _, _, found
  | .ternary _ _ _ _, _, found | .booleanTest _ _, _, found | .toFloat _ _, _, found
  | .toInt _ _, _, found | .byteSwap _ _, _, found | .userTemplateOpCall _ _ _, _, found
  | .userTemplateFormatCall _ _ _, _, found | .call _ _ _, _, found
  | .dynamicByteView _ _ _ _, _, found | .assignment _ _ _, _, found => by
      simp only [staticFacts] at found
      exact tracks_nullIfZero found

theorem tracks_staticViewAddressFact (consistent : state.IsConsistent) (context : Context) :
    ∀ (node : Node) {fact : StaticAddressFact},
      staticViewAddressFact state context node = some fact → state.Tracks fact
  | .variableRef _ _ _, _, found => tracks_staticBindingAddressFact consistent found
  | .deref address _, _, found => tracks_staticFacts consistent context address found
  | .templateView operand _, _, found =>
      tracks_staticViewAddressFact consistent context operand found
  | .captured captureName _, _, found =>
      consistent.contents _ _ (Option.join_eq_some_iff.mp found)
  | .literal _ _, _, found | .addressOf _ _ _ _, _, found | .binary _ _ _ _ _ _, _, found
  | .floatBinary _ _ _, _, found | .floatCompare _ _ _, _, found | .unary _ _ _, _, found
  | .ternary _ _ _ _, _, found | .unsigned _ _, _, found | .integerCast _ _ _, _, found
  | .booleanTest _ _, _, found | .toFloat _ _, _, found | .toInt _ _, _, found
  | .byteSwap _ _, _, found | .userTemplateOpCall _ _ _, _, found
  | .userTemplateFormatCall _ _ _, _, found | .call _ _ _, _, found
  | .dynamicByteView _ _ _ _, _, found | .assignment _ _ _, _, found => by cases found

end Facts

/-- What the traversal does to a state: it can record addresses for some names only, makes no
object twice and keeps every address tracked. -/
structure Advances (names : Finset String) (before after : StaticSafetyState) : Prop where
  binds : after.bindingAddressFacts.keys ⊆ before.bindingAddressFacts.keys ∪ names
  grows : before.nextDynamicObjectId ≤ after.nextDynamicObjectId
  consistent : before.IsConsistent → after.IsConsistent

namespace Advances
variable {names : Finset String} {before middle after : StaticSafetyState}

theorem refl (names : Finset String) (state : StaticSafetyState) : Advances names state state :=
  ⟨Finset.subset_union_left, Nat.le_refl _, id⟩

theorem trans (one : Advances names before middle) (two : Advances names middle after) :
    Advances names before after where
  binds := by
    intro name member
    rcases Finset.mem_union.mp (two.binds member) with earlier | named
    · exact one.binds earlier
    · exact Finset.mem_union_right _ named
  grows := one.grows.trans two.grows
  consistent := fun consistent => two.consistent (one.consistent consistent)

theorem of_contents (bound : after.bindingAddressFacts = before.bindingAddressFacts)
    (objects : before.TracksMore after)
    (allocated : before.nextDynamicObjectId ≤ after.nextDynamicObjectId)
    (contents : before.IsConsistent → ∀ key fact,
      after.addressFacts.lookup key = some (some fact) →
        before.addressFacts.lookup key = some (some fact) ∨ after.Tracks fact) :
    Advances names before after where
  binds := by
    rw [bound]
    exact Finset.subset_union_left
  grows := allocated
  consistent := fun consistent =>
    consistent.of_tracksMore objects (contents consistent) fun bindingName fact found =>
      .inl (bound ▸ found)

/-- The addresses of contents are replaced, the objects are as they were. -/
theorem of_addressFacts (bound : after.bindingAddressFacts = before.bindingAddressFacts)
    (objects : after.dynamicObjectStates = before.dynamicObjectStates)
    (allocated : after.nextDynamicObjectId = before.nextDynamicObjectId)
    (contents : before.IsConsistent → ∀ key fact,
      after.addressFacts.lookup key = some (some fact) →
        before.addressFacts.lookup key = some (some fact) ∨ before.Tracks fact) :
    Advances names before after := by
  have more : before.TracksMore after := .of_eq objects allocated.ge
  apply of_contents bound more allocated.ge
  intro consistent key fact found
  exact (contents consistent key fact found).imp id (more fact)

/-- Addresses and objects are as they were. -/
theorem of_same (bound : after.bindingAddressFacts = before.bindingAddressFacts)
    (contents : after.addressFacts = before.addressFacts)
    (objects : after.dynamicObjectStates = before.dynamicObjectStates)
    (allocated : after.nextDynamicObjectId = before.nextDynamicObjectId) :
    Advances names before after := by
  apply of_addressFacts bound objects allocated
  intro _ key fact found
  exact .inl (contents ▸ found)

theorem insert_address (state : StaticSafetyState) (key : String) {fact : Option StaticAddressFact}
    (tracked : state.IsConsistent → ∀ known, fact = some known → state.Tracks known) :
    Advances names state { state with addressFacts := state.addressFacts.insert key fact } := by
  refine .of_addressFacts (by rfl) (by rfl) (by rfl) ?_
  intro consistent name known found
  rcases lookup_insert_known found with ⟨-, same⟩ | ⟨-, found⟩
  · exact .inr (tracked consistent known same)
  · exact .inl found

theorem erase_address (state : StaticSafetyState) (key : String) :
    Advances names state { state with addressFacts := state.addressFacts.erase key } := by
  refine .of_addressFacts (by rfl) (by rfl) (by rfl) ?_
  intro _ name known found
  exact .inl (lookup_erase_known found)

theorem erase_binding (state : StaticSafetyState) (bindingName : String) :
    Advances names state { state with
      bindingAddressFacts := state.bindingAddressFacts.erase bindingName } where
  binds := by
    intro name member
    have kept := Finmap.mem_keys.mp member
    exact Finset.mem_union_left _ (Finmap.mem_keys.mpr (Finmap.mem_erase.mp kept).2)
  grows := Nat.le_refl _
  consistent := by
    intro consistent
    refine consistent.of_tracksMore (.of_eq (by rfl) (Nat.le_refl _)) ?_ ?_
    · intro key fact found
      exact .inl found
    · intro name fact found
      exact .inl (lookup_erase_known found)

theorem of_binding (bindingName : String) (fact : Option StaticAddressFact)
    (bound : after.bindingAddressFacts = before.bindingAddressFacts.insert bindingName fact)
    (contents : after.addressFacts = before.addressFacts)
    (objects : after.dynamicObjectStates = before.dynamicObjectStates)
    (allocated : after.nextDynamicObjectId = before.nextDynamicObjectId)
    (named : bindingName ∈ names)
    (tracked : before.IsConsistent → ∀ known, fact = some known → before.Tracks known) :
    Advances names before after where
  binds := by
    rw [bound]
    apply (keys_insert_subset _ _ _).trans
    exact Finset.union_subset_union_right (Finset.singleton_subset_iff.mpr named)
  grows := allocated.ge
  consistent := by
    intro consistent
    have more : before.TracksMore after := .of_eq objects allocated.ge
    apply consistent.of_tracksMore more
    · intro key known found
      exact .inl (contents ▸ found)
    · intro name known found
      rw [bound] at found
      rcases lookup_insert_known found with ⟨-, same⟩ | ⟨-, found⟩
      · exact .inr (more known (tracked consistent known same))
      · exact .inl found

/-- A list of steps. -/
theorem foldl {Item : Type} {step : Analyzer Context → Item → Analyzer Context} (items : List Item)
    (advances : ∀ analyzer, ∀ item ∈ items, Advances names analyzer.state (step analyzer item).state)
    (analyzer : Analyzer Context) :
    Advances names analyzer.state (items.foldl step analyzer).state := by
  induction items generalizing analyzer with
  | nil => exact refl names _
  | cons item items ih =>
      have first := advances analyzer item List.mem_cons_self
      apply first.trans
      apply ih
      intro analyzer item member
      exact advances analyzer item (List.mem_cons_of_mem _ member)

theorem restored {analyzer : Analyzer Context} (one : Advances names before analyzer.state) :
    Advances names before (analyzer.restoreStaticSafetyState before).state where
  binds := Finset.subset_union_left
  grows := one.grows.trans (Nat.le_max_left _ _)
  consistent := fun consistent => consistent.restored (Nat.le_max_right _ _)

theorem mergeSkipped {first second : Analyzer Context} (one : Advances names before first.state)
    (two : Advances names before second.state) :
    Advances names before (mergeSkipped first second).state where
  binds := by
    show (joinUnknown first.state.bindingAddressFacts second.state.bindingAddressFacts).keys ⊆ _
    rw [keys_joinUnknown]
    exact Finset.union_subset one.binds two.binds
  grows := two.grows.trans (Nat.le_max_left _ _)
  consistent := fun consistent =>
    ((one.consistent consistent).merged (two.consistent consistent)).restored (Nat.le_max_right _ _)

end Advances

section Primitives
variable {names : Finset String} {unit : TranslationUnit}

theorem advances_invalidateStaticBinding (state : StaticSafetyState) (bindingName : String) :
    Advances names state (state.invalidateStaticBinding bindingName) := by
  refine .of_addressFacts (by rfl) (by rfl) (by rfl) ?_
  intro _ key fact found
  rcases lookup_insert_known found with ⟨-, forgotten⟩ | ⟨-, known⟩
  · cases forgotten
  · exact .inl known

theorem advances_invalidateStaticFactsOverlapping (range : Option StaticAddressRange)
    (byteLength : Option Nat) (analyzer : Analyzer Context) :
    Advances names analyzer.state
      (invalidateStaticFactsOverlapping range byteLength analyzer).state := by
  unfold invalidateStaticFactsOverlapping
  split
  · exact .refl names _
  · cases range with
    | some range => exact advances_invalidateStaticBinding _ _
    | none =>
        refine .of_addressFacts (by rfl) (by rfl) (by rfl) ?_
        intro _ key fact found
        exact .inl (lookup_forgetAll_known found).1

theorem advances_rebound (covered : unit.potentiallyReboundBindings ⊆ names)
    {before touched : StaticSafetyState} (located : Advances names before touched)
    (bindingName : String) :
    Advances names before (if bindingName ∈ unit.potentiallyReboundBindings then
      { touched.invalidateStaticBinding bindingName with bindingAddressFacts :=
          (touched.invalidateStaticBinding bindingName).bindingAddressFacts.insert bindingName none }
      else touched.invalidateStaticBinding bindingName) := by
  have forgotten := located.trans (advances_invalidateStaticBinding _ bindingName)
  split
  · rename_i rebound
    apply forgotten.trans
    exact .of_binding bindingName none rfl rfl rfl rfl (covered rebound) nofun
  · exact forgotten

theorem advances_invalidateStaticGlobal (covered : unit.potentiallyReboundBindings ⊆ names)
    (analyzer : Analyzer Context) (bindingName : String) :
    Advances names analyzer.state (invalidateStaticGlobal unit analyzer bindingName).state := by
  unfold invalidateStaticGlobal
  cases analyzer.state.bindingAddressFacts.lookup bindingName with
  | none => exact advances_rebound covered (.refl names _) bindingName
  | some bound =>
      exact advances_rebound covered (advances_invalidateStaticFactsOverlapping _ _ _) bindingName

theorem advances_invalidateStaticGlobalFacts (covered : unit.potentiallyReboundBindings ⊆ names)
    (analyzer : Analyzer Context) :
    Advances names analyzer.state (invalidateStaticGlobalFacts unit analyzer).state :=
  Advances.foldl _ (fun analyzer name _ => advances_invalidateStaticGlobal covered analyzer name) _

theorem advances_releaseStaticDynamicObject (state : StaticSafetyState)
    (fact : Option StaticAddressFact) :
    Advances names state (releaseStaticDynamicObject state fact) := by
  unfold releaseStaticDynamicObject
  split
  · split
    · exact .of_contents rfl (tracksMore_insert _ _) (Nat.le_refl _) fun _ _ _ found => .inl found
    · exact .refl names _
  · exact .refl names _

theorem advances_loseStaticDynamicObject (state : StaticSafetyState)
    (fact : Option StaticAddressFact) :
    Advances names state (loseStaticDynamicObject state fact) := by
  unfold loseStaticDynamicObject
  split
  · split
    · exact .of_contents rfl (tracksMore_insert _ _) (Nat.le_refl _) fun _ _ _ found => .inl found
    · exact .refl names _
  · exact .refl names _

/-- A recorded address is tracked in the state that is recorded with it. -/
structure Records (names : Finset String) (before : StaticSafetyState)
    (recorded : Option StaticAddressFact × StaticSafetyState) : Prop where
  advances : Advances names before recorded.2
  tracked : before.IsConsistent → ∀ fact, recorded.1 = some fact → recorded.2.Tracks fact

theorem records_recordDynamicObject (state : StaticSafetyState) (extent : Option Nat) :
    Records names state (recordDynamicObject state extent) where
  advances := by
    refine .of_contents (by rfl) ?_ (Nat.le_succ _) fun _ _ _ found => .inl found
    intro fact tracks dynamic
    obtain ⟨made, recorded⟩ := tracksMore_insert state.nextDynamicObjectId .live fact tracks dynamic
    exact ⟨Nat.lt_succ_of_lt made, recorded⟩
  tracked := by
    intro _ fact same _
    obtain rfl := Option.some.inj same
    refine ⟨Nat.lt_succ_self _, ?_⟩
    show ((state.dynamicObjectStates.insert state.nextDynamicObjectId .live).lookup _).isSome = true
    rw [Finmap.lookup_insert]
    rfl

theorem records_staticFacts (state : StaticSafetyState) (context : Context) (node : Node) :
    Records names state ((staticFacts state context node).addressFact, state) where
  advances := .refl names state
  tracked := fun consistent _ found => tracks_staticFacts consistent context node found

theorem records_recordStaticAddressAssignment (context : Context) (state : StaticSafetyState)
    (value : Node) :
    Records names state (recordStaticAddressAssignment context state value) := by
  unfold recordStaticAddressAssignment
  dsimp only
  split
  · split
    · exact records_recordDynamicObject _ _
    · exact records_recordDynamicObject _ _
    · exact records_recordDynamicObject _ _
    · refine ⟨?_, nofun⟩
      dsimp only
      split
      · exact advances_releaseStaticDynamicObject _ _
      · exact advances_loseStaticDynamicObject _ _
    · exact records_staticFacts state context _
  · exact records_staticFacts state context _

section Records
variable {before : StaticSafetyState} {recorded : Option StaticAddressFact × StaticSafetyState}

/-- The address of a recorded value is kept under a key. -/
theorem Records.insert (records : Records names before recorded) (key : String) :
    Advances names before { recorded.2 with
      addressFacts := recorded.2.addressFacts.insert key recorded.1 } where
  binds := records.advances.binds
  grows := records.advances.grows
  consistent := by
    intro consistent
    have kept : Advances names recorded.2 _ :=
      .insert_address recorded.2 key fun _ => records.tracked consistent
    exact kept.consistent (records.advances.consistent consistent)

/-- A name is bound to the address of a recorded value. -/
theorem Records.bind (records : Records names before recorded) {bindingName : String}
    (named : bindingName ∈ names) :
    Advances names before { recorded.2 with
      bindingAddressFacts := recorded.2.bindingAddressFacts.insert bindingName recorded.1 } where
  binds := by
    apply (keys_insert_subset _ _ _).trans
    apply Finset.union_subset records.advances.binds
    exact (Finset.singleton_subset_iff.mpr named).trans Finset.subset_union_right
  grows := records.advances.grows
  consistent := by
    intro consistent
    have kept : Advances names recorded.2 { recorded.2 with
        bindingAddressFacts := recorded.2.bindingAddressFacts.insert bindingName recorded.1 } :=
      .of_binding bindingName recorded.1 rfl rfl rfl rfl named fun _ => records.tracked consistent
    exact kept.consistent (records.advances.consistent consistent)

end Records

theorem advances_recordStaticViewCapture (captureName : String) (source : Node)
    (retainLocation : Bool) (analyzer : Analyzer Context) :
    Advances names analyzer.state
      (recordStaticViewCapture captureName source retainLocation analyzer).state := by
  unfold recordStaticViewCapture
  extract_lets range aliasKey _ context location _ placed signed counted recorded _ kept
  have placing : Advances names analyzer.state placed := by
    apply Advances.insert_address
    intro consistent known found
    simp only [location] at found
    split at found
    · exact tracks_staticViewAddressFact consistent context source found
    · cases found
  have counting : Advances names placed counted := .of_same rfl rfl rfl rfl
  have recording : Records names counted recorded := by
    simp only [recorded]
    split
    · exact ⟨.refl names _, nofun⟩
    · exact records_recordStaticAddressAssignment context counted source
  have keeping : Advances names counted kept := recording.insert captureName
  apply ((placing.trans counting).trans keeping).trans
  exact .of_same rfl rfl rfl rfl

theorem advances_releaseStaticCallArgument (analyzer : Analyzer Context) (argument : Node) :
    Advances names analyzer.state (releaseStaticCallArgument analyzer argument).state := by
  unfold releaseStaticCallArgument
  split
  · apply (Advances.erase_address analyzer.state _).trans
    apply (Advances.erase_address _ _).trans
    exact .of_same (by rfl) (by rfl) (by rfl) (by rfl)
  · exact .refl names _

theorem advances_releaseStaticCallArguments (arguments : List Node) (analyzer : Analyzer Context) :
    Advances names analyzer.state (releaseStaticCallArguments arguments analyzer).state :=
  Advances.foldl _ (fun analyzer argument _ => advances_releaseStaticCallArgument analyzer argument)
    analyzer

theorem advances_captureStaticEvaluatedArgument (source : Node) (retainLocation rawMemory : Bool)
    (analyzer : Analyzer Context) :
    Advances names analyzer.state
      (captureStaticEvaluatedArgument source retainLocation rawMemory analyzer).2.state := by
  unfold captureStaticEvaluatedArgument
  extract_lets captureName _ numbered
  exact advances_recordStaticViewCapture captureName source retainLocation numbered

theorem advances_prepareStaticNamedStore (bindingName : String) (offset byteLength : Nat)
    (analyzer : Analyzer Context) :
    Advances names analyzer.state
      (prepareStaticNamedStore bindingName offset byteLength analyzer).2.state :=
  advances_invalidateStaticFactsOverlapping _ _ _

theorem advances_finishCall (covered : unit.potentiallyReboundBindings ⊆ names) (callee : Callee)
    (arguments : List Node) (analyzer : Analyzer Context) :
    Advances names analyzer.state (finishCall unit callee arguments analyzer).state := by
  have called : Advances names analyzer.state (if callee.builtin = .none then
      arguments.foldl invalidateArgument (invalidateStaticGlobalFacts unit analyzer)
    else analyzer).state := by
    split
    · apply (advances_invalidateStaticGlobalFacts covered analyzer).trans
      apply Advances.foldl
      intro analyzer argument _
      exact advances_invalidateStaticFactsOverlapping _ _ _
    · exact .refl names _
  unfold finishCall
  refine Advances.trans ?_ (advances_releaseStaticCallArguments _ _)
  revert called
  generalize (if callee.builtin = .none then
      arguments.foldl invalidateArgument (invalidateStaticGlobalFacts unit analyzer)
    else analyzer) = passed
  intro called
  cases writtenRange callee arguments passed with
  | none => exact called
  | some written => exact called.trans (advances_invalidateStaticFactsOverlapping _ _ _)

theorem advances_releaseObjects (callee : Callee) (arguments : List Node)
    (analyzer : Analyzer Context) :
    Advances names analyzer.state (releaseObjects callee arguments analyzer).state := by
  unfold releaseObjects
  dsimp only
  split
  · exact advances_releaseStaticDynamicObject _ _
  · split
    · exact advances_releaseStaticDynamicObject _ _
    · exact advances_loseStaticDynamicObject _ _
  · exact advances_loseStaticDynamicObject _ _
  · exact .refl names _

theorem advances_finishUserCall (covered : unit.potentiallyReboundBindings ⊆ names)
    (located : List (Option StaticAddressRange) × Analyzer Context) :
    Advances names located.2.state (finishUserCall unit located).state := by
  refine .trans ?_ (advances_invalidateStaticGlobalFacts covered _)
  apply Advances.foldl
  intro analyzer range _
  exact advances_invalidateStaticFactsOverlapping _ _ _

end Primitives

section Stores
variable {names : Finset String} {unit : TranslationUnit}

theorem tracksMore_invalidateStaticFactsOverlapping (range : Option StaticAddressRange)
    (byteLength : Option Nat) (analyzer : Analyzer Context) :
    analyzer.state.TracksMore (invalidateStaticFactsOverlapping range byteLength analyzer).state := by
  unfold invalidateStaticFactsOverlapping
  split
  · exact .of_eq rfl (Nat.le_refl _)
  · cases range with
    | some range => exact .of_eq rfl (Nat.le_refl _)
    | none => exact .of_eq rfl (Nat.le_refl _)

theorem advances_declareLocal (covered : unit.potentiallyReboundBindings ⊆ names)
    (bindingName : String) (byteLength : Nat) (storage : Hir.MemoryStorage)
    (analyzer : Analyzer Context) :
    Advances names analyzer.state
      (declareLocal unit bindingName byteLength storage analyzer).state := by
  cases storage with
  | global => exact .refl names _
  | staticLocal =>
      simp only [declareLocal]
      split
      · rename_i rebound
        exact .of_binding bindingName none rfl rfl rfl rfl (covered rebound) nofun
      · exact .refl names _
  | «local» =>
      exact (Advances.erase_binding analyzer.state bindingName).trans
        (advances_invalidateStaticBinding _ bindingName)

theorem advances_rebind {bindingName : String} (named : bindingName ∈ names) (address : Node)
    (analyzer : Analyzer Context) :
    Advances names analyzer.state (rebind bindingName address analyzer).state := by
  have recording : Records names analyzer.state
      (recordStaticAddressAssignment analyzer.context analyzer.state address) :=
    records_recordStaticAddressAssignment analyzer.context analyzer.state address
  exact (recording.bind named).trans (.erase_address _ "$rebind.address")

theorem tracks_truncatedAddress {state : StaticSafetyState} {targetByteLength : Nat}
    {address : Option StaticAddressFact} {fact : StaticAddressFact}
    (tracked : ∀ fact, address = some fact → state.Tracks fact)
    (found : truncatedAddress targetByteLength address = some fact) : state.Tracks fact := by
  obtain ⟨earlier, known, same⟩ := Option.bind_eq_some_iff.mp found
  split at same
  · cases same
  · obtain rfl := Option.some.inj same
    exact tracked earlier known

theorem advances_storeInteger (bindingName : String) (offset targetByteLength : Nat) (value : Node)
    (analyzer : Analyzer Context) :
    Advances names analyzer.state
      (storeInteger bindingName offset targetByteLength value analyzer).state := by
  unfold storeInteger
  extract_lets facts recorded addressFact _ cleared prepared
  have recording : Records names analyzer.state recorded :=
    records_recordStaticAddressAssignment _ _ value
  have clearing : Advances names recorded.2 cleared.state := .erase_address _ "$store.address"
  have preparing : Advances names cleared.state prepared.2.state :=
    advances_prepareStaticNamedStore _ _ _ cleared
  have more : recorded.2.TracksMore prepared.2.state :=
    tracksMore_invalidateStaticFactsOverlapping _ _ cleared
  have start := (recording.advances.trans clearing).trans preparing
  split
  · exact start
  · rename_i key _
    have tracked (consistent : analyzer.state.IsConsistent) (known : StaticAddressFact)
        (found : addressFact = some known) : prepared.2.state.Tracks known :=
      tracks_truncatedAddress
        (fun fact same => more fact (recording.tracked consistent fact same)) found
    have storing : Records names analyzer.state (addressFact, prepared.2.state) :=
      ⟨start, tracked⟩
    exact (storing.insert key).trans (.of_same rfl rfl rfl rfl)

theorem advances_storeBool (bindingName : String) (offset targetByteLength : Nat) (value : Node)
    (analyzer : Analyzer Context) :
    Advances names analyzer.state
      (storeBool bindingName offset targetByteLength value analyzer).state := by
  have preparing : Advances names analyzer.state _ :=
    advances_prepareStaticNamedStore bindingName offset targetByteLength analyzer
  unfold storeBool
  dsimp only
  split
  · exact preparing
  · apply preparing.trans
    exact .of_same rfl rfl rfl rfl

theorem advances_storeBytes (bindingName : String) (offset targetByteLength : Nat)
    (termination : Option Bool) (analyzer : Analyzer Context) :
    Advances names analyzer.state
      (storeBytes bindingName offset targetByteLength termination analyzer).state := by
  have preparing : Advances names analyzer.state _ :=
    advances_prepareStaticNamedStore bindingName offset targetByteLength analyzer
  unfold storeBytes
  dsimp only
  split
  · exact preparing
  · apply preparing.trans
    exact .of_same rfl rfl rfl rfl

end Stores

end HitSimple.Safety.Visitor

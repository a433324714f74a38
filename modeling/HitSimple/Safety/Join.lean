import HitSimple.Safety.FlowInvariants
import HitSimple.Safety.TrackedVisits

namespace HitSimple.Safety
open Dataflow FactMap StaticSafetyState

/-- What the entries of a snapshot say of a store. -/
structure Meaning (Store : Type) where
  holds : Fact → Store → Prop
  isAtDefinition : String → Store → Prop
  isBoundTo : String → StaticAddressFact → Store → Prop
  isLive : Nat → Store → Prop
  isReleased : Nat → Store → Prop

/-- A name without a binding address is at its definition, and an unknown entry says nothing. -/
structure Meaning.Describes {Store : Type} (meaning : Meaning Store) (state : StaticSafetyState)
    (store : Store) : Prop where
  contents : ∀ fact, state.Knows fact → meaning.holds fact store
  definitions : ∀ bindingName, state.bindingAddressFacts.lookup bindingName = none →
    meaning.isAtDefinition bindingName store
  bindings : ∀ bindingName fact, state.bindingAddressFacts.lookup bindingName = some (some fact) →
    meaning.isBoundTo bindingName fact store
  live : ∀ id, state.dynamicObjectStates.lookup id = some .live → meaning.isLive id store
  released : ∀ id, state.dynamicObjectStates.lookup id = some .freed → meaning.isReleased id store

/-- The state of an object in a join covers its states on both sides. -/
def CoversBoth (left right : StaticSafetyState) (id : Nat) : Prop :=
  ∃ first second joined, left.dynamicObjectStates.lookup id = some first ∧
    right.dynamicObjectStates.lookup id = some second ∧
    (mergedStaticSafetyStates left right).dynamicObjectStates.lookup id = some joined ∧
    (joined = .unknown ∨ joined = first ∧ joined = second)

section Join
variable {left right : StaticSafetyState}

theorem lookup_joinUnknown_none {left right : FactMap String (Option StaticAddressFact)}
    {bindingName : String} (missing : (joinUnknown left right).lookup bindingName = none) :
    left.lookup bindingName = none ∧ right.lookup bindingName = none := by
  rw [lookup_joinUnknown] at missing
  split at missing
  · cases missing
  · rename_i absent
    rw [Finset.mem_union, not_or, Finmap.mem_keys, Finmap.mem_keys] at absent
    exact ⟨Finmap.lookup_eq_none.mpr absent.1, Finmap.lookup_eq_none.mpr absent.2⟩

theorem lookup_joinOr_of_ne {left right : FactMap Nat StaticDynamicObjectState} {id : Nat}
    {objectState : StaticDynamicObjectState} (certain : objectState ≠ .unknown)
    (found : (joinOr .unknown left right).lookup id = some objectState) :
    left.lookup id = some objectState ∧ right.lookup id = some objectState := by
  rw [lookup_joinOr] at found
  split at found
  · split at found
    · rename_i same
      exact ⟨found, same ▸ found⟩
    · exact absurd (Option.some.inj found).symm certain
  · cases found

/-- A store that one of two snapshots describes is described by their join. -/
theorem mergedStaticSafetyStates_describes {Store : Type} {meaning : Meaning Store} {store : Store}
    (described : meaning.Describes left store ∨ meaning.Describes right store) :
    meaning.Describes (mergedStaticSafetyStates left right) store := by
  have sides {claim one two : Prop} (first : one) (second : two)
      (fromLeft : meaning.Describes left store → one → claim)
      (fromRight : meaning.Describes right store → two → claim) : claim :=
    described.elim (fun describes => fromLeft describes first)
      fun describes => fromRight describes second
  constructor
  · intro fact known
    obtain ⟨first, second⟩ := knows_merged known
    exact sides first second (·.contents fact) (·.contents fact)
  · intro bindingName missing
    obtain ⟨first, second⟩ := lookup_joinUnknown_none missing
    exact sides first second (·.definitions bindingName) (·.definitions bindingName)
  · intro bindingName fact found
    obtain ⟨first, second⟩ := lookup_joinUnknown_left found
    exact sides first second (·.bindings bindingName fact) (·.bindings bindingName fact)
  · intro id found
    obtain ⟨first, second⟩ := lookup_joinOr_of_ne (by decide) found
    exact sides first second (·.live id) (·.live id)
  · intro id found
    obtain ⟨first, second⟩ := lookup_joinOr_of_ne (by decide) found
    exact sides first second (·.released id) (·.released id)

/-- An object with an entry in a join has one on both sides. -/
theorem covers_of_isSome {id : Nat} (recorded :
    ((mergedStaticSafetyStates left right).dynamicObjectStates.lookup id).isSome = true) :
    CoversBoth left right id := by
  obtain ⟨joined, found⟩ := Option.isSome_iff_exists.mp recorded
  have entry := found
  change (joinOr .unknown left.dynamicObjectStates right.dynamicObjectStates).lookup id = _ at entry
  rw [lookup_joinOr] at entry
  split at entry
  · rename_i both
    rw [Finset.mem_inter, Finmap.mem_keys, Finmap.mem_keys] at both
    obtain ⟨first, one⟩ := Finmap.mem_iff.mp both.1
    obtain ⟨second, two⟩ := Finmap.mem_iff.mp both.2
    refine ⟨first, second, joined, one, two, found, ?_⟩
    split at entry
    · rename_i same
      right
      rw [one] at entry
      rw [one, two] at same
      exact ⟨(Option.some.inj entry).symm,
        (Option.some.inj entry).symm.trans (Option.some.inj same)⟩
    · exact .inl (Option.some.inj entry).symm
  · cases entry

end Join

theorem isStable_isConsistent : IsStable IsConsistent where
  merged := IsConsistent.merged
  restored consistent allocated := consistent.restored allocated
  expired := IsConsistent.expire

namespace Visitor

section Transfers

/-- What the traversal of a statement or an expression does. -/
def advancingEffect (names : Finset String) (run : Analyzer Context → Analyzer Context)
    (advances : ∀ analyzer, Advances names analyzer.state (run analyzer).state) :
    Effect Context where
  run
  names
  allocates := true
  binds analyzer := (advances analyzer).binds
  grows analyzer := (advances analyzer).grows
  counts := nofun

/-- How the analyzer treats the statements and the expressions of a translation unit. -/
def staticSafetyAnalyzer (unit : TranslationUnit) : Transfers Context Action Node where
  statement action :=
    advancingEffect (unit.potentiallyReboundBindings ∪ action.rebinds) (visitAction unit action)
      fun analyzer =>
        visitAction_advances Finset.subset_union_left action analyzer Finset.subset_union_right
  expression node :=
    advancingEffect (unit.potentiallyReboundBindings ∪ node.rebinds) (visit unit false node)
      fun analyzer =>
        visit_advances Finset.subset_union_left node false analyzer Finset.subset_union_right
  staticBooleanValue node analyzer := staticBooleanValue analyzer.state analyzer.context node
  localBinding
    | .localMemory bindingName _ .local => some bindingName
    | _ => none

end Transfers

section Release

def releasedDiagnostic (operation : String) : String :=
  "static safety check failed: " ++
    if operation = "free" then "double free"
    else "invalid reallocation of released dynamic object"

/-- What is reported of the argument of `free` and `realloc`. -/
def validateStaticDynamicBase (state : StaticSafetyState) (context : Context) (expression : Node)
    (operation : String) : Option String :=
  let noBase := "static safety check failed: " ++ operation ++
    " requires a dynamic-object base address"
  match (staticFacts state context expression).addressFact with
  | none => none
  | some fact =>
      if fact.origin = .null then none
      else if fact.origin ≠ .dynamicObject then some noBase
      else if fact.isBaseAddress = false then some noBase
      else match state.dynamicObjectStates.lookup fact.dynamicObjectId with
        | none | some .freed => some (releasedDiagnostic operation)
        | some .live | some .unknown => none

theorem getLast?_toList_append {front back : String} {letter : Char}
    (last : back.toList.getLast? = some letter) :
    (front ++ back).toList.getLast? = some letter := by
  rw [String.toList_append, List.getLast?_append, last, Option.some_or]

/-- The texts end in different letters. -/
theorem noBase_ne_releasedDiagnostic (operation : String) :
    "static safety check failed: " ++ operation ++ " requires a dynamic-object base address" ≠
      releasedDiagnostic operation := by
  intro same
  have lastOfBase : (releasedDiagnostic operation).toList.getLast? = some 's' := by
    rw [← same]
    exact getLast?_toList_append (by decide)
  unfold releasedDiagnostic at lastOfBase
  split at lastOfBase
  · have lastOfFree : ("static safety check failed: " ++ "double free").toList.getLast? =
        some 'e' := getLast?_toList_append (by decide)
    rw [lastOfFree] at lastOfBase
    cases lastOfBase
  · have lastOfRealloc : ("static safety check failed: " ++
        "invalid reallocation of released dynamic object").toList.getLast? = some 't' :=
      getLast?_toList_append (by decide)
    rw [lastOfRealloc] at lastOfBase
    cases lastOfBase

section Consistency
variable {state left right : StaticSafetyState}

/-- An object that is reported as released has an entry that says so. -/
theorem releasedDiagnostic_freed (consistent : state.IsConsistent) {context : Context}
    {expression : Node} {operation : String}
    (reported : validateStaticDynamicBase state context expression operation =
      some (releasedDiagnostic operation)) :
    ∃ fact, (staticFacts state context expression).addressFact = some fact ∧
      state.dynamicObjectStates.lookup fact.dynamicObjectId = some .freed := by
  have otherText := noBase_ne_releasedDiagnostic operation
  unfold validateStaticDynamicBase at reported
  dsimp only at reported
  split at reported
  · cases reported
  · rename_i fact known
    refine ⟨fact, known, ?_⟩
    have tracks := tracks_staticFacts consistent context expression known
    split at reported
    · cases reported
    · split at reported
      · exact absurd (Option.some.inj reported) otherText
      · rename_i dynamic
        split at reported
        · exact absurd (Option.some.inj reported) otherText
        · obtain ⟨-, recorded⟩ := tracks (not_not.mp dynamic)
          split at reported
          · rename_i missing
            rw [missing] at recorded
            cases recorded
          · assumption
          · cases reported
          · cases reported

end Consistency

end Release

section Invariant
variable (unit : TranslationUnit)

theorem visit_isConsistent (forms : Bool) (node : Node) (analyzer : Analyzer Context)
    (consistent : analyzer.state.IsConsistent) :
    (visit unit forms node analyzer).state.IsConsistent := by
  have advances : Advances (unit.potentiallyReboundBindings ∪ node.rebinds) analyzer.state
      (visit unit forms node analyzer).state :=
    visit_advances Finset.subset_union_left node forms analyzer Finset.subset_union_right
  exact advances.consistent consistent

theorem visitAction_isConsistent (action : Action) (analyzer : Analyzer Context)
    (consistent : analyzer.state.IsConsistent) :
    (visitAction unit action analyzer).state.IsConsistent := by
  have advances : Advances (unit.potentiallyReboundBindings ∪ action.rebinds) analyzer.state
      (visitAction unit action analyzer).state :=
    visitAction_advances Finset.subset_union_left action analyzer Finset.subset_union_right
  exact advances.consistent consistent

/-- Validating a statement keeps every snapshot of a flow consistent. -/
theorem validateStmt_isConsistent (fuel : Nat) (statement : Stmt Action Node) :
    (validateStmt (staticSafetyAnalyzer unit) fuel statement).Maintains IsConsistent :=
  validateStmt_maintains isStable_isConsistent (visitAction_isConsistent unit)
    (visit_isConsistent unit false) fuel statement

end Invariant

/-- A join describes what either side describes, and keeps the objects of the addresses it keeps;
every statement and every expression keeps the snapshots consistent. -/
theorem mergedStaticSafetyStates_isSoundJoin (unit : TranslationUnit) {Store : Type}
    (meaning : Meaning Store) :
    (∀ (fuel : Nat) (statement : Stmt Action Node) (flow after : Flow Context)
        (fallsThrough : Bool), flow.Satisfies IsConsistent →
      validateStmt (staticSafetyAnalyzer unit) fuel statement flow = some (fallsThrough, after) →
      after.Satisfies IsConsistent) ∧
    (∀ (forms : Bool) (node : Node) (analyzer : Analyzer Context), analyzer.state.IsConsistent →
      (visit unit forms node analyzer).state.IsConsistent) ∧
    (∀ (analyzer : Analyzer Context) (snapshot : StaticSafetyState), snapshot.IsConsistent →
      (analyzer.restoreStaticSafetyState snapshot).state.IsConsistent) ∧
    ∀ left right : StaticSafetyState, left.IsConsistent → right.IsConsistent →
      (mergedStaticSafetyStates left right).IsConsistent ∧
      (∀ store, meaning.Describes left store ∨ meaning.Describes right store →
        meaning.Describes (mergedStaticSafetyStates left right) store) ∧
      (∀ key fact, (mergedStaticSafetyStates left right).addressFacts.lookup key =
          some (some fact) ∨
        (mergedStaticSafetyStates left right).bindingAddressFacts.lookup key =
          some (some fact) →
        fact.origin = .dynamicObject → CoversBoth left right fact.dynamicObjectId) ∧
      ∀ (context : Context) (expression : Node) (operation : String),
        validateStaticDynamicBase (mergedStaticSafetyStates left right) context expression
            operation = some (releasedDiagnostic operation) →
        ∃ fact, (staticFacts (mergedStaticSafetyStates left right) context
            expression).addressFact = some fact ∧
          left.dynamicObjectStates.lookup fact.dynamicObjectId = some .freed ∧
          right.dynamicObjectStates.lookup fact.dynamicObjectId = some .freed := by
  refine ⟨?_, visit_isConsistent unit, ?_, ?_⟩
  · intro fuel statement flow after fallsThrough satisfies found
    exact validateStmt_isConsistent unit fuel statement flow fallsThrough after satisfies found
  · intro analyzer snapshot consistent
    exact isStable_isConsistent.restore consistent analyzer
  · intro left right one two
    have joined := one.merged two
    refine ⟨joined, fun store => mergedStaticSafetyStates_describes, ?_, ?_⟩
    · intro key fact found dynamic
      have tracks : (mergedStaticSafetyStates left right).Tracks fact :=
        found.elim (joined.contents key fact) (joined.bindings key fact)
      exact covers_of_isSome (tracks dynamic).2
    · intro context expression operation reported
      obtain ⟨fact, known, freed⟩ := releasedDiagnostic_freed joined reported
      exact ⟨fact, known, lookup_joinOr_of_ne (by decide) freed⟩

section Object

/-- A store is the set of the objects that have been released. -/
def releasedObjects : Meaning (Nat → Bool) where
  holds _ _ := True
  isAtDefinition _ _ := True
  isBoundTo _ _ _ := True
  isLive id released := released id = false
  isReleased id released := released id = true

def liveObject : StaticSafetyState :=
  (recordDynamicObject .empty (some 8)).2

def freedObject : StaticSafetyState :=
  releaseStaticDynamicObject liveObject (recordDynamicObject .empty (some 8)).1

/-- An object that one of two branches releases. -/
theorem mergedStaticSafetyStates_isSoundJoin_released :
    (mergedStaticSafetyStates liveObject freedObject).IsConsistent ∧
      releasedObjects.Describes (mergedStaticSafetyStates liveObject freedObject)
        (fun _ => false) := by
  have recorded : Advances ∅ .empty liveObject := (records_recordDynamicObject _ _).advances
  have live : liveObject.IsConsistent := recorded.consistent isConsistent_empty
  have released : Advances ∅ liveObject freedObject := advances_releaseStaticDynamicObject _ _
  have freed : freedObject.IsConsistent := released.consistent live
  let unit : TranslationUnit := {
    potentiallyReboundBindings := ∅
    viewParameterCopies := fun _ => none
    isCStringParameter := fun _ _ _ => false }
  obtain ⟨-, -, -, joins⟩ := mergedStaticSafetyStates_isSoundJoin unit releasedObjects
  obtain ⟨joined, describes, -⟩ := joins liveObject freedObject live freed
  refine ⟨joined, describes _ (.inl ⟨?_, ?_, ?_, ?_, ?_⟩)⟩
  · exact fun _ _ => trivial
  · exact fun _ _ => trivial
  · exact fun _ _ _ => trivial
  · exact fun _ _ => rfl
  · intro id found
    have entry : ((∅ : FactMap Nat StaticDynamicObjectState).insert 0 .live).lookup id =
      some .freed := found
    by_cases same : id = 0
    · subst same
      rw [Finmap.lookup_insert] at entry
      cases entry
    · rw [Finmap.lookup_insert_of_ne _ same, Finmap.lookup_empty] at entry
      cases entry

end Object

end Visitor

end HitSimple.Safety

import HitSimple.Codegen.Emit
import HitSimple.Safety.Effects
import HitSimple.Safety.Execution

namespace HitSimple.Safety
open Dataflow FactMap FixedWidth StaticSafetyState

/-- The object a fact is about. -/
def Fact.bindingName : Fact → String
  | .integer bindingName _ | .unsignedInteger bindingName _ | .address bindingName _
  | .termination bindingName _ => bindingName

/-- Validating an expression makes nothing known. -/
theorem validateExpr_weaker (context : StaticContext) (expression : Hir.Expr)
    (state : StaticSafetyState) : (validateExpr context expression state).Weaker state := by
  fun_induction validateExpr context expression state with
  | case3 =>
      rename_i first second
      exact (merged_weaker_left _ _).trans first
  | case9 =>
      rename_i tested first second
      exact (merged_weaker_left _ _).trans (first.trans tested)
  | case2 | case4 | case5 | case6 | case7 | case8 =>
      rename_i first second
      exact second.trans first
  | case1 | case10 | case11 | case12 | case13 | case14 => assumption
  | _ => first | exact .refl _ | assumption

section Lookup
variable {Known : Type} {facts : FactMap String (Option Known)} {key name : String}
  {recorded : Option Known} {value : Known}

theorem lookup_insert_known
    (known : (facts.insert key recorded).lookup name = some (some value)) :
    (name = key ∧ recorded = some value) ∨
      (name ≠ key ∧ facts.lookup name = some (some value)) := by
  by_cases same : name = key
  · subst same
    rw [Finmap.lookup_insert] at known
    exact .inl ⟨rfl, Option.some.inj known⟩
  · rw [Finmap.lookup_insert_of_ne _ same] at known
    exact .inr ⟨same, known⟩

theorem lookup_erase_known (known : (facts.erase key).lookup name = some (some value)) :
    facts.lookup name = some (some value) := by
  by_cases same : name = key
  · subst same
    rw [Finmap.lookup_erase] at known
    cases known
  · rwa [Finmap.lookup_erase_ne same] at known

theorem lookup_forgetAll_known {kept : String → Bool}
    (known : (forgetAll facts kept).lookup name = some (some value)) :
    facts.lookup name = some (some value) ∧ kept name = true := by
  rw [forgetAll, lookup_tabulate] at known
  split at known
  · cases found : facts.lookup name with
    | none =>
        rw [found] at known
        cases known
    | some fact =>
        rw [found] at known
        cases keeps : kept name with
        | false => simp [keeps] at known
        | true =>
            simp only [keeps, if_true, Option.map_some] at known
            exact ⟨known, rfl⟩
  · cases known

end Lookup

/-- A store into a range leaves the facts about other objects. -/
def Untouched (range : Option StaticAddressRange) (byteLength : Nat) (fact : Fact) : Prop :=
  byteLength = 0 ∨ match range with
    | some range => fact.bindingName ≠ range.bindingName
    | none => fact.bindingName.endsWith ".location" = true

theorem knows_invalidate {state : StaticSafetyState} {range : Option StaticAddressRange}
    {byteLength : Nat} {fact : Fact}
    (known : (state.invalidateStaticFactsOverlapping range (some byteLength)).Knows fact) :
    state.Knows fact ∧ Untouched range byteLength fact := by
  unfold invalidateStaticFactsOverlapping at known
  split at known
  · rename_i empty
    exact ⟨known, .inl (Option.some.inj empty)⟩
  · cases range with
    | some range =>
        cases fact with
        | integer | unsignedInteger | address | termination =>
            rcases lookup_insert_known known with ⟨-, forgotten⟩ | ⟨other, found⟩
            · cases forgotten
            · exact ⟨found, .inr other⟩
    | none =>
        cases fact with
        | address =>
            obtain ⟨found, location⟩ := lookup_forgetAll_known known
            exact ⟨found, .inr location⟩
        | integer | unsignedInteger | termination =>
            cases (lookup_forgetAll_known known).2

/-- What a store records of its value. -/
structure RecordedFacts where
  integers : ExprFacts
  addressFact : Option StaticAddressFact
  termination : Option Bool

def RecordedFacts.Tells (recorded : RecordedFacts) (key : String) (fact : Fact) : Prop :=
  fact.bindingName = key ∧ match fact with
    | .integer _ value => recorded.integers.signedInteger = some value
    | .unsignedInteger _ value => recorded.integers.unsignedInteger = some value
    | .address _ address => recorded.addressFact = some address
    | .termination _ isTerminated => recorded.termination = some isTerminated

section Stores
variable (context : StaticContext) (state : StaticSafetyState) (bindingName : String)
  (offset targetByteLength : Nat) (value : PureExpr)

/-- What an integer store records of the value of an expression. -/
def integerStoreFacts : RecordedFacts where
  integers := staticFacts (validateExpr context value state) context value
  addressFact := truncatedAddress targetByteLength
    (staticFacts (validateExpr context value state) context value).addressFact
  termination := characterTermination targetByteLength value

/-- The bytes that a name denotes, as far as the analyzer knows. -/
def storeRange : Option StaticAddressRange :=
  (staticBindingAddressFact state bindingName offset targetByteLength).bind (·.range)

/-- The state with the facts of a store under its key. -/
def recordFacts (recorded : RecordedFacts) (state : StaticSafetyState) (key : Option String) :
    StaticSafetyState :=
  match key with
  | none => state
  | some key => { state with
      integerValues := state.integerValues.insert key recorded.integers.signedInteger
      unsignedIntegerValues :=
        state.unsignedIntegerValues.insert key recorded.integers.unsignedInteger
      addressFacts := state.addressFacts.insert key recorded.addressFact
      cstrTerminations := state.cstrTerminations.insert key recorded.termination }

theorem knows_recordFacts {recorded : RecordedFacts} {state : StaticSafetyState}
    {key : Option String} {fact : Fact} (known : (recordFacts recorded state key).Knows fact) :
    (∃ name, key = some name ∧ recorded.Tells name fact) ∨ state.Knows fact := by
  cases key with
  | none => exact .inr known
  | some key =>
      cases fact with
      | integer | unsignedInteger | address | termination =>
          rcases lookup_insert_known known with ⟨same, told⟩ | ⟨-, found⟩
          · exact .inl ⟨key, rfl, same, told⟩
          · exact .inr found

/-- The state in which an integer store makes room for its value. -/
def storeEntry : StaticSafetyState :=
  let validated := validateExpr context value state
  { validated with addressFacts := validated.addressFacts.erase "$store.address" }

theorem storeEntry_weaker : (storeEntry context state value).Weaker state := by
  intro fact known
  refine validateExpr_weaker context value state fact ?_
  cases fact with
  | address => exact lookup_erase_known known
  | integer | unsignedInteger | termination => exact known

theorem storeRange_storeEntry :
    storeRange (storeEntry context state value) bindingName offset targetByteLength =
      storeRange state bindingName offset targetByteLength := by
  have bound : (storeEntry context state value).bindingAddressFacts = state.bindingAddressFacts :=
    (validateExpr_frames context value state).bound
  rw [storeRange, staticBindingAddressFact, bound]
  rfl

theorem storeInteger_eq :
    storeInteger bindingName offset targetByteLength (.expression value) context state =
      recordFacts (integerStoreFacts context state targetByteLength value)
        ((storeEntry context state value).invalidateStaticFactsOverlapping
          (storeRange state bindingName offset targetByteLength) (some targetByteLength))
        (rangeContentKey context (storeRange state bindingName offset targetByteLength)
          targetByteLength) := by
  rw [← storeRange_storeEntry context state bindingName offset targetByteLength value]
  rfl

variable {context state bindingName offset targetByteLength value}

/-- After an integer store it is known what the store has recorded, or what was known before of an
object it does not touch. -/
theorem knows_storeInteger {fact : Fact}
    (known : (storeInteger bindingName offset targetByteLength (.expression value) context
      state).Knows fact) :
    (∃ key, rangeContentKey context (storeRange state bindingName offset targetByteLength)
        targetByteLength = some key ∧
        (integerStoreFacts context state targetByteLength value).Tells key fact) ∨
      (state.Knows fact ∧
        Untouched (storeRange state bindingName offset targetByteLength) targetByteLength fact) := by
  rw [storeInteger_eq] at known
  rcases knows_recordFacts known with told | left
  · exact .inl told
  · obtain ⟨found, untouched⟩ := knows_invalidate left
    exact .inr ⟨storeEntry_weaker context state value fact found, untouched⟩

/-- An integer store does what the analyzer makes of it, if what it records is true and it leaves
the objects alone that it does not touch. -/
theorem storeInteger_accounts {Statement Condition Store : Type}
    {semantics : Semantics Statement Condition Store} {before after : Store}
    (recorded : ∀ key fact, rangeContentKey context
        (storeRange state bindingName offset targetByteLength) targetByteLength = some key →
      (integerStoreFacts context state targetByteLength value).Tells key fact →
      semantics.holds fact after)
    (frames : ∀ fact, Untouched (storeRange state bindingName offset targetByteLength)
        targetByteLength fact → semantics.holds fact before → semantics.holds fact after) :
    semantics.Accounts state (storeInteger bindingName offset targetByteLength (.expression value)
      context state) before after := by
  intro fact known
  rcases knows_storeInteger known with ⟨key, found, told⟩ | ⟨wasKnown, untouched⟩
  · exact .inl (recorded key fact found told)
  · exact .inr ⟨wasKnown, frames fact untouched⟩

end Stores

/-- A store of an integer in a named object. -/
structure IntegerStore where
  binding : Hir.Binding
  targetByteLength : Nat
  offset : Nat
  value : PureExpr
  source : Option ViewSemantics

namespace IntegerStore

def statement (store : IntegerStore) : Hir.Statement :=
  .integerStore store.binding store.targetByteLength store.offset store.value store.source

def leaf (store : IntegerStore) : Leaf :=
  .integerStore store.binding.bindingName store.offset store.targetByteLength
    (.expression store.value)

end IntegerStore

/-- How the analyzer treats programs of integer stores. -/
def integerTransfers : Transfers StaticContext IntegerStore PureExpr where
  statement store := store.leaf.effect
  expression := safetyTransfers.expression
  staticBooleanValue := safetyTransfers.staticBooleanValue
  localBinding _ := none

section Machine
open Codegen

/-- The bytes of the object a name is defined as. -/
def objectWord (storage : Storage) (machine : Machine) : BitVec (storage.byteLength * 8) :=
  machine.memory.load storage.address storage.byteLength

/-- What a fact says of the memory, where `pointsTo` says what is meant by an address fact. -/
def factHolds (context : Codegen.Context)
    (pointsTo : StaticAddressFact → Machine → BitVec 64 → Prop) (machine : Machine) : Fact → Prop
  | .integer bindingName value => ∀ storage, context.storage bindingName = some storage →
      (objectWord storage machine).toInt = value ∨ (objectWord storage machine).toNat = value
  | .unsignedInteger bindingName value => ∀ storage, context.storage bindingName = some storage →
      (objectWord storage machine).toNat = value
  | .address bindingName fact => ∀ storage, context.storage bindingName = some storage →
      pointsTo fact machine ((objectWord storage machine).setWidth 64)
  | .termination bindingName isTerminated => ∀ storage,
      context.storage bindingName = some storage →
      isTerminated = !(List.range storage.byteLength).all fun index =>
        byteAt (objectWord storage machine) index != 0

/-- The emitted code of integer stores and conditions. -/
def machineSemantics (context : Codegen.Context)
    (pointsTo : StaticAddressFact → Machine → BitVec 64 → Prop) :
    Semantics IntegerStore PureExpr Machine where
  executes store before after := ∃ code, statementCode context store.statement = .ok code ∧
    code before = .ok ((), after)
  tests condition before value after := ∃ code,
    emitConditionValue context condition = .ok code ∧ code before = .ok (value, after)
  holds fact machine := factHolds context pointsTo machine fact

end Machine

end HitSimple.Safety

import HitSimple.Safety.Facts
import HitSimple.Safety.Flow

namespace HitSimple.Safety
open Dataflow FactMap

/-- An expression without calls and assignments: validating it records nothing. -/
def isPure : Hir.Expr → Bool
  | .call _ _ | .assignment _ _ _ => false
  | .deref operand _ | .booleanTest operand _ | .unary _ operand _ | .unsigned operand _
  | .integerCast operand _ _ | .templateView operand _ | .toFloat operand _ _ _ => isPure operand
  | .binary left _ right _ _ _ | .floatBinary left _ right _ | .floatCompare left _ right _ _ =>
      isPure left && isPure right
  | .ternary condition thenExpr elseExpr _ =>
      isPure condition && isPure thenExpr && isPure elseExpr
  | _ => true

abbrev PureExpr := { expression : Hir.Expr // isPure expression = true }

/-- Alternatives inside an expression are joined. -/
def validateExpr (context : StaticContext) : Hir.Expr → StaticSafetyState → StaticSafetyState
  | .binary left op right _ _ _, state =>
      let state := validateExpr context left state
      if op.symbol = .logicalAnd ∨ op.symbol = .logicalOr then
        match staticBooleanValue state context left with
        | some value =>
            if value = (op.symbol == .logicalOr) then state else validateExpr context right state
        | none => mergedStaticSafetyStates state (validateExpr context right state)
      else validateExpr context right state
  | .floatBinary left _ right _, state | .floatCompare left _ right _ _, state =>
      validateExpr context right (validateExpr context left state)
  | .ternary condition thenExpr elseExpr _, state =>
      let state := validateExpr context condition state
      match staticBooleanValue state context condition with
      | some true => validateExpr context thenExpr state
      | some false => validateExpr context elseExpr state
      | none => mergedStaticSafetyStates (validateExpr context thenExpr state)
          (validateExpr context elseExpr state)
  | .deref operand _, state | .booleanTest operand _, state | .unary _ operand _, state
  | .integerCast operand _ _, state | .toFloat operand _ _ _, state =>
      validateExpr context operand state
  | .unsigned operand _, state =>
      if operand.result.isAddressable then state else validateExpr context operand state
  | .templateView operand result, state =>
      if result.templateName ≠ .cstr ∧ operand.result.templateName = .cstr then state
      else validateExpr context operand state
  | _, state => state

namespace StaticSafetyState

def invalidateStaticBinding (state : StaticSafetyState) (bindingName : String) :
    StaticSafetyState :=
  { state with
    integerValues := state.integerValues.insert bindingName none
    unsignedIntegerValues := state.unsignedIntegerValues.insert bindingName none
    addressFacts := state.addressFacts.insert bindingName none
    cstrTerminations := state.cstrTerminations.insert bindingName none }

def forgetAll {Fact : Type} (facts : FactMap String (Option Fact)) (kept : String → Bool) :
    FactMap String (Option Fact) :=
  tabulate facts.keys fun key =>
    (facts.lookup key).map fun fact => if kept key then fact else none

/-- An unknown destination may alias any tracked bytes. -/
def invalidateStaticFactsOverlapping (state : StaticSafetyState)
    (range : Option StaticAddressRange) (byteLength : Option Nat) : StaticSafetyState :=
  if byteLength = some 0 then state
  else match range with
    | some range => state.invalidateStaticBinding range.bindingName
    | none => { state with
        integerValues := forgetAll state.integerValues fun _ => false
        unsignedIntegerValues := forgetAll state.unsignedIntegerValues fun _ => false
        addressFacts := forgetAll state.addressFacts (·.endsWith ".location")
        cstrTerminations := forgetAll state.cstrTerminations fun _ => false }

/-- The key under which a store records its value, and the state it is recorded in. -/
def prepareStaticNamedStore (state : StaticSafetyState) (context : StaticContext)
    (bindingName : String) (offset byteLength : Nat) : Option String × StaticSafetyState :=
  let range := (staticBindingAddressFact state bindingName offset byteLength).bind (·.range)
  (rangeContentKey context range byteLength,
    state.invalidateStaticFactsOverlapping range (some byteLength))

end StaticSafetyState

/-- The value of a store: an expression, or a call that makes or moves a dynamic object. -/
inductive StoredValue where
  | expression (value : PureExpr)
  | alloc (size : PureExpr) (knownExtent : Option Nat)
  | calloc (count size : PureExpr) (knownExtent : Option Nat)
  | realloc (object size : PureExpr) (knownExtent : Option Nat)

namespace StoredValue

def allocates : StoredValue → Bool
  | .alloc _ _ | .calloc _ _ _ => true
  | .expression _ | .realloc _ _ _ => false

def validate (context : StaticContext) : StoredValue → StaticSafetyState → StaticSafetyState
  | .expression value, state => validateExpr context value state
  | .alloc size _, state => validateExpr context size state
  | .calloc count size _, state => validateExpr context size (validateExpr context count state)
  | .realloc object size _, state => validateExpr context object (validateExpr context size state)

def facts (state : StaticSafetyState) (context : StaticContext) : StoredValue → ExprFacts
  | .expression value => staticFacts state context value
  | _ => { signedInteger := none, unsignedInteger := none, addressFact := none }

end StoredValue

def recordDynamicObject (state : StaticSafetyState) (extent : Option Nat) :
    Option StaticAddressFact × StaticSafetyState :=
  let dynamicObjectId := state.nextDynamicObjectId
  (some {
      origin := .dynamicObject
      dynamicObjectId
      isBaseAddress := true
      range := extent.map fun extent => {
        bindingName := "dynamic:" ++ toString dynamicObjectId
        lowerBound := 0
        offset := 0
        upperBound := extent } },
    { state with
      dynamicObjectStates := state.dynamicObjectStates.insert dynamicObjectId .live
      nextDynamicObjectId := dynamicObjectId + 1 })

def releaseStaticDynamicObject (state : StaticSafetyState) (fact : Option StaticAddressFact) :
    StaticSafetyState :=
  match fact with
  | some fact =>
      if fact.origin = .dynamicObject ∧ fact.isBaseAddress = true ∧
          state.dynamicObjectStates.lookup fact.dynamicObjectId = some .live then
        { state with
          dynamicObjectStates := state.dynamicObjectStates.insert fact.dynamicObjectId .freed }
      else state
  | none => state

/-- A reallocation may fail, so that the fate of its object is not known. -/
def loseStaticDynamicObject (state : StaticSafetyState) (fact : Option StaticAddressFact) :
    StaticSafetyState :=
  match fact with
  | some fact =>
      if fact.origin = .dynamicObject ∧
          (state.dynamicObjectStates.lookup fact.dynamicObjectId).isSome then
        { state with
          dynamicObjectStates := state.dynamicObjectStates.insert fact.dynamicObjectId .unknown }
      else state
  | none => state

/-- The address that a value is known to be, and the state after it. -/
def recordStaticAddressAssignment (context : StaticContext) (state : StaticSafetyState) :
    StoredValue → Option StaticAddressFact × StaticSafetyState
  | .expression value => ((staticFacts state context value).addressFact, state)
  | .alloc size knownExtent =>
      recordDynamicObject state (knownExtent.or (staticFacts state context size).unsignedInteger)
  | .calloc count size knownExtent =>
      let extent := (staticFacts state context count).unsignedInteger.bind fun count =>
        (staticFacts state context size).unsignedInteger.bind (multiplyUnsignedIntegers count)
      recordDynamicObject state (knownExtent.or extent)
  | .realloc object size knownExtent =>
      let extent := knownExtent.or (staticFacts state context size).unsignedInteger
      let input := (staticFacts state context object).addressFact
      (none, if extent = some 0 then releaseStaticDynamicObject state input
        else loseStaticDynamicObject state input)

/-- The statements without control flow.  Those that the last one stands for do as they like. -/
inductive Leaf where
  | integerStore (bindingName : String) (offset targetByteLength : Nat) (value : StoredValue)
  | boolStore (bindingName : String) (offset targetByteLength : Nat) (value : PureExpr)
  | floatStore (bindingName : String) (offset targetByteLength : Nat) (value : PureExpr)
  | viewCopyStore (bindingName : String) (offset targetByteLength : Nat) (value : PureExpr)
  | stringStore (bindingName : String) (offset targetByteLength : Nat)
  | pointerStore (address : PureExpr) (targetByteLength : Nat) (value : PureExpr)
  | localMemory (bindingName : String) (byteLength : Nat) (storage : Hir.MemoryStorage)
  | bindingRebind (bindingName : String) (address : StoredValue)
  | other (effect : Effect StaticContext)

/-- Whether a character literal that fills its target holds a terminator. -/
def characterTermination (targetByteLength : Nat) : Hir.Expr → Option Bool
  | .characterLiteral bytes result =>
      if result.staticByteLength = targetByteLength ∧ bytes.length = targetByteLength then
        some (bytes.contains 0)
      else none
  | _ => none

/-- Truncated bytes of a pointer identify no object. -/
def truncatedAddress (targetByteLength : Nat) (fact : Option StaticAddressFact) :
    Option StaticAddressFact :=
  fact.bind fun fact =>
    if targetByteLength < pointerByteLength ∧ fact.origin ≠ .null then none else some fact

def storeInteger (bindingName : String) (offset targetByteLength : Nat) (value : StoredValue)
    (context : StaticContext) (state : StaticSafetyState) : StaticSafetyState :=
  let state := value.validate context state
  let facts := value.facts state context
  let termination := match value with
    | .expression value => characterTermination targetByteLength value
    | _ => none
  let (addressFact, state) := recordStaticAddressAssignment context state value
  let state := { state with addressFacts := state.addressFacts.erase "$store.address" }
  let (key, state) := state.prepareStaticNamedStore context bindingName offset targetByteLength
  match key with
  | none => state
  | some key => { state with
      integerValues := state.integerValues.insert key facts.signedInteger
      unsignedIntegerValues := state.unsignedIntegerValues.insert key facts.unsignedInteger
      addressFacts := state.addressFacts.insert key (truncatedAddress targetByteLength addressFact)
      cstrTerminations := state.cstrTerminations.insert key termination }

def storeBool (bindingName : String) (offset targetByteLength : Nat) (value : PureExpr)
    (context : StaticContext) (state : StaticSafetyState) : StaticSafetyState :=
  let state := validateExpr context value state
  let facts := staticFacts state context value
  let (key, state) := state.prepareStaticNamedStore context bindingName offset targetByteLength
  match key with
  | none => state
  | some key => { state with
      integerValues := state.integerValues.insert key facts.signedInteger
      unsignedIntegerValues := state.unsignedIntegerValues.insert key facts.unsignedInteger }

def storeBytes (bindingName : String) (offset targetByteLength : Nat) (termination : Option Bool)
    (context : StaticContext) (state : StaticSafetyState) : StaticSafetyState :=
  let (key, state) := state.prepareStaticNamedStore context bindingName offset targetByteLength
  match key with
  | none => state
  | some key => { state with
      cstrTerminations := state.cstrTerminations.insert key termination }

def storePointer (address : PureExpr) (targetByteLength : Nat) (value : PureExpr)
    (context : StaticContext) (state : StaticSafetyState) : StaticSafetyState :=
  let state := validateExpr context value (validateExpr context address state)
  state.invalidateStaticFactsOverlapping
    ((staticFacts state context address).addressFact.bind (·.range)) (some targetByteLength)

def rebind (bindingName : String) (address : StoredValue) (context : StaticContext)
    (state : StaticSafetyState) : StaticSafetyState :=
  let state := address.validate context state
  let (fact, state) := recordStaticAddressAssignment context state address
  { state with
    bindingAddressFacts := state.bindingAddressFacts.insert bindingName fact
    addressFacts := state.addressFacts.erase "$rebind.address" }

def declareLocal (bindingName : String) (byteLength : Nat) (storage : Hir.MemoryStorage)
    (analyzer : Analyzer StaticContext) : Analyzer StaticContext :=
  let context := { analyzer.context with
    definitionByteLengths := analyzer.context.definitionByteLengths.insert bindingName byteLength }
  match storage with
  | .staticLocal => {
      context := { context with globalBindings := insert bindingName context.globalBindings }
      state := if bindingName ∈ context.potentiallyReboundBindings then
          { analyzer.state with bindingAddressFacts :=
              analyzer.state.bindingAddressFacts.insert bindingName none }
        else analyzer.state }
  | .local => {
      context
      state := { analyzer.state with bindingAddressFacts :=
          analyzer.state.bindingAddressFacts.erase bindingName }.invalidateStaticBinding bindingName }
  | .global => { analyzer with context }

end HitSimple.Safety

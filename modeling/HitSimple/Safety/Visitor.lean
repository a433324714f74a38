import HitSimple.Safety.Nodes

namespace HitSimple.Safety.Visitor
open Dataflow FactMap HitSimple.Runtime

section Invalidation

/-- The contents under the key of a captured View stay known. -/
def invalidateStaticFactsOverlapping (range : Option StaticAddressRange)
    (byteLength : Option Nat) (analyzer : Analyzer Context) : Analyzer Context :=
  if byteLength = some 0 then analyzer
  else match range with
    | some range =>
        { analyzer with state := analyzer.state.invalidateStaticBinding range.bindingName }
    | none =>
        let captured (key : String) : Bool := key ∈ analyzer.context.capturedAliases
        let state := analyzer.state
        { analyzer with state := { state with
          integerValues := StaticSafetyState.forgetAll state.integerValues captured
          unsignedIntegerValues :=
            StaticSafetyState.forgetAll state.unsignedIntegerValues captured
          addressFacts := StaticSafetyState.forgetAll state.addressFacts fun key =>
            key.endsWith ".location" || captured key
          cstrTerminations := StaticSafetyState.forgetAll state.cstrTerminations captured } }

/-- A function that is called can write to a global object, and rebind its name. -/
def invalidateStaticGlobal (unit : TranslationUnit) (analyzer : Analyzer Context)
    (bindingName : String) : Analyzer Context :=
  let analyzer := match analyzer.state.bindingAddressFacts.lookup bindingName with
    | some bound =>
        invalidateStaticFactsOverlapping (bound.bind (·.range)) none analyzer
    | none => analyzer
  let state := analyzer.state.invalidateStaticBinding bindingName
  { analyzer with state :=
      if bindingName ∈ unit.potentiallyReboundBindings then
        { state with bindingAddressFacts := state.bindingAddressFacts.insert bindingName none }
      else state }

def invalidateStaticGlobalFacts (unit : TranslationUnit) (analyzer : Analyzer Context) :
    Analyzer Context :=
  analyzer.context.globalBindings.1.foldl (invalidateStaticGlobal unit) analyzer

end Invalidation

section Recording

/-- The key under which a store records its value, where its target has one. -/
def prepareStaticNamedStore (bindingName : String) (offset byteLength : Nat)
    (analyzer : Analyzer Context) : Option String × Analyzer Context :=
  let range := bindingRange analyzer.state bindingName offset byteLength
  (analyzer.context.contentKey range byteLength,
    invalidateStaticFactsOverlapping range (some byteLength) analyzer)

def Nodes.only : Nodes → Option Node
  | .cons node .nil => some node
  | _ => none

/-- The address that a value is known to be, and the state after it. -/
def recordStaticAddressAssignment (context : Context) (state : StaticSafetyState) (value : Node) :
    Option StaticAddressFact × StaticSafetyState :=
  let unsignedInteger (node : Node) := (staticFacts state context node).unsignedInteger
  match value with
  | .call callee arguments _ => match callee.builtin, arguments with
      | .alloc, arguments =>
          recordDynamicObject state (callee.knownExtent.or (arguments.only.bind unsignedInteger))
      | .calloc, .cons count sizes =>
          let product := (unsignedInteger count).bind fun count =>
            (sizes.only.bind unsignedInteger).bind (multiplyUnsignedIntegers count)
          recordDynamicObject state (callee.knownExtent.or product)
      | .calloc, .nil => recordDynamicObject state callee.knownExtent
      | .realloc, .cons object sizes =>
          let extent := callee.knownExtent.or (sizes.only.bind unsignedInteger)
          let input := (staticFacts state context object).addressFact
          (none, if extent = some 0 then releaseStaticDynamicObject state input
            else loseStaticDynamicObject state input)
      | _, _ => ((staticFacts state context value).addressFact, state)
  | value => ((staticFacts state context value).addressFact, state)

/-- Captures the location of a View, or its value. -/
def recordStaticViewCapture (captureName : String) (source : Node) (retainLocation : Bool)
    (analyzer : Analyzer Context) : Analyzer Context :=
  let range := if retainLocation then staticViewRange analyzer.state analyzer.context source
    else none
  let aliasKey := analyzer.context.contentKey range source.result.staticByteLength
  let context := { analyzer.context with
    capturedRanges := analyzer.context.capturedRanges.insert captureName range
    capturedAliases := analyzer.context.capturedAliases.insert captureName aliasKey }
  let location := if retainLocation then staticViewAddressFact analyzer.state context source
    else none
  let state := { analyzer.state with
    addressFacts := analyzer.state.addressFacts.insert (captureName ++ ".location") location }
  let state := { state with
    integerValues := state.integerValues.insert captureName
      (if retainLocation then none else (staticFacts state context source).signedInteger) }
  let state := { state with
    unsignedIntegerValues := state.unsignedIntegerValues.insert captureName
      (if retainLocation then none else (staticFacts state context source).unsignedInteger) }
  let recorded := if retainLocation then (none, state)
    else recordStaticAddressAssignment context state source
  let state := { recorded.2 with
    addressFacts := recorded.2.addressFacts.insert captureName recorded.1 }
  { context
    state := { state with
      cstrTerminations := state.cstrTerminations.insert captureName
        (if retainLocation then none else staticCStringTerminated state context source) } }

/-- The View that stands for an argument from its evaluation on. -/
def captureStaticEvaluatedArgument (source : Node) (retainLocation rawMemory : Bool)
    (analyzer : Analyzer Context) : Node × Analyzer Context :=
  let captureName := "$safety.call." ++ toString analyzer.context.nextStaticCallCaptureId
  let analyzer := { analyzer with context := { analyzer.context with
    nextStaticCallCaptureId := analyzer.context.nextStaticCallCaptureId + 1 } }
  let result := { source.result with
    isAddressable := retainLocation
    isMutableLValue := retainLocation && source.result.isMutableLValue }
  let result := if rawMemory then fixedResult .addr pointerByteLength else result
  (.captured captureName result,
    recordStaticViewCapture captureName source retainLocation analyzer)

def releaseStaticCallArgument (analyzer : Analyzer Context) : Node → Analyzer Context
  | .captured captureName _ =>
      let state := analyzer.state
      { context := { analyzer.context with
          capturedRanges := analyzer.context.capturedRanges.erase captureName
          capturedAliases := analyzer.context.capturedAliases.erase captureName }
        state := { state with
          addressFacts :=
            (state.addressFacts.erase captureName).erase (captureName ++ ".location")
          integerValues := state.integerValues.erase captureName
          unsignedIntegerValues := state.unsignedIntegerValues.erase captureName
          cstrTerminations := state.cstrTerminations.erase captureName } }
  | _ => analyzer

def releaseStaticCallArguments (arguments : List Node) (analyzer : Analyzer Context) :
    Analyzer Context :=
  arguments.foldl releaseStaticCallArgument analyzer

end Recording

section Arguments
variable (unit : TranslationUnit) (callee : Callee) (index : Nat) (argument : Node)

def BuiltinId.isFormatted (builtin : BuiltinId) : Bool :=
  builtin == .print || builtin == .printf || builtin == .fprintf

def BuiltinId.formatIndex (builtin : BuiltinId) : Nat :=
  if builtin = .fprintf then 1 else 0

def BuiltinId.memoryCount (builtin : BuiltinId) : Nat :=
  if builtin = .memset ∨ builtin = .fread ∨ builtin = .fwrite then 1
  else if builtin = .memcpy ∨ builtin = .memmove ∨ builtin = .memcmp then 2
  else 0

def isStaticCStringArgument : Bool :=
  let builtin := callee.builtin
  let stringScan := if builtin.isFormatted then
      index == builtin.formatIndex ||
        (builtin.formatIndex < index && callee.formatArgumentKinds[index]? == some .string)
    else unit.isCStringParameter builtin callee.overloadIndex index
  stringScan || (builtin == .strcat && index == 0)

def isRawMemoryArgument : Bool :=
  index < callee.builtin.memoryCount && callee.builtin != .fread && callee.builtin != .fwrite &&
    isRawMemoryAddress argument

/-- The argument is located where it is evaluated, and read when the callee runs. -/
def isViewArgument : Bool :=
  let builtin := callee.builtin
  let stringDestination := index == 0 &&
    (builtin == .strcpy || builtin == .strcat || builtin == .strncpy)
  let formattedView := builtin.isFormatted && builtin.formatIndex ≤ index &&
    (index == builtin.formatIndex || callee.formatArgumentKinds[index]? != some .float)
  isStaticCStringArgument unit callee index ||
    (index < builtin.memoryCount && !isRawMemoryArgument callee index argument) ||
    stringDestination || formattedView || (builtin == .put && index == 0) ||
    (builtin == .fput && index == 1)

/-- Only the low byte of the argument is read. -/
def isLowByteArgument : Bool :=
  (callee.builtin == .memset && index == 1) || (callee.builtin == .character && index == 0) ||
    (callee.builtin == .strchr && index == 1)

/-- The argument is formed as a View and not read as a whole. -/
def isFormedArgument : Bool :=
  isViewArgument unit callee index argument || isLowByteArgument callee index

/-- The arguments that are evaluated before the ones in front of them. -/
def Callee.reversesPair (arguments : Nodes) : Bool :=
  (callee.builtin == .realloc && arguments.size == 2) ||
    (callee.builtin == .fprintf && 2 ≤ arguments.size)

def captureArgument (analyzer : Analyzer Context) : Node × Analyzer Context :=
  captureStaticEvaluatedArgument argument
    (isViewArgument unit callee index argument && argument.result.isAddressable)
    (isRawMemoryArgument callee index argument) analyzer

end Arguments

section Calls
variable (unit : TranslationUnit)

/-- A range that is written by a standard function, and its length. -/
def writtenRange (callee : Callee) (arguments : List Node) (analyzer : Analyzer Context) :
    Option (Option StaticAddressRange × Option Nat) :=
  let unsignedInteger (node : Node) :=
    (staticFacts analyzer.state analyzer.context node).unsignedInteger
  match callee.builtin, arguments with
  | .memset, [target, _, byteLength] | .memcpy, [target, _, byteLength]
  | .memmove, [target, _, byteLength] =>
      some (staticMemoryOperandRange analyzer.state analyzer.context target,
        unsignedInteger byteLength)
  | .fread, [target, size, count, _] =>
      some (staticViewRange analyzer.state analyzer.context target,
        (unsignedInteger size).bind fun size =>
          (unsignedInteger count).bind (multiplyUnsignedIntegers size))
  | .strcpy, target :: _ | .strncpy, target :: _ | .strcat, target :: _ =>
      some (staticViewRange analyzer.state analyzer.context target, none)
  | _, _ => none

/-- A function of the program can write where an argument points. -/
def invalidateArgument (analyzer : Analyzer Context) (argument : Node) : Analyzer Context :=
  invalidateStaticFactsOverlapping
    (staticMemoryOperandRange analyzer.state analyzer.context argument) none analyzer

/-- What a call does after its arguments have been captured. -/
def finishCall (callee : Callee) (arguments : List Node) (analyzer : Analyzer Context) :
    Analyzer Context :=
  let analyzer := if callee.builtin = .none then
      arguments.foldl invalidateArgument (invalidateStaticGlobalFacts unit analyzer)
    else analyzer
  let analyzer := match writtenRange callee arguments analyzer with
    | some (range, byteLength) => invalidateStaticFactsOverlapping range byteLength analyzer
    | none => analyzer
  releaseStaticCallArguments arguments analyzer

/-- What a call statement does to dynamic objects. -/
def releaseObjects (callee : Callee) (arguments : List Node) (analyzer : Analyzer Context) :
    Analyzer Context :=
  let facts (node : Node) := staticFacts analyzer.state analyzer.context node
  { analyzer with state := match callee.builtin, arguments with
    | .free, object :: _ =>
        releaseStaticDynamicObject analyzer.state (facts object).addressFact
    | .realloc, [object, size] =>
        if (facts size).unsignedInteger = some 0 then
          releaseStaticDynamicObject analyzer.state (facts object).addressFact
        else loseStaticDynamicObject analyzer.state (facts object).addressFact
    | .realloc, object :: _ =>
        loseStaticDynamicObject analyzer.state (facts object).addressFact
    | _, _ => analyzer.state }

/-- An argument that an operation of a template borrows is only located. -/
def isBorrowed (callee : String) (index : Nat) : Bool :=
  match unit.viewParameterCopies callee with
  | some copies => copies[index]? == some false
  | none => false

def Nodes.toList : Nodes → List Node
  | .nil => []
  | .cons node rest => node :: rest.toList

end Calls

end HitSimple.Safety.Visitor

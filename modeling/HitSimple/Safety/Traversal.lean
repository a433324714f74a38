import HitSimple.Safety.Visitor

namespace HitSimple.Safety.Visitor
open Dataflow FactMap

section Stores

def declareLocal (unit : TranslationUnit) (bindingName : String) (byteLength : Nat)
    (storage : Hir.MemoryStorage) (analyzer : Analyzer Context) : Analyzer Context :=
  let context := { analyzer.context with
    definitionByteLengths := analyzer.context.definitionByteLengths.insert bindingName byteLength }
  match storage with
  | .staticLocal => {
      context := { context with globalBindings :=
          ⟨context.globalBindings.1.insert bindingName, context.globalBindings.2.insert⟩ }
      state := if bindingName ∈ unit.potentiallyReboundBindings then
          { analyzer.state with bindingAddressFacts :=
              analyzer.state.bindingAddressFacts.insert bindingName none }
        else analyzer.state }
  | .local => {
      context
      state := { analyzer.state with bindingAddressFacts :=
          analyzer.state.bindingAddressFacts.erase bindingName }.invalidateStaticBinding bindingName }
  | .global => { analyzer with context }

def rebind (bindingName : String) (address : Node) (analyzer : Analyzer Context) :
    Analyzer Context :=
  let recorded := recordStaticAddressAssignment analyzer.context analyzer.state address
  { analyzer with state := { recorded.2 with
    bindingAddressFacts := recorded.2.bindingAddressFacts.insert bindingName recorded.1
    addressFacts := recorded.2.addressFacts.erase "$rebind.address" } }

/-- Whether a character literal that fills its target holds a terminator. -/
def characterTermination (targetByteLength : Nat) : Node → Option Bool
  | .literal constant _ => Safety.characterTermination targetByteLength constant
  | _ => none

def storeInteger (bindingName : String) (offset targetByteLength : Nat) (value : Node)
    (analyzer : Analyzer Context) : Analyzer Context :=
  let facts := staticFacts analyzer.state analyzer.context value
  let recorded := recordStaticAddressAssignment analyzer.context analyzer.state value
  let addressFact := truncatedAddress targetByteLength recorded.1
  let analyzer := { analyzer with state := { recorded.2 with
    addressFacts := recorded.2.addressFacts.erase "$store.address" } }
  let prepared := prepareStaticNamedStore bindingName offset targetByteLength analyzer
  match prepared.1 with
  | none => prepared.2
  | some key =>
      let state := prepared.2.state
      { prepared.2 with state := { state with
        integerValues := state.integerValues.insert key facts.signedInteger
        unsignedIntegerValues := state.unsignedIntegerValues.insert key facts.unsignedInteger
        addressFacts := state.addressFacts.insert key addressFact
        cstrTerminations :=
          state.cstrTerminations.insert key (characterTermination targetByteLength value) } }

def storeBool (bindingName : String) (offset targetByteLength : Nat) (value : Node)
    (analyzer : Analyzer Context) : Analyzer Context :=
  let facts := staticFacts analyzer.state analyzer.context value
  let prepared := prepareStaticNamedStore bindingName offset targetByteLength analyzer
  match prepared.1 with
  | none => prepared.2
  | some key =>
      let state := prepared.2.state
      { prepared.2 with state := { state with
        integerValues := state.integerValues.insert key facts.signedInteger
        unsignedIntegerValues := state.unsignedIntegerValues.insert key facts.unsignedInteger } }

def storeBytes (bindingName : String) (offset targetByteLength : Nat) (termination : Option Bool)
    (analyzer : Analyzer Context) : Analyzer Context :=
  let prepared := prepareStaticNamedStore bindingName offset targetByteLength analyzer
  match prepared.1 with
  | none => prepared.2
  | some key =>
      { prepared.2 with state := { prepared.2.state with
        cstrTerminations := prepared.2.state.cstrTerminations.insert key termination } }

end Stores

section Joins

def mergeSkipped (skipped evaluated : Analyzer Context) : Analyzer Context :=
  evaluated.mergeStaticSafetyStates skipped.state evaluated.state

/-- An operation of a template can write to the Views it borrows, and to globals. -/
def finishUserCall (unit : TranslationUnit)
    (located : List (Option StaticAddressRange) × Analyzer Context) : Analyzer Context :=
  invalidateStaticGlobalFacts unit (located.1.foldl
    (fun analyzer range => invalidateStaticFactsOverlapping range none analyzer) located.2)

end Joins

mutual

/-- `validateSafety` of an expression, or `validateStaticViewFormation` of one that `forms` a View
and is not read. -/
def visit (unit : TranslationUnit) (forms : Bool) : Node → Analyzer Context → Analyzer Context
  | .literal _ _, analyzer | .variableRef _ _ _, analyzer | .captured _ _, analyzer
  | .addressOf _ _ _ _, analyzer => analyzer
  | .deref operand _, analyzer | .unary _ operand _, analyzer
  | .integerCast operand _ _, analyzer | .booleanTest operand _, analyzer
  | .toFloat operand _, analyzer | .toInt operand _, analyzer | .byteSwap operand _, analyzer =>
      visit unit false operand analyzer
  | .floatBinary left right _, analyzer | .floatCompare left right _, analyzer =>
      visit unit false right (visit unit false left analyzer)
  | .binary left op right _ operationKind viewOffsetBounds, analyzer =>
      if op.symbol = .logicalAnd ∨ op.symbol = .logicalOr then
        let analyzer := visit unit false left analyzer
        match staticBooleanValue analyzer.state analyzer.context left with
        | some value =>
            if value = (op.symbol == .logicalOr) then analyzer
            else visit unit false right analyzer
        | none => mergeSkipped analyzer (visit unit false right analyzer)
      else if viewOffsetBounds = none ∧ operationKind = .standardCStringCompare then
        let first := captureStaticEvaluatedArgument left left.result.isAddressable false
          (visit unit true left analyzer)
        let second := captureStaticEvaluatedArgument right right.result.isAddressable false
          (visit unit true right first.2)
        releaseStaticCallArguments [first.1, second.1] second.2
      else visit unit false right (visit unit false left analyzer)
  | .ternary condition thenExpr elseExpr _, analyzer =>
      let analyzer := visit unit false condition analyzer
      match staticBooleanValue analyzer.state analyzer.context condition with
      | some true => visit unit false thenExpr analyzer
      | some false => visit unit false elseExpr analyzer
      | none =>
          let first := visit unit false thenExpr analyzer
          mergeSkipped first
            (visit unit false elseExpr (first.restoreStaticSafetyState analyzer.state))
  | .unsigned operand _, analyzer => visit unit operand.result.isAddressable operand analyzer
  | .templateView operand result, analyzer =>
      visit unit (forms || (result.templateName != .cstr && operand.result.templateName == .cstr))
        operand analyzer
  | .userTemplateOpCall callee arguments _, analyzer =>
      finishUserCall unit (visitBorrowed unit callee arguments 0 analyzer)
  | .userTemplateFormatCall value file _, analyzer =>
      invalidateStaticGlobalFacts unit
        (visitEach unit (fun _ => false) file (visit unit false value analyzer))
  | .call callee arguments _, analyzer =>
      if callee.builtin = .length then visitEach unit (fun _ => true) arguments analyzer
      else
        let prepared := prepareStaticCallArguments unit callee arguments analyzer
        finishCall unit callee prepared.1 prepared.2
  | .dynamicByteView isResize source runtimeLength _, analyzer =>
      visitEach unit (fun _ => false) runtimeLength (visit unit (forms || isResize) source analyzer)
  | .assignment stores assigned _, analyzer =>
      visitEach unit (fun node => node.result.templateName == .cstr) assigned
        (visitActions unit stores analyzer)

def visitEach (unit : TranslationUnit) (forms : Node → Bool) :
    Nodes → Analyzer Context → Analyzer Context
  | .nil, analyzer => analyzer
  | .cons node rest, analyzer =>
      visitEach unit forms rest (visit unit (forms node) node analyzer)

/-- The arguments from an index on, each captured after it has been visited. -/
def captureEach (unit : TranslationUnit) (callee : Callee) :
    Nodes → Nat → Analyzer Context → List Node × Analyzer Context
  | .nil, _, analyzer => ([], analyzer)
  | .cons node rest, index, analyzer =>
      let first := captureArgument unit callee index node
        (visit unit (isFormedArgument unit callee index node) node analyzer)
      let others := captureEach unit callee rest (index + 1) first.2
      (first.1 :: others.1, others.2)

/-- `realloc` evaluates its size first, `fprintf` its format. -/
def prepareStaticCallArguments (unit : TranslationUnit) (callee : Callee) :
    Nodes → Analyzer Context → List Node × Analyzer Context
  | .nil, analyzer => ([], analyzer)
  | .cons node .nil, analyzer =>
      let only := captureArgument unit callee 0 node
        (visit unit (isFormedArgument unit callee 0 node) node analyzer)
      ([only.1], only.2)
  | .cons first (.cons second rest), analyzer =>
      let visitFirst := fun analyzer => captureArgument unit callee 0 first
        (visit unit (isFormedArgument unit callee 0 first) first analyzer)
      let visitSecond := fun analyzer => captureArgument unit callee 1 second
        (visit unit (isFormedArgument unit callee 1 second) second analyzer)
      if callee.reversesPair (.cons first (.cons second rest)) then
        let captured := visitSecond analyzer
        let captured' := visitFirst captured.2
        let others := captureEach unit callee rest 2 captured'.2
        (captured'.1 :: captured.1 :: others.1, others.2)
      else
        let captured := visitFirst analyzer
        let captured' := visitSecond captured.2
        let others := captureEach unit callee rest 2 captured'.2
        (captured.1 :: captured'.1 :: others.1, others.2)

/-- The ranges of the borrowed arguments, each located where it is evaluated. -/
def visitBorrowed (unit : TranslationUnit) (callee : String) :
    Nodes → Nat → Analyzer Context → List (Option StaticAddressRange) × Analyzer Context
  | .nil, _, analyzer => ([], analyzer)
  | .cons node rest, index, analyzer =>
      let borrowed := isBorrowed unit callee index
      let analyzer := visit unit borrowed node analyzer
      let others := visitBorrowed unit callee rest (index + 1) analyzer
      if borrowed then
        (staticViewRange analyzer.state analyzer.context node :: others.1, others.2)
      else others

def visitAction (unit : TranslationUnit) : Action → Analyzer Context → Analyzer Context
  | .localMemory bindingName byteLength storage, analyzer =>
      declareLocal unit bindingName byteLength storage analyzer
  | .bindingRebind bindingName address, analyzer =>
      rebind bindingName address (visit unit false address analyzer)
  | .captureView captureName source, analyzer =>
      recordStaticViewCapture captureName source source.result.isAddressable
        (visit unit source.result.isAddressable source analyzer)
  | .integerStore bindingName offset targetByteLength value, analyzer =>
      storeInteger bindingName offset targetByteLength value (visit unit false value analyzer)
  | .floatStore bindingName offset targetByteLength value, analyzer =>
      (prepareStaticNamedStore bindingName offset targetByteLength
        (visit unit false value analyzer)).2
  | .boolStore bindingName offset targetByteLength value, analyzer =>
      storeBool bindingName offset targetByteLength value (visit unit false value analyzer)
  | .viewCopyStore bindingName offset targetByteLength value, analyzer =>
      let analyzer := visit unit false value analyzer
      storeBytes bindingName offset targetByteLength
        ((characterTermination targetByteLength value).or
          (staticCStringTerminated analyzer.state analyzer.context value)) analyzer
  | .stringStore bindingName offset targetByteLength, analyzer =>
      storeBytes bindingName offset targetByteLength (some true) analyzer
  | .stringCopyStore bindingName targetOffset targetByteLength sourceView, analyzer =>
      storeBytes bindingName targetOffset targetByteLength (some true)
        (visitEach unit (fun _ => true) sourceView analyzer)
  | .pointerStore address targetByteLength value, analyzer =>
      let analyzer := visit unit false value (visit unit false address analyzer)
      invalidateStaticFactsOverlapping (staticAddressRange analyzer.state analyzer.context address)
        (some targetByteLength) analyzer
  | .call callee arguments, analyzer =>
      let prepared := prepareStaticCallArguments unit callee arguments analyzer
      finishCall unit callee prepared.1 (releaseObjects callee prepared.1 prepared.2)
  | .userTemplateOpCall callee arguments, analyzer =>
      finishUserCall unit (visitBorrowed unit callee arguments 0 analyzer)
  | .userTemplateFormatCall value file, analyzer =>
      invalidateStaticGlobalFacts unit
        (visitEach unit (fun _ => false) file (visit unit false value analyzer))
  | .multiReturnCallStore arguments targets, analyzer =>
      targets.foldl (fun analyzer target => (prepareStaticNamedStore target.1 0 target.2 analyzer).2)
        (invalidateStaticGlobalFacts unit (visitEach unit (fun _ => false) arguments analyzer))
  | .inputCallStore file format targets, analyzer =>
      targets.foldl
        (fun analyzer target => (prepareStaticNamedStore target.1 target.2.1 target.2.2 analyzer).2)
        (visit unit true format (visitEach unit (fun _ => false) file analyzer))
  | .statementList statements, analyzer => visitActions unit statements analyzer

def visitActions (unit : TranslationUnit) : Actions → Analyzer Context → Analyzer Context
  | .nil, analyzer => analyzer
  | .cons action rest, analyzer => visitActions unit rest (visitAction unit action analyzer)

end

attribute [simp] visit visitEach captureEach prepareStaticCallArguments visitBorrowed visitAction
  visitActions

end HitSimple.Safety.Visitor

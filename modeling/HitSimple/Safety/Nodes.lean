import HitSimple.Format.Runtime
import HitSimple.Safety.Stores

namespace HitSimple.Safety.Visitor
open Dataflow FactMap Literal HitSimple.Runtime

/-- The standard functions that the analyzer tells apart; `none` is a function of the program. -/
inductive BuiltinId where
  | none | length | alloc | calloc | realloc | free | memset | memcpy | memmove | memcmp | fread
  | fwrite | strcpy | strncpy | strcat | strchr | print | printf | fprintf | put | fput
  | character
  | other (name : String)
  deriving DecidableEq, Repr

/-- A call without its arguments. -/
structure Callee where
  builtin : BuiltinId
  overloadIndex : Nat
  formatArgumentKinds : List FormatArgKind
  knownExtent : Option Nat
  deriving DecidableEq, Repr

mutual

/-- An expression as the analyzer visits it.  An expression that may be missing is a list. -/
inductive Node where
  | literal (constant : Hir.Expr) (result : ViewSemantics)
  | variableRef (bindingName : String) (offset : Nat) (result : ViewSemantics)
  | captured (captureName : String) (result : ViewSemantics)
  | addressOf (bindingName : String) (targetByteLength offset : Nat) (result : ViewSemantics)
  | deref (address : Node) (result : ViewSemantics)
  | binary (left : Node) (op : OperatorSpelling) (right : Node) (result : ViewSemantics)
      (operationKind : Hir.StandardOperationKind)
      (viewOffsetBounds : Option Hir.ViewOffsetBounds)
  | floatBinary (left right : Node) (result : ViewSemantics)
  | floatCompare (left right : Node) (result : ViewSemantics)
  | unary (op : Hir.UnaryOperator) (operand : Node) (result : ViewSemantics)
  | ternary (condition thenExpr elseExpr : Node) (result : ViewSemantics)
  | unsigned (operand : Node) (result : ViewSemantics)
  | integerCast (operand : Node) (isSigned : Bool) (result : ViewSemantics)
  | templateView (operand : Node) (result : ViewSemantics)
  | booleanTest (operand : Node) (result : ViewSemantics)
  | toFloat (operand : Node) (result : ViewSemantics)
  | toInt (operand : Node) (result : ViewSemantics)
  | byteSwap (source : Node) (result : ViewSemantics)
  | userTemplateOpCall (callee : String) (arguments : Nodes) (result : ViewSemantics)
  | userTemplateFormatCall (value : Node) (file : Nodes) (result : ViewSemantics)
  | call (callee : Callee) (arguments : Nodes) (result : ViewSemantics)
  | dynamicByteView (isResize : Bool) (source : Node) (runtimeLength : Nodes)
      (result : ViewSemantics)
  | assignment (stores : Actions) (assigned : Nodes) (result : ViewSemantics)

inductive Nodes where
  | nil
  | cons (node : Node) (rest : Nodes)

/-- A statement without control flow. -/
inductive Action where
  | localMemory (bindingName : String) (byteLength : Nat) (storage : Hir.MemoryStorage)
  | bindingRebind (bindingName : String) (address : Node)
  | captureView (captureName : String) (source : Node)
  | integerStore (bindingName : String) (offset targetByteLength : Nat) (value : Node)
  | floatStore (bindingName : String) (offset targetByteLength : Nat) (value : Node)
  | boolStore (bindingName : String) (offset targetByteLength : Nat) (value : Node)
  | viewCopyStore (bindingName : String) (offset targetByteLength : Nat) (value : Node)
  | stringStore (bindingName : String) (offset targetByteLength : Nat)
  | stringCopyStore (bindingName : String) (targetOffset targetByteLength : Nat)
      (sourceView : Nodes)
  | pointerStore (address : Node) (targetByteLength : Nat) (value : Node)
  | call (callee : Callee) (arguments : Nodes)
  | userTemplateOpCall (callee : String) (arguments : Nodes)
  | userTemplateFormatCall (value : Node) (file : Nodes)
  | multiReturnCallStore (arguments : Nodes) (targets : List (String × Nat))
  | inputCallStore (file : Nodes) (format : Node) (targets : List (String × Nat × Nat))
  | statementList (statements : Actions)

inductive Actions where
  | nil
  | cons (action : Action) (rest : Actions)

end

def Node.result : Node → ViewSemantics
  | .literal _ result | .variableRef _ _ result | .captured _ result | .addressOf _ _ _ result
  | .deref _ result | .binary _ _ _ result _ _ | .floatBinary _ _ result
  | .floatCompare _ _ result | .unary _ _ result | .ternary _ _ _ result | .unsigned _ result
  | .integerCast _ _ result | .templateView _ result | .booleanTest _ result
  | .toFloat _ result | .toInt _ result | .byteSwap _ result | .userTemplateOpCall _ _ result
  | .userTemplateFormatCall _ _ result | .call _ _ result | .dynamicByteView _ _ _ result
  | .assignment _ _ result => result

def Nodes.size : Nodes → Nat
  | .nil => 0
  | .cons _ rest => rest.size + 1

/-- What a translation unit and the library settle before the analysis. -/
structure TranslationUnit where
  potentiallyReboundBindings : Finset String
  viewParameterCopies : String → Option (List Bool)
  isCStringParameter : BuiltinId → Nat → Nat → Bool

/-- What the analyzer knows besides its snapshots.  A captured View has the range and the key of the
place where it was captured. -/
structure Context where
  definitionByteLengths : FactMap String Nat
  globalBindings : { names : List String // names.Nodup }
  capturedAliases : FactMap String (Option String)
  capturedRanges : FactMap String (Option StaticAddressRange)
  nextStaticCallCaptureId : Nat

section Constants

def ofLength (byteLength : Nat) : ConstantFacts where
  signedInteger := if (byteLength : Int) ≤ maxInt64 then some byteLength else none
  unsignedInteger := some byteLength

def constantFacts : Node → ConstantFacts
  | .literal constant _ => Safety.constantFacts constant
  | .call callee (.cons argument .nil) _ =>
      if callee.builtin = .length ∧ argument.result.isDynamic = false then
        ofLength argument.result.staticByteLength
      else { signedInteger := none, unsignedInteger := none }
  | .unary op operand _ =>
      { signedInteger := match op, operand with
          | .negate, .literal constant _ =>
              if constantUnsignedInteger constant = some (2 ^ 63) then some minInt64
              else negateSignedInteger (Safety.constantFacts constant).signedInteger
          | .negate, operand => negateSignedInteger (constantFacts operand).signedInteger
          | .complement, _ | .not, _ => none
        unsignedInteger := none }
  | .unsigned operand _ =>
      { signedInteger := none
        unsignedInteger := (constantFacts operand).unsignedInteger }
  | .integerCast operand isSigned result =>
      let facts := constantFacts operand
      { signedInteger := castSignedInteger result.staticByteLength isSigned facts.signedInteger
        unsignedInteger := castUnsignedInteger result.staticByteLength facts.signedInteger
          facts.unsignedInteger }
  | .templateView operand _ => constantFacts operand
  | _ => { signedInteger := none, unsignedInteger := none }

end Constants

section Facts
variable (state : StaticSafetyState) (context : Context)

def Context.contentKey (range : Option StaticAddressRange) (byteLength : Nat) : Option String :=
  range.bind fun range =>
    if range.offset = 0 ∧
        context.definitionByteLengths.lookup range.bindingName = some byteLength ∧
        byteLength ≤ range.upperBound then
      some range.bindingName
    else none

/-- The bytes that a name denotes, as far as the analyzer knows. -/
def bindingRange (bindingName : String) (offset byteLength : Nat) : Option StaticAddressRange :=
  (staticBindingAddressFact state bindingName offset byteLength).bind (·.range)

/-- The key of the contents of a captured View. -/
def Context.captureKey (captureName : String) : String :=
  ((context.capturedAliases.lookup captureName).join).getD captureName

def staticFacts : Node → ExprFacts
  | .variableRef bindingName offset result =>
      contentFacts state
        (context.contentKey (bindingRange state bindingName offset result.staticByteLength)
          result.staticByteLength)
  | .captured captureName _ => contentFacts state (some (context.captureKey captureName))
  | .addressOf bindingName targetByteLength offset _ =>
      { signedInteger := none
        unsignedInteger := none
        addressFact := (staticBindingAddressFact state bindingName offset targetByteLength).map
          fun fact => { fact with range := fact.range.map (·.narrow targetByteLength) } }
  | .deref address result =>
      let range := (staticFacts address).addressFact.bind (·.range)
      contentFacts state (context.contentKey range result.staticByteLength)
  | .binary left op right _ operationKind viewOffsetBounds =>
      let isAddressOffset := operationKind == .addressOffset
      let offsets := isAddressOffset || op.symbol == .add || op.symbol == .subtract
      let facts := staticFacts right
      let offset := if viewOffsetBounds.isSome then staticIndexOffset right.result facts
        else facts.signedInteger
      { signedInteger := none
        unsignedInteger := none
        addressFact := if offsets then
            offsetAddressFact isAddressOffset (op.symbol == .subtract)
              (staticFacts left).addressFact offset
          else none }
  | node@(.unary op operand _) =>
      let signedInteger := (constantFacts node).signedInteger.or (match op with
        | .negate => negateSignedInteger (staticFacts operand).signedInteger
        | .complement | .not => none)
      { signedInteger
        unsignedInteger := none
        addressFact := nullIfZero signedInteger }
  | node@(.unsigned operand _) =>
      let facts := staticFacts operand
      { signedInteger := none
        unsignedInteger := (constantFacts node).unsignedInteger.or facts.unsignedInteger
        addressFact := facts.addressFact }
  | node@(.integerCast operand isSigned result) =>
      let facts := staticFacts operand
      let byteLength := result.staticByteLength
      let unsignedInteger := (constantFacts node).unsignedInteger.or
        (castUnsignedInteger byteLength facts.signedInteger facts.unsignedInteger)
      { signedInteger := (constantFacts node).signedInteger.or
          (castSignedInteger byteLength isSigned facts.signedInteger)
        unsignedInteger
        addressFact :=
          if byteLength = pointerByteLength ∧ operand.result.length = .static pointerByteLength then
            facts.addressFact
          else if unsignedInteger = some 0 then some .null
          else none }
  | node@(.templateView operand _) =>
      let facts := staticFacts operand
      { signedInteger := (constantFacts node).signedInteger.or facts.signedInteger
        unsignedInteger := (constantFacts node).unsignedInteger.or facts.unsignedInteger
        addressFact := facts.addressFact }
  | node =>
      let constant := constantFacts node
      { signedInteger := constant.signedInteger
        unsignedInteger := constant.unsignedInteger
        addressFact := nullIfZero constant.signedInteger }

def staticAddressRange (node : Node) : Option StaticAddressRange :=
  (staticFacts state context node).addressFact.bind (·.range)

/-- Where the bytes of a View are. -/
def staticViewAddressFact : Node → Option StaticAddressFact
  | .variableRef bindingName offset result =>
      staticBindingAddressFact state bindingName offset result.staticByteLength
  | .deref address _ => (staticFacts state context address).addressFact
  | .templateView operand _ => staticViewAddressFact operand
  | .captured captureName _ => (state.addressFacts.lookup (captureName ++ ".location")).join
  | _ => none

/-- A located View is no longer than it says. -/
def visibleRange (result : ViewSemantics) (range : Option StaticAddressRange) :
    Option StaticAddressRange :=
  if result.isDynamic then range else range.map (·.narrow result.staticByteLength)

def staticViewRange : Node → Option StaticAddressRange
  | .captured captureName result =>
      visibleRange result (context.capturedRanges.lookup captureName).join
  | .variableRef bindingName offset result =>
      visibleRange result (bindingRange state bindingName offset result.staticByteLength)
  | .templateView operand result => visibleRange result (staticViewRange operand)
  | .deref address result => visibleRange result (staticAddressRange state context address)
  | .unsigned _ _ => none
  | node => staticAddressRange state context node

def isRawMemoryAddress : Node → Bool
  | .templateView _ result | .call _ _ result =>
      result.category == .address || result.templateName == .addr
  | .addressOf _ _ _ _ => true
  | .binary left op _ result operationKind _ =>
      result.category == .address || operationKind == .addressOffset ||
        ((op.symbol == .add || op.symbol == .subtract) && isRawMemoryAddress left)
  | node => node.result.category == .address

def staticMemoryOperandRange (node : Node) : Option StaticAddressRange :=
  if isRawMemoryAddress node then staticAddressRange state context node
  else staticViewRange state context node

def staticBooleanValue : Node → Option Bool
  | .booleanTest operand _ => staticBooleanValue operand
  | .unary .not operand _ => (staticBooleanValue operand).map (! ·)
  | node =>
      let facts := staticFacts state context node
      (facts.signedInteger.map (· != 0)).or (facts.unsignedInteger.map (· != 0))

def staticCStringTerminated : Node → Option Bool
  | .assignment _ (.cons assigned .nil) result =>
      if assigned.result.templateName = .cstr ∧
          assigned.result.staticByteLength = result.staticByteLength then
        staticCStringTerminated assigned
      else none
  | .captured captureName _ =>
      (state.cstrTerminations.lookup (context.captureKey captureName)).join
  | .literal (.stringLiteral _ _) _ => some true
  | .templateView operand _ => staticCStringTerminated operand
  | .variableRef bindingName offset result =>
      if result.templateName = .cstr then
        (context.contentKey (bindingRange state bindingName offset result.staticByteLength)
          result.staticByteLength).bind fun key => (state.cstrTerminations.lookup key).join
      else none
  | .deref address result =>
      (context.contentKey (staticAddressRange state context address)
        result.staticByteLength).bind fun key => (state.cstrTerminations.lookup key).join
  | _ => none

end Facts

end HitSimple.Safety.Visitor

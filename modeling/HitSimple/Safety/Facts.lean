import HitSimple.Hir
import HitSimple.Safety.State

namespace HitSimple.Safety
open Dataflow FactMap Literal

def maxInt64 : Int := 2 ^ 63 - 1

def minInt64 : Int := -2 ^ 63

/-- `static_cast<std::uint64_t>`. -/
def toUInt64 (value : Int) : Nat :=
  (value % 2 ^ 64).toNat

def constantUnsignedInteger : Hir.Expr → Option Nat
  | .integerLiteral value _ => parseUnsignedIntegerLiteral value
  | _ => none

/-- The value of an integer cast on a value that is known as a signed integer. -/
def castSignedInteger (byteLength : Nat) (isSigned : Bool) (value : Option Int) : Option Int :=
  if byteLength = 0 ∨ 8 < byteLength then none
  else value.bind fun value =>
    if byteLength = 8 then if isSigned ∨ 0 ≤ value then some value else none
    else some (if isSigned then Int.bmod value (2 ^ (byteLength * 8))
      else value % 2 ^ (byteLength * 8))

def castUnsignedInteger (byteLength : Nat) (signedValue : Option Int) (value : Option Nat) :
    Option Nat :=
  if byteLength = 0 ∨ 8 < byteLength then none
  else (value.or (signedValue.map toUInt64)).map fun value =>
    if byteLength = 8 then value else value % 2 ^ (byteLength * 8)

def negateSignedInteger (value : Option Int) : Option Int :=
  value.bind fun value => if value = minInt64 then none else some (-value)

/-- What is known of an expression without a state. -/
structure ConstantFacts where
  signedInteger : Option Int
  unsignedInteger : Option Nat

def constantFacts : Hir.Expr → ConstantFacts
  | .integerLiteral value _ =>
      { signedInteger := (parseUnsignedIntegerLiteral value).bind fun value =>
          if (value : Int) ≤ maxInt64 then some value else none
        unsignedInteger := parseUnsignedIntegerLiteral value }
  | .unary op operand _ =>
      { signedInteger := match op with
          | .negate =>
              -- The literal 2^63 is no signed integer, its negation is.
              if constantUnsignedInteger operand = some (2 ^ 63) then some minInt64
              else negateSignedInteger (constantFacts operand).signedInteger
          | .complement | .not => none
        unsignedInteger := none }
  | .unsigned operand _ =>
      { signedInteger := none
        unsignedInteger := (constantFacts operand).unsignedInteger }
  | .integerCast operand isSigned result =>
      let facts := constantFacts operand
      { signedInteger := castSignedInteger result.staticByteLength isSigned facts.signedInteger
        unsignedInteger := castUnsignedInteger result.staticByteLength facts.signedInteger
          facts.unsignedInteger }
  | .templateView operand _ => constantFacts operand
  | _ => { signedInteger := none, unsignedInteger := none }

def addSignedIntegers (left right : Int) : Option Int :=
  if left + right < minInt64 ∨ maxInt64 < left + right then none else some (left + right)

def multiplyUnsignedIntegers (left right : Nat) : Option Nat :=
  if maxUInt64 < left * right then none else some (left * right)

/-- What the analyzer knows besides its snapshots. -/
structure StaticContext where
  definitionByteLengths : FactMap String Nat
  globalBindings : Finset String
  potentiallyReboundBindings : Finset String

section Locations
variable (state : StaticSafetyState) (context : StaticContext)

def StaticAddressFact.advance (fact : StaticAddressFact) (offset : Int) : StaticAddressFact :=
  { fact with
    isBaseAddress := false
    range := fact.range.bind fun range =>
      (addSignedIntegers range.offset offset).map fun offset => { range with offset } }

def staticBindingAddressFact (bindingName : String) (offset byteLength : Nat) :
    Option StaticAddressFact :=
  match state.bindingAddressFacts.lookup bindingName with
  | none => some {
      origin := .nonDynamicObject
      dynamicObjectId := 0
      isBaseAddress := offset == 0
      range := some {
        bindingName
        lowerBound := offset
        offset
        upperBound := offset + byteLength } }
  | some none => none
  | some (some fact) =>
      if offset = 0 then some fact
      else if fact.origin = .null then none
      else some (fact.advance offset)

def rangeContentKey (range : Option StaticAddressRange) (byteLength : Nat) : Option String :=
  range.bind fun range =>
    if range.offset = 0 ∧
        context.definitionByteLengths.lookup range.bindingName = some byteLength ∧
        byteLength ≤ range.upperBound then
      some range.bindingName
    else none

def staticContentKey (bindingName : String) (offset byteLength : Nat) : Option String :=
  rangeContentKey context
    ((staticBindingAddressFact state bindingName offset byteLength).bind (·.range)) byteLength

/-- The visible extent of a View that starts inside a range. -/
def StaticAddressRange.narrow (range : StaticAddressRange) (byteLength : Nat) :
    StaticAddressRange :=
  if 0 ≤ range.offset then
    { range with
      lowerBound := max range.lowerBound range.offset
      upperBound := if range.offset + byteLength ≤ maxUInt64 then
          min range.upperBound (range.offset.toNat + byteLength)
        else range.upperBound }
  else range

end Locations

/-- What is known of an expression in a state. -/
structure ExprFacts where
  signedInteger : Option Int
  unsignedInteger : Option Nat
  addressFact : Option StaticAddressFact

/-- The address of an expression that is no address: null if its value is zero. -/
def nullIfZero (signedInteger : Option Int) : Option StaticAddressFact :=
  if signedInteger = some 0 then some .null else none

/-- What is known of the contents under a key. -/
def contentFacts (state : StaticSafetyState) (key : Option String) : ExprFacts where
  signedInteger := key.bind fun key => (state.integerValues.lookup key).join
  unsignedInteger := key.bind fun key => (state.unsignedIntegerValues.lookup key).join
  addressFact := key.bind fun key => (state.addressFacts.lookup key).join

/-- The two's complement value of an offset at its own width. -/
def staticIndexOffset (result : ViewSemantics) (facts : ExprFacts) : Option Int :=
  let length := result.staticByteLength
  if result.isDynamic ∨ length = 0 then none
  else match facts.unsignedInteger, facts.signedInteger with
    | none, none => none
    | none, some value =>
        if 8 ≤ length then some value else some (Int.bmod value (2 ^ (length * 8)))
    | some bits, _ =>
        if 8 < length then if (bits : Int) ≤ maxInt64 then some bits else none
        else some (Int.bmod bits (2 ^ (length * 8)))

def offsetAddressFact (isAddressOffset isSubtraction : Bool) (base : Option StaticAddressFact)
    (offset : Option Int) : Option StaticAddressFact :=
  base.map fun base => match offset with
    | none => { base with range := none }
    | some offset =>
        if !isAddressOffset && isSubtraction then
          if offset = minInt64 then { base with range := none } else base.advance (-offset)
        else base.advance offset

def staticFacts (state : StaticSafetyState) (context : StaticContext) : Hir.Expr → ExprFacts
  | expression@(.integerLiteral _ _) =>
      let constant := constantFacts expression
      { signedInteger := constant.signedInteger
        unsignedInteger := constant.unsignedInteger
        addressFact := nullIfZero constant.signedInteger }
  | .variableRef binding offset result =>
      contentFacts state
        (staticContentKey state context binding.bindingName offset result.staticByteLength)
  | .addressOf binding targetByteLength offset _ =>
      let fact := staticBindingAddressFact state binding.bindingName offset targetByteLength
      { signedInteger := none
        unsignedInteger := none
        addressFact := fact.map fun fact =>
          { fact with range := fact.range.map (·.narrow targetByteLength) } }
  | .deref address result =>
      let range := (staticFacts state context address).addressFact.bind (·.range)
      contentFacts state (rangeContentKey context range result.staticByteLength)
  | .binary left op right _ operationKind viewOffsetBounds =>
      let isAddressOffset := operationKind == .addressOffset
      let offsets := isAddressOffset || op.symbol == .add || op.symbol == .subtract
      let facts := staticFacts state context right
      let offset := if viewOffsetBounds.isSome then staticIndexOffset right.result facts
        else facts.signedInteger
      { signedInteger := none
        unsignedInteger := none
        addressFact := if offsets then
            offsetAddressFact isAddressOffset (op.symbol == .subtract)
              (staticFacts state context left).addressFact offset
          else none }
  | expression@(.unary op operand _) =>
      let signedInteger := (constantFacts expression).signedInteger.or (match op with
        | .negate => negateSignedInteger (staticFacts state context operand).signedInteger
        | .complement | .not => none)
      { signedInteger
        unsignedInteger := none
        addressFact := nullIfZero signedInteger }
  | expression@(.unsigned operand _) =>
      let facts := staticFacts state context operand
      { signedInteger := none
        unsignedInteger := (constantFacts expression).unsignedInteger.or facts.unsignedInteger
        addressFact := facts.addressFact }
  | expression@(.integerCast operand isSigned result) =>
      let facts := staticFacts state context operand
      let byteLength := result.staticByteLength
      let unsignedInteger := (constantFacts expression).unsignedInteger.or
        (castUnsignedInteger byteLength facts.signedInteger facts.unsignedInteger)
      { signedInteger := (constantFacts expression).signedInteger.or
          (castSignedInteger byteLength isSigned facts.signedInteger)
        unsignedInteger
        addressFact :=
          if byteLength = pointerByteLength ∧ operand.result.length = .static pointerByteLength then
            facts.addressFact
          else if unsignedInteger = some 0 then some .null
          else none }
  | expression@(.templateView operand _) =>
      let facts := staticFacts state context operand
      { signedInteger := (constantFacts expression).signedInteger.or facts.signedInteger
        unsignedInteger := (constantFacts expression).unsignedInteger.or facts.unsignedInteger
        addressFact := facts.addressFact }
  | _ => { signedInteger := none, unsignedInteger := none, addressFact := none }

/-- The truth value of an expression, where it is known. -/
def staticBooleanValue (state : StaticSafetyState) (context : StaticContext) :
    Hir.Expr → Option Bool
  | .booleanTest operand _ => staticBooleanValue state context operand
  | .unary .not operand _ => (staticBooleanValue state context operand).map (! ·)
  | expression =>
      let facts := staticFacts state context expression
      (facts.signedInteger.map (· != 0)).or (facts.unsignedInteger.map (· != 0))

/-- Whether the bytes of an expression are known to hold a terminator. -/
def staticCStringTerminated (state : StaticSafetyState) (context : StaticContext) :
    Hir.Expr → Option Bool
  | .stringLiteral _ _ => some true
  | .templateView operand _ => staticCStringTerminated state context operand
  | .variableRef binding offset result =>
      if result.templateName = .cstr then
        (staticContentKey state context binding.bindingName offset result.staticByteLength).bind
          fun key => (state.cstrTerminations.lookup key).join
      else none
  | .deref address result =>
      let range := (staticFacts state context address).addressFact.bind (·.range)
      (rangeContentKey context range result.staticByteLength).bind fun key =>
        (state.cstrTerminations.lookup key).join
  | _ => none

end HitSimple.Safety

import HitSimple.Codegen.Machine

namespace HitSimple.Codegen
open FixedWidth Literal

/-- The ways one node can be emitted. -/
structure ExprCode where
  integer : Nat → Bool → Emission IntegerCode
  pointer : Emission (Run (BitVec 64))
  view : Emission ViewCode
  condition : Emission (Run Bool)

def unsupported {α : Type} (message : String) : Emission α :=
  .error (.diagnostic message)

def noCondition {α : Type} : Emission α :=
  unsupported "Boolean-test lowering requires BooleanTestExpr HIR"

variable (context : Context)

def loadView (view : ViewCode) (byteLength : Nat) : Run (BitVec (byteLength * 8)) := do
  let place ← view.run
  context.checkViewLoad view.requiresAccessCheck place view.byteLength
  place.load byteLength

/-- The integer read from a View, at its own length and then at the requested one. -/
def integerOfView (view : Emission ViewCode) (byteLength : Nat) (isUnsigned : Bool) :
    Emission IntegerCode := do
  let view ← view
  if view.byteLength = 0 then
    return { width := byteLength * 8, run := return 0#_ }
  else
    context.integerType view.byteLength
    return IntegerCode.resize
      { width := view.byteLength * 8, run := loadView context view view.byteLength }
      isUnsigned (byteLength * 8)

/-- Bytes copied into storage of their own. -/
def copyView (view : ViewCode) (byteLength : Nat) : ViewCode where
  byteLength := byteLength
  requiresAccessCheck := false
  run := do return .temporary (byteAt (← loadView context view byteLength))

/-- A computed integer stored in a temporary object. -/
def materialize (value : Emission IntegerCode) (byteLength : Nat) : Emission ViewCode := do
  context.integerType byteLength
  let code ← value
  return {
    byteLength
    requiresAccessCheck := false
    run := do return .temporary (byteAt (← code.run)) }

def pointerOfInteger (value : Emission IntegerCode) : Emission (Run (BitVec 64)) := do
  (← value).typed 64

def integerOfPointer (pointer : Run (BitVec 64)) (byteLength : Nat) : IntegerCode :=
  IntegerCode.resize { width := 64, run := pointer } true (byteLength * 8)

def integerOfCondition (condition : Run Bool) (byteLength : Nat) : IntegerCode where
  width := byteLength * 8
  run := (fun holds => BitVec.ofNat (byteLength * 8) (Bool.toNat holds)) <$> condition

/-- The code of a node that is only an integer: its View is a temporary object and its address an
integer converted to a pointer. -/
def integerExprCode (expression : Hir.Expr) (integer : Nat → Bool → Emission IntegerCode) :
    ExprCode where
  integer := integer
  pointer := pointerOfInteger (integer pointerByteLength expression.result.sourceUsesZeroExtension)
  view := if expression.byteLength = 0 then
      unsupported "cannot materialize a zero-length fixed View"
    else materialize context
      (integer expression.byteLength expression.result.sourceUsesZeroExtension)
      expression.byteLength
  condition := noCondition

/-- The code of a node whose integer is read from its View. -/
def viewExprCode (expression : Hir.Expr) (view : Emission ViewCode) : ExprCode where
  integer := fun byteLength isUnsigned => do
    context.integerType byteLength
    integerOfView context view byteLength isUnsigned
  pointer := pointerOfInteger (do
    context.integerType pointerByteLength
    integerOfView context view pointerByteLength expression.result.sourceUsesZeroExtension)
  view := view
  condition := noCondition

/-- The code of a floating node. -/
def floatExprCode (expression : Hir.Expr) : ExprCode where
  integer := fun _ _ => unsupported "unsupported integer expression"
  pointer := unsupported "unsupported integer expression"
  view := .ok {
    byteLength := expression.byteLength
    requiresAccessCheck := false
    run := do return .temporary (byteAt (← context.floatValue expression expression.byteLength)) }
  condition := noCondition

def emitIntegerLiteral (value : Spelling) (result : ViewSemantics) (byteLength : Nat)
    (isUnsigned : Bool) : Emission IntegerCode := do
  context.integerType byteLength
  match parseUnsignedIntegerLiteral value with
  | none => unsupported ("invalid integer literal '" ++ String.ofList value ++ "'")
  | some value =>
      return IntegerCode.resize
        { width := result.staticByteLength * 8, run := return BitVec.ofNat _ value }
        isUnsigned (byteLength * 8)

def emitCharacterLiteral (bytes : List Byte) (result : ViewSemantics) (byteLength : Nat) :
    Emission IntegerCode := do
  context.integerType byteLength
  match bytes with
  | [byte] =>
      if result.integerInterpretation ≠ .unsigned then
        unsupported "raw character literal cannot be used as an integer"
      else return { width := byteLength * 8, run := return byte.setWidth _ }
  | _ => unsupported "raw character literal cannot be used as an integer"

def characterExprCode (expression : Hir.Expr) (bytes : List Byte) (result : ViewSemantics) :
    ExprCode :=
  { integerExprCode context expression
      (fun byteLength _ => emitCharacterLiteral context bytes result byteLength) with
    view := .ok {
      byteLength := result.staticByteLength
      requiresAccessCheck := false
      run := return .temporary fun index => bytes.getD index 0 } }

def stringExprCode (bytes : List Byte) : ExprCode where
  integer := fun _ _ => unsupported "unsupported integer expression"
  pointer := .ok (return context.stringAddress bytes)
  view := .ok {
    byteLength := bytes.length + 1
    requiresAccessCheck := false
    run := return .located (context.stringAddress bytes) }
  condition := noCondition

/-- Whether an access to a name goes through native pointer storage. -/
def accessesPointer (storage : Storage) (offset byteLength : Nat) : Bool :=
  storage.isPointerStorage && offset == 0 && byteLength == pointerByteLength

def loadVariable (storage : Storage) (name : String) (offset byteLength : Nat) :
    Run (BitVec (byteLength * 8)) := do
  let address ← readPointer context storage name offset byteLength
  (Place.located address).load byteLength

def emitVariable (binding : Hir.Binding) (offset : Nat) (result : ViewSemantics)
    (byteLength : Nat) (isUnsigned : Bool) : Emission IntegerCode := do
  context.integerType byteLength
  let storage ← context.findStorage binding.bindingName
  context.integerType result.staticByteLength
  return IntegerCode.resize
    { width := result.staticByteLength * 8
      run := loadVariable context storage binding.bindingName offset result.staticByteLength }
    isUnsigned (byteLength * 8)

def variableExprCode (binding : Hir.Binding) (offset : Nat) (result : ViewSemantics) : ExprCode where
  integer := emitVariable context binding offset result
  pointer := do
    let storage ← context.findStorage binding.bindingName
    if accessesPointer storage offset result.staticByteLength then
      return loadVariable context storage binding.bindingName offset 8
    else if result.staticByteLength ≠ pointerByteLength ∧ !result.isIntegerNumeric ∧
        result.category ≠ .boolean then
      return bindingPointer storage binding.bindingName offset
    else
      pointerOfInteger (emitVariable context binding offset result pointerByteLength
        result.sourceUsesZeroExtension)
  view := do
    let storage ← context.findStorage binding.bindingName
    return {
      byteLength := result.staticByteLength
      requiresAccessCheck := storage.requiresAccessCheck
      run := Place.located <$> bindingPointer storage binding.bindingName offset }
  condition := noCondition

def emitAddressOf (binding : Hir.Binding) (offset : Nat) : Emission (Run (BitVec 64)) := do
  let storage ← context.findStorage binding.bindingName
  return bindingPointer storage binding.bindingName offset

def addressOfExprCode (expression : Hir.Expr) (binding : Hir.Binding) (offset : Nat) : ExprCode :=
  { integerExprCode context expression (fun byteLength _ => do
      context.integerType byteLength
      return integerOfPointer (← emitAddressOf context binding offset) byteLength) with
    pointer := emitAddressOf context binding offset }

/-- A dereference is checked unless the emitter knows its range. -/
def emitDeref (address : Hir.Expr) (addressCode : ExprCode) (result : ViewSemantics)
    (byteLength : Nat) (isUnsigned : Bool) : Emission IntegerCode := do
  context.integerType byteLength
  let pointer ← addressCode.pointer
  context.integerType result.staticByteLength
  let isRequired := !hasKnownStaticAddressRange context address result.staticByteLength
  return IntegerCode.resize
    { width := result.staticByteLength * 8
      run := do
        let location ← pointer
        context.checkLoad isRequired location result.staticByteLength
        (Place.located location).load result.staticByteLength }
    isUnsigned (byteLength * 8)

def derefExprCode (expression address : Hir.Expr) (addressCode : ExprCode)
    (result : ViewSemantics) : ExprCode :=
  { integerExprCode context expression (emitDeref context address addressCode result) with
    view := do
      let pointer ← addressCode.pointer
      return {
        byteLength := result.staticByteLength
        requiresAccessCheck := !hasKnownStaticAddressRange context address result.staticByteLength
        run := Place.located <$> pointer } }

/-- Whether any byte of a View is nonzero. -/
def anyNonZero (machine : Machine) (place : Place) (byteLength : Nat) : Bool :=
  (List.range byteLength).any fun index => place.byte machine index != 0

def emitCondition (view : Emission ViewCode) : Emission (Run Bool) := do
  let view ← view
  return do
    let place ← view.run
    context.checkViewLoad view.requiresAccessCheck place view.byteLength
    return anyNonZero (← get) place view.byteLength

def booleanTestExprCode (expression : Hir.Expr) (operandCode : ExprCode) : ExprCode :=
  let condition := emitCondition context operandCode.view
  { integerExprCode context expression (fun byteLength _ => do
      context.integerType byteLength
      return integerOfCondition (← condition) byteLength) with
    condition := condition }

section Binary

/-- The interpretation a typed spelling gives to the operation. -/
def typedIntegerInterpretation (op : OperatorSpelling) : IntegerInterpretation :=
  match op.typed with
  | some { marker := .u, .. } => .unsigned
  | some { marker := .d, .. } => .signed
  | _ => .none

def unsignedOperation (op : OperatorSpelling) (left right : Hir.Expr) : Bool :=
  match typedIntegerInterpretation op with
  | .unsigned => true
  | .signed => false
  | _ => left.isUnsigned || right.isUnsigned

def operationByteLength (op : OperatorSpelling) (left right : Hir.Expr) (result : ViewSemantics) :
    Nat :=
  if op.symbol.isComparison then max left.byteLength right.byteLength else result.staticByteLength

def emitLogical (op : BinaryOperator) (left right : Emission (Run Bool)) (byteLength : Nat) :
    Emission IntegerCode := do
  let left ← left
  let right ← right
  return integerOfCondition (do
    if op = .logicalAnd then
      if ← left then right else return false
    else if ← left then return true else right) byteLength

def compareBytes (left right : Nat → Byte) : Nat → Nat → Int
  | _, 0 => 0
  | index, count + 1 =>
      if left index = right index then compareBytes left right (index + 1) count
      else if (left index).ult (right index) then -1 else 1

def orderPredicate (op : BinaryOperator) (order : Int) : Bool :=
  match op with
  | .equal => order = 0
  | .notEqual => order ≠ 0
  | .less => order < 0
  | .lessEqual => order ≤ 0
  | .greater => 0 < order
  | _ => 0 ≤ order

/-- `memcmp` on the common length, then the lengths. -/
def bytesOrder (left right : ViewCode) : Run Int := do
  let leftPlace ← left.run
  let rightPlace ← right.run
  let common := min left.byteLength right.byteLength
  context.checkViewLoad left.requiresAccessCheck leftPlace common
  context.checkViewLoad right.requiresAccessCheck rightPlace common
  let machine ← get
  let prefixOrder := compareBytes (leftPlace.byte machine) (rightPlace.byte machine) 0 common
  return if prefixOrder = 0 then
    if left.byteLength < right.byteLength then -1
    else if right.byteLength < left.byteLength then 1 else 0
  else prefixOrder

def hasTerminator (machine : Machine) (place : Place) (byteLength : Nat) : Bool :=
  (List.range byteLength).any fun index => place.byte machine index == 0

def cStringViewsOrder (left right : ViewCode) : Run Int := do
  let leftPlace ← left.run
  let rightPlace ← right.run
  let machine ← get
  if context.checked && !(hasTerminator machine leftPlace left.byteLength &&
      hasTerminator machine rightPlace right.byteLength) then
    throw .unterminatedString
  return context.cStringOrder machine leftPlace rightPlace

def emitViewComparison (op : BinaryOperator) (isCString : Bool) (left right : Emission ViewCode)
    (byteLength : Nat) : Emission IntegerCode := do
  let left ← left
  let right ← right
  if !op.isComparison then
    unsupported ("unsupported byte comparison operator '" ++ op.text ++ "'")
  else
    return integerOfCondition
      (orderPredicate op <$>
        if isCString then cStringViewsOrder context left right else bytesOrder context left right)
      byteLength

/-- An integer operation: both operands at one width, each extended by its own interpretation. -/
def emitIntegerBinary (op : OperatorSpelling) (left right : Hir.Expr)
    (leftCode rightCode : ExprCode) (result : ViewSemantics) (byteLength : Nat) :
    Emission IntegerCode := do
  let width := operationByteLength op left right result
  context.integerType width
  let leftValue ← (← leftCode.integer width left.isUnsigned).typed (width * 8)
  let rightValue ← (← rightCode.integer width right.isUnsigned).typed (width * 8)
  let isUnsigned := unsignedOperation op left right
  if op.symbol.isComparison then
    return integerOfCondition (do
      let left ← leftValue
      let right ← rightValue
      return comparison op.symbol isUnsigned left right) byteLength
  else
    return IntegerCode.resize
      { width := width * 8
        run := do
          let left ← leftValue
          let rightOperand ← rightValue
          liftM (integerInstruction context.checked right.isUnsigned op.symbol isUnsigned left
            rightOperand) }
      isUnsigned (byteLength * 8)

/-- The offset of an indexed or sliced View, checked against its bounds in checked mode. -/
def boundedOffset (bounds : Hir.ViewOffsetBounds) (offset : IntegerCode) : Run (BitVec 64) := do
  let value ← offset.run
  let signed := value.signExtend (max 64 offset.width)
  if context.checked && !(bounds.resultByteLength ≤ bounds.sourceByteLength &&
      0 ≤ signed.toInt && signed.toNat ≤ bounds.sourceByteLength - bounds.resultByteLength) then
    throw .viewOffset
  return if context.checked then signed.setWidth 64 else value.signExtend 64

/-- The offset of an address: at its own length when it is checked against bounds. -/
def emitByteOffset (right : Hir.Expr) (rightCode : ExprCode) :
    Option Hir.ViewOffsetBounds → Emission (Run (BitVec 64))
  | some bounds => do
      let code ← rightCode.integer right.byteLength right.result.sourceUsesZeroExtension
      return boundedOffset context bounds code
  | none => do
      let code ← rightCode.integer pointerByteLength right.result.sourceUsesZeroExtension
      code.typed 64

/-- The address of a pointer-derived offset: base and offset are added modulo `2 ^ 64`. -/
def emitAddressOffset (right : Hir.Expr) (leftCode rightCode : ExprCode)
    (bounds : Option Hir.ViewOffsetBounds) : Emission (Run (BitVec 64)) := do
  let base ← leftCode.pointer
  let offset ← emitByteOffset context right rightCode bounds
  return do
    let address ← base
    return address + (← offset)

def emitBinary (left : Hir.Expr) (op : OperatorSpelling) (right : Hir.Expr)
    (result : ViewSemantics) (kind : Hir.StandardOperationKind)
    (bounds : Option Hir.ViewOffsetBounds) (leftCode rightCode : ExprCode) (byteLength : Nat) :
    Emission IntegerCode := do
  context.integerType byteLength
  if bounds.isSome then
    let pointer ← if kind = .addressOffset then
        emitAddressOffset context right leftCode rightCode bounds
      else unsupported ("unsupported binary operator '" ++ op.text ++ "'")
    return integerOfPointer pointer byteLength
  else if op.symbol.isLogical then
    emitLogical op.symbol leftCode.condition rightCode.condition byteLength
  else if kind = .standardBytesCompare ∨ kind = .standardCStringCompare then
    emitViewComparison context op.symbol (kind = .standardCStringCompare) leftCode.view
      rightCode.view byteLength
  else emitIntegerBinary context op left right leftCode rightCode result byteLength

def binaryExprCode (expression left : Hir.Expr) (op : OperatorSpelling) (right : Hir.Expr)
    (result : ViewSemantics) (kind : Hir.StandardOperationKind)
    (bounds : Option Hir.ViewOffsetBounds) (leftCode rightCode : ExprCode) : ExprCode :=
  let code := integerExprCode context expression fun byteLength _ =>
    emitBinary context left op right result kind bounds leftCode rightCode byteLength
  if kind = .addressOffset then
    { code with pointer := emitAddressOffset context right leftCode rightCode bounds }
  else code

end Binary

def emitUnary (op : Hir.UnaryOperator) (operandCode : ExprCode) (result : ViewSemantics)
    (byteLength : Nat) (isUnsigned : Bool) : Emission IntegerCode := do
  context.integerType byteLength
  if op = .not then
    let condition ← operandCode.condition
    return integerOfCondition (Bool.not <$> condition) byteLength
  else
    let operand ← operandCode.integer result.staticByteLength isUnsigned
    let value := if op = .negate then (fun pattern => -pattern) <$> operand.run
      else (fun pattern => ~~~pattern) <$> operand.run
    return IntegerCode.resize { width := operand.width, run := value } isUnsigned (byteLength * 8)

/-- Whether a ternary selects bytes instead of an integer. -/
def isRawTernary (result : ViewSemantics) : Bool :=
  result.integerInterpretation == .rawOnly || result.category == .bytes ||
    result.category == .cString || result.category == .userTemplate || result.category == .rawBytes

/-- The branches are emitted at the length of the ternary, the merged value at the requested one. -/
def emitIntegerTernary (conditionCode thenCode elseCode : ExprCode) (result : ViewSemantics)
    (byteLength : Nat) (isUnsigned : Bool) : Emission IntegerCode := do
  let condition ← conditionCode.condition
  let thenValue ← thenCode.integer result.staticByteLength isUnsigned
  let elseValue ← elseCode.integer result.staticByteLength isUnsigned
  let thenRun ← thenValue.typed (byteLength * 8)
  let elseRun ← elseValue.typed (byteLength * 8)
  return { width := byteLength * 8, run := do if ← condition then thenRun else elseRun }

def emitTernaryView (conditionCode thenCode elseCode : ExprCode) (result : ViewSemantics) :
    Emission ViewCode :=
  if result.isDynamic ∨ result.staticByteLength = 0 then
    unsupported "ternary requires a fixed positive View length"
  else do
    let condition ← conditionCode.condition
    let thenView ← thenCode.view
    let elseView ← elseCode.view
    if thenView.byteLength ≠ result.staticByteLength ∨
        elseView.byteLength ≠ result.staticByteLength then
      unsupported "ternary branch does not match its View length"
    else
      let copy (view : ViewCode) := (copyView context view result.staticByteLength).run
      return {
        byteLength := result.staticByteLength
        requiresAccessCheck := false
        run := do if ← condition then copy thenView else copy elseView }

def emitTernary (conditionCode thenCode elseCode : ExprCode) (result : ViewSemantics)
    (byteLength : Nat) (isUnsigned : Bool) : Emission IntegerCode := do
  context.integerType byteLength
  if isRawTernary result then
    integerOfView context (emitTernaryView context conditionCode thenCode elseCode result)
      byteLength isUnsigned
  else emitIntegerTernary conditionCode thenCode elseCode result byteLength isUnsigned

def ternaryExprCode (expression : Hir.Expr) (conditionCode thenCode elseCode : ExprCode)
    (result : ViewSemantics) : ExprCode :=
  { integerExprCode context expression
      (emitTernary context conditionCode thenCode elseCode result) with
    view := emitTernaryView context conditionCode thenCode elseCode result }

def emitIntegerCast (operand : Hir.Expr) (operandCode : ExprCode) (isSigned : Bool)
    (result : ViewSemantics) (byteLength : Nat) : Emission IntegerCode := do
  context.integerType byteLength
  let source ← operandCode.integer operand.byteLength operand.isUnsigned
  context.integerType result.staticByteLength
  return (source.resize operand.isUnsigned (result.staticByteLength * 8)).resize (!isSigned)
    (byteLength * 8)

/-- The unsigned interpretation reads a copy of the bytes. -/
def emitUnsignedView (operandCode : ExprCode) : Emission ViewCode := do
  let source ← operandCode.view
  return copyView context source source.byteLength

def templateViewExprCode (expression operand : Hir.Expr) (operandCode : ExprCode) : ExprCode :=
  let code := viewExprCode context expression operandCode.view
  if operand.result.category = .address then { code with pointer := operandCode.pointer } else code

def emitFloatCompare (left : Hir.Expr) (op : OperatorSpelling) (right : Hir.Expr)
    (operandByteLength byteLength : Nat) : Emission IntegerCode := do
  context.integerType byteLength
  return integerOfCondition (do
    let left ← context.floatValue left operandByteLength
    let right ← context.floatValue right operandByteLength
    return context.floatComparison op.symbol operandByteLength left right) byteLength

def emitCall (callee : String) (result : ViewSemantics) (byteLength : Nat) (isUnsigned : Bool) :
    Emission IntegerCode := do
  context.integerType byteLength
  if result.category = .floating then unsupported "function call result is not an integer"
  else
    return IntegerCode.resize
      { width := result.staticByteLength * 8, run := context.callee callee result.staticByteLength }
      (isUnsigned || context.returnsPointer callee) (byteLength * 8)

def callExprCode (expression : Hir.Expr) (callee : String) (result : ViewSemantics) : ExprCode :=
  if result.category = .floating then
    { floatExprCode context expression with
      pointer := unsupported "function call result is not a pointer" }
  else
    { integerExprCode context expression (emitCall context callee result) with
      pointer := .ok (BitVec.setWidth 64 <$> context.callee callee result.staticByteLength) }

/-- The View of an assignment is a copy of its result after the stores. -/
def emitAssignmentView (stores : Emission (Run Unit)) (resultCode : ExprCode)
    (semantics : ViewSemantics) : Emission ViewCode := do
  let stores ← stores
  let source ← resultCode.view
  if source.byteLength ≠ semantics.staticByteLength then
    unsupported "assignment result does not match its fixed View length"
  else
    let copy := copyView context source semantics.staticByteLength
    return { copy with run := do stores; copy.run }

end HitSimple.Codegen

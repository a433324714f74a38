import HitSimple.Codegen.Expressions

namespace HitSimple.Codegen
open FixedWidth

variable (context : Context)

def emitIntegerStore (binding : Hir.Binding) (targetByteLength offset : Nat) (value : Hir.Expr)
    (source : Option ViewSemantics) (valueCode : ExprCode) : Emission (Run Unit) := do
  let storage ← context.findStorage binding.bindingName
  if accessesPointer storage offset targetByteLength then
    let pointer ← valueCode.pointer
    return do
      let address ← pointer
      writeBytes context storage binding.bindingName offset 8 address
  else
    let sourceUnsigned := (source.getD value.result).isUnsigned
    let code ← valueCode.integer targetByteLength sourceUnsigned
    let value ← code.typed (targetByteLength * 8)
    return do
      let word ← value
      writeBytes context storage binding.bindingName offset targetByteLength word

def emitPointerStore (address : Hir.Expr) (targetByteLength : Nat) (value : Hir.Expr)
    (addressCode valueCode : ExprCode) : Emission (Run Unit) := do
  let pointer ← addressCode.pointer
  context.integerType targetByteLength
  let code ← valueCode.integer targetByteLength value.result.sourceUsesZeroExtension
  let value ← code.typed (targetByteLength * 8)
  let isRequired := !hasKnownStaticAddressRange context address targetByteLength
  return do
    let location ← pointer
    let word ← value
    context.checkStore isRequired location targetByteLength
    modify fun machine =>
      { machine with memory := machine.memory.store location targetByteLength word }

def emitFloatStore (binding : Hir.Binding) (targetByteLength offset : Nat) (value : Hir.Expr) :
    Emission (Run Unit) := do
  let storage ← context.findStorage binding.bindingName
  return do
    let word ← context.floatValue value targetByteLength
    writeBytes context storage binding.bindingName offset targetByteLength word

/-- One byte after another, each with its own check. -/
def writeEachByte (storage : Storage) (name : String) (offset : Nat) (bytes : Nat → Byte) :
    Nat → Nat → Run Unit
  | _, 0 => return ()
  | index, remaining + 1 => do
      writeBytes context storage name (offset + index) 1 (bytes index)
      writeEachByte storage name offset bytes (index + 1) remaining

/-- A normalised Boolean in the first byte, zero in the others. -/
def emitBoolStore (binding : Hir.Binding) (targetByteLength offset : Nat) (valueCode : ExprCode) :
    Emission (Run Unit) := do
  let storage ← context.findStorage binding.bindingName
  let condition ← valueCode.condition
  return do
    let holds ← condition
    let normalized : Byte := if holds then 1 else 0
    writeEachByte context storage binding.bindingName offset
      (fun index => if index = 0 then normalized else 0) 0 targetByteLength

def emitViewCopyStore (binding : Hir.Binding) (targetByteLength offset : Nat)
    (valueCode : ExprCode) : Emission (Run Unit) := do
  let storage ← context.findStorage binding.bindingName
  let source ← valueCode.view
  if source.byteLength ≠ targetByteLength then
    unsupported "byte-copy source length does not match target length"
  else return do
    let word ← loadView context source targetByteLength
    writeBytes context storage binding.bindingName offset targetByteLength word

/-- The bytes `%s=` leaves in its target: those before the first zero, then zeros. -/
def stringBytes (source : List Byte) (targetByteLength : Nat) : Nat → Byte :=
  let copied := (source.takeWhile fun byte => byte != 0).take (targetByteLength - 1)
  fun index => copied.getD index 0

def emitStringStore (binding : Hir.Binding) (targetByteLength offset : Nat) (bytes : List Byte) :
    Emission (Run Unit) := do
  let storage ← context.findStorage binding.bindingName
  return writeEachByte context storage binding.bindingName offset
    (stringBytes bytes targetByteLength) 0 targetByteLength

/-- Copies up to the first zero, padding what is left of the target. -/
def copyString (storage : Storage) (name : String) (offset targetByteLength : Nat) (place : Place)
    (isRequired : Bool) (sourceByteLength : Nat) : Nat → Nat → Bool → Run Unit
  | _, 0, _ => return ()
  | index, remaining + 1, active => do
      let reads := index + 1 < targetByteLength ∧ index < sourceByteLength ∧ active
      if reads then
        match place with
        | .located address =>
            context.checkLoad isRequired (address + BitVec.ofNat 64 index) 1
        | .temporary _ => pure ()
      let machine ← get
      let byte := if reads then place.byte machine index else 0
      writeBytes context storage name (offset + index) 1 byte
      copyString storage name offset targetByteLength place isRequired sourceByteLength (index + 1)
        remaining (if reads then byte != 0 else active)

def emitStringCopyStore (binding : Hir.Binding) (targetByteLength offset : Nat)
    (source : Hir.Expr) (sourceCode : ExprCode) : Emission (Run Unit) := do
  let storage ← context.findStorage binding.bindingName
  let view ← sourceCode.view
  return do
    let place ← view.run
    if context.checked && source.result.templateName == .cstr &&
        !hasTerminator (← get) place view.byteLength then
      throw .unterminatedString
    copyString context storage binding.bindingName offset targetByteLength place
      view.requiresAccessCheck view.byteLength 0 targetByteLength true

def emitTemplateAssignment (callee : String) (binding : Hir.Binding) (offset : Nat)
    (valueCode : ExprCode) : Emission (Run Unit) := do
  let storage ← context.findStorage binding.bindingName
  let source ← valueCode.view
  return do
    let address ← bindingPointer storage binding.bindingName offset
    let place ← source.run
    context.checkViewLoad source.requiresAccessCheck place source.byteLength
    context.assignTemplate callee address place

/-- Rebinding evaluates the address at its own width before it is adjusted. -/
def emitBindingRebind (binding : Hir.Binding) (address : Hir.Expr) (addressCode : ExprCode) :
    Emission (Run Unit) := do
  let storage ← context.findStorage binding.bindingName
  if !storage.isRebound then
    unsupported ("missing binding storage for '" ++ binding.bindingName ++ "'")
  else
    let code ← addressCode.integer address.byteLength address.isUnsigned
    return do
      let value ← code.run
      modify fun machine => { machine with
        bindings := Function.update machine.bindings binding.bindingName
          (resize address.isUnsigned 64 value) }

/-- A declaration starts a rebound name at its definition address. -/
def emitLocalMemory (binding : Hir.Binding) : Emission (Run Unit) := do
  let storage ← context.findStorage binding.bindingName
  return if storage.isRebound then
    modify fun machine => { machine with
      bindings := Function.update machine.bindings binding.bindingName storage.address }
  else return ()

mutual

/-- The code of an expression, from the code of its operands. -/
def exprCode : Hir.Expr → ExprCode
  | expression@(.integerLiteral value result) =>
      integerExprCode context expression (emitIntegerLiteral context value result)
  | expression@(.characterLiteral bytes result) => characterExprCode context expression bytes result
  | .stringLiteral bytes _ => stringExprCode context bytes
  | expression@(.floatLiteral _ _) => floatExprCode context expression
  | .variableRef binding offset result => variableExprCode context binding offset result
  | expression@(.addressOf binding _ offset _) =>
      addressOfExprCode context expression binding offset
  | expression@(.deref address result) =>
      derefExprCode context expression address (exprCode address) result
  | expression@(.booleanTest operand _) => booleanTestExprCode context expression (exprCode operand)
  | expression@(.binary left op right result kind bounds) =>
      binaryExprCode context expression left op right result kind bounds (exprCode left)
        (exprCode right)
  | expression@(.unary op operand result) =>
      integerExprCode context expression (emitUnary context op (exprCode operand) result)
  | expression@(.ternary condition thenExpr elseExpr result) =>
      ternaryExprCode context expression (exprCode condition) (exprCode thenExpr)
        (exprCode elseExpr) result
  | expression@(.unsigned operand _) =>
      viewExprCode context expression (emitUnsignedView context (exprCode operand))
  | expression@(.integerCast operand isSigned result) =>
      integerExprCode context expression fun byteLength _ =>
        emitIntegerCast context operand (exprCode operand) isSigned result byteLength
  | expression@(.templateView operand _) =>
      templateViewExprCode context expression operand (exprCode operand)
  | expression@(.toFloat _ _ _ _) => floatExprCode context expression
  | expression@(.floatBinary _ _ _ _) => floatExprCode context expression
  | expression@(.floatCompare left op right operandByteLength _) =>
      integerExprCode context expression fun byteLength _ =>
        emitFloatCompare context left op right operandByteLength byteLength
  | expression@(.call callee result) => callExprCode context expression callee result
  | expression@(.assignment stores result semantics) =>
      viewExprCode context expression
        (emitAssignmentView context (statementCode stores) (exprCode result) semantics)

def statementCode : Hir.Statement → Emission (Run Unit)
  | .integerStore binding targetByteLength offset value source =>
      emitIntegerStore context binding targetByteLength offset value source (exprCode value)
  | .pointerStore address targetByteLength value =>
      emitPointerStore context address targetByteLength value (exprCode address) (exprCode value)
  | .floatStore binding targetByteLength offset value =>
      emitFloatStore context binding targetByteLength offset value
  | .boolStore binding targetByteLength offset value =>
      emitBoolStore context binding targetByteLength offset (exprCode value)
  | .viewCopyStore binding targetByteLength offset value =>
      emitViewCopyStore context binding targetByteLength offset (exprCode value)
  | .stringStore binding targetByteLength offset bytes =>
      emitStringStore context binding targetByteLength offset bytes
  | .stringCopyStore binding targetByteLength offset source =>
      emitStringCopyStore context binding targetByteLength offset source (exprCode source)
  | .implAssignment callee binding _ offset value =>
      emitTemplateAssignment context callee binding offset (exprCode value)
  | .localMemory binding _ _ => emitLocalMemory context binding
  | .bindingRebind binding address => emitBindingRebind context binding address (exprCode address)
  | .captureView _ source => do
      let view ← (exprCode source).view
      return do let _ ← view.run
  | .sequence first second => do
      let first ← statementCode first
      let second ← statementCode second
      return do first; second

end

attribute [simp] exprCode statementCode

/-- The code of an integer value of the requested length, extended as the requester asks. -/
def emitIntegerValue (expression : Hir.Expr) (byteLength : Nat) (isUnsigned : Bool) :
    Emission IntegerCode :=
  (exprCode context expression).integer byteLength isUnsigned

def emitPointerValue (expression : Hir.Expr) : Emission (Run (BitVec 64)) :=
  (exprCode context expression).pointer

def emitViewValue (expression : Hir.Expr) : Emission ViewCode :=
  (exprCode context expression).view

def emitConditionValue (expression : Hir.Expr) : Emission (Run Bool) :=
  (exprCode context expression).condition

end HitSimple.Codegen

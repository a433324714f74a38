import HitSimple.Sema.BinaryRules

namespace HitSimple.Sema
open Literal

/-- An address and the number of bytes a pointer-form target designates there. -/
structure PointerTarget where
  address : Hir.Expr
  byteLength : Nat
  subject : String

/-- What the analyser makes of an expression in each position it can stand in. -/
structure AnalyzedForms where
  expression : Analysis Hir.Expr
  floatOperand : Nat → Analysis Hir.Expr
  addressOf : Analysis Hir.Expr
  pointerTarget : Option (Analysis PointerTarget)

structure AssignmentOperator where
  byteLength : Nat
  compound : Option BinaryOperator
  deriving DecidableEq, Repr

def integerAssignmentOperator : Ast.AssignmentSpelling → Option AssignmentOperator
  | .typed { width := none, marker := .d } none | .typed { width := none, marker := .u } none =>
      some { byteLength := 4, compound := none }
  | .typed { width, marker } (some symbol) =>
      let byteLength := width.getD 4
      if marker = .f ∨ !symbol.isIntegerArithmetic then none
      else if byteLength = 1 ∨ byteLength = 2 ∨ byteLength = 4 ∨ byteLength = 8 then
        some { byteLength, compound := some symbol }
      else none
  | _ => none

def floatAssignmentByteLength : Ast.AssignmentSpelling → Option Nat
  | .typed { width := none, marker := .f } none => some 0
  | .typed { width := some byteLength, marker := .f } none =>
      if isLoweredFloatByteLength byteLength then some byteLength else none
  | _ => none

/-- Whether the byte count of a compound assignment is omitted, as in `%d+=`. -/
def omitsWidth : Ast.AssignmentSpelling → Bool
  | .typed { width := none, marker := .d } _ | .typed { width := none, marker := .u } _ => true
  | _ => false

def integerFits (spelling : Spelling) (byteLength : Nat) : Bool :=
  match parseUnsignedIntegerLiteral spelling with
  | none => false
  | some value =>
      if byteLength = 0 then false
      else if 8 < byteLength then true
      else value ≤ 2 ^ (byteLength * 8 - 1) - 1

def unsignedIntegerFits (spelling : Spelling) (byteLength : Nat) : Bool :=
  match parseUnsignedIntegerLiteral spelling with
  | none => false
  | some value =>
      if byteLength = 0 ∨ 8 < byteLength then false else value ≤ 2 ^ (byteLength * 8) - 1

/-- The spelling of `-9223372036854775808`, whose magnitude fits no signed literal. -/
def isI64MinLiteral : Ast.Expr → Bool
  | .unary .negate (.integerLiteral value) => value == decimal (2 ^ 63)
  | _ => false

def lowerI64MinLiteral : Hir.Expr :=
  .unary .negate (.integerLiteral (decimal (2 ^ 63)) (signedIntegerResult 8))
    (signedIntegerResult 8)

def resolveAddressableReference (scope : Scope) : Ast.Expr → Analysis (Option MemoryReference)
  | .identifier name => match scope.lookup name with
      | none => .error ("use of undeclared variable '" ++ name ++ "'")
      | some symbol => .ok (some {
          name, binding := symbol.binding, byteLength := symbol.byteLength, offset := 0,
          templateName := symbol.templateName })
  | .asView operand templateName =>
      match resolveAddressableReference scope operand with
      | .error message => .error message
      | .ok none => .error "temporary template view is not addressable"
      | .ok (some reference) =>
          if templateName = .none ∨ templateName = .bytes ∨ templateName = .cstr then
            .ok (some { reference with templateName })
          else match scope.templateByteLength templateName with
            | none => .error ("unknown template '" ++ templateName.text ++ "'")
            | some viewLength =>
                if viewLength ≠ reference.byteLength then
                  .error ("expression template view byte length does not match template '" ++
                    templateName.text ++ "'")
                else .ok (some { reference with templateName })
  | .member object path => match scope.resolveMember object path with
      | .error message => .error message
      | .ok reference => .ok (some reference)
  | _ => .ok none

/-- The template name read off the syntax of an expression. -/
def operatorTemplateName (scope : Scope) : Ast.Expr → Option TemplateName
  | .stringLiteral _ => some .cstr
  | .identifier name => match scope.lookup name with
      | some symbol => if symbol.templateName = .none then none else some symbol.templateName
      | none => none
  | .asView _ templateName => if templateName = .none then none else some templateName
  | .call callee => match scope.functions callee with
      | some [item] => if item.templateName = .none then none else some item.templateName
      | _ => none
  | .binary left op right =>
      match operatorTemplateName scope left, operatorTemplateName scope right with
      | some leftTemplate, some rightTemplate =>
          (scope.implOps op leftTemplate rightTemplate).map fun info => info.result.templateName
      | _, _ => none
  | .member object path => match scope.resolveMember object path with
      | .ok reference => if reference.templateName = .none then none else some reference.templateName
      | .error _ => none
  | _ => none

def isHandleExpression (scope : Scope) : Ast.Expr → Bool
  | .asView _ templateName => templateName == .handle
  | .identifier name => match scope.lookup name with
      | some symbol => symbol.templateName == .handle
      | none => false
  | .member object path => match scope.resolveMember object path with
      | .ok reference => reference.templateName == .handle
      | .error _ => false
  | .call callee => match scope.functions callee with
      | some [item] => item.templateName == .handle
      | _ => false
  | _ => false

/-- The assignment to an `addr` target keeps the base of `base? + offset` a pointer. -/
def preservePointerDerivedAddress : Hir.Expr → Hir.Expr
  | expression@(.binary (.unsigned base _) op offset _ kind _) =>
      if op.typed.isNone && (op.symbol == .add || op.symbol == .subtract) &&
          base.result.category == .address && offset.result.isIntegerNumeric then
        let byteOffset :=
          if op.symbol == .subtract && kind != .addressOffset then
            .unary .negate offset (signedIntegerResult pointerByteLength)
          else offset
        .binary base op byteOffset (fixedResult .addr pointerByteLength) .addressOffset none
      else expression
  | expression => expression

/-- Checks a floating operand that was analysed without a width of its own. -/
def checkFloatOperand (byteLength : Nat) (operand : Hir.Expr) : Analysis Hir.Expr :=
  if operand.result.category != .floating then .error "float operand is not a float expression"
  else if operand.byteLength ≠ byteLength then
    .error ("float operand byte length " ++ toString operand.byteLength ++
      " does not match required byte length " ++ toString byteLength)
  else .ok operand

def lowerFixedFloating (scope : Scope) (target : MemoryReference) (value : Ast.Expr)
    (forms : AnalyzedForms) (loweredValue : Option Hir.Expr) : Analysis Hir.Expr :=
  if !isLoweredFloatByteLength target.byteLength then
    .error ("float byte length " ++ toString target.byteLength ++
      " is not supported yet for '" ++ target.name ++ "'")
  else if ((operatorTemplateName scope value).getD .none).isFloat then
    match loweredValue.elim forms.expression Except.ok with
    | .error message => .error message
    | .ok lowered =>
        if lowered.result.category != .floating then
          .error "floating assignment source is not a floating View"
        else if lowered.byteLength = target.byteLength then .ok lowered
        else .ok (.toFloat lowered false true (fixedResult target.templateName target.byteLength))
  else match loweredValue, value.isFloatLiteral with
    | some lowered, false => checkFloatOperand target.byteLength lowered
    | _, _ => forms.floatOperand target.byteLength

def lowerFixedUserTemplate (scope : Scope) (target : MemoryReference) (value : Ast.Expr)
    (lowered : Hir.Expr) : Analysis Hir.Expr :=
  let sourceTemplate := (operatorTemplateName scope value).getD .none
  if !sourceTemplate.isUser then
    .error "user template assignment requires a user template source"
  else if sourceTemplate ≠ target.templateName then
    .error "default user template assignment requires matching templates"
  else if lowered.result.length ≠ .static target.byteLength then
    .error "user template assignment requires matching template byte length"
  else .ok lowered

/-- Whether a literal source is in the range of its target. -/
def literalFits (target : MemoryReference) : Ast.Expr → Bool
  | .integerLiteral spelling =>
      if target.templateName.isUnsigned then unsignedIntegerFits spelling target.byteLength
      else integerFits spelling target.byteLength
  | .charLiteral bytes => bytes.length ≤ target.byteLength
  | _ => true

def literalMisfit (target : MemoryReference) : Ast.Expr → Diagnostic
  | .integerLiteral spelling => "integer literal '" ++ String.ofList spelling ++
      "' does not fit in target '" ++ target.name ++ "'"
  | _ => "character literal byte length does not fit target '" ++ target.name ++ "'"

def lowerFixedInteger (scope : Scope) (target : MemoryReference) (value : Ast.Expr)
    (lowered : Hir.Expr) : Analysis Hir.Expr :=
  let sourceLength := lowered.byteLength
  if sourceLength = 0 then .error "right operand of '=' requires a fixed positive byte length"
  else if !literalFits target value then .error (literalMisfit target value)
  else if ((operatorTemplateName scope value).getD .none).isFloat &&
      sourceLength != target.byteLength then
    .error ("right operand of '=' byte length " ++ toString sourceLength ++
      " does not match target byte length " ++ toString target.byteLength)
  else if (target.templateName.isSigned || target.templateName.isUnsigned) &&
      lowered.result.category == .address then
    .error "integer default assignment does not accept an addr View"
  else if !lowered.result.isIntegerExpression then
    .error "right operand of '=' is not an integer expression"
  else if sourceLength ≠ target.byteLength then
    .ok (.integerCast lowered true (signedIntegerResult target.byteLength))
  else .ok lowered

/-- The converted source of a default assignment and whether it is stored as a float. -/
def lowerFixedViewAssignment (scope : Scope) (target : MemoryReference) (value : Ast.Expr)
    (forms : AnalyzedForms) (loweredValue : Option Hir.Expr) : Analysis (Hir.Expr × Bool) :=
  if target.templateName.isFloat || value.isFloatLiteral then
    (lowerFixedFloating scope target value forms loweredValue).map fun lowered => (lowered, true)
  else if target.templateName.isSigned && target.byteLength == 8 && isI64MinLiteral value then
    .ok (lowerI64MinLiteral, false)
  else match loweredValue.elim forms.expression Except.ok with
    | .error message => .error message
    | .ok lowered =>
        if target.templateName.isUser then
          (lowerFixedUserTemplate scope target value lowered).map fun source => (source, false)
        else (lowerFixedInteger scope target value lowered).map fun source => (source, false)

/-- The read-modify-write value of a pointer-form compound target; the address it reads from is
lowered anew. -/
def lowerCompoundPointerValue (address : Hir.Expr) (targetByteLength : Nat)
    (loweredValue : Hir.Expr) (assignmentOp : AssignmentOperator) (op : OperatorSpelling)
    (unsignedTarget : Bool) : Hir.Expr :=
  let read := Hir.Expr.deref address (mutableResult .none targetByteLength)
  let left := if unsignedTarget then
      .unsigned read (unsignedIntegerResult targetByteLength) else read
  .binary left op loweredValue
    (if unsignedTarget then unsignedIntegerResult assignmentOp.byteLength
      else signedIntegerResult assignmentOp.byteLength) .legacy none

def divisionByZeroLiteral (compound : BinaryOperator) (value : Ast.Expr) : Bool :=
  compound.isDivision && value.integerSpelling? == some ['0']

/-- Assignment through an index, slice or dereference target. -/
def lowerPointerAssignment (scope : Scope) (target : PointerTarget)
    (op : Ast.AssignmentSpelling) (unsignedTarget : Bool) (value : Ast.Expr)
    (loweredValue : Hir.Expr) : Analysis Hir.Statement :=
  if op = .default then
    if isHandleExpression scope value then
      .error "handle value may only be assigned to a handle target"
    else if !loweredValue.result.isIntegerExpression then
      .error (target.subject ++ " assignment value is not an integer expression")
    else .ok (.pointerStore target.address target.byteLength loweredValue)
  else match integerAssignmentOperator op with
    | none => .error ("unsupported " ++ target.subject ++ " assignment operator '" ++ op.text ++ "'")
    | some assignmentOp =>
        if isHandleExpression scope value then
          .error "handle value may only be assigned to a handle target"
        else if !loweredValue.result.isIntegerExpression then
          .error (target.subject ++ " assignment value is not an integer expression")
        else match assignmentOp.compound, op.compoundBinaryOperator with
          | some compound, some binaryOp =>
              if divisionByZeroLiteral compound value then
                .error "division by zero in assignment expression"
              else .ok (.pointerStore target.address target.byteLength
                (lowerCompoundPointerValue target.address target.byteLength loweredValue
                  assignmentOp binaryOp unsignedTarget))
          | _, _ => .ok (.pointerStore target.address target.byteLength loweredValue)

def lowerHandleAssignment (scope : Scope) (target : MemoryReference)
    (op : Ast.AssignmentSpelling) (value : Ast.Expr) (source : Analysis Hir.Expr) :
    Analysis Hir.Statement :=
  if op ≠ .default then
    .error ("handle target '" ++ target.name ++ "' only supports default assignment")
  else if !isHandleExpression scope value then
    .error ("handle target '" ++ target.name ++ "' can only be assigned from a handle value")
  else source.map fun lowered =>
    .integerStore target.binding target.byteLength target.offset lowered none

/-- `%s=` and the default assignment of `cstr`.  A source without storage of its own is
materialised first. -/
def lowerStringAssignment (target : MemoryReference) (op : Ast.AssignmentSpelling)
    (value : Ast.Expr) (source : Analysis Hir.Expr) : Analysis Hir.Statement :=
  match value with
  | .stringLiteral bytes =>
      .ok (.stringStore target.binding target.byteLength target.offset bytes)
  | _ => match source with
      | .error message => .error message
      | .ok lowered =>
          if op = .default ∧ lowered.result.templateName ≠ .cstr then
            .error "cstr default assignment requires a cstr source View"
          else match lowered with
            | .variableRef .. =>
                .ok (.stringCopyStore target.binding target.byteLength target.offset lowered)
            | _ =>
                if op ≠ .default then
                  .error ("right operand of '" ++ op.text ++ "' is not a string source")
                else if lowered.byteLength = 0 then
                  .error "cstr default assignment requires a fixed positive source View length"
                else
                  let temporary : Hir.Binding :=
                    { bindingName := "$assignment.string", storage := .local }
                  .ok (.sequence (.localMemory temporary lowered.byteLength .cstr)
                    (.sequence
                      (.viewCopyStore temporary lowered.byteLength 0 lowered)
                      (.stringCopyStore target.binding target.byteLength target.offset
                        (.variableRef temporary 0 (fixedResult .cstr lowered.byteLength)))))

def lowerBooleanAssignment (target : MemoryReference) (source : Analysis Hir.Expr) :
    Analysis Hir.Statement :=
  source.map fun lowered =>
    .boolStore target.binding target.byteLength target.offset (.booleanTest lowered booleanResult)

def lowerUserTemplateAssignment (scope : Scope) (target : MemoryReference) (name : String)
    (value : Ast.Expr) (forms : AnalyzedForms) (loweredValue : Option Hir.Expr) :
    Analysis Hir.Statement :=
  (lowerFixedViewAssignment scope target value forms loweredValue).map fun (source, _) =>
    match scope.implAssignments name with
    | some info =>
        .implAssignment info.symbolName target.binding target.byteLength target.offset source
    | none => .viewCopyStore target.binding target.byteLength target.offset source

def lowerDefaultAssignment (scope : Scope) (target : MemoryReference) (value : Ast.Expr)
    (forms : AnalyzedForms) (loweredValue : Option Hir.Expr) : Analysis Hir.Statement :=
  (lowerFixedViewAssignment scope target value forms loweredValue).map fun (source, isFloating) =>
    if isFloating then .floatStore target.binding target.byteLength target.offset source
    else .integerStore target.binding target.byteLength target.offset source (some source.result)

def lowerTypedFloatAssignment (target : MemoryReference) (floatLength : Nat)
    (forms : AnalyzedForms) : Analysis Hir.Statement :=
  let targetLength := if floatLength = 0 then target.byteLength else floatLength
  if !isLoweredFloatByteLength targetLength then
    .error ("float byte length " ++ toString targetLength ++ " is not supported yet for '" ++
      target.name ++ "'")
  else if targetLength ≠ target.byteLength then
    .error ("float assignment byte length does not match target '" ++ target.name ++ "'")
  else (forms.floatOperand target.byteLength).map fun source =>
    .floatStore target.binding target.byteLength target.offset source

def compoundWidth (op : Ast.AssignmentSpelling) (assignmentOp : AssignmentOperator)
    (targetByteLength : Nat) (loweredValue : Hir.Expr) : Nat :=
  if omitsWidth op then max targetByteLength loweredValue.byteLength else assignmentOp.byteLength

def lowerCompoundNamedValue (target : MemoryReference) (byteLength : Nat)
    (op : OperatorSpelling) (unsignedTarget : Bool) (loweredValue : Hir.Expr) : Hir.Expr :=
  let read := Hir.Expr.variableRef target.binding target.offset
    (mutableResult target.templateName target.byteLength)
  let left := if unsignedTarget then
      .unsigned read (unsignedIntegerResult target.byteLength) else read
  .binary left op loweredValue
    (if unsignedTarget then unsignedIntegerResult byteLength else signedIntegerResult byteLength)
    .legacy none

def lowerTypedIntegerAssignment (target : MemoryReference) (op : Ast.AssignmentSpelling)
    (unsignedTarget : Bool) (value : Ast.Expr) (loweredValue : Hir.Expr) :
    Analysis Hir.Statement :=
  match integerAssignmentOperator op with
  | none => .error ("unsupported assignment operator '" ++ op.text ++ "'")
  | some assignmentOp => match assignmentOp.compound, op.compoundBinaryOperator with
      | some compound, some binaryOp =>
          if divisionByZeroLiteral compound value then
            .error "division by zero in assignment expression"
          else if !loweredValue.result.isIntegerExpression then
            .error ("right operand of '" ++ op.text ++ "' is not an integer expression")
          else .ok (.integerStore target.binding target.byteLength target.offset
            (lowerCompoundNamedValue target
              (compoundWidth op assignmentOp target.byteLength loweredValue) binaryOp
              unsignedTarget loweredValue) none)
      | _, _ =>
          let source := match value with
            | .integerLiteral spelling =>
                if target.templateName.isUnsigned && target.byteLength == 8 then
                  .integerLiteral spelling (fixedResult target.templateName target.byteLength)
                else loweredValue
            | _ =>
                if target.templateName.isSigned && target.byteLength == 8 &&
                    isI64MinLiteral value then lowerI64MinLiteral
                else loweredValue
          if !literalFits target value then .error (literalMisfit target value)
          else if !source.result.isIntegerExpression then
            .error ("right operand of '" ++ op.text ++ "' is not an integer expression")
          else .ok (.integerStore target.binding target.byteLength target.offset source none)

/-- Assignment to a located View whose source may have been analysed already. -/
def lowerReferenceAssignment (scope : Scope) (target : MemoryReference)
    (op : Ast.AssignmentSpelling) (unsignedTarget : Bool) (value : Ast.Expr)
    (forms : AnalyzedForms) (loweredValue : Option Hir.Expr) : Analysis Hir.Statement :=
  let source := loweredValue.elim forms.expression Except.ok
  if op = .rebind then
    match source with
    | .error message => .error message
    | .ok address =>
        if !address.result.isIntegerExpression then
          .error "right operand of '&=' requires an integer or address View"
        else .ok (.bindingRebind target.binding address)
  else if target.templateName = .handle then lowerHandleAssignment scope target op value source
  else if isHandleExpression scope value && op != .boolean &&
      !(op == .default && (target.templateName == .bool || target.templateName == .bytes)) then
    .error "handle value may only be assigned to a handle target"
  else match op, target.templateName with
    | .default, .bytes =>
        match source with
        | .error message => .error message
        | .ok lowered =>
            if !lowered.result.isDynamic && lowered.byteLength != target.byteLength then
              .error "bytes assignment requires an equal-length source View"
            else .ok (.viewCopyStore target.binding target.byteLength target.offset lowered)
    | .default, .bool => lowerBooleanAssignment target source
    | .default, .user name => lowerUserTemplateAssignment scope target name value forms loweredValue
    | .default, .cstr | .string, _ => lowerStringAssignment target op value source
    | .boolean, _ =>
        match source with
        | .error message => .error message
        | .ok lowered =>
            if !lowered.result.isBooleanTestable then
              .error "right operand of '%b=' cannot form a View"
            else lowerBooleanAssignment target (.ok lowered)
    | .default, _ =>
        lowerDefaultAssignment scope target value forms
          (loweredValue.map fun lowered =>
            if target.templateName = .addr then preservePointerDerivedAddress lowered else lowered)
    | _, _ => match floatAssignmentByteLength op with
        | some floatLength => lowerTypedFloatAssignment target floatLength forms
        | none => match source with
            | .error message => .error message
            | .ok lowered => lowerTypedIntegerAssignment target op unsignedTarget value lowered

/-- A source that takes its width from the target is not analysed on its own first. -/
def lowerNamedAssignment (scope : Scope) (isIdentifier : Bool) (target : MemoryReference)
    (op : Ast.AssignmentSpelling) (unsignedTarget : Bool) (value : Ast.Expr)
    (forms : AnalyzedForms) : Analysis Hir.Statement :=
  let deferred := op == .rebind || (floatAssignmentByteLength op).isSome ||
    (op == .default && isIdentifier && (target.templateName.isFloat || value.isFloatLiteral))
  if deferred then lowerReferenceAssignment scope target op unsignedTarget value forms none
  else match forms.expression with
    | .error message => .error message
    | .ok lowered =>
        lowerReferenceAssignment scope target op unsignedTarget value forms (some lowered)

structure AssignmentLowering where
  store : Hir.Statement
  result : Hir.Expr

/-- The value of an assignment whose target is not a name. -/
def placeholderResult : Hir.Expr :=
  .integerLiteral ['0'] (signedIntegerResult 1)

def lowerDiscard (forms : AnalyzedForms) : Analysis AssignmentLowering :=
  forms.expression.map fun source =>
    { store := .captureView ".discard-source" source, result := placeholderResult }

/-- An assignment with one target: the store and the View the expression denotes after it. -/
def lowerAssignmentExpression (scope : Scope) (target : Ast.Expr) (targetForms : AnalyzedForms)
    (op : Ast.AssignmentSpelling) (unsignedTarget : Bool) (value : Ast.Expr)
    (forms : AnalyzedForms) : Analysis AssignmentLowering :=
  match target with
  | .identifier name =>
      if name = "_" then lowerDiscard forms
      else match scope.lookup name with
        | none => .error ("use of undeclared variable '" ++ name ++ "'")
        | some symbol =>
            let reference : MemoryReference :=
              { name, binding := symbol.binding, byteLength := symbol.byteLength, offset := 0,
                templateName := symbol.templateName }
            (lowerNamedAssignment scope true reference op unsignedTarget value forms).map
              fun store =>
                { store
                  result := .variableRef symbol.binding 0
                    (mutableResult symbol.templateName symbol.byteLength) }
  | _ =>
      if op = .rebind then .error "left operand of '&=' must be a single IDENT"
      else match resolveAddressableReference scope target with
        | .error message => .error message
        | .ok (some reference) =>
            (lowerNamedAssignment scope false reference op unsignedTarget value forms).map
              fun store => { store, result := placeholderResult }
        | .ok none => match targetForms.pointerTarget with
            | none => .error "complex assignment targets are not supported yet"
            | some pointerTarget => match pointerTarget, forms.expression with
                | .error message, _ | _, .error message => .error message
                | .ok designated, .ok loweredValue =>
                    (lowerPointerAssignment scope designated op unsignedTarget value
                      loweredValue).map fun store => { store, result := placeholderResult }

end HitSimple.Sema

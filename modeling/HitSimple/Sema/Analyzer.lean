import HitSimple.Sema.Assignments

namespace HitSimple.Sema
open Literal

def analyzeIdentifier (scope : Scope) (name : String) : Analysis Hir.Expr :=
  match scope.lookup name with
  | none => .error ("use of undeclared variable '" ++ name ++ "'")
  | some symbol => .ok (.variableRef symbol.binding 0
      (mutableResult symbol.templateName symbol.byteLength))

def analyzeIntegerLiteral (spelling : Spelling) : Analysis Hir.Expr :=
  let byteLength := inferIntegerLiteralByteLength spelling
  if byteLength = 0 then
    .error ("integer literal '" ++ String.ofList spelling ++ "' is out of range")
  else .ok (.integerLiteral spelling
    (if 2 ^ 63 ≤ (parseUnsignedIntegerLiteral spelling).getD 0 then unsignedIntegerResult byteLength
      else signedIntegerResult byteLength))

def analyzeCharLiteral (bytes : List FixedWidth.Byte) : Analysis Hir.Expr :=
  if bytes = [] then .error "empty character literal is not allowed"
  else .ok (.characterLiteral bytes
    (if bytes.length = 1 then unsignedIntegerResult 1 else rawBytesResult bytes.length))

def analyzeUnary (op : Hir.UnaryOperator) (operandIsLiteral : Bool) (operand : Hir.Expr) :
    Analysis Hir.Expr :=
  if op = .not then
    if !operand.result.isBooleanTestable then .error "operand of '!' cannot form a View"
    else .ok (.unary op (.booleanTest operand booleanResult) booleanResult)
  else if !operand.result.isIntegerNumeric then
    .error ("operand of '" ++ op.text ++ "' is not an integer View")
  else if operand.result.isDynamic then
    .error "runtime-sized integer unary arithmetic is not implemented; use an explicit fixed-length interpretation"
  else
    let byteLength := operand.byteLength
    let negatedUnsignedLiteral := op == .negate && operandIsLiteral
    .ok (.unary op operand
      (if operand.result.templateName = .none then
        if operand.isUnsigned && !negatedUnsignedLiteral then unsignedIntegerResult byteLength
        else signedIntegerResult byteLength
      else fixedResult operand.result.templateName byteLength))

def sameBranchView (left right : ViewSemantics) : Bool :=
  left.category == right.category && left.integerInterpretation == right.integerInterpretation &&
    left.length == right.length && left.templateName == right.templateName

def rvalue (view : ViewSemantics) : ViewSemantics :=
  { view with isAddressable := false, isMutableLValue := false }

def analyzeTernary (condition thenExpr elseExpr : Hir.Expr) : Analysis Hir.Expr :=
  if !condition.result.isBooleanTestable then .error "ternary condition cannot form a View"
  else if thenExpr.result.isDynamic || elseExpr.result.isDynamic then
    .error "ternary requires a fixed positive byte length"
  else if !sameBranchView thenExpr.result elseExpr.result then
    .error "ternary branches must have the same template and byte length"
  else .ok (.ternary (.booleanTest condition booleanResult) thenExpr elseExpr
    (rvalue thenExpr.result))

/-- The literal form of the compatibility marker: `0xffffffffU` at its C width. -/
def analyzeUnsignedLiteral (spelling : Spelling) (byteLength : Nat) : Analysis Hir.Expr :=
  let fits := match parseUnsignedIntegerLiteral spelling with
    | none => false
    | some value => byteLength == 8 || (decide (byteLength < 8) && decide (value < 2 ^ (byteLength * 8)))
  if !fits then
    .error ("unsigned integer literal '" ++ String.ofList spelling ++
      "' does not fit its compatibility width")
  else .ok (.unsigned (.integerLiteral spelling (signedIntegerResult byteLength))
    (unsignedIntegerResult byteLength))

/-- The postfix `?`; a nonzero `byteLength` is the marker of the compatibility lowering. -/
def analyzeUnsigned (scope : Scope) (byteLength : Nat) (operand : Hir.Expr) : Hir.Expr :=
  if scope.cCompatibilityMode && byteLength != 0 && operand.result.category == .boolean then operand
  else if byteLength ≠ 0 ∧ operand.result.length ≠ .static byteLength then
    .integerCast operand false (unsignedIntegerResult byteLength)
  else .unsigned operand (rvalue { operand.result with
    category := .untemplatedInteger, integerInterpretation := .unsigned, templateName := .none })

def analyzeIntegerCast (byteLength : Nat) (isSigned : Bool) (operand : Hir.Expr) :
    Analysis Hir.Expr :=
  if byteLength ≠ 1 ∧ byteLength ≠ 2 ∧ byteLength ≠ 4 ∧ byteLength ≠ 8 then
    .error "integer cast target length must be 1, 2, 4, or 8 bytes"
  else if !operand.result.isIntegerNumeric then
    .error "integer cast operand is not an integer expression"
  else .ok (.integerCast operand isSigned
    (fixedResult (if isSigned then .signedInteger byteLength else .unsignedInteger byteLength)
      byteLength))

def analyzeAs (scope : Scope) (templateName : TemplateName) (operand : Hir.Expr) :
    Analysis Hir.Expr :=
  let templateLength := scope.templateByteLength templateName
  let view := viewSemanticsForTemplate templateName 0 operand.result.isAddressable
    operand.result.isMutableLValue
  if templateName ≠ .none ∧ templateName ≠ .bytes ∧ templateName ≠ .cstr ∧
      templateLength = none then
    .error ("unknown template '" ++ templateName.text ++ "'")
  else match operand.result.length, templateLength with
    | .static byteLength, _ =>
        if byteLength = 0 ∨ (templateLength.isSome ∧ templateLength ≠ some byteLength) then
          .error ("expression template view byte length does not match template '" ++
            templateName.text ++ "'")
        else .ok (.templateView operand { view with length := .static byteLength })
    | .dynamic, some byteLength =>
        .ok (.templateView operand { view with length := .static byteLength })
    | .dynamic, none => .ok (.templateView operand { view with length := .dynamic })

/-- The address of `base` itself, as used under `&`, an index or a slice. -/
def addressOfReference (reference : MemoryReference) : Hir.Expr :=
  .addressOf reference.binding reference.byteLength reference.offset
    (fixedResult .addr pointerByteLength)

def boundedAddress (reference : MemoryReference) (resultByteLength : Nat) (offset : Hir.Expr) :
    Hir.Expr :=
  .binary (addressOfReference reference) (.ordinary .add) offset
    (fixedResult .addr pointerByteLength) .addressOffset
    (some { sourceByteLength := reference.byteLength, resultByteLength })

def resolveRegionBase (scope : Scope) (subject participle : String) (base : Ast.Expr) :
    Analysis MemoryReference :=
  match resolveAddressableReference scope base with
  | .error message => .error message
  | .ok none => .error (subject ++ " base must be an addressable memory View")
  | .ok (some reference) =>
      if reference.templateName = .handle then
        .error ("handle values cannot be " ++ participle)
      else .ok reference

def lowerIndexAddress (scope : Scope) (base : Ast.Expr) (index : Analysis Hir.Expr) :
    Analysis Hir.Expr :=
  match resolveRegionBase scope "index" "indexed" base, index with
  | .error message, _ | .ok _, .error message => .error message
  | .ok reference, .ok index =>
      if !index.result.isIntegerExpression then
        .error "index expression is not an integer expression"
      else .ok (boundedAddress reference 1 index)

def integerLiteralValue (expression : Ast.Expr) : Option Nat :=
  expression.integerSpelling?.bind parseUnsignedIntegerLiteral

/-- The length of a slice, fixed by its literal bounds. -/
def sliceByteLength (start stop : Ast.Expr) (lengthMode : Bool) : Analysis Nat :=
  match integerLiteralValue stop, lengthMode, integerLiteralValue start with
  | none, true, _ => .error "slice length must be an integer literal for now"
  | none, false, _ => .error "slice end must be an integer literal for now"
  | some stopValue, true, _ => .ok stopValue
  | some _, false, none =>
      .error "slice start must be an integer literal for start:end slices for now"
  | some stopValue, false, some startValue =>
      if stopValue < startValue then .error "slice end must be greater than or equal to start"
      else .ok (stopValue - startValue)

def lowerSlice (scope : Scope) (base start stop : Ast.Expr) (lengthMode : Bool)
    (startForm : Analysis Hir.Expr) : Analysis (Hir.Expr × Nat) :=
  match resolveRegionBase scope "slice" "sliced" base, sliceByteLength start stop lengthMode,
      startForm with
  | .error message, _, _ | .ok _, .error message, _ => .error message
  | .ok reference, .ok byteLength, startForm =>
      if byteLength = 0 then .error "slice length must be greater than zero"
      else match startForm with
        | .error message => .error message
        | .ok start =>
            if !start.result.isIntegerExpression then
              .error "slice start is not an integer expression"
            else .ok (boundedAddress reference byteLength start, byteLength)

def isNullLiteral : Hir.Expr → Bool
  | .integerLiteral value _ => parseUnsignedIntegerLiteral value == some 0
  | _ => false

def checkDerefAddress (scope : Scope) (length : Nat) (addressExpr : Ast.Expr)
    (address : Analysis Hir.Expr) : Analysis Hir.Expr :=
  if isHandleExpression scope addressExpr then .error "handle values cannot be dereferenced"
  else if length = 0 then .error "invalid dereference byte length"
  else match address with
    | .error message => .error message
    | .ok address =>
        if !address.result.isIntegerExpression then
          .error "dereference address is not an integer expression"
        else if isNullLiteral address then .error "null address dereference is not allowed"
        else if pointerByteLength < address.byteLength then
          .error "dereference address is wider than pointer length"
        else .ok address

def analyzeSizeof (scope : Scope) (templateName : TemplateName) : Analysis Hir.Expr :=
  match scope.templateByteLength templateName with
  | some byteLength => .ok (.integerLiteral (decimal byteLength) (fixedResult (.unsignedInteger 8) 8))
  | none => match scope.lookup templateName.text with
      | some symbol =>
          .ok (.integerLiteral (decimal symbol.byteLength) (fixedResult (.unsignedInteger 8) 8))
      | none => .error ("sizeof unknown name '" ++ templateName.text ++ "'")

def analyzeCall (scope : Scope) (callee : String) : Analysis Hir.Expr :=
  match scope.functions callee with
  | none => .error ("unsupported function call '" ++ callee ++ "'")
  | some [] => .error ("function call '" ++ callee ++ "' does not return a value")
  | some [item] => .ok (.call callee (fixedResult item.templateName item.byteLength))
  | some _ => .error ("multi-return function call '" ++ callee ++
      "' cannot be used as a single expression")

def addressOfReferenceForm (scope : Scope) (operand : Ast.Expr) : Analysis Hir.Expr :=
  match resolveAddressableReference scope operand with
  | .error message => .error message
  | .ok none => .error "address-of operand must be a writable lvalue"
  | .ok (some reference) => .ok (addressOfReference reference)

/-- The forms of an expression that is neither a pointer-form lvalue nor a contextual float. -/
def plainForms (scope : Scope) (source : Ast.Expr) (expression : Analysis Hir.Expr) :
    AnalyzedForms where
  expression := expression
  floatOperand := fun byteLength => match expression with
    | .error message => .error message
    | .ok operand => checkFloatOperand byteLength operand
  addressOf := addressOfReferenceForm scope source
  pointerTarget := none

def map₂ {α β γ : Type} (f : α → β → Analysis γ) (left : Analysis α) (right : Analysis β) :
    Analysis γ :=
  match left, right with
  | .error message, _ | .ok _, .error message => .error message
  | .ok left, .ok right => f left right

/-- `%f` operands are analysed at the width of the operation they stand in. -/
def floatBinaryOperand (op : OperatorSpelling) (left right : Nat → Analysis Hir.Expr)
    (plain : Nat → Analysis Hir.Expr) (byteLength : Nat) : Analysis Hir.Expr :=
  match floatByteLengthForOperator op with
  | none => plain byteLength
  | some typedLength =>
      if op.symbol.isComparison then plain byteLength
      else
        let resultLength := if typedLength = 0 then byteLength else typedLength
        if resultLength ≠ byteLength then
          .error ("float operand byte length " ++ toString resultLength ++
            " does not match required byte length " ++ toString byteLength)
        else map₂ (fun left right => .ok
          (.floatBinary left op right (fixedResult (.floating byteLength) byteLength)))
          (left byteLength) (right byteLength)

def analyzeForms (scope : Scope) : Ast.Expr → AnalyzedForms
  | .identifier name => plainForms scope (.identifier name) (analyzeIdentifier scope name)
  | .integerLiteral value => plainForms scope (.integerLiteral value) (analyzeIntegerLiteral value)
  | .stringLiteral bytes => plainForms scope (.stringLiteral bytes)
      (.ok (.stringLiteral bytes (fixedResult .cstr (bytes.length + 1))))
  | .charLiteral bytes => plainForms scope (.charLiteral bytes) (analyzeCharLiteral bytes)
  | .floatLiteral value =>
      { plainForms scope (.floatLiteral value)
          (.ok (.floatLiteral value (fixedResult (.floating 8) 8))) with
        floatOperand := fun byteLength =>
          .ok (.floatLiteral value (fixedResult (.floating byteLength) byteLength)) }
  | .boolLiteral value => plainForms scope (.boolLiteral value)
      (.ok (.integerLiteral (if value then ['1'] else ['0']) booleanResult))
  | .addressOf operand =>
      plainForms scope (.addressOf operand) (analyzeForms scope operand).addressOf
  | .unary op operand => plainForms scope (.unary op operand)
      (match (analyzeForms scope operand).expression with
        | .error message => .error message
        | .ok lowered => analyzeUnary op operand.integerSpelling?.isSome lowered)
  | .binary left op right =>
      let leftForms := analyzeForms scope left
      let rightForms := analyzeForms scope right
      let plain := plainForms scope (.binary left op right)
        (map₂ (analyzeBinary scope op right.integerSpelling?) leftForms.expression
          rightForms.expression)
      { plain with
        floatOperand :=
          floatBinaryOperand op leftForms.floatOperand rightForms.floatOperand plain.floatOperand }
  | .ternary condition thenExpr elseExpr => plainForms scope (.ternary condition thenExpr elseExpr)
      (map₂ (fun condition (branches : Hir.Expr × Hir.Expr) =>
          analyzeTernary condition branches.1 branches.2)
        (analyzeForms scope condition).expression
        (map₂ (fun thenExpr elseExpr => .ok (thenExpr, elseExpr))
          (analyzeForms scope thenExpr).expression (analyzeForms scope elseExpr).expression))
  | .unsigned operand byteLength => plainForms scope (.unsigned operand byteLength)
      (match operand.integerSpelling?, decide (byteLength = 0) with
        | some spelling, false => analyzeUnsignedLiteral spelling byteLength
        | _, _ => (analyzeForms scope operand).expression.map (analyzeUnsigned scope byteLength))
  | .integerCast operand byteLength isSigned =>
      plainForms scope (.integerCast operand byteLength isSigned)
        (match (analyzeForms scope operand).expression with
          | .error message => .error message
          | .ok lowered => analyzeIntegerCast byteLength isSigned lowered)
  | .asView operand templateName => plainForms scope (.asView operand templateName)
      (match (analyzeForms scope operand).expression with
        | .error message => .error message
        | .ok lowered => analyzeAs scope templateName lowered)
  | .index base index =>
      let address := lowerIndexAddress scope base (analyzeForms scope index).expression
      { plainForms scope (.index base index)
          (address.map fun address => .deref address (mutableResult .none 1)) with
        addressOf := address
        pointerTarget := some (address.map fun address =>
          { address, byteLength := 1, subject := "index" }) }
  | .slice base start stop lengthMode =>
      let lowered := lowerSlice scope base start stop lengthMode (analyzeForms scope start).expression
      { plainForms scope (.slice base start stop lengthMode)
          (lowered.map fun lowered => .deref lowered.1 (mutableResult .none lowered.2)) with
        addressOf := lowered.map Prod.fst
        pointerTarget := some (lowered.map fun lowered =>
          { address := lowered.1, byteLength := lowered.2, subject := "slice" }) }
  | .member object path => plainForms scope (.member object path)
      ((scope.resolveMember object path).map fun reference =>
        .variableRef reference.binding reference.offset
          (mutableResult reference.templateName reference.byteLength))
  | .sizeofTemplate templateName =>
      plainForms scope (.sizeofTemplate templateName) (analyzeSizeof scope templateName)
  | .deref length addressExpr =>
      let address := (analyzeForms scope addressExpr).expression
      let checked := checkDerefAddress scope length addressExpr address
      { plainForms scope (.deref length addressExpr)
          (checked.map fun address => .deref address (mutableResult .none length)) with
        addressOf := address
        pointerTarget := some (checked.map fun address =>
          { address, byteLength := length, subject := "dereference" }) }
  | .call callee => plainForms scope (.call callee) (analyzeCall scope callee)
  | .assignment target op unsignedTarget value =>
      plainForms scope (.assignment target op unsignedTarget value)
        ((lowerAssignmentExpression scope target (analyzeForms scope target) op unsignedTarget value
          (analyzeForms scope value)).map fun lowered =>
            .assignment lowered.store lowered.result (rvalue lowered.result.result))

/-- The node the analyser builds for an expression. -/
def analyze (scope : Scope) (expression : Ast.Expr) : Analysis Hir.Expr :=
  (analyzeForms scope expression).expression

end HitSimple.Sema

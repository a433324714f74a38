import HitSimple.Sema.Scope
import HitSimple.Sema.Folding

namespace HitSimple.Sema
open Literal

/-- The operation an integer binary expression is resolved to. -/
structure SelectedOperation where
  kind : Hir.StandardOperationKind
  byteLength : Nat
  result : ViewSemantics
  deriving DecidableEq, Repr

def isIntegerOperandForStandard (view : ViewSemantics) : Bool :=
  view.isIntegerNumeric || view.category == .boolean

def comparisonOr (op : BinaryOperator) (arithmetic : ViewSemantics) : ViewSemantics :=
  if op.isComparison then booleanResult else arithmetic

/-- A typed operator, and the plain `%` that is taken for one. -/
def selectTyped (scope : Scope) (spelling : OperatorSpelling) (left right : ViewSemantics) :
    Analysis SelectedOperation :=
  let compatibilityPointerArithmetic := scope.cCompatibilityMode &&
    ((left.category == .address && right.isIntegerNumeric) ||
      (right.category == .address && left.isIntegerNumeric))
  if (!left.isIntegerNumeric || !right.isIntegerNumeric) && !compatibilityPointerArithmetic then
    .error "typed integer operation requires integer operands"
  else
    let byteLength :=
      spelling.typedIntegerComputationLength left.staticByteLength right.staticByteLength
    if byteLength = 0 then .error "typed integer operation has no computation width"
    else .ok {
      kind := .untemplatedInteger
      byteLength
      result := comparisonOr spelling.symbol
        (if spelling.hasUnsignedMarker then unsignedIntegerResult byteLength
          else signedIntegerResult byteLength) }

def selectUntemplated (op : BinaryOperator) (left right : ViewSemantics) : SelectedOperation :=
  let byteLength := max left.staticByteLength right.staticByteLength
  { kind := .untemplatedInteger
    byteLength
    result := comparisonOr op
      (if left.isUnsigned || right.isUnsigned then unsignedIntegerResult byteLength
        else signedIntegerResult byteLength) }

def selectStandardInteger (op : BinaryOperator) (left right : ViewSemantics) :
    Analysis SelectedOperation :=
  let (selected, other) :=
    if left.templateName.isStandardInteger then (left, right) else (right, left)
  if (other.templateName != .none && other.templateName != selected.templateName) ||
      !isIntegerOperandForStandard other then
    .error "ordinary integer operation requires the same template"
  else .ok {
    kind := .standardInteger
    byteLength := selected.staticByteLength
    result := comparisonOr op (fixedResult selected.templateName selected.staticByteLength) }

def comparisonOnly (kind : Hir.StandardOperationKind) : SelectedOperation :=
  { kind, byteLength := 1, result := booleanResult }

/-- The remaining standard candidates; every one of them is a comparison. -/
def selectComparison (op : BinaryOperator) (left right : ViewSemantics) :
    Analysis SelectedOperation :=
  let equality := op == .equal || op == .notEqual
  let either (category : ViewCategory) := left.category == category || right.category == category
  let both (category : ViewCategory) := left.category == category && right.category == category
  if either .boolean then
    if !both .boolean || !equality then
      .error "bool only supports == and != ordinary operations"
    else .ok (comparisonOnly .standardBoolean)
  else if either .address then
    let compatible :=
      (left.category == .address && (right.category == .address ||
        (right.templateName == .none && right.isIntegerNumeric))) ||
      (right.category == .address && left.templateName == .none && left.isIntegerNumeric)
    if !compatible || !equality then
      .error "addr only supports == and != ordinary operations"
    else .ok (comparisonOnly .standardAddress)
  else if either .handle then
    if !both .handle || !equality then
      .error "handle only supports same-template == and != comparisons"
    else .ok (comparisonOnly .standardHandle)
  else if either .bytes then
    if !both .bytes || !op.isComparison then
      .error "bytes only supports comparison ordinary operations"
    else .ok (comparisonOnly .standardBytesCompare)
  else if either .cString then
    if !both .cString || !op.isComparison then
      .error "cstr only supports comparison ordinary operations"
    else .ok (comparisonOnly .standardCStringCompare)
  else .error "ordinary operation has no applicable standard candidate"

def selectOperation (scope : Scope) (spelling : OperatorSpelling) (left right : ViewSemantics) :
    Analysis SelectedOperation :=
  if spelling.isTypedIntegerOperator then selectTyped scope spelling left right
  else if left.templateName == .none && right.templateName == .none && left.isIntegerNumeric &&
      right.isIntegerNumeric then
    .ok (selectUntemplated spelling.symbol left right)
  else if left.templateName.isStandardInteger || right.templateName.isStandardInteger then
    selectStandardInteger spelling.symbol left right
  else selectComparison spelling.symbol left right

/-- Whether an operand is `base?` for an address-of expression `base`. -/
def isUnsignedAddressOf : Hir.Expr → Bool
  | .unsigned (.addressOf ..) _ => true
  | _ => false

def foldLiterals (op : BinaryOperator) (selected : SelectedOperation)
    (left right : Spelling) (leftView rightView : ViewSemantics) : Analysis Hir.Expr :=
  match parseUnsignedIntegerLiteral left, parseUnsignedIntegerLiteral right with
  | some leftValue, some rightValue =>
      let leftWord := BitVec.ofNat 64 leftValue
      let rightWord := BitVec.ofNat 64 rightValue
      if op.isComparison then
        let comparison :=
          foldComparison op (leftView.isUnsigned || rightView.isUnsigned) leftWord rightWord
        .ok (.integerLiteral (if comparison then ['1'] else ['0']) booleanResult)
      else match foldIntegerOperation op leftWord rightWord selected.byteLength with
        | none => .error "invalid constant integer operation"
        | some folded => .ok (.integerLiteral (decimal folded.toNat) selected.result)
  | _, _ => .error "invalid integer literal in constant expression"

/-- The node for a resolved operation, folded when both operands are integer literals. -/
def buildBinary (spelling : OperatorSpelling) (selected : SelectedOperation)
    (left right : Hir.Expr) : Analysis Hir.Expr :=
  match left, right with
  | .integerLiteral leftText leftView, .integerLiteral rightText rightView =>
      if selected.kind = .standardBytesCompare ∨ selected.kind = .standardCStringCompare then
        .ok (.binary left spelling right selected.result selected.kind none)
      else foldLiterals spelling.symbol selected leftText rightText leftView rightView
  | _, _ => .ok (.binary left spelling right selected.result selected.kind none)

def analyzeIntegerBinary (scope : Scope) (spelling : OperatorSpelling)
    (rightLiteral : Option Spelling) (left right : Hir.Expr) : Analysis Hir.Expr :=
  let op := spelling.symbol
  if spelling.integerSymbol?.isNone then
    .error ("unsupported binary operator '" ++ spelling.text ++ "'")
  else if op.isDivision && rightLiteral.bind parseUnsignedIntegerLiteral == some 0 then
    .error "division by zero in binary expression"
  else if (left.result.isIntegerNumeric && left.result.isDynamic) ||
      (right.result.isIntegerNumeric && right.result.isDynamic) then
    .error "runtime-sized integer arithmetic is not implemented; use an explicit fixed-length interpretation"
  else
    match selectOperation scope spelling left.result right.result with
    | .error message => .error message
    | .ok selected =>
        if selected.kind = .standardBoolean then
          buildBinary spelling selected (.booleanTest left booleanResult)
            (.booleanTest right booleanResult)
        else if (op == .add || op == .subtract) && right.result.isIntegerNumeric &&
            isUnsignedAddressOf left then
          -- The subtraction keeps its spelling although its right operand is negated here.
          let right := if op == .subtract then
              .unary .negate right (signedIntegerResult pointerByteLength) else right
          buildBinary spelling { selected with kind := .addressOffset } left right
        else buildBinary spelling selected left right

def floatByteLengthForOperator (spelling : OperatorSpelling) : Option Nat :=
  match spelling.typed with
  | some { width, marker := .f } =>
      let isFloatSymbol := spelling.symbol.isComparison || spelling.symbol == .add ||
        spelling.symbol == .subtract || spelling.symbol == .multiply ||
        spelling.symbol == .divide || spelling.symbol == .power
      if !isFloatSymbol then none
      else match width with
        | none => some 0
        | some byteLength => if isLoweredFloatByteLength byteLength then some byteLength else none
  | _ => none

def analyzeFloatingBinary (spelling : OperatorSpelling) (left right : Hir.Expr) :
    Analysis Hir.Expr :=
  let op := spelling.symbol
  let byteLength := left.byteLength
  if left.result.category != .floating || right.result.category != .floating ||
      left.result.templateName != right.result.templateName then
    .error "ordinary floating operation requires the same template"
  else if spelling.typed.isSome then
    .error ("unsupported floating operation '" ++ spelling.text ++ "'")
  else if op == .modulo || op == .shiftLeft || op == .shiftRight || op == .bitAnd ||
      op == .bitOr || op == .bitXor then
    .error ("ordinary floating operation is not defined for '" ++ spelling.text ++ "'")
  else if op.isComparison then
    .ok (.floatCompare left spelling right byteLength booleanResult)
  else .ok (.floatBinary left spelling right (fixedResult left.result.templateName byteLength))

def analyzeTypedFloating (spelling : OperatorSpelling) (typedLength : Nat)
    (left right : Hir.Expr) : Analysis Hir.Expr :=
  if left.result.category != .floating || right.result.category != .floating then
    .error "typed floating operation requires floating operands"
  else
    let byteLength := if typedLength = 0 then max left.byteLength right.byteLength else typedLength
    if !isLoweredFloatByteLength byteLength then .error "float byte length is not supported"
    else if spelling.symbol.isComparison then
      .ok (.floatCompare left spelling right byteLength booleanResult)
    else .ok (.floatBinary left spelling right (fixedResult (.floating byteLength) byteLength))

def analyzeBinary (scope : Scope) (spelling : OperatorSpelling) (rightLiteral : Option Spelling)
    (left right : Hir.Expr) : Analysis Hir.Expr :=
  if spelling.typed.isNone && spelling.symbol.isLogical then
    if !left.result.isBooleanTestable || !right.result.isBooleanTestable then
      .error "logical operator operands must form Views"
    else .ok (.binary (.booleanTest left booleanResult) spelling
      (.booleanTest right booleanResult) booleanResult .legacy none)
  else if left.result.templateName.isUser || right.result.templateName.isUser then
    match scope.implOps spelling left.result.templateName right.result.templateName with
    | some info => .ok (.call info.symbolName
        (fixedResult info.result.templateName info.result.byteLength))
    | none => .error "ordinary operation has no applicable user-template candidate"
  else match floatByteLengthForOperator spelling with
    | some typedLength => analyzeTypedFloating spelling typedLength left right
    | none =>
        if left.result.category == .floating || right.result.category == .floating then
          analyzeFloatingBinary spelling left right
        else analyzeIntegerBinary scope spelling rightLiteral left right

end HitSimple.Sema

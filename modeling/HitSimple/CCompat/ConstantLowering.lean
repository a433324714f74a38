import HitSimple.CCompat.Constants
import HitSimple.CCompat.TypeInfo

namespace HitSimple.CCompat

/-- A lowered expression and its type; an array has decayed. -/
structure ExprResult where
  expression : CoreExpr
  type : TypeInfo

/-- The first error, without its text where it comes from a part that is not spelled out. -/
abbrev Lowered := Except (Option String)

def report {α : Type} (message : String) : Lowered α :=
  .error (some message)

def elsewhere {α : Type} : Option α → Lowered α
  | some value => .ok value
  | none => .error none

/-- What a lowering looks up: the objects, the types of identifiers, subscripts, members, calls,
dereferences and addresses, which have no constant value, and those of the targets of assignments. -/
structure Scope where
  declarations : Declarations
  objects : String → Option ObjectInfo
  access : Expr → Option TypeInfo
  lvalue : Expr → Option TypeInfo

def isInteger (type : TypeInfo) : Bool := type.abi.kind = .integer

def isFloating (type : TypeInfo) : Bool := type.abi.kind = .floating

def isPointer (type : TypeInfo) : Bool := type.abi.kind = .pointer

def isUnsignedInteger (type : TypeInfo) : Bool := isInteger type && !type.abi.isSigned

def integerType (bytes : Nat) (isSigned : Bool) : TypeInfo :=
  scalar .integer bytes isSigned ((if isSigned then "i" else "u") ++ toString (bytes * 8))

def floatingType (bytes : Nat) : TypeInfo :=
  scalar .floating bytes true ("f" ++ toString (bytes * 8))

def promoteInteger (type : TypeInfo) : TypeInfo :=
  if type.abi.byteLength < 4 then integerType 4 true else type

def usualIntegerType (left right : TypeInfo) : TypeInfo :=
  let promotedLeft := promoteInteger left
  let promotedRight := promoteInteger right
  if promotedLeft.abi.isSigned = promotedRight.abi.isSigned then
    if promotedRight.abi.byteLength ≤ promotedLeft.abi.byteLength then promotedLeft
    else promotedRight
  else
    let unsignedType := if promotedLeft.abi.isSigned then promotedRight else promotedLeft
    let signedType := if promotedLeft.abi.isSigned then promotedLeft else promotedRight
    if signedType.abi.byteLength ≤ unsignedType.abi.byteLength then
      integerType unsignedType.abi.byteLength false
    else signedType

def cIntegerOperator (byteLength : Nat) (isSigned : Bool) (op : String) : String :=
  "%" ++ toString byteLength ++ (if isSigned then "d" else "u") ++ op

def floatOperator (byteLength : Nat) (op : String) : String :=
  "%" ++ toString byteLength ++ "f" ++ op

def preserveUnsigned (value : CoreExpr) (type : TypeInfo) : CoreExpr :=
  if isUnsignedInteger type then
    match value with
    | .unsigned operand byteLength => .unsigned operand byteLength
    | value => .unsigned value type.abi.byteLength
  else value

def lowerInteger (text : String) : Lowered ExprResult :=
  match parseCIntegerLiteral text.toList with
  | none => report ("invalid or unsupported C integer literal '" ++ text ++ "'")
  | some parsed =>
      let core : CoreExpr := .integerLiteral parsed.value
      return ⟨if parsed.isSigned then core else .unsigned core parsed.byteLength,
        integerType parsed.byteLength parsed.isSigned⟩

/-- `lowerUnary` without dereferences and addresses. -/
def lowerUnary (op : UnaryOperator) (operand : ExprResult) : Lowered ExprResult :=
  if op = .not then
    if !isInteger operand.type && !isPointer operand.type then
      report "C logical negation requires an integer or pointer"
    else return ⟨.unary .not operand.expression, integerType 1 false⟩
  else if !isInteger operand.type then
    report "C unary numeric lowering currently supports integer operands only"
  else
    let resultType := promoteInteger operand.type
    let core := .unary op (preserveUnsigned operand.expression operand.type)
    return ⟨preserveUnsigned core resultType, resultType⟩

/-- The diagnostics of a shift by a constant. -/
def checkShiftCount (right : ExprResult) (operationType : TypeInfo) : Lowered Unit :=
  let countType := promoteInteger right.type
  match constantShiftCount right.expression countType.abi.byteLength countType.abi.isSigned with
  | .error _ => return ()
  | .ok count =>
      let bitWidth := operationType.abi.byteLength * 8
      if count.isNegative then report "C compatibility shift count must be non-negative"
      else if bitWidth ≤ count.magnitude then
        report ("C compatibility shift count must be smaller than " ++ toString bitWidth)
      else return ()

def lowerShift (op : BinaryOperator) (left right : ExprResult) : Lowered ExprResult := do
  let operationType := promoteInteger left.type
  checkShiftCount right operationType
  let core := .binary (preserveUnsigned left.expression left.type)
    (cIntegerOperator operationType.abi.byteLength operationType.abi.isSigned op.lexeme)
    (preserveUnsigned right.expression right.type)
  return ⟨preserveUnsigned core operationType, operationType⟩

def lowerFloating (op : BinaryOperator) (left right : ExprResult) : Lowered ExprResult :=
  if !isFloating left.type || !isFloating right.type ||
      (op ≠ .add && op ≠ .subtract && op ≠ .multiply && op ≠ .divide && !isComparison op) then
    report "C floating expressions require two float operands and an arithmetic or comparison operator"
  else
    let byteLength := max left.type.abi.byteLength right.type.abi.byteLength
    let core := .binary left.expression (floatOperator byteLength op.lexeme) right.expression
    return ⟨core, if isComparison op then integerType 1 false else floatingType byteLength⟩

def isLogical : BinaryOperator → Bool
  | .logicalAnd | .logicalOr => true
  | _ => false

namespace Scope
variable (scope : Scope)

def scaledIndex (index : CoreExpr) (elementByteLength : Nat) : CoreExpr :=
  .binary index (cIntegerOperator scope.declarations.pointerByteLength true "*")
    (.integerLiteral (toString elementByteLength).toList)

def pointerDifference (left right : ExprResult) : Lowered ExprResult :=
  match left.type.pointee, right.type.pointee with
  | some leftElement, some rightElement =>
      if !sameType leftElement rightElement || isVoid leftElement then
        report "C pointer difference requires equal, sized element metadata"
      else do
        let element ← elsewhere (scope.declarations.ensureStructComplete leftElement)
        let pointerByteLength := scope.declarations.pointerByteLength
        let difference :=
          .binary left.expression (cIntegerOperator pointerByteLength true "-") right.expression
        let core := .binary difference (cIntegerOperator pointerByteLength true "/")
          (.integerLiteral (toString element.abi.byteLength).toList)
        return ⟨core, integerType 8 true⟩
  | _, _ => report "C pointer difference requires equal, sized element metadata"

def pointerOffset (op : BinaryOperator) (pointer index : ExprResult) : Lowered ExprResult :=
  match pointer.type.pointee with
  | some pointee =>
      if !isInteger index.type || isVoid pointee then
        report "C pointer arithmetic requires one sized pointer and one integer"
      else do
        let element ← elsewhere (scope.declarations.ensureStructComplete pointee)
        let offset := scope.scaledIndex (preserveUnsigned index.expression index.type)
          element.abi.byteLength
        let core := .binary pointer.expression
          (cIntegerOperator scope.declarations.pointerByteLength true op.lexeme) offset
        return ⟨core, pointer.type⟩
  | none => report "C pointer arithmetic requires one sized pointer and one integer"

/-- `lowerBinary` where one of the operands is a pointer. -/
def lowerPointer (op : BinaryOperator) (left right : ExprResult) : Lowered ExprResult :=
  if op = .subtract && isPointer left.type && isPointer right.type then
    scope.pointerDifference left right
  else if op = .add || (op = .subtract && isPointer left.type && isInteger right.type) then
    if isPointer left.type then scope.pointerOffset op left right
    else scope.pointerOffset op right left
  else if isComparison op || isLogical op then
    return ⟨.binary left.expression op.lexeme right.expression, integerType 1 false⟩
  else report ("unsupported C pointer binary operator '" ++ op.lexeme ++ "'")

def lowerBinary (op : BinaryOperator) (left right : ExprResult) : Lowered ExprResult :=
  if isPointer left.type || isPointer right.type then scope.lowerPointer op left right
  else if isFloating left.type || isFloating right.type then lowerFloating op left right
  else if !isInteger left.type || !isInteger right.type then
    report "C binary operator requires scalar integer or floating operands"
  else if isShift op then lowerShift op left right
  else
    let operationType := usualIntegerType left.type right.type
    let leftValue := preserveUnsigned left.expression left.type
    let rightValue := preserveUnsigned right.expression right.type
    if isLogical op then
      return ⟨.binary leftValue op.lexeme rightValue, integerType 1 false⟩
    else
      let core := .binary leftValue
        (cIntegerOperator operationType.abi.byteLength operationType.abi.isSigned op.lexeme)
        rightValue
      if isComparison op then return ⟨core, integerType 1 false⟩
      else return ⟨preserveUnsigned core operationType, operationType⟩

def isShiftAssignment : AssignmentOperator → Bool
  | .shiftLeft | .shiftRight => true
  | _ => false

def checkAssignment (op : AssignmentOperator) (target : TypeInfo) (value : ExprResult) :
    Lowered Unit :=
  if op = .assign then
    let scalarConversion := isInteger target && isInteger value.type
    let nullPointer := isPointer target && isInteger value.type
    if !sameType target value.type && !scalarConversion && !nullPointer then
      report "C assignment requires an explicit supported conversion in compatibility mode"
    else return ()
  else if !isInteger target || !isInteger value.type then
    report "C compound assignment is not supported for this lowered type/operator"
  else if isShiftAssignment op then checkShiftCount value (promoteInteger target)
  else return ()

def lowerAssignment (op : AssignmentOperator) (target : TypeInfo) (value : ExprResult) :
    Lowered ExprResult := do
  checkAssignment op target value
  return ⟨.other, target⟩

def lowerCast (target : TypeInfo) (operand : ExprResult) : Lowered ExprResult :=
  if isAggregate target then report "C aggregate casts are outside the minimal subset"
  else if isPointer target then
    if !isPointer operand.type && !isInteger operand.type then
      report "C pointer cast requires pointer or integer operand"
    else return ⟨operand.expression, target⟩
  else if sameType target operand.type then return ⟨operand.expression, target⟩
  else if isInteger target && isInteger operand.type then
    let source := preserveUnsigned operand.expression operand.type
    return ⟨.integerCast source target.abi.byteLength target.abi.isSigned, target⟩
  else if (isFloating target && isInteger operand.type) ||
      (isInteger target && isFloating operand.type) then
    return ⟨.other, target⟩
  else report "C numeric cast requires core to_iN/to_uN/to_fN lowering support"

/-- The size that `sizeof` gives, or its error. -/
def sizeOf : Expr → Lowered Nat
  | .sizeofType type =>
      match scope.declarations.resolveType type 0 with
      | none => .error none
      | some resolved =>
          if isVoid resolved then
            report "sizeof(void) is not available in the C compatibility subset"
          else
            (·.abi.byteLength) <$> elsewhere (scope.declarations.ensureStructComplete resolved)
  | .sizeofIdentifier name =>
      match scope.objects name with
      | none => report ("sizeof references unknown C object '" ++ name ++ "'")
      | some object => .ok object.byteLength
  | _ => .error none

def lowerSizeof (expression : Expr) : Lowered ExprResult := do
  let byteLength ← scope.sizeOf expression
  if byteLength = 0 then report "sizeof requires a statically sized C type or object"
  return ⟨.integerLiteral (toString byteLength).toList,
    integerType scope.declarations.pointerByteLength false⟩

def lowerLiteral (kind : LiteralKind) (value : String) : Lowered ExprResult :=
  match kind with
  | .integer => lowerInteger value
  | .float =>
      let isSingle := value.toList.getLast?.any fun ch => ch = 'f' || ch = 'F'
      return ⟨.other, floatingType (if isSingle then 4 else 8)⟩
  | .string => return ⟨.other, scope.declarations.makePointer (integerType 1 false)⟩
  | .character => return ⟨.other, integerType 1 false⟩

def lowerAccess (expression : Expr) : Lowered ExprResult := do
  return ⟨.other, ← elsewhere (scope.access expression)⟩

def lowerConditional (condition thenExpr elseExpr : ExprResult) : Lowered ExprResult :=
  if !sameType thenExpr.type elseExpr.type then
    report "C conditional expression branches require the same lowered type"
  else
    return ⟨.ternary condition.expression thenExpr.expression elseExpr.expression, thenExpr.type⟩

def lowerExpr : Expr → Lowered ExprResult
  | .literal kind value => scope.lowerLiteral kind value
  | .unary op operand =>
      if op = .dereference ∨ op = .address then scope.lowerAccess (.unary op operand)
      else do lowerUnary op (← lowerExpr operand)
  | .binary op left right => do
      let leftResult ← lowerExpr left
      let rightResult ← lowerExpr right
      scope.lowerBinary op leftResult rightResult
  | .conditional condition thenExpr elseExpr => do
      let conditionResult ← lowerExpr condition
      let thenResult ← lowerExpr thenExpr
      let elseResult ← lowerExpr elseExpr
      lowerConditional conditionResult thenResult elseResult
  | .assignment op target value => do
      let targetType ← elsewhere (scope.lvalue target)
      let valueResult ← lowerExpr value
      lowerAssignment op targetType valueResult
  | .cast type pointerDepth operand => do
      let target ← elsewhere (scope.declarations.resolveType type pointerDepth)
      let operandResult ← lowerExpr operand
      lowerCast target operandResult
  | .sizeofType type => scope.lowerSizeof (.sizeofType type)
  | .sizeofIdentifier name => scope.lowerSizeof (.sizeofIdentifier name)
  | .identifier name => scope.lowerAccess (.identifier name)
  | .index base index => scope.lowerAccess (.index base index)
  | .call callee arguments => scope.lowerAccess (.call callee arguments)
  | .member base name throughPointer => scope.lowerAccess (.member base name throughPointer)

end Scope

end HitSimple.CCompat

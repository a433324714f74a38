import HitSimple.Sema.Analyzer

namespace HitSimple.Sema
open Literal

/-- A parameter of a function signature.  `as none` stays a template name of its own there, which no
View carries. -/
structure Parameter where
  byteLength : Nat
  templateName : TemplateName
  spelledNone : Bool
  isString : Bool
  positive : 0 < byteLength
  untemplated : spelledNone = true → templateName = .none
  deriving DecidableEq, Repr

structure FunctionSignature where
  parameters : List Parameter
  isExtern : Bool
  isCAbi : Bool
  deriving DecidableEq, Repr

def isFloatTemplate : TemplateName → Bool
  | .floating byteLength => isLoweredFloatByteLength byteLength
  | _ => false

def isPointerTemplate (templateName : TemplateName) : Bool :=
  templateName == .addr || templateName == .handle

def isUnsignedIntegerTemplate (templateName : TemplateName) : Bool :=
  templateName.isStandardInteger && templateName.isUnsigned

def isOrdinaryUserFunction (scope : Scope) (signature : FunctionSignature) : Bool :=
  !signature.isExtern && !signature.isCAbi && !scope.cCompatibilityMode

def integerLiteralFits (literal : Spelling) (byteLength : Nat) (isUnsigned : Bool) : Bool :=
  match parseUnsignedIntegerLiteral literal with
  | none => false
  | some value =>
      if byteLength = 0 ∨ 8 < byteLength then false
      else if byteLength = 8 then isUnsigned || decide (value ≤ 2 ^ 63 - 1)
      else if isUnsigned then value ≤ 2 ^ (byteLength * 8) - 1
      else value ≤ 2 ^ (byteLength * 8 - 1) - 1

/-- Whether a node is a character literal with an integer interpretation. -/
def isIntegerCharacter : Hir.Expr → Bool
  | .characterLiteral _ result => result.integerInterpretation != .rawOnly
  | _ => false

def isStringLiteral : Hir.Expr → Bool
  | .stringLiteral .. => true
  | _ => false

namespace Parameter

def hasTemplateOf (parameter : Parameter) (view : ViewSemantics) : Bool :=
  view.templateName == parameter.templateName && !parameter.spelledNone

def literalMatchesInteger (parameter : Parameter) (lowered : Hir.Expr) : Bool :=
  parameter.templateName.isStandardInteger && (lowered.isIntegerLiteral || isIntegerCharacter lowered)

def acceptsUntemplatedInteger (parameter : Parameter) (lowered : Hir.Expr) : Bool :=
  parameter.templateName == .none && (lowered.isIntegerLiteral || isIntegerCharacter lowered ||
    lowered.result.isIntegerExpression)

def isConvertible (parameter : Parameter) (lowered : Hir.Expr) : Bool :=
  parameter.literalMatchesInteger lowered || parameter.acceptsUntemplatedInteger lowered

/-- The range check of a literal argument. -/
def literalFits (parameter : Parameter) : Hir.Expr → Bool
  | .integerLiteral literal _ => parameter.templateName == .none ||
      integerLiteralFits literal parameter.byteLength
        (isUnsignedIntegerTemplate parameter.templateName)
  | _ => true

end Parameter

def argumentLabel (callee : String) (index : Nat) : String :=
  "function call '" ++ callee ++ "' argument " ++ toString (index + 1)

def validateHandleCallArguments (scope : Scope) (callee : String) :
    Nat → List Parameter → List Ast.Expr → Analysis Unit
  | index, parameter :: parameters, argument :: arguments =>
      let expectsHandle := parameter.templateName == .handle
      let isHandle := isHandleExpression scope argument
      if expectsHandle && !isHandle then
        .error (argumentLabel callee index ++ " must be a handle")
      else if !expectsHandle && isHandle then
        .error "handle argument may only be passed to a handle parameter"
      else validateHandleCallArguments scope callee (index + 1) parameters arguments
  | _, _, _ => .ok ()

/-- The argument of an ordinary user function: its View as it is, or a conversion to the length of
the parameter. -/
def matchOrdinaryArgument (callee : String) (index : Nat) (parameter : Parameter)
    (lowered : Hir.Expr) : Analysis Hir.Expr :=
  if (!parameter.isConvertible lowered && !parameter.hasTemplateOf lowered.result) ||
      lowered.result.isDynamic ||
      (!parameter.isConvertible lowered && lowered.byteLength != parameter.byteLength) then
    .error (argumentLabel callee index ++
      " must exactly match parameter template and byte length")
  else if !parameter.literalFits lowered then
    .error (argumentLabel callee index ++ " integer literal does not fit parameter template")
  else if parameter.isConvertible lowered && lowered.byteLength != parameter.byteLength then
    .ok (.integerCast lowered (!isUnsignedIntegerTemplate parameter.templateName)
      (fixedResult parameter.templateName parameter.byteLength))
  else .ok lowered

/-- The argument of an external function, of a C ABI export, or of any function in the
compatibility mode. -/
def matchExternalArgument (parameter : Parameter) (lowered : Hir.Expr) : Analysis Hir.Expr :=
  if !lowered.result.isIntegerExpression then
    if (!lowered.result.isDynamic && lowered.byteLength == parameter.byteLength &&
          parameter.hasTemplateOf lowered.result) ||
        ((parameter.isString || isPointerTemplate parameter.templateName) &&
          isStringLiteral lowered) then .ok lowered
    else .error "function argument is not an integer expression"
  else
    let actualLength := if lowered.result.isDynamic then 4 else lowered.byteLength
    if parameter.byteLength < actualLength ∧ parameter.byteLength < 8 then
      .error "function argument byte length does not fit parameter"
    else .ok lowered

def analyzeCallArgument (scope : Scope) (signature : FunctionSignature) (callee : String)
    (index : Nat) (parameter : Parameter) (argument : Ast.Expr) : Analysis Hir.Expr :=
  if isFloatTemplate parameter.templateName then
    (analyzeForms scope argument).floatOperand parameter.byteLength
  else match analyze scope argument with
    | .error message => .error message
    | .ok lowered =>
        if isOrdinaryUserFunction scope signature then
          matchOrdinaryArgument callee index parameter lowered
        else matchExternalArgument parameter lowered

def analyzeEachArgument (scope : Scope) (signature : FunctionSignature) (callee : String) :
    Nat → List Parameter → List Ast.Expr → Analysis (List Hir.Expr)
  | index, parameter :: parameters, argument :: arguments =>
      match analyzeCallArgument scope signature callee index parameter argument with
      | .error message => .error message
      | .ok passed =>
          (analyzeEachArgument scope signature callee (index + 1) parameters arguments).map
            (passed :: ·)
  | _, _, _ => .ok []

/-- The arguments of a call as the callee receives them, in every form of a call. -/
def analyzeCallArguments (scope : Scope) (signature : FunctionSignature) (callee : String)
    (arguments : List Ast.Expr) : Analysis (List Hir.Expr) :=
  if arguments.length ≠ signature.parameters.length then
    .error ("function call '" ++ callee ++ "' argument count does not match declaration")
  else match validateHandleCallArguments scope callee 0 signature.parameters arguments with
    | .error message => .error message
    | .ok () => analyzeEachArgument scope signature callee 0 signature.parameters arguments

end HitSimple.Sema

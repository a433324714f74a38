import HitSimple.Sema.Declarations

namespace HitSimple.Ast

structure ReturnItem where
  name : String
  length : String
  templateName : String
  deriving DecidableEq, Repr

structure ImplOpParam where
  name : String
  templateName : String
  isMutable : Bool
  deriving DecidableEq, Repr

structure ImplOpDecl where
  op : String
  params : List ImplOpParam
  returns : List ReturnItem
  deriving DecidableEq, Repr

structure ImplDecl where
  name : String
  ops : List ImplOpDecl
  deriving DecidableEq, Repr

end HitSimple.Ast

namespace HitSimple.Hir

structure ImplOpBinding where
  implTemplate : String
  op : String
  symbolName : String
  params : List Ast.ImplOpParam
  returnByteLengths : List Nat
  deriving DecidableEq, Repr

end HitSimple.Hir

namespace HitSimple.Sema

namespace Declarations

/-- The error is the diagnostic, where one is reported. -/
def parseDeclaredLength (declared : Declarations) (length templateName : String) :
    Except (Option Diagnostic) Nat :=
  match length.toList with
  | 's' :: count =>
      if templateName = "" then .error (some "struct count length requires a template mark")
      else
        match declared.templateByteLength templateName with
        | none => .error (some ("unknown sized template '" ++ templateName ++ "'"))
        | some templateSize =>
            match parseUnsignedDecimal count with
            | none | some 0 =>
                .error (some ("invalid struct count length '[s" ++ String.ofList count ++ "]'"))
            | some count => .ok (templateSize * count % 2 ^ 64)
  | _ =>
      let templateSize := declared.templateByteLength templateName
      if isSizedTemplateName templateName ∧ templateSize = none then
        .error (some ("unknown template '" ++ templateName ++ "'"))
      else
        let byteLength := parseByteLength length
        if byteLength = 0 then .error none
        else if isSizedTemplateName templateName ∧ hasFixedByteLength declared templateName ∧
            templateSize ≠ some byteLength then
          .error (some ("declared byte length does not match template '" ++ templateName ++ "'"))
        else .ok byteLength

def returnByteLength (declared : Declarations) (owner : String) (cAbi : Bool)
    (item : Ast.ReturnItem) : Except Diagnostic Nat :=
  let invalid := "invalid return byte length for '" ++ owner ++ "'"
  let length :=
    if item.length ≠ "" then
      (declared.parseDeclaredLength item.length item.templateName).mapError (·.getD invalid)
    else if cAbi ∧ item.templateName = "cstr" then .ok pointerByteLength
    else .ok ((declared.templateByteLength item.templateName).getD 0)
  match length with
  | .error message => .error message
  | .ok length => if length = 0 then .error invalid else .ok length

def parseReturnSignature (declared : Declarations) (returns : List Ast.ReturnItem)
    (owner : String) (cAbi : Bool) : Except Diagnostic (List Nat) :=
  returns.mapM (declared.returnByteLength owner cAbi)

end Declarations

/-- A collected operation, with what its return items say of their templates. -/
structure CollectedImplOp where
  op : Ast.ImplOpDecl
  symbolName : String
  implTemplate : String
  returnByteLengths : List Nat
  returnTemplateNames : List String
  returnHasExplicitUserTemplate : List Bool
  deriving DecidableEq, Repr

/-- `opKeys` detects duplicates; `implOpKeys` and `implOpIndexes` are what later lookups read. -/
structure ImplOps where
  declared : Declarations
  opKeys : List String
  implOpKeys : List String
  implOps : List Hir.ImplOpBinding
  implOpIndexes : String → Option Nat
  implOpInfos : List CollectedImplOp

def ImplOps.addDiagnostics (state : ImplOps) (messages : List Diagnostic) : ImplOps :=
  { state with
    declared := { state.declared with diagnostics := state.declared.diagnostics ++ messages } }

def ImplOps.addDiagnostic (state : ImplOps) (message : Diagnostic) : ImplOps :=
  state.addDiagnostics [message]

/-- `std::unordered_map::emplace`, which keeps the entry of a key that is there. -/
def emplace (indexes : String → Option Nat) (key : String) (index : Nat) :
    String → Option Nat :=
  fun other => if other = key then (indexes key).or (some index) else indexes other

def comparisonOperators : List String := ["==", "!=", "<", "<=", ">", ">="]

def overloadableOperators : List String :=
  ["=", "==", "!=", "<", "<=", ">", ">=", "+", "-", "*", "/", "%", "**", "<<", ">>", "&", "|",
    "^", "format"]

def parameterDiagnostics (declared : Declarations) (index : Nat) (param : Ast.ImplOpParam) :
    List Diagnostic :=
  (if param.name = "self" ∧ index ≠ 0 then
    ["'self' is only valid as the first impl parameter"] else []) ++
  (if param.isMutable then
    [if param.name = "self" then
      "mut self is reserved in Beta.21; use an assignment target, explicit addr parameter, " ++
        "or returned view"
    else "mut impl parameters are reserved in Beta.21"] else []) ++
  (if param.templateName = "none" ∨ isVariableLengthStandardTemplate param.templateName ∨
      declared.templateByteLength param.templateName = none then
    ["unknown or unsized impl parameter template '" ++ param.templateName ++ "'"] else [])

def implOpParametersDiagnostics (declared : Declarations) (params : List Ast.ImplOpParam) :
    List Diagnostic :=
  params.zipIdx.flatMap fun entry => parameterDiagnostics declared entry.2 entry.1

/-- The key that detects duplicates. -/
def ownedKey (owner : String) (op : Ast.ImplOpDecl) : String :=
  op.params.foldl (fun key param => key ++ "|" ++ param.templateName)
    (owner ++ "|" ++ op.op ++ "|" ++ toString op.params.length)

/-- The key of later lookups. -/
def lookupKey (op first second : String) : String := op ++ "|" ++ first ++ "|" ++ second

def returnTemplateName (owner : String) (op : Ast.ImplOpDecl) (item : Ast.ReturnItem) : String :=
  if item.templateName ≠ "" then item.templateName
  else if op.op = "format" then "i32"
  else if op.op ∈ comparisonOperators then "bool"
  else owner

def registerImplOp (owner : String) (state : ImplOps) (op : Ast.ImplOpDecl)
    (first second : Ast.ImplOpParam) (returns : List Nat) : ImplOps :=
  let key := lookupKey op.op first.templateName second.templateName
  let symbolName := "__hitsimple.implop." ++ owner ++ "." ++ toString state.implOps.length
  let names := state.declared.topLevelNames
  { state with
    declared := { state.declared with
      topLevelNames := if symbolName ∈ names then names else names ++ [symbolName] }
    implOpKeys := if op.op = "format" then state.implOpKeys else state.implOpKeys ++ [key]
    implOps := state.implOps ++ [{
      implTemplate := owner, op := op.op, symbolName, params := op.params
      returnByteLengths := returns }]
    implOpIndexes := emplace state.implOpIndexes key state.implOps.length
    implOpInfos := state.implOpInfos ++ [{
      op, symbolName, implTemplate := owner, returnByteLengths := returns
      returnTemplateNames := op.returns.map (returnTemplateName owner op)
      returnHasExplicitUserTemplate := op.returns.map fun item =>
        item.templateName ≠ "" && (state.declared.findTemplate item.templateName).isSome }] }

def collectImplOp (owner : String) (state : ImplOps) (op : Ast.ImplOpDecl) : ImplOps :=
  if op.op ∉ overloadableOperators then
    state.addDiagnostic ("unsupported impl op '" ++ op.op ++ "'")
  else
    match op.params with
    | [first, second] =>
        if op.returns = [] then
          state.addDiagnostic ("impl op '" ++ op.op ++ "' must declare a return view")
        else if implOpParametersDiagnostics state.declared op.params ≠ [] then
          state.addDiagnostics (implOpParametersDiagnostics state.declared op.params)
        else if ownedKey owner op ∈ state.opKeys then
          state.addDiagnostic ("duplicate impl op binding '" ++ op.op ++ "' for template '" ++
            owner ++ "'")
        else
          let state := { state with opKeys := state.opKeys ++ [ownedKey owner op] }
          let signatureOwner := owner ++ "::op " ++ op.op
          match state.declared.parseReturnSignature op.returns signatureOwner false with
          | .error message => state.addDiagnostic message
          | .ok returns =>
              if returns.length ≠ 1 then
                state.addDiagnostic ("impl op '" ++ op.op ++
                  "' must declare exactly one return view")
              else if op.op = "format" ∧ (first.templateName ≠ owner ∨
                  second.templateName ≠ "addr" ∨ returns ≠ [4]) then
                state.addDiagnostic ("impl op format must use signature (value as " ++ owner ++
                  ", out as addr) -> [4]")
              else registerImplOp owner state op first second returns
    | _ =>
        state.addDiagnostic (
          if op.op = "format" then "impl op format must have exactly two parameters"
          else "impl op '" ++ op.op ++ "' must have exactly two parameters")

def collectImplDecl (state : ImplOps) (decl : Ast.ImplDecl) : ImplOps :=
  if state.declared.findTemplate decl.name = none then
    state.addDiagnostic ("impl target is not a user template: '" ++ decl.name ++ "'")
  else decl.ops.foldl (collectImplOp decl.name) state

def noImplOps (declared : Declarations) : ImplOps where
  declared := declared
  opKeys := []
  implOpKeys := []
  implOps := []
  implOpIndexes := fun _ => none
  implOpInfos := []

def collectImplOps (declared : Declarations) (unit : List Ast.ImplDecl) : ImplOps :=
  unit.foldl collectImplDecl (noImplOps declared)

end HitSimple.Sema

import HitSimple.Compat.SymbolTable

namespace HitSimple.Compat

variable {Object : Type}

/-- A block scope of C.  The names of its parameters belong to the block of a function body; a
header or a substatement without braces is a scope that `scopes_` has no entry for.  C forgets the
names in `left`: they were declared by a header or a substatement of this block that has ended. -/
structure BlockScope (Object : Type) where
  declared : String → Option Object
  parameters : String → Bool
  left : String → Bool
  isSubstatement : Bool

abbrev BlockScopes (Object : Type) := List (BlockScope Object)

def BlockScope.empty (isSubstatement : Bool) : BlockScope Object where
  declared := fun _ => none
  parameters := fun _ => false
  left := fun _ => false
  isSubstatement := isSubstatement

/-- The innermost declaration of a name. -/
def designated : BlockScopes Object → String → Option Object
  | [], _ => none
  | scope :: outer, name => match scope.declared name with
      | some object => some object
      | none => designated outer name

/-- Whether the scope of a declaration declares the name already. -/
def isRedeclaration (scopes : BlockScopes Object) (name : String) : Bool :=
  match scopes with
  | [] => false
  | scope :: _ => (scope.declared name).isSome || scope.parameters name

def declareName (scopes : BlockScopes Object) (name : String) (object : Object) :
    BlockScopes Object :=
  match scopes with
  | [] => [{ (BlockScope.empty false : BlockScope Object) with
      declared := Function.update (fun _ => none) name (some object) }]
  | scope :: outer =>
      { scope with declared := Function.update scope.declared name (some object) } :: outer

/-- The end of a header or a substatement. -/
def leaveScope : BlockScopes Object → BlockScopes Object
  | inner :: scope :: outer =>
      { scope with left := fun name =>
          scope.left name || inner.left name || (inner.declared name).isSome } :: outer
  | scopes => scopes.tail

def resolveExpr (scopes : BlockScopes Object) (expression : Expr Object) :
    Lowering (BlockScopes Object) Object :=
  let outcome := lookups (designated scopes) expression
  { table := scopes, events := outcome.1, succeeded := outcome.2 }

def resolveOptional (scopes : BlockScopes Object) :
    Option (Expr Object) → Lowering (BlockScopes Object) Object
  | none => { table := scopes, events := [], succeeded := true }
  | some expression => resolveExpr scopes expression

def resolveDeclaration (scopes : BlockScopes Object) (declaration : VarDecl Object) :
    Lowering (BlockScopes Object) Object :=
  match declaration.isExtern, declaration.object with
  | true, _ | false, none => { table := scopes, events := [], succeeded := false }
  | false, some object =>
      if isRedeclaration scopes declaration.name then
        { table := scopes, events := [.duplicate declaration.name], succeeded := false }
      else
        let scopes := declareName scopes declaration.name object
        let initializer :=
          if declaration.initializer.isSome && !declaration.acceptsInitializer then
            { table := scopes, events := [], succeeded := false }
          else resolveOptional scopes declaration.initializer
        { initializer with events := .bound declaration.name object :: initializer.events }

def resolveForInit (scopes : BlockScopes Object) :
    ForInit Object → Lowering (BlockScopes Object) Object
  | .none => { table := scopes, events := [], succeeded := true }
  | .declaration declaration => resolveDeclaration scopes declaration
  | .expression expression => resolveExpr scopes expression

def inScope (isSubstatement : Bool) (scopes : BlockScopes Object)
    (resolve : BlockScopes Object → Lowering (BlockScopes Object) Object) :
    Lowering (BlockScopes Object) Object :=
  let inner := resolve (BlockScope.empty isSubstatement :: scopes)
  { inner with table := if isSubstatement then leaveScope inner.table else inner.table.tail }

/-- A branch or a body is a block, with or without braces. -/
def inBranch (branch : Stmt Object) (scopes : BlockScopes Object)
    (resolve : BlockScopes Object → Lowering (BlockScopes Object) Object) :
    Lowering (BlockScopes Object) Object :=
  if branch.isBlock then resolve scopes else inScope true scopes resolve

mutual

/-- The declarations that the block scopes of C designate. -/
def resolveStmt (scopes : BlockScopes Object) :
    Stmt Object → Lowering (BlockScopes Object) Object
  | .empty | .jump => { table := scopes, events := [], succeeded := true }
  | .declaration declaration => resolveDeclaration scopes declaration
  | .expression expression => resolveExpr scopes expression
  | .returned value => resolveOptional scopes value
  | .ifThen condition thenBranch =>
      (resolveExpr scopes condition).always fun scopes =>
        inBranch thenBranch scopes fun scopes => resolveStmt scopes thenBranch
  | .ifElse condition thenBranch elseBranch =>
      ((resolveExpr scopes condition).always fun scopes =>
        inBranch thenBranch scopes fun scopes => resolveStmt scopes thenBranch).always fun scopes =>
          inBranch elseBranch scopes fun scopes => resolveStmt scopes elseBranch
  | .whileLoop condition body =>
      (resolveExpr scopes condition).always fun scopes =>
        inBranch body scopes fun scopes => resolveStmt scopes body
  | .forLoop init condition post body =>
      inScope true scopes fun scopes =>
        (resolveForInit scopes init).andThen fun scopes =>
          (resolveOptional scopes condition).andThen fun scopes =>
            (resolveOptional scopes post).andThen fun scopes =>
              inBranch body scopes fun scopes => resolveStmt scopes body
  | .label _ statement => resolveStmt scopes statement
  | .block block =>
      { inScope false scopes fun scopes => resolveStatements scopes block with succeeded := true }

def resolveStatements (scopes : BlockScopes Object) :
    BlockStmt Object → Lowering (BlockScopes Object) Object
  | .nil => { table := scopes, events := [], succeeded := true }
  | .cons statement rest =>
      (resolveStmt scopes statement).always fun scopes => resolveStatements scopes rest

end

/-- A parameter is declared once. -/
def resolveParameters (scopes : BlockScopes Object) :
    List (Parameter Object) → Lowering (BlockScopes Object) Object
  | [] => { table := scopes, events := [], succeeded := true }
  | { name := _, object := none } :: rest =>
      { resolveParameters scopes rest with succeeded := false }
  | { name, object := some object } :: rest =>
      let rest' := resolveParameters (declareName scopes name object) rest
      { rest' with events :=
          (if isRedeclaration scopes name then .duplicate name else .bound name object) ::
            rest'.events }

/-- The body declares its names beside the parameters. -/
def bodyScope (scopes : BlockScopes Object) : BlockScope Object :=
  { (BlockScope.empty false : BlockScope Object) with parameters := isRedeclaration scopes }

def globalScope (globals : String → Option Object) : BlockScope Object :=
  { (BlockScope.empty false : BlockScope Object) with declared := globals }

def resolveFunction (globals : String → Option Object) (function : FunctionDecl Object) :
    List (Event Object) :=
  let parameters :=
    resolveParameters [BlockScope.empty false, globalScope globals] function.parameters
  let signature := { parameters with succeeded := parameters.succeeded && function.hasEnabledAbi }
  (signature.andThen fun scopes =>
    resolveStatements (bodyScope scopes :: scopes) function.body).events

section Condition

/-- The innermost block that ever declared the name still does. -/
def isUnobscured : BlockScopes Object → String → Bool
  | [], _ => true
  | scope :: outer, name =>
      (scope.declared name).isSome || (!scope.left name && isUnobscured outer name)

/-- A header or a substatement shares an entry of `scopes_` with the scopes around it, up to the
next block. -/
def isFreeAround : BlockScopes Object → String → Bool
  | [], _ => true
  | scope :: outer, name =>
      (scope.declared name).isNone && !scope.left name &&
        (!scope.isSubstatement || isFreeAround outer name)

def declaresApart : BlockScopes Object → String → Bool
  | [], _ => true
  | scope :: outer, name =>
      !scope.left name && !scope.parameters name &&
        (!scope.isSubstatement || isFreeAround outer name)

def exprIsUnobscured (scopes : BlockScopes Object) : Expr Object → Bool
  | .lowered _ => true
  | .identifier name next =>
      isUnobscured scopes name && match designated scopes name with
        | none => true
        | some object => exprIsUnobscured scopes (next object)

def optionalIsUnobscured (scopes : BlockScopes Object) : Option (Expr Object) → Bool
  | none => true
  | some expression => exprIsUnobscured scopes expression

def declarationIsApart (scopes : BlockScopes Object) (declaration : VarDecl Object) : Bool :=
  match declaration.isExtern, declaration.object with
  | true, _ | false, none => true
  | false, some object =>
      declaresApart scopes declaration.name && (isRedeclaration scopes declaration.name ||
        (declaration.initializer.isSome && !declaration.acceptsInitializer) ||
        optionalIsUnobscured (declareName scopes declaration.name object) declaration.initializer)

def forInitIsApart (scopes : BlockScopes Object) : ForInit Object → Bool
  | .none => true
  | .declaration declaration => declarationIsApart scopes declaration
  | .expression expression => exprIsUnobscured scopes expression

/-- The scopes a branch is resolved in. -/
def branchScopes (branch : Stmt Object) (scopes : BlockScopes Object) : BlockScopes Object :=
  if branch.isBlock then scopes else BlockScope.empty true :: scopes

mutual

/-- No name of a header or of an unbraced substatement is met again in the block around it, and no
block is a statement of its own. -/
def staysApart (isBranch : Bool) (scopes : BlockScopes Object) : Stmt Object → Bool
  | .empty | .jump => true
  | .declaration declaration => declarationIsApart scopes declaration
  | .expression expression => exprIsUnobscured scopes expression
  | .returned value => optionalIsUnobscured scopes value
  | .ifThen condition thenBranch =>
      exprIsUnobscured scopes condition &&
        staysApart true (branchScopes thenBranch scopes) thenBranch
  | .ifElse condition thenBranch elseBranch =>
      exprIsUnobscured scopes condition &&
        staysApart true (branchScopes thenBranch scopes) thenBranch &&
          staysApart true (branchScopes elseBranch (inBranch thenBranch scopes fun scopes =>
            resolveStmt scopes thenBranch).table) elseBranch
  | .whileLoop condition body =>
      exprIsUnobscured scopes condition && staysApart true (branchScopes body scopes) body
  | .forLoop init condition post body =>
      let header := BlockScope.empty true :: scopes
      let declared := resolveForInit header init
      forInitIsApart header init && (!declared.succeeded ||
        (optionalIsUnobscured declared.table condition &&
          (!(resolveOptional declared.table condition).succeeded ||
            (optionalIsUnobscured declared.table post &&
              (!(resolveOptional declared.table post).succeeded ||
                staysApart true (branchScopes body declared.table) body)))))
  | .label _ statement => staysApart false scopes statement
  | .block block => isBranch && statementsStayApart (BlockScope.empty false :: scopes) block

def statementsStayApart (scopes : BlockScopes Object) : BlockStmt Object → Bool
  | .nil => true
  | .cons statement rest =>
      staysApart false scopes statement &&
        statementsStayApart (resolveStmt scopes statement).table rest

end

def parametersAreDistinct (scopes : BlockScopes Object) : List (Parameter Object) → Bool
  | [] => true
  | { name := _, object := none } :: rest => parametersAreDistinct scopes rest
  | { name, object := some object } :: rest =>
      !isRedeclaration scopes name && parametersAreDistinct (declareName scopes name object) rest

def functionStaysApart (globals : String → Option Object) (function : FunctionDecl Object) : Bool :=
  let scopes := [BlockScope.empty false, globalScope globals]
  let parameters := resolveParameters scopes function.parameters
  parametersAreDistinct scopes function.parameters &&
    (!(parameters.succeeded && function.hasEnabledAbi) ||
      statementsStayApart (bodyScope parameters.table :: parameters.table) function.body)

end Condition

end HitSimple.Compat

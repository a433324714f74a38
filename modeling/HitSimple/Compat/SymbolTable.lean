import Mathlib.Logic.Function.Basic

namespace HitSimple.Compat

/-- What lowering an expression asks of the symbol table, one identifier after another.  How it goes
on, and whether it succeeds, depends on the objects it finds. -/
inductive Expr (Object : Type) where
  | lowered (succeeds : Bool)
  | identifier (name : String) (next : Object → Expr Object)

/-- `object` is the outcome of `resolveObject` on the declared type. -/
structure VarDecl (Object : Type) where
  name : String
  isExtern : Bool
  object : Option Object
  acceptsInitializer : Bool
  initializer : Option (Expr Object)

inductive ForInit (Object : Type) where
  | none
  | declaration (declaration : VarDecl Object)
  | expression (expression : Expr Object)

mutual

inductive Stmt (Object : Type) where
  | empty
  | declaration (declaration : VarDecl Object)
  | expression (expression : Expr Object)
  | returned (value : Option (Expr Object))
  | ifThen (condition : Expr Object) (thenBranch : Stmt Object)
  | ifElse (condition : Expr Object) (thenBranch elseBranch : Stmt Object)
  | whileLoop (condition : Expr Object) (body : Stmt Object)
  | forLoop (init : ForInit Object) (condition post : Option (Expr Object)) (body : Stmt Object)
  | jump
  | label (label : String) (statement : Stmt Object)
  | block (block : BlockStmt Object)

inductive BlockStmt (Object : Type) where
  | nil
  | cons (statement : Stmt Object) (rest : BlockStmt Object)

end

structure Parameter (Object : Type) where
  name : String
  object : Option Object

/-- Functions that pass floats need the host float ABI. -/
structure FunctionDecl (Object : Type) where
  parameters : List (Parameter Object)
  hasEnabledAbi : Bool
  body : BlockStmt Object

variable {Object : Type}

def Stmt.isBlock : Stmt Object → Bool
  | .block _ => true
  | _ => false

/-- What is observed of a symbol table. -/
inductive Event (Object : Type) where
  | use (name : String) (object : Option Object)
  | bound (name : String) (object : Object)
  | duplicate (name : String)
  deriving DecidableEq, Repr

/-- The table after a statement, what happened to it, and whether lowering goes on. -/
structure Lowering (Table Object : Type) where
  table : Table
  events : List (Event Object)
  succeeded : Bool

/-- `scopes_`, the innermost scope first. -/
abbrev Scopes (Object : Type) := List (String → Option Object)

def lookupObject : Scopes Object → String → Option Object
  | [], _ => none
  | scope :: outer, name => match scope name with
      | some object => some object
      | none => lookupObject outer name

def pushScope (scopes : Scopes Object) : Scopes Object :=
  (fun _ => none) :: scopes

def popScope (scopes : Scopes Object) : Scopes Object :=
  scopes.tail

def bindObject (scopes : Scopes Object) (name : String) (object : Object) : Scopes Object :=
  match scopes with
  | [] => [Function.update (fun _ => none) name (some object)]
  | scope :: outer => Function.update scope name (some object) :: outer

/-- Whether the innermost scope contains a name. -/
def isDeclared (scopes : Scopes Object) (name : String) : Bool :=
  match scopes with
  | [] => false
  | scope :: _ => (scope name).isSome

/-- The lookups of an expression, and whether it is lowered. -/
def lookups (lookup : String → Option Object) : Expr Object → List (Event Object) × Bool
  | .lowered succeeds => ([], succeeds)
  | .identifier name next => match lookup name with
      | none => ([.use name none], false)
      | some object =>
          let rest := lookups lookup (next object)
          (.use name (some object) :: rest.1, rest.2)

def lowerExpr (scopes : Scopes Object) (expression : Expr Object) : Lowering (Scopes Object) Object :=
  let outcome := lookups (lookupObject scopes) expression
  { table := scopes, events := outcome.1, succeeded := outcome.2 }

def lowerOptional (scopes : Scopes Object) :
    Option (Expr Object) → Lowering (Scopes Object) Object
  | none => { table := scopes, events := [], succeeded := true }
  | some expression => lowerExpr scopes expression

/-- The name is bound before its initializer is lowered. -/
def lowerLocalDeclaration (scopes : Scopes Object) (declaration : VarDecl Object) :
    Lowering (Scopes Object) Object :=
  match declaration.isExtern, declaration.object with
  | true, _ | false, none => { table := scopes, events := [], succeeded := false }
  | false, some object =>
      if isDeclared scopes declaration.name then
        { table := scopes, events := [.duplicate declaration.name], succeeded := false }
      else
        let scopes := bindObject scopes declaration.name object
        let initializer :=
          if declaration.initializer.isSome && !declaration.acceptsInitializer then
            { table := scopes, events := [], succeeded := false }
          else lowerOptional scopes declaration.initializer
        { initializer with events := .bound declaration.name object :: initializer.events }

def lowerForInit (scopes : Scopes Object) : ForInit Object → Lowering (Scopes Object) Object
  | .none => { table := scopes, events := [], succeeded := true }
  | .declaration declaration => lowerLocalDeclaration scopes declaration
  | .expression expression => lowerExpr scopes expression

section Sequencing
variable {Table : Type}

/-- The second part starts from the table of the first, whatever came of the first. -/
def Lowering.always (first : Lowering Table Object) (next : Table → Lowering Table Object) :
    Lowering Table Object :=
  let second := next first.table
  { table := second.table
    events := first.events ++ second.events
    succeeded := first.succeeded && second.succeeded }

/-- A failure of the first part leaves the second out. -/
def Lowering.andThen (first : Lowering Table Object) (next : Table → Lowering Table Object) :
    Lowering Table Object :=
  if first.succeeded then first.always next else first

end Sequencing

mutual

/-- A block is lowered as a branch or a body only. -/
def lowerStmt (isBranch : Bool) (scopes : Scopes Object) :
    Stmt Object → Lowering (Scopes Object) Object
  | .empty | .jump => { table := scopes, events := [], succeeded := true }
  | .declaration declaration => lowerLocalDeclaration scopes declaration
  | .expression expression => lowerExpr scopes expression
  | .returned value => lowerOptional scopes value
  | .ifThen condition thenBranch =>
      (lowerExpr scopes condition).always fun scopes => lowerStmt true scopes thenBranch
  | .ifElse condition thenBranch elseBranch =>
      ((lowerExpr scopes condition).always fun scopes => lowerStmt true scopes thenBranch).always
        fun scopes => lowerStmt true scopes elseBranch
  | .whileLoop condition body =>
      (lowerExpr scopes condition).always fun scopes => lowerStmt true scopes body
  | .forLoop init condition post body =>
      (lowerForInit scopes init).andThen fun scopes =>
        (lowerOptional scopes condition).andThen fun scopes =>
          (lowerOptional scopes post).andThen fun scopes => lowerStmt true scopes body
  | .label _ statement => lowerStmt false scopes statement
  | .block block =>
      if isBranch then
        let inner := lowerStatements (pushScope scopes) block
        { table := popScope inner.table, events := inner.events, succeeded := true }
      else { table := scopes, events := [], succeeded := false }

def lowerStatements (scopes : Scopes Object) : BlockStmt Object → Lowering (Scopes Object) Object
  | .nil => { table := scopes, events := [], succeeded := true }
  | .cons statement rest =>
      (lowerStmt false scopes statement).always fun scopes => lowerStatements scopes rest

end

def bindParameters (scopes : Scopes Object) :
    List (Parameter Object) → Lowering (Scopes Object) Object
  | [] => { table := scopes, events := [], succeeded := true }
  | { name := _, object := none } :: rest =>
      { bindParameters scopes rest with succeeded := false }
  | { name, object := some object } :: rest =>
      let rest := bindParameters (bindObject scopes name object) rest
      { rest with events := .bound name object :: rest.events }

/-- The parameters have a scope of their own, around the one of the body. -/
def lowerFunction (globals : String → Option Object) (function : FunctionDecl Object) :
    List (Event Object) :=
  let parameters := bindParameters (pushScope [globals]) function.parameters
  let signature := { parameters with succeeded := parameters.succeeded && function.hasEnabledAbi }
  (signature.andThen fun scopes => lowerStatements (pushScope scopes) function.body).events

end HitSimple.Compat

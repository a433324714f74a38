import HitSimple.Ownership.Reach
import Mathlib.Data.Finset.Insert

namespace HitSimple.Rebinding

mutual

/-- An expression of the HIR; a child that an owning pointer may lack is an option. -/
inductive Expr where
  | integerLiteral
  | characterLiteral
  | stringLiteral
  | floatLiteral
  | variableRef
  | capturedViewRef
  | addressOf
  | deref (address : Option Expr)
  | booleanTest (operand : Option Expr)
  | binary (left right : Option Expr)
  | unary (operand : Option Expr)
  | ternary (condition thenExpr elseExpr : Option Expr)
  | unsigned (operand : Option Expr)
  | integerCast (operand : Option Expr)
  | templateView (operand : Option Expr)
  | userTemplateOpCall (arguments : List (Option Expr))
  | floatBinary (left right : Option Expr)
  | floatCompare (left right : Option Expr)
  | toFloat (operand : Option Expr)
  | toInt (operand : Option Expr)
  | userTemplateFormatCall (value file : Option Expr)
  | call (arguments : List (Option Expr))
  | dynamicByteView (source runtimeLength : Option Expr)
  | byteSwap (source : Option Expr)
  | assignment (stores : List (Option Stmt)) (result : Option Expr)

inductive Stmt where
  | captureView (source : Option Expr)
  | statementList (statements : List (Option Stmt))
  | localMemory
  | bindingRebind (bindingName : String) (address : Option Expr)
  | integerStore (value : Option Expr)
  | floatStore (value : Option Expr)
  | viewCopyStore (value : Option Expr)
  | stringStore
  | stringCopyStore (sourceView : Option Expr)
  | boolStore (value : Option Expr)
  | pointerStore (address value : Option Expr)
  | call (arguments : List (Option Expr))
  | userTemplateOpCall (arguments : List (Option Expr))
  | userTemplateFormatCall (value file : Option Expr)
  | multiReturnCallStore (arguments : List (Option Expr))
  | inputCallStore (file format : Option Expr)
  | return (values : List (Option Expr))
  | if (condition : Option Expr) (thenBlock elseBlock : Option Block)
  | while (condition : Option Expr) (body : Option Block)
  | for (init : Option Stmt) (condition : Option Expr) (post : List (Option Stmt))
      (body : Option Block)
  | break
  | continue
  | goto
  | label (statement : Option Stmt)
  | throw (delivery : Option Stmt)
  | tryCatch (tryBlock catchBlock : Option Block)

inductive Block where
  | mk (statements : List (Option Stmt))

end

structure Function where
  body : Option Block

structure TranslationUnit where
  functions : List Function
  globalInit : Option Block

inductive Node where
  | expr (node : Expr)
  | stmt (node : Stmt)
  | block (node : Block)

section
variable (operand : Option Expr) (operands : List (Option Expr)) (statement : Option Stmt)
  (statements : List (Option Stmt)) (block : Option Block)

def exprNodes : List Node := operand.toList.map .expr

def exprsNodes : List Node := operands.reduceOption.map .expr

def stmtNodes : List Node := statement.toList.map .stmt

def stmtsNodes : List Node := statements.reduceOption.map .stmt

def blockNodes : List Node := block.toList.map .block

end

/-! ### The owned nodes of each struct -/

def Expr.fields : Expr → List Node
  | .integerLiteral | .characterLiteral | .stringLiteral | .floatLiteral | .variableRef
  | .capturedViewRef | .addressOf => []
  | .deref child | .booleanTest child | .unary child | .unsigned child | .integerCast child
  | .templateView child | .toFloat child | .toInt child | .byteSwap child => exprNodes child
  | .binary first second | .floatBinary first second | .floatCompare first second
  | .userTemplateFormatCall first second | .dynamicByteView first second =>
      exprNodes first ++ exprNodes second
  | .ternary condition thenExpr elseExpr =>
      exprNodes condition ++ exprNodes thenExpr ++ exprNodes elseExpr
  | .userTemplateOpCall arguments | .call arguments => exprsNodes arguments
  | .assignment stores result => stmtsNodes stores ++ exprNodes result

def Stmt.fields : Stmt → List Node
  | .localMemory | .stringStore | .break | .continue | .goto => []
  | .captureView child | .bindingRebind _ child | .integerStore child | .floatStore child
  | .viewCopyStore child | .stringCopyStore child | .boolStore child => exprNodes child
  | .pointerStore first second | .userTemplateFormatCall first second
  | .inputCallStore first second => exprNodes first ++ exprNodes second
  | .call arguments | .userTemplateOpCall arguments | .multiReturnCallStore arguments
  | .return arguments => exprsNodes arguments
  | .statementList statements => stmtsNodes statements
  | .if condition thenBlock elseBlock =>
      exprNodes condition ++ blockNodes thenBlock ++ blockNodes elseBlock
  | .while condition body => exprNodes condition ++ blockNodes body
  | .for init condition post body =>
      stmtNodes init ++ exprNodes condition ++ stmtsNodes post ++ blockNodes body
  | .label child | .throw child => stmtNodes child
  | .tryCatch tryBlock catchBlock => blockNodes tryBlock ++ blockNodes catchBlock

def Block.fields : Block → List Node
  | ⟨statements⟩ => stmtsNodes statements

def Node.fields : Node → List Node
  | .expr node => node.fields
  | .stmt node => node.fields
  | .block node => node.fields

/-- The binding that a node of its own rebinds. -/
def Node.rebinds : Node → Set String
  | .stmt (.bindingRebind bindingName _) => {bindingName}
  | _ => ∅

def TranslationUnit.roots (unit : TranslationUnit) : List Node :=
  blockNodes unit.globalInit ++ unit.functions.flatMap fun function => blockNodes function.body

abbrev Bindings := Finset String

mutual

def expression : Expr → Bindings → Bindings
  | .deref address => someExpression address
  | .booleanTest operand => someExpression operand
  | .binary left right => fun bindings => someExpression right (someExpression left bindings)
  | .unary operand => someExpression operand
  | .ternary condition thenExpr elseExpr => fun bindings =>
      someExpression elseExpr (someExpression thenExpr (someExpression condition bindings))
  | .unsigned operand => someExpression operand
  | .integerCast operand => someExpression operand
  | .templateView operand => someExpression operand
  | .floatBinary left right => fun bindings => someExpression right (someExpression left bindings)
  | .floatCompare left right => fun bindings => someExpression right (someExpression left bindings)
  | .toFloat operand => someExpression operand
  | .toInt operand => someExpression operand
  | .userTemplateFormatCall value file => fun bindings =>
      someExpression file (someExpression value bindings)
  | .dynamicByteView source runtimeLength => fun bindings =>
      someExpression runtimeLength (someExpression source bindings)
  | .byteSwap source => someExpression source
  | .call arguments => expressions arguments
  | .userTemplateOpCall arguments => expressions arguments
  | .assignment stores result => fun bindings => someExpression result (statements stores bindings)
  | _ => id

def statement : Stmt → Bindings → Bindings
  | .bindingRebind bindingName address => fun bindings =>
      someExpression address (insert bindingName bindings)
  | .captureView source => someExpression source
  | .integerStore value => someExpression value
  | .floatStore value => someExpression value
  | .viewCopyStore value => someExpression value
  | .boolStore value => someExpression value
  | .pointerStore address value => fun bindings =>
      someExpression value (someExpression address bindings)
  | .stringCopyStore sourceView => someExpression sourceView
  | .userTemplateFormatCall value file => fun bindings =>
      someExpression file (someExpression value bindings)
  | .inputCallStore file format => fun bindings =>
      someExpression format (someExpression file bindings)
  | .call arguments => expressions arguments
  | .userTemplateOpCall arguments => expressions arguments
  | .multiReturnCallStore arguments => expressions arguments
  | .return values => expressions values
  | .statementList nested => statements nested
  | .if condition thenBlock elseBlock => fun bindings =>
      someBlock elseBlock (someBlock thenBlock (someExpression condition bindings))
  | .while condition body => fun bindings => someBlock body (someExpression condition bindings)
  | .for init condition post body => fun bindings =>
      someBlock body (statements post (someExpression condition (someStatement init bindings)))
  | .label labelled => someStatement labelled
  | .throw delivery => someStatement delivery
  | .tryCatch tryBlock catchBlock => fun bindings =>
      someBlock catchBlock (someBlock tryBlock bindings)
  | _ => id

def blockStatements : Block → Bindings → Bindings
  | ⟨nested⟩ => statements nested

def someExpression : Option Expr → Bindings → Bindings
  | none => id
  | some value => expression value

def someStatement : Option Stmt → Bindings → Bindings
  | none => id
  | some value => statement value

def someBlock : Option Block → Bindings → Bindings
  | none => id
  | some block => blockStatements block

def expressions : List (Option Expr) → Bindings → Bindings
  | [] => id
  | value :: values => fun bindings => expressions values (someExpression value bindings)

def statements : List (Option Stmt) → Bindings → Bindings
  | [] => id
  | value :: values => fun bindings => statements values (someStatement value bindings)

end

def reboundBindings (unit : TranslationUnit) : Bindings :=
  unit.functions.foldl (fun bindings function => someBlock function.body bindings)
    (someBlock unit.globalInit ∅)

/-! ### The emitter -/

/-- The slot that holds the address a binding denotes. -/
inductive BindingStorage where
  | globalVariable (name : String)
  | entryAlloca (name : String)
  deriving DecidableEq

/-- A local without such a slot always denotes its own storage. -/
structure Local where
  bindingStorage : Option BindingStorage
  requiresAccessCheck : Bool

def initializeBinding (reboundBindings : Bindings) (target : Local) (bindingName : String)
    (persistent : Bool) : Local :=
  if bindingName ∉ reboundBindings then target
  else
    { bindingStorage := some (
        if persistent then .globalVariable (bindingName ++ ".binding")
        else .entryAlloca (bindingName ++ ".binding"))
      requiresAccessCheck := true }

end HitSimple.Rebinding

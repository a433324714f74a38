import HitSimple.Parser.Grammar

namespace HitSimple.Parser

/-- The row of Standard 3.7 that the corresponding ordinary operator stands in. -/
def TypedSymbol.row : TypedSymbol → Nat
  | .power => 4
  | .multiply | .divide | .remainder => 5
  | .add | .subtract => 6
  | .shiftLeft | .shiftRight => 7
  | .bitAnd => 10
  | .bitXor => 11
  | .bitOr => 12

namespace BinaryOperator

/-- Standard 3.7: a typed operator has the precedence of its ordinary operator. -/
def row : BinaryOperator → Nat
  | .power => 4
  | .multiply | .divide | .remainder => 5
  | .add | .subtract => 6
  | .shiftLeft | .shiftRight => 7
  | .less | .greater | .lessEqual | .greaterEqual => 8
  | .equal | .notEqual => 9
  | .bitAnd => 10
  | .bitXor => 11
  | .bitOr => 12
  | .logicalAnd => 13
  | .logicalOr => 14
  | .typed operator => operator.symbol.row

/-- The loosest row that stands bare on the left: `**` alone associates to the right. -/
def leftRow (op : BinaryOperator) : Nat :=
  if op.row = 4 then 3 else op.row

def rightRow (op : BinaryOperator) : Nat :=
  if op.row = 4 then 4 else op.row - 1

def token : BinaryOperator → Token
  | .logicalOr => .pipePipe
  | .logicalAnd => .ampersandAmpersand
  | .bitOr => .pipe
  | .bitXor => .caret
  | .bitAnd => .ampersand
  | .equal => .equalEqual
  | .notEqual => .bangEqual
  | .less => .less
  | .greater => .greater
  | .lessEqual => .lessEqual
  | .greaterEqual => .greaterEqual
  | .shiftLeft => .shiftLeft
  | .shiftRight => .shiftRight
  | .add => .plus
  | .subtract => .minus
  | .multiply => .star
  | .divide => .slash
  | .remainder => .percent
  | .power => .power
  | .typed operator => typedToken operator

end BinaryOperator

def UnaryOperator.token : UnaryOperator → Token
  | .bang => .bang
  | .tilde => .tilde
  | .minus => .minus
  | .ampersand => .ampersand
  | .plusPlus => .plusPlus
  | .minusMinus => .minusMinus

def PostOperator.token : PostOperator → Token
  | .plusPlus => .plusPlus
  | .minusMinus => .minusMinus

def AssignmentOperator.token : AssignmentOperator → Token
  | .equal => .equal
  | .ampersandEqual => .ampersandEqual
  | .typed text => .typedAssign text

def DerefLength.tokens : DerefLength → List Token
  | .integer text => [.integer text]
  | .pointer => [.identifier "P"]
  | .sizeof name => [.sizeof, .lparen, .identifier name, .rparen]

def templateToken (name : String) : Token :=
  if name = "none" then .none else .identifier name

namespace Expr

/-- The row of Standard 3.7 that the tree belongs to; primary expressions go with row 1. -/
def row : Expr → Nat
  | .sizeof _ | .unary _ _ | .deref _ _ => 2
  | .asTemplate _ _ => 3
  | .binary op _ _ => op.row
  | .ternary _ _ _ => 15
  | .assignment _ _ _ => 16
  | _ => 1

/-- `a.b(c)` is a method call, so a member that is called stands in parentheses. -/
def calleeRow : Expr → Nat
  | .member _ _ => 17
  | callee => callee.row

/-- The targets of Appendix 20 are postfix forms, dereferences and their `as` views. -/
def targetRow : Expr → Nat
  | .sizeof _ | .unary _ _ => 17
  | target => target.row

end Expr

/-- A tree of the given row where at most the row `bound` stands bare. -/
def enclose (bound row : Nat) (tokens : List Token) : List Token :=
  if row ≤ bound then tokens else .lparen :: (tokens ++ [.rparen])

mutual
/-- The tokens of a tree, with the parentheses that Standard 3.7 and Appendix 20 require. -/
def Expr.print : Expr → List Token
  | .identifier name => [.identifier name]
  | .integerLiteral value => [.integer value]
  | .floatLiteral value => [.float value]
  | .charLiteral value => [.char value]
  | .stringLiteral value => [.string value]
  | .boolLiteral value => [if value then .trueKeyword else .falseKeyword]
  | .sizeof name => [.sizeof, .lparen, .identifier name, .rparen]
  | .call callee arguments =>
      enclose 1 callee.calleeRow callee.print ++ .lparen :: (printArguments arguments ++ [.rparen])
  | .methodCall receiver method arguments =>
      enclose 1 receiver.row receiver.print ++
        .dot :: .identifier method :: .lparen :: (printArguments arguments ++ [.rparen])
  | .member base name => enclose 1 base.row base.print ++ [.dot, .identifier name]
  | .index base index =>
      enclose 1 base.row base.print ++ .lbracket :: (index.print ++ [.rbracket])
  | .slice base start stop false =>
      enclose 1 base.row base.print ++
        .lbracket :: (start.print ++ .colon :: (stop.print ++ [.rbracket]))
  | .slice base start stop true =>
      enclose 1 base.row base.print ++
        .lbracket :: (start.print ++ .colon :: .plus :: (stop.print ++ [.rbracket]))
  | .unsigned operand => enclose 1 operand.row operand.print ++ [.unsignedQuestion]
  | .asTemplate operand name => enclose 2 operand.row operand.print ++ [.as, templateToken name]
  | .post op operand => enclose 1 operand.row operand.print ++ [op.token]
  | .unary op operand => op.token :: enclose 2 operand.row operand.print
  | .deref length address =>
      .lbracket :: (length.tokens ++ .rbracket :: .star :: enclose 2 address.row address.print)
  | .binary op left right =>
      enclose op.leftRow left.row left.print ++ op.token :: enclose op.rightRow right.row right.print
  | .ternary condition thenExpr elseExpr =>
      enclose 14 condition.row condition.print ++
        .question :: (thenExpr.print ++ .colon :: enclose 15 elseExpr.row elseExpr.print)
  | .assignment target op value =>
      enclose 3 target.targetRow target.print ++ op.token :: value.print

def printArguments : List Expr → List Token
  | [] => []
  | [argument] => argument.print
  | argument :: rest => argument.print ++ .comma :: printArguments rest
end

namespace Expr

def isTyped (symbol : TypedSymbol) : Expr → Bool
  | .binary (.typed operator) _ _ => operator.symbol = symbol
  | _ => false

/-- A unary operator, a dereference or `sizeof`. -/
def isPrefixed : Expr → Bool
  | .sizeof _ | .unary _ _ | .deref _ _ => true
  | _ => false

/-- `&` and `^` do not have a looser typed `&` or `^` bare on their left. -/
def leftGroups (left : Expr) : BinaryOperator → Bool
  | .bitAnd => !left.isTyped .bitAnd
  | .bitXor => !left.isTyped .bitAnd && !left.isTyped .bitXor
  | _ => true

/-- The bitwise operators do not have a looser typed `&` or `^` bare on their right. -/
def rightGroups (right : Expr) : BinaryOperator → Bool
  | .bitXor => !right.isTyped .bitAnd
  | .bitOr => !right.isTyped .bitAnd && !right.isTyped .bitXor
  | .typed operator =>
      match operator.symbol with
      | .bitXor => !right.isTyped .bitAnd
      | .bitOr => !right.isTyped .bitAnd && !right.isTyped .bitXor
      | _ => true
  | _ => true

end Expr

mutual
/-- No typed `&` or `^` stands where Parser.y binds it looser than the table, no `as` views a
prefixed operand, every dereference has an integer length and every callee is a name. -/
def Expr.groupsAsTable : Expr → Bool
  | .call (.identifier _) arguments => argumentsGroup arguments
  | .call _ _ => false
  | .methodCall receiver _ arguments => receiver.groupsAsTable && argumentsGroup arguments
  | .member base _ => base.groupsAsTable
  | .index base index => base.groupsAsTable && index.groupsAsTable
  | .slice base start stop _ => base.groupsAsTable && start.groupsAsTable && stop.groupsAsTable
  | .unsigned operand => operand.groupsAsTable
  | .asTemplate operand _ => !operand.isPrefixed && operand.groupsAsTable
  | .post _ operand => operand.groupsAsTable
  | .unary _ operand => operand.groupsAsTable
  | .deref (.integer _) address => address.groupsAsTable
  | .deref _ _ => false
  | .binary op left right =>
      left.leftGroups op && right.rightGroups op && left.groupsAsTable && right.groupsAsTable
  | .ternary condition thenExpr elseExpr =>
      condition.groupsAsTable && thenExpr.groupsAsTable && elseExpr.groupsAsTable
  | .assignment target _ value => target.groupsAsTable && value.groupsAsTable
  | _ => true

def argumentsGroup : List Expr → Bool
  | [] => true
  | argument :: rest => argument.groupsAsTable && argumentsGroup rest
end

attribute [simp] Expr.print printArguments Expr.groupsAsTable argumentsGroup

theorem argumentsGroup_iff (arguments : List Expr) :
    argumentsGroup arguments = true ↔ ∀ argument ∈ arguments, argument.groupsAsTable = true := by
  induction arguments with
  | nil => simp
  | cons argument rest ih => simp [ih]

@[elab_as_elim]
theorem Expr.inductOn {holds : Expr → Prop}
    (identifier : ∀ name, holds (.identifier name))
    (integerLiteral : ∀ value, holds (.integerLiteral value))
    (floatLiteral : ∀ value, holds (.floatLiteral value))
    (charLiteral : ∀ value, holds (.charLiteral value))
    (stringLiteral : ∀ value, holds (.stringLiteral value))
    (boolLiteral : ∀ value, holds (.boolLiteral value))
    (sizeof : ∀ name, holds (.sizeof name))
    (call : ∀ callee arguments, holds callee → (∀ argument ∈ arguments, holds argument) →
      holds (.call callee arguments))
    (methodCall : ∀ receiver method arguments, holds receiver →
      (∀ argument ∈ arguments, holds argument) → holds (.methodCall receiver method arguments))
    (member : ∀ base name, holds base → holds (.member base name))
    (index : ∀ base index, holds base → holds index → holds (.index base index))
    (slice : ∀ base start stop lengthMode, holds base → holds start → holds stop →
      holds (.slice base start stop lengthMode))
    (unsigned : ∀ operand, holds operand → holds (.unsigned operand))
    (asTemplate : ∀ operand name, holds operand → holds (.asTemplate operand name))
    (post : ∀ op operand, holds operand → holds (.post op operand))
    (unary : ∀ op operand, holds operand → holds (.unary op operand))
    (deref : ∀ length address, holds address → holds (.deref length address))
    (binary : ∀ op left right, holds left → holds right → holds (.binary op left right))
    (ternary : ∀ condition thenExpr elseExpr, holds condition → holds thenExpr →
      holds elseExpr → holds (.ternary condition thenExpr elseExpr))
    (assignment : ∀ target op value, holds target → holds value →
      holds (.assignment target op value))
    (expr : Expr) : holds expr := by
  refine @Expr.rec holds (fun arguments => ∀ argument ∈ arguments, holds argument)
    identifier integerLiteral floatLiteral charLiteral stringLiteral boolLiteral sizeof call
    methodCall member index slice unsigned asTemplate post unary deref binary ternary assignment
    ?_ ?_ expr
  · intro argument member
    cases member
  · intro head tail first rest argument member
    cases member with
    | head => exact first
    | tail _ inside => exact rest argument inside

end HitSimple.Parser

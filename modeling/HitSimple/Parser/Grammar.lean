import HitSimple.Parser.Tokens

namespace HitSimple.Parser

/-- The `op` of a `UnaryExpr` written before its operand. -/
inductive UnaryOperator where
  | bang
  | tilde
  | minus
  | ampersand
  | plusPlus
  | minusMinus
  deriving DecidableEq, Repr

/-- The `op` of a `UnaryExpr` written after its operand: `post++` and `post--`. -/
inductive PostOperator where
  | plusPlus
  | minusMinus
  deriving DecidableEq, Repr

inductive BinaryOperator where
  | logicalOr
  | logicalAnd
  | bitOr
  | bitXor
  | bitAnd
  | equal
  | notEqual
  | less
  | greater
  | lessEqual
  | greaterEqual
  | shiftLeft
  | shiftRight
  | add
  | subtract
  | multiply
  | divide
  | remainder
  | power
  | typed (operator : TypedOperator)

inductive AssignmentOperator where
  | equal
  | ampersandEqual
  | typed (text : String)

/-- What stands in the brackets of `[N]*`: the three forms of `deref_prefix` in Appendix 20. -/
inductive DerefLength where
  | integer (text : String)
  | pointer
  | sizeof (name : String)

/-- The trees of `expression` in Appendix 20, under the names of AST.h. -/
inductive Expr where
  | identifier (name : String)
  | integerLiteral (value : String)
  | floatLiteral (value : String)
  | charLiteral (value : String)
  | stringLiteral (value : String)
  | boolLiteral (value : Bool)
  | sizeof (name : String)
  | call (callee : Expr) (arguments : List Expr)
  | methodCall (receiver : Expr) (method : String) (arguments : List Expr)
  | member (base : Expr) (name : String)
  | index (base index : Expr)
  | slice (base start stop : Expr) (lengthMode : Bool)
  | unsigned (operand : Expr)
  | asTemplate (operand : Expr) (templateName : String)
  | post (op : PostOperator) (operand : Expr)
  | unary (op : UnaryOperator) (operand : Expr)
  | deref (length : DerefLength) (address : Expr)
  | binary (op : BinaryOperator) (left right : Expr)
  | ternary (condition thenExpr elseExpr : Expr)
  | assignment (target : Expr) (op : AssignmentOperator) (value : Expr)

/-- The semantic values of the grammar symbols below. -/
inductive Value where
  | expression (expr : Expr)
  | arguments (list : List Expr)

/-- The left-recursive levels of Parser.y. -/
inductive BinaryLevel where
  | logicalOrExpr
  | logicalAndExpr
  | bitwiseOrExpr
  | bitwiseXorExpr
  | bitwiseAndExpr
  | equalityExpr
  | relationalExpr
  | shiftExpr
  | additiveExpr
  | multiplicativeExpr
  deriving DecidableEq, Repr

inductive Nonterminal where
  | expression
  | assignmentExpr
  | conditionalExpr
  | binaryExpr (level : BinaryLevel)
  | powerExpr
  | unaryExpr
  | postfixExpr
  | callExpr
  | primaryExpr
  | optionalArgumentList
  | argumentList
  deriving DecidableEq, Repr

namespace BinaryLevel

/-- The nonterminal on the right of each operator of the level. -/
def operand : BinaryLevel → Nonterminal
  | .logicalOrExpr => .binaryExpr .logicalAndExpr
  | .logicalAndExpr => .binaryExpr .bitwiseOrExpr
  | .bitwiseOrExpr => .binaryExpr .bitwiseXorExpr
  | .bitwiseXorExpr => .binaryExpr .bitwiseAndExpr
  | .bitwiseAndExpr => .binaryExpr .equalityExpr
  | .equalityExpr => .binaryExpr .relationalExpr
  | .relationalExpr => .binaryExpr .shiftExpr
  | .shiftExpr => .binaryExpr .additiveExpr
  | .additiveExpr => .binaryExpr .multiplicativeExpr
  | .multiplicativeExpr => .powerExpr

/-- The operator tokens of the level, with the `op` the action stores. -/
def operator : BinaryLevel → Token → Option BinaryOperator
  | .logicalOrExpr, .pipePipe => some .logicalOr
  | .logicalAndExpr, .ampersandAmpersand => some .logicalAnd
  | .bitwiseOrExpr, .pipe => some .bitOr
  | .bitwiseOrExpr, .typed .typedBitwiseOperator typed => some (.typed typed)
  | .bitwiseXorExpr, .caret => some .bitXor
  | .bitwiseAndExpr, .ampersand => some .bitAnd
  | .equalityExpr, .equalEqual => some .equal
  | .equalityExpr, .bangEqual => some .notEqual
  | .relationalExpr, .less => some .less
  | .relationalExpr, .greater => some .greater
  | .relationalExpr, .lessEqual => some .lessEqual
  | .relationalExpr, .greaterEqual => some .greaterEqual
  | .shiftExpr, .shiftLeft => some .shiftLeft
  | .shiftExpr, .shiftRight => some .shiftRight
  | .shiftExpr, .typed .typedShiftOperator typed => some (.typed typed)
  | .additiveExpr, .typed .typedAdditiveOperator typed => some (.typed typed)
  | .additiveExpr, .plus => some .add
  | .additiveExpr, .minus => some .subtract
  | .multiplicativeExpr, .typed .typedMultiplicativeOperator typed => some (.typed typed)
  | .multiplicativeExpr, .star => some .multiply
  | .multiplicativeExpr, .slash => some .divide
  | .multiplicativeExpr, .percent => some .remainder
  | _, _ => none

end BinaryLevel

def powerOperator : Token → Option BinaryOperator
  | .power => some .power
  | .typed .typedPowerOperator typed => some (.typed typed)
  | _ => none

def unaryOperator : Token → Option UnaryOperator
  | .bang => some .bang
  | .tilde => some .tilde
  | .minus => some .minus
  | .ampersand => some .ampersand
  | .plusPlus => some .plusPlus
  | .minusMinus => some .minusMinus
  | _ => none

def postOperator : Token → Option PostOperator
  | .plusPlus => some .plusPlus
  | .minusMinus => some .minusMinus
  | _ => none

/-- `assignment_operator`. -/
def assignmentOperator : Token → Option AssignmentOperator
  | .typedAssign text => some (.typed text)
  | .equal => some .equal
  | .ampersandEqual => some .ampersandEqual
  | _ => none

/-- `template_name`. -/
def templateName : Token → Option String
  | .identifier name => some name
  | .none => some "none"
  | _ => none

/-- The alternatives of `primary_expr` that are one token. -/
def primary : Token → Option Expr
  | .identifier name => some (.identifier name)
  | .integer text => some (.integerLiteral text)
  | .float text => some (.floatLiteral text)
  | .char text => some (.charLiteral text)
  | .string text => some (.stringLiteral text)
  | .self => some (.identifier "self")
  | .trueKeyword => some (.boolLiteral true)
  | .falseKeyword => some (.boolLiteral false)
  | _ => none

/-- Parser.y, `expression` to `primary_expr`: the words of each symbol with its semantic value. -/
inductive Derives : Nonterminal → List Token → Value → Prop where
  | expression {tokens expr} :
      Derives .assignmentExpr tokens (.expression expr) → Derives .expression tokens (.expression expr)
  | conditional {tokens expr} :
      Derives .conditionalExpr tokens (.expression expr) →
      Derives .assignmentExpr tokens (.expression expr)
  | assign {first second token op target value} :
      Derives .postfixExpr first (.expression target) →
      assignmentOperator token = some op →
      Derives .assignmentExpr second (.expression value) →
      Derives .assignmentExpr (first ++ token :: second)
        (.expression (.assignment target op value))
  | assignDeref {text first second token op address value} :
      Derives .unaryExpr first (.expression address) →
      assignmentOperator token = some op →
      Derives .assignmentExpr second (.expression value) →
      Derives .assignmentExpr
        (.lbracket :: .integer text :: .rbracket :: .star :: (first ++ token :: second))
        (.expression (.assignment (.deref (.integer text) address) op value))
  | logicalOr {tokens expr} :
      Derives (.binaryExpr .logicalOrExpr) tokens (.expression expr) →
      Derives .conditionalExpr tokens (.expression expr)
  | ternary {first second third condition thenExpr elseExpr} :
      Derives (.binaryExpr .logicalOrExpr) first (.expression condition) →
      Derives .expression second (.expression thenExpr) →
      Derives .conditionalExpr third (.expression elseExpr) →
      Derives .conditionalExpr (first ++ .question :: (second ++ .colon :: third))
        (.expression (.ternary condition thenExpr elseExpr))
  | operand {level : BinaryLevel} {tokens expr} :
      Derives level.operand tokens (.expression expr) →
      Derives (.binaryExpr level) tokens (.expression expr)
  | binary {level : BinaryLevel} {first second token op left right} :
      Derives (.binaryExpr level) first (.expression left) →
      level.operator token = some op →
      Derives level.operand second (.expression right) →
      Derives (.binaryExpr level) (first ++ token :: second) (.expression (.binary op left right))
  | unary {tokens expr} :
      Derives .unaryExpr tokens (.expression expr) → Derives .powerExpr tokens (.expression expr)
  | power {first second token op left right} :
      Derives .unaryExpr first (.expression left) →
      powerOperator token = some op →
      Derives .powerExpr second (.expression right) →
      Derives .powerExpr (first ++ token :: second) (.expression (.binary op left right))
  | suffixed {tokens expr} :
      Derives .postfixExpr tokens (.expression expr) → Derives .unaryExpr tokens (.expression expr)
  | prefixed {token op tokens operand} :
      unaryOperator token = some op →
      Derives .unaryExpr tokens (.expression operand) →
      Derives .unaryExpr (token :: tokens) (.expression (.unary op operand))
  | deref {text tokens address} :
      Derives .unaryExpr tokens (.expression address) →
      Derives .unaryExpr (.lbracket :: .integer text :: .rbracket :: .star :: tokens)
        (.expression (.deref (.integer text) address))
  | sizeof {name} :
      Derives .unaryExpr [.sizeof, .lparen, .identifier name, .rparen] (.expression (.sizeof name))
  | called {tokens expr} :
      Derives .callExpr tokens (.expression expr) → Derives .postfixExpr tokens (.expression expr)
  | primary {tokens expr} :
      Derives .primaryExpr tokens (.expression expr) → Derives .postfixExpr tokens (.expression expr)
  | index {first second base index} :
      Derives .postfixExpr first (.expression base) →
      Derives .expression second (.expression index) →
      Derives .postfixExpr (first ++ .lbracket :: (second ++ [.rbracket]))
        (.expression (.index base index))
  | slice {first second third base start stop} :
      Derives .postfixExpr first (.expression base) →
      Derives .expression second (.expression start) →
      Derives .expression third (.expression stop) →
      Derives .postfixExpr (first ++ .lbracket :: (second ++ .colon :: (third ++ [.rbracket])))
        (.expression (.slice base start stop false))
  | sliceLength {first second third base start stop} :
      Derives .postfixExpr first (.expression base) →
      Derives .expression second (.expression start) →
      Derives .expression third (.expression stop) →
      Derives .postfixExpr
        (first ++ .lbracket :: (second ++ .colon :: .plus :: (third ++ [.rbracket])))
        (.expression (.slice base start stop true))
  | member {tokens base name} :
      Derives .postfixExpr tokens (.expression base) →
      Derives .postfixExpr (tokens ++ [.dot, .identifier name]) (.expression (.member base name))
  | methodCall {first second receiver method list} :
      Derives .postfixExpr first (.expression receiver) →
      Derives .optionalArgumentList second (.arguments list) →
      Derives .postfixExpr
        (first ++ .dot :: .identifier method :: .lparen :: (second ++ [.rparen]))
        (.expression (.methodCall receiver method list))
  | unsigned {tokens operand} :
      Derives .postfixExpr tokens (.expression operand) →
      Derives .postfixExpr (tokens ++ [.unsignedQuestion]) (.expression (.unsigned operand))
  | asTemplate {tokens token operand name} :
      Derives .postfixExpr tokens (.expression operand) →
      templateName token = some name →
      Derives .postfixExpr (tokens ++ [.as, token]) (.expression (.asTemplate operand name))
  | post {tokens token op operand} :
      Derives .postfixExpr tokens (.expression operand) →
      postOperator token = some op →
      Derives .postfixExpr (tokens ++ [token]) (.expression (.post op operand))
  | call {callee tokens list} :
      Derives .optionalArgumentList tokens (.arguments list) →
      Derives .callExpr (.identifier callee :: .lparen :: (tokens ++ [.rparen]))
        (.expression (.call (.identifier callee) list))
  | noArguments : Derives .optionalArgumentList [] (.arguments [])
  | arguments {tokens list} :
      Derives .argumentList tokens (.arguments list) →
      Derives .optionalArgumentList tokens (.arguments list)
  | firstArgument {tokens argument} :
      Derives .expression tokens (.expression argument) →
      Derives .argumentList tokens (.arguments [argument])
  | nextArgument {first second list argument} :
      Derives .argumentList first (.arguments list) →
      Derives .expression second (.expression argument) →
      Derives .argumentList (first ++ .comma :: second) (.arguments (list ++ [argument]))
  | token {token expr} :
      Parser.primary token = some expr → Derives .primaryExpr [token] (.expression expr)
  | parenthesized {tokens expr} :
      Derives .expression tokens (.expression expr) →
      Derives .primaryExpr (.lparen :: (tokens ++ [.rparen])) (.expression expr)

/-- The tokens are accepted as an `expression`, with this tree and no other. -/
def Parses (tokens : List Token) (expr : Expr) : Prop :=
  Derives .expression tokens (.expression expr) ∧
    ∀ other, Derives .expression tokens (.expression other) → other = expr

end HitSimple.Parser

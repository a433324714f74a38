import HitSimple.CCompat.CastLookAhead

namespace HitSimple.CCompat

def operatorToken (lexeme : String) : Token := ⟨.operator, lexeme⟩

def wordToken (word : String) : Token := ⟨.identifier, word⟩

def lparen : Token := ⟨.lparen, "("⟩

def rparen : Token := ⟨.rparen, ")"⟩

def lbracket : Token := ⟨.lbracket, "["⟩

def rbracket : Token := ⟨.rbracket, "]"⟩

def comma : Token := ⟨.comma, ","⟩

def colon : Token := ⟨.colon, ":"⟩

def question : Token := ⟨.question, "?"⟩

def star : Token := operatorToken "*"

def memberToken (throughPointer : Bool) : Token :=
  if throughPointer then operatorToken "->" else ⟨.dot, "."⟩

def BaseType.words : BaseType → List String
  | char => ["char"]
  | signedChar => ["signed", "char"]
  | unsignedChar => ["unsigned", "char"]
  | short => ["short"]
  | unsignedShort => ["unsigned", "short"]
  | int => ["int"]
  | unsignedInt => ["unsigned", "int"]
  | long => ["long"]
  | unsignedLong => ["unsigned", "long"]
  | longLong => ["long", "long"]
  | unsignedLongLong => ["unsigned", "long", "long"]
  | float => ["float"]
  | double => ["double"]
  | void => ["void"]
  | struct => ["struct"]
  | typedefName => []

def CType.print (type : CType) : List Token :=
  (if type.isConst then [wordToken "const"] else []) ++
    ((if type.isVolatile then [wordToken "volatile"] else []) ++
      (type.base.words.map wordToken ++
        (if type.base = .struct ∨ type.base = .typedefName then [wordToken type.name] else [])))

/-- The nonterminals of Standard 16.1 from `c_assignment_expr` to `c_postfix_expr`, by number. -/
def Expr.level : Expr → Nat
  | .assignment .. => 0
  | .conditional .. => 1
  | .binary op _ _ => op.precedence + 1
  | .cast .. => 12
  | .unary .. => 13
  | _ => 14

/-- Parentheses stand only around a tree of a looser nonterminal. -/
def enclose (minimum level : Nat) (tokens : List Token) : List Token :=
  if minimum ≤ level then tokens else lparen :: (tokens ++ [rparen])

mutual
def Expr.print : Expr → List Token
  | .identifier name => [wordToken name]
  | .literal kind value => [⟨kind.token, value⟩]
  | .sizeofType type => wordToken "sizeof" :: lparen :: (type.print ++ [rparen])
  | .sizeofIdentifier name => [wordToken "sizeof", lparen, wordToken name, rparen]
  | .unary op operand => operatorToken op.lexeme :: enclose 13 operand.level operand.print
  | .binary op left right =>
      enclose (op.precedence + 1) left.level left.print ++
        operatorToken op.lexeme :: enclose (op.precedence + 2) right.level right.print
  | .conditional condition thenExpr elseExpr =>
      enclose 2 condition.level condition.print ++
        question :: (thenExpr.print ++ colon :: enclose 1 elseExpr.level elseExpr.print)
  | .assignment op target value =>
      enclose 13 target.level target.print ++ operatorToken op.lexeme :: value.print
  | .cast type pointerDepth operand =>
      lparen :: (type.print ++ (List.replicate pointerDepth star ++
        rparen :: enclose 12 operand.level operand.print))
  | .index base index =>
      enclose 14 base.level base.print ++ lbracket :: (index.print ++ [rbracket])
  | .call callee arguments =>
      enclose 14 callee.level callee.print ++ lparen :: (printArguments arguments ++ [rparen])
  | .member base name throughPointer =>
      enclose 14 base.level base.print ++ [memberToken throughPointer, wordToken name]

def printArguments : List Expr → List Token
  | [] => []
  | [argument] => argument.print
  | argument :: rest => argument.print ++ comma :: printArguments rest
end

/-- The words of the grammar of types and of `sizeof`. -/
def reservedWords : List String :=
  ["const", "volatile", "char", "signed", "unsigned", "short", "int", "long", "float", "double",
    "void", "struct", "sizeof"]

def isIdentifierStart (ch : Char) : Bool :=
  ch.isAlpha || ch == '_'

def IsName (name : String) : Prop :=
  (∃ ch rest, name.toList = ch :: rest ∧ isIdentifierStart ch = true) ∧ name ∉ reservedWords

def startsLiteral : LiteralKind → Char → Bool
  | .integer, ch | .float, ch => ch.isDigit
  | .string, ch => ch == '"'
  | .character, ch => ch == '\''

def IsLiteral (kind : LiteralKind) (value : String) : Prop :=
  ∃ ch rest, value.toList = ch :: rest ∧ startsLiteral kind ch = true

/-- An alias is a registered one, and only a structure and an alias have a name. -/
def CType.WellNamed (typedefNames : List String) (type : CType) : Prop :=
  (type.base = .struct → IsName type.name) ∧
    (type.base = .typedefName → IsName type.name ∧ type.name ∈ typedefNames) ∧
    (type.base ≠ .struct → type.base ≠ .typedefName → type.name = "")

/-- Types name registered aliases, and no operand of `sizeof` that stands for an object does. -/
inductive Expr.WellNamed (typedefNames : List String) : Expr → Prop where
  | identifier {name} (isName : IsName name) : WellNamed typedefNames (.identifier name)
  | literal {kind value} (isLiteral : IsLiteral kind value) :
      WellNamed typedefNames (.literal kind value)
  | sizeofType {type} (named : type.WellNamed typedefNames) :
      WellNamed typedefNames (.sizeofType type)
  | sizeofIdentifier {name} (isName : IsName name) (other : name ∉ typedefNames) :
      WellNamed typedefNames (.sizeofIdentifier name)
  | unary {op operand} (inner : WellNamed typedefNames operand) :
      WellNamed typedefNames (.unary op operand)
  | binary {op left right} (first : WellNamed typedefNames left)
      (second : WellNamed typedefNames right) : WellNamed typedefNames (.binary op left right)
  | conditional {condition thenExpr elseExpr} (first : WellNamed typedefNames condition)
      (second : WellNamed typedefNames thenExpr) (third : WellNamed typedefNames elseExpr) :
      WellNamed typedefNames (.conditional condition thenExpr elseExpr)
  | assignment {op target value} (first : WellNamed typedefNames target)
      (second : WellNamed typedefNames value) : WellNamed typedefNames (.assignment op target value)
  | cast {type pointerDepth operand} (named : type.WellNamed typedefNames)
      (inner : WellNamed typedefNames operand) :
      WellNamed typedefNames (.cast type pointerDepth operand)
  | index {base index} (first : WellNamed typedefNames base)
      (second : WellNamed typedefNames index) : WellNamed typedefNames (.index base index)
  | call {callee arguments} (first : WellNamed typedefNames callee)
      (others : ∀ argument ∈ arguments, WellNamed typedefNames argument) :
      WellNamed typedefNames (.call callee arguments)
  | member {base name throughPointer} (first : WellNamed typedefNames base) (isName : IsName name) :
      WellNamed typedefNames (.member base name throughPointer)

example : (Expr.binary .multiply (.binary .add (.identifier "a") (.identifier "b"))
    (.identifier "c")).print =
      [lparen, wordToken "a", operatorToken "+", wordToken "b", rparen, star, wordToken "c"] := by
  decide

end HitSimple.CCompat

import Mathlib.Data.List.Basic

namespace HitSimple.Parser

/-- The terminals a typed operator can carry, and `Invalid`. -/
inductive TokenKind where
  | typedAssignOperator
  | typedShiftOperator
  | typedBitwiseOperator
  | typedAdditiveOperator
  | typedPowerOperator
  | typedMultiplicativeOperator
  | invalid
  deriving DecidableEq, Repr

/-- Lexer.re, `classifyTypedOperator`. -/
def classifyTypedOperator (lexeme : List Char) : TokenKind :=
  match lexeme.getLast? with
  | none => .invalid
  | some '=' => .typedAssignOperator
  | some '<' => .typedShiftOperator
  | some '>' => .typedShiftOperator
  | some '&' => .typedBitwiseOperator
  | some '|' => .typedBitwiseOperator
  | some '^' => .typedBitwiseOperator
  | some '+' => .typedAdditiveOperator
  | some '-' => .typedAdditiveOperator
  | some '*' =>
      if lexeme.dropLast.getLast? = some '*' then .typedPowerOperator
      else .typedMultiplicativeOperator
  | some '/' => .typedMultiplicativeOperator
  | some '%' => .typedMultiplicativeOperator
  | some _ => .invalid

inductive TypedSymbol where
  | add
  | subtract
  | multiply
  | divide
  | remainder
  | shiftLeft
  | shiftRight
  | power
  | bitAnd
  | bitOr
  | bitXor
  deriving DecidableEq, Repr

namespace TypedSymbol

def spelling : TypedSymbol → List Char
  | .add => ['+']
  | .subtract => ['-']
  | .multiply => ['*']
  | .divide => ['/']
  | .remainder => ['%']
  | .shiftLeft => ['<', '<']
  | .shiftRight => ['>', '>']
  | .power => ['*', '*']
  | .bitAnd => ['&']
  | .bitOr => ['|']
  | .bitXor => ['^']

/-- The symbols of Appendix 20 that follow `%f`. -/
def isFloatSymbol : TypedSymbol → Bool
  | .add | .subtract | .multiply | .divide | .power => true
  | _ => false

/-- The terminal of Parser.y that the symbol is meant for. -/
def kind : TypedSymbol → TokenKind
  | .add | .subtract => .typedAdditiveOperator
  | .multiply | .divide | .remainder => .typedMultiplicativeOperator
  | .shiftLeft | .shiftRight => .typedShiftOperator
  | .power => .typedPowerOperator
  | .bitAnd | .bitOr | .bitXor => .typedBitwiseOperator

end TypedSymbol

/-- A typed operator of Appendix 20: `%`, the digits of a width or none, `d` or `f`, a symbol. -/
structure TypedOperator where
  width : List Char
  isFloat : Bool
  symbol : TypedSymbol
  width_digits : width.all Char.isDigit = true
  float_symbol : isFloat = true → symbol.isFloatSymbol = true

namespace TypedOperator

def lexeme (operator : TypedOperator) : List Char :=
  '%' :: (operator.width ++ (if operator.isFloat then 'f' else 'd') :: operator.symbol.spelling)

theorem classify_lexeme (operator : TypedOperator) :
    classifyTypedOperator operator.lexeme = operator.symbol.kind := by
  obtain ⟨width, isFloat, symbol, _, _⟩ := operator
  have last (text : List Char) (letter : Char) :
      classifyTypedOperator ('%' :: (text ++ letter :: symbol.spelling)) =
        classifyTypedOperator (letter :: symbol.spelling) := by
    cases symbol <;>
      simp [classifyTypedOperator, TypedSymbol.spelling, List.getLast?_cons, List.getLast?_append,
        List.dropLast_cons_of_ne_nil, List.dropLast_append_of_ne_nil]
  rw [lexeme, last]
  cases symbol <;> cases isFloat <;> rfl

end TypedOperator

/-- The terminals of Parser.y that occur in an expression. -/
inductive Token where
  | identifier (name : String)
  | integer (text : String)
  | float (text : String)
  | char (text : String)
  | string (text : String)
  | self
  | trueKeyword
  | falseKeyword
  | none
  | as
  | sizeof
  | typed (kind : TokenKind) (operator : TypedOperator)
  | typedAssign (text : String)
  | equal
  | ampersandEqual
  | plus
  | minus
  | star
  | slash
  | percent
  | power
  | less
  | greater
  | lessEqual
  | greaterEqual
  | equalEqual
  | bangEqual
  | bang
  | tilde
  | ampersand
  | pipe
  | caret
  | ampersandAmpersand
  | pipePipe
  | shiftLeft
  | shiftRight
  | plusPlus
  | minusMinus
  | question
  | unsignedQuestion
  | dot
  | colon
  | comma
  | lparen
  | rparen
  | lbracket
  | rbracket

/-- ParserContext.inc, `nextToken`: a typed operator keeps its lexeme beside its terminal. -/
def typedToken (operator : TypedOperator) : Token :=
  .typed (classifyTypedOperator operator.lexeme) operator

theorem typedToken_kind (operator : TypedOperator) :
    typedToken operator = .typed operator.symbol.kind operator := by
  rw [typedToken, operator.classify_lexeme]

end HitSimple.Parser

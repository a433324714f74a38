import HitSimple.CCompat.Tokens

namespace HitSimple.CCompat

section
variable (tokens : List Token)

/-- The token at a distance from the cursor; behind the last one stands the end. -/
def lookAhead (count : Nat) : Token :=
  tokens.getD count endToken

def current : Token :=
  lookAhead tokens 0

def skipNewlines : List Token :=
  tokens.dropWhile (·.kind = .newline)

end

def isQualifier (text : String) : Bool :=
  text = "const" ∨ text = "volatile"

def isBuiltinType (text : String) : Bool :=
  text ∈ ["char", "signed", "unsigned", "short", "int", "long", "float", "double", "void"]

def isTypeStart (typedefNames : List String) (tokens : List Token) : Bool :=
  let token := current tokens
  if token.kind ≠ .identifier then false
  else if isQualifier token.lexeme ∨ isBuiltinType token.lexeme ∨ token.lexeme = "struct" then true
  else if token.lexeme ∈ typedefNames then true
  else (lookAhead tokens 1).kind = .identifier

def skipWord (word : String) (tokens : List Token) : List Token :=
  if (current tokens).lexeme = word then tokens.tail else tokens

/-- Qualifiers at the start of a type, and what is behind them. -/
def readQualifiers : List Token → Bool × Bool × List Token
  | [] => (false, false, [])
  | token :: rest =>
      if token.kind = .identifier ∧ isQualifier token.lexeme then
        let (isConst, isVolatile, after) := readQualifiers rest
        if token.lexeme = "const" then (true, isVolatile, after) else (isConst, true, after)
      else (false, false, token :: rest)

def readUnsigned (rest : List Token) : Except String (BaseType × List Token) :=
  if (current rest).lexeme = "char" then .ok (.unsignedChar, rest.tail)
  else if (current rest).lexeme = "short" then .ok (.unsignedShort, skipWord "int" rest.tail)
  else if (current rest).lexeme = "int" then .ok (.unsignedInt, rest.tail)
  else if (current rest).lexeme = "long" then
    if (current rest.tail).lexeme = "long" then
      .ok (.unsignedLongLong, skipWord "int" rest.tail.tail)
    else .ok (.unsignedLong, skipWord "int" rest.tail)
  else .error "expected C integer type after 'unsigned'"

/-- The base of a type behind its first word, with its name. -/
def readBase (base : String) (rest : List Token) : Except String (BaseType × String × List Token) :=
  if base = "char" then .ok (.char, "", rest)
  else if base = "signed" then
    if (current rest).lexeme = "char" then .ok (.signedChar, "", rest.tail)
    else .error "expected 'char' after 'signed'"
  else if base = "unsigned" then (readUnsigned rest).map fun (type, after) => (type, "", after)
  else if base = "short" then .ok (.short, "", skipWord "int" rest)
  else if base = "int" then .ok (.int, "", rest)
  else if base = "long" then
    if (current rest).lexeme = "long" then .ok (.longLong, "", skipWord "int" rest.tail)
    else .ok (.long, "", skipWord "int" rest)
  else if base = "float" then .ok (.float, "", rest)
  else if base = "double" then .ok (.double, "", rest)
  else if base = "void" then .ok (.void, "", rest)
  else if base = "struct" then
    if (current rest).kind ≠ .identifier then .error "expected struct name after 'struct'"
    else .ok (.struct, (current rest).lexeme, rest.tail)
  else .ok (.typedefName, base, rest)

def parseType (tokens : List Token) : Except String (CType × List Token) :=
  let (isConst, isVolatile, rest) := readQualifiers tokens
  if (current rest).kind ≠ .identifier then .error "expected C type"
  else (readBase (current rest).lexeme rest.tail).map fun (base, name, after) =>
    (⟨base, name, isConst, isVolatile⟩, after)

def isStar (token : Token) : Bool :=
  token.lexeme = "*"

/-- The end of the look-ahead: `*` tokens and a closing parenthesis. -/
def closesCast (tokens : List Token) : Bool :=
  (current (tokens.dropWhile isStar)).kind = .rparen

/-- `looksLikeCast`, where the look-ahead index is the part of the tokens behind it. -/
def looksLikeCast (typedefNames : List String) (tokens : List Token) : Bool :=
  if (current tokens).kind ≠ .lparen then false
  else
    let rest := tokens.tail.dropWhile fun token =>
      token.kind = .identifier ∧ isQualifier token.lexeme
    let first := current rest
    if first.kind ≠ .identifier then false
    else if first.lexeme = "struct" then
      if (lookAhead rest 1).kind ≠ .identifier then false else closesCast (rest.drop 2)
    else if first.lexeme = "signed" then
      if (lookAhead rest 1).lexeme ≠ "char" then false else closesCast (rest.drop 2)
    else if first.lexeme = "unsigned" then
      let second := (lookAhead rest 1).lexeme
      if second ∉ ["char", "short", "int", "long"] then false
      else
        let after := if second = "long" then skipWord "long" (rest.drop 2) else rest.drop 2
        closesCast (if second = "long" ∨ second = "short" then skipWord "int" after else after)
    else if first.lexeme ∈ ["char", "short", "int", "long", "float", "double", "void"] ∨
        first.lexeme ∈ typedefNames then
      let after := if first.lexeme = "long" then skipWord "long" rest.tail else rest.tail
      closesCast
        (if first.lexeme = "long" ∨ first.lexeme = "short" then skipWord "int" after else after)
    else false

/-- What a parser function answers: nothing where its fuel does not last, a diagnostic, or a value
and the tokens behind it. -/
abbrev Reading (Value : Type) := Option (Except String (Value × List Token))

def Reading.then {Value Result : Type} (reading : Reading Value)
    (next : Value → List Token → Reading Result) : Reading Result :=
  match reading with
  | none => none
  | some (.error message) => some (.error message)
  | some (.ok (value, rest)) => next value rest

def diagnose {Value : Type} (message : String) : Reading Value :=
  some (.error message)

def answer {Value : Type} (value : Value) (rest : List Token) : Reading Value :=
  some (.ok (value, rest))

def expect {Result : Type} (kind : TokenKind) (description : String) (tokens : List Token)
    (next : List Token → Reading Result) : Reading Result :=
  if (current tokens).kind = kind then next tokens.tail
  else diagnose ("expected " ++ description)

/-- The operand of `sizeof` behind the opening parenthesis. -/
def parseSizeof (typedefNames : List String) (tokens : List Token) : Reading Expr :=
  if isTypeStart typedefNames tokens ∧
      ((current tokens).lexeme ≠ "struct" ∨ (lookAhead tokens 1).kind = .identifier) then
    match parseType tokens with
    | .error message => diagnose message
    | .ok (type, rest) =>
        expect .rparen "')' after sizeof type" rest fun rest => answer (.sizeofType type) rest
  else if (current tokens).kind ≠ .identifier then
    diagnose "sizeof expects a C type or identifier"
  else
    expect .rparen "')' after sizeof identifier" tokens.tail fun rest =>
      answer (.sizeofIdentifier (current tokens).lexeme) rest

def countStars (tokens : List Token) : Nat :=
  (tokens.takeWhile isStar).length

mutual
/-- `parseExpression` is this function. -/
def parseAssignmentExpression (typedefNames : List String) : Nat → List Token → Reading Expr
  | 0, _ => none
  | fuel + 1, tokens =>
      (parseConditionalExpression typedefNames fuel tokens).then fun left rest =>
        if (current rest).kind = .operator then
          match assignmentOperator (current rest).lexeme with
          | none => answer left rest
          | some op =>
              (parseAssignmentExpression typedefNames fuel rest.tail).then fun right final =>
                answer (.assignment op left right) final
        else answer left rest

def parseConditionalExpression (typedefNames : List String) : Nat → List Token → Reading Expr
  | 0, _ => none
  | fuel + 1, tokens =>
      (parseBinaryExpression typedefNames fuel 1 tokens).then fun condition rest =>
        if (current rest).kind ≠ .question then answer condition rest
        else
          (parseAssignmentExpression typedefNames fuel rest.tail).then fun thenExpr middle =>
            expect .colon "':' in conditional expression" middle fun last =>
              (parseConditionalExpression typedefNames fuel last).then fun elseExpr final =>
                answer (.conditional condition thenExpr elseExpr) final

def parseBinaryExpression (typedefNames : List String) : Nat → Nat → List Token → Reading Expr
  | 0, _, _ => none
  | fuel + 1, minPrecedence, tokens =>
      (parseCastExpression typedefNames fuel tokens).then fun left rest =>
        binaryLoop typedefNames fuel minPrecedence left rest

/-- The loop of `parseBinaryExpression`. -/
def binaryLoop (typedefNames : List String) : Nat → Nat → Expr → List Token → Reading Expr
  | 0, _, _, _ => none
  | fuel + 1, minPrecedence, left, tokens =>
      if (current tokens).kind ≠ .operator then answer left tokens
      else
        match binaryOperator (current tokens).lexeme with
        | none => answer left tokens
        | some op =>
            if op.precedence < minPrecedence then answer left tokens
            else
              (parseBinaryExpression typedefNames fuel (op.precedence + 1) tokens.tail).then
                fun right rest =>
                  binaryLoop typedefNames fuel minPrecedence (.binary op left right) rest

def parseCastExpression (typedefNames : List String) : Nat → List Token → Reading Expr
  | 0, _ => none
  | fuel + 1, tokens =>
      if !looksLikeCast typedefNames tokens then parseUnaryExpression typedefNames fuel tokens
      else
        match parseType tokens.tail with
        | .error message => diagnose message
        | .ok (type, rest) =>
            expect .rparen "')' after cast type" (rest.dropWhile isStar) fun after =>
              (parseCastExpression typedefNames fuel after).then fun operand final =>
                answer (.cast type (countStars rest) operand) final

def parseUnaryExpression (typedefNames : List String) : Nat → List Token → Reading Expr
  | 0, _ => none
  | fuel + 1, tokens =>
      if (current tokens).kind = .operator then
        match unaryOperator (current tokens).lexeme with
        | some op =>
            (parseUnaryExpression typedefNames fuel tokens.tail).then fun operand rest =>
              answer (.unary op operand) rest
        | none => parsePostfixExpression typedefNames fuel tokens
      else parsePostfixExpression typedefNames fuel tokens

def parsePostfixExpression (typedefNames : List String) : Nat → List Token → Reading Expr
  | 0, _ => none
  | fuel + 1, tokens =>
      (parsePrimaryExpression typedefNames fuel tokens).then fun expression rest =>
        postfixLoop typedefNames fuel expression rest

/-- The loop of `parsePostfixExpression`. -/
def postfixLoop (typedefNames : List String) : Nat → Expr → List Token → Reading Expr
  | 0, _, _ => none
  | fuel + 1, expression, tokens =>
      if (current tokens).kind = .lbracket then
        (parseAssignmentExpression typedefNames fuel tokens.tail).then fun index rest =>
          expect .rbracket "']' after subscript" rest fun after =>
            postfixLoop typedefNames fuel (.index expression index) after
      else if (current tokens).kind = .lparen then
        (parseArgumentList typedefNames fuel tokens.tail).then fun arguments rest =>
          postfixLoop typedefNames fuel (.call expression arguments) rest
      else if (current tokens).kind = .dot ∨ (current tokens).lexeme = "->" then
        if (lookAhead tokens 1).kind ≠ .identifier then
          diagnose "expected member name after '.' or '->'"
        else
          postfixLoop typedefNames fuel
            (.member expression (lookAhead tokens 1).lexeme ((current tokens).lexeme = "->"))
            (tokens.drop 2)
      else if (current tokens).lexeme = "++" ∨ (current tokens).lexeme = "--" then
        diagnose "C increment and decrement expressions are outside the Standard 16.1 subset"
      else answer expression tokens

/-- Behind the opening parenthesis. -/
def parseArgumentList (typedefNames : List String) : Nat → List Token → Reading (List Expr)
  | 0, _ => none
  | fuel + 1, tokens =>
      if (current (skipNewlines tokens)).kind = .rparen then answer [] (skipNewlines tokens).tail
      else argumentLoop typedefNames fuel [] (skipNewlines tokens)

def argumentLoop (typedefNames : List String) :
    Nat → List Expr → List Token → Reading (List Expr)
  | 0, _, _ => none
  | fuel + 1, arguments, tokens =>
      if (current tokens).kind = .endOfFile then diagnose "unterminated call argument list"
      else
        (parseAssignmentExpression typedefNames fuel tokens).then fun argument rest =>
          if (current (skipNewlines rest)).kind = .rparen then
            answer (arguments ++ [argument]) (skipNewlines rest).tail
          else
            expect .comma "',' between call arguments" (skipNewlines rest) fun after =>
              argumentLoop typedefNames fuel (arguments ++ [argument]) (skipNewlines after)

def parsePrimaryExpression (typedefNames : List String) : Nat → List Token → Reading Expr
  | 0, _ => none
  | fuel + 1, tokens =>
      match (current tokens).kind with
      | .identifier =>
          if (current tokens).lexeme = "sizeof" then
            expect .lparen "'(' after sizeof" tokens.tail (parseSizeof typedefNames)
          else answer (.identifier (current tokens).lexeme) tokens.tail
      | .integer => answer (.literal .integer (current tokens).lexeme) tokens.tail
      | .float => answer (.literal .float (current tokens).lexeme) tokens.tail
      | .string => answer (.literal .string (current tokens).lexeme) tokens.tail
      | .character => answer (.literal .character (current tokens).lexeme) tokens.tail
      | .lparen =>
          (parseAssignmentExpression typedefNames fuel (skipNewlines tokens.tail)).then
            fun expression rest =>
              expect .rparen "')' after expression" rest fun after => answer expression after
      | _ => diagnose "expected C compatibility expression"
end

end HitSimple.CCompat

import HitSimple.Parser.Grammar

namespace HitSimple.Parser

/-- `parse` starts a symbol, `extend` goes on after the value a left-recursive symbol has so far. -/
inductive Goal where
  | parse (symbol : Nonterminal)
  | extend (symbol : Nonterminal) (value : Value)

abbrev Reading := Option (Value × List Token)

def withExpression (reading : Reading) (next : Expr → List Token → Reading) : Reading :=
  match reading with
  | some (.expression expr, rest) => next expr rest
  | _ => none

def withArguments (reading : Reading) (next : List Expr → List Token → Reading) : Reading :=
  match reading with
  | some (.arguments list, rest) => next list rest
  | _ => none

@[simp] theorem withExpression_some (expr : Expr) (rest : List Token)
    (next : Expr → List Token → Reading) :
    withExpression (some (.expression expr, rest)) next = next expr rest := rfl

@[simp] theorem withArguments_some (list : List Expr) (rest : List Token)
    (next : List Expr → List Token → Reading) :
    withArguments (some (.arguments list, rest)) next = next list rest := rfl

/-- A recursive-descent reading of the productions, each by its next tokens. -/
def read : Nat → Goal → List Token → Reading
  | 0, _, _ => none
  | fuel + 1, .parse .expression, tokens => read fuel (.parse .assignmentExpr) tokens
  | fuel + 1, .parse .assignmentExpr, tokens =>
      withExpression (read fuel (.parse .conditionalExpr) tokens) fun target rest =>
        match rest with
        | [] => some (.expression target, [])
        | token :: after =>
            match assignmentOperator token with
            | some op =>
                withExpression (read fuel (.parse .assignmentExpr) after) fun value final =>
                  some (.expression (.assignment target op value), final)
            | none => some (.expression target, token :: after)
  | fuel + 1, .parse .conditionalExpr, tokens =>
      withExpression (read fuel (.parse (.binaryExpr .logicalOrExpr)) tokens)
        fun condition rest =>
          match rest with
          | .question :: after =>
              withExpression (read fuel (.parse .expression) after) fun thenExpr middle =>
                match middle with
                | .colon :: last =>
                    withExpression (read fuel (.parse .conditionalExpr) last)
                      fun elseExpr final =>
                        some (.expression (.ternary condition thenExpr elseExpr), final)
                | _ => none
          | rest => some (.expression condition, rest)
  | fuel + 1, .parse (.binaryExpr level), tokens =>
      withExpression (read fuel (.parse level.operand) tokens) fun left rest =>
        read fuel (.extend (.binaryExpr level) (.expression left)) rest
  | fuel + 1, .parse .powerExpr, tokens =>
      withExpression (read fuel (.parse .unaryExpr) tokens) fun left rest =>
        match rest with
        | [] => some (.expression left, [])
        | token :: after =>
            match powerOperator token with
            | some op =>
                withExpression (read fuel (.parse .powerExpr) after) fun right final =>
                  some (.expression (.binary op left right), final)
            | none => some (.expression left, token :: after)
  | fuel + 1, .parse .unaryExpr, tokens =>
      match tokens with
      | .lbracket :: .integer text :: .rbracket :: .star :: after =>
          withExpression (read fuel (.parse .unaryExpr) after) fun address final =>
            some (.expression (.deref (.integer text) address), final)
      | .sizeof :: .lparen :: .identifier name :: .rparen :: after =>
          some (.expression (.sizeof name), after)
      | [] => none
      | token :: after =>
          match unaryOperator token with
          | some op =>
              withExpression (read fuel (.parse .unaryExpr) after) fun operand final =>
                some (.expression (.unary op operand), final)
          | none => read fuel (.parse .postfixExpr) (token :: after)
  | fuel + 1, .parse .postfixExpr, tokens =>
      withExpression
        (match tokens with
          | .identifier _ :: .lparen :: _ => read fuel (.parse .callExpr) tokens
          | _ => read fuel (.parse .primaryExpr) tokens)
        fun base rest => read fuel (.extend .postfixExpr (.expression base)) rest
  | fuel + 1, .parse .callExpr, tokens =>
      match tokens with
      | .identifier callee :: .lparen :: after =>
          withArguments (read fuel (.parse .optionalArgumentList) after) fun list rest =>
            match rest with
            | .rparen :: final => some (.expression (.call (.identifier callee) list), final)
            | _ => none
      | _ => none
  | fuel + 1, .parse .primaryExpr, tokens =>
      match tokens with
      | .lparen :: after =>
          withExpression (read fuel (.parse .expression) after) fun expr rest =>
            match rest with
            | .rparen :: final => some (.expression expr, final)
            | _ => none
      | [] => none
      | token :: after => (primary token).map fun expr => (.expression expr, after)
  | fuel + 1, .parse .optionalArgumentList, tokens =>
      match tokens with
      | .rparen :: after => some (.arguments [], .rparen :: after)
      | tokens => read fuel (.parse .argumentList) tokens
  | fuel + 1, .parse .argumentList, tokens =>
      withExpression (read fuel (.parse .expression) tokens) fun argument rest =>
        read fuel (.extend .argumentList (.arguments [argument])) rest
  | fuel + 1, .extend .argumentList (.arguments list), .comma :: after =>
      withExpression (read fuel (.parse .expression) after) fun argument rest =>
        read fuel (.extend .argumentList (.arguments (list ++ [argument]))) rest
  | fuel + 1, .extend (.binaryExpr level) (.expression left), token :: after =>
      match level.operator token with
      | some op =>
          withExpression (read fuel (.parse level.operand) after) fun right rest =>
            read fuel (.extend (.binaryExpr level) (.expression (.binary op left right))) rest
      | none => some (.expression left, token :: after)
  | fuel + 1, .extend .postfixExpr (.expression base), .lbracket :: after =>
      withExpression (read fuel (.parse .expression) after) fun first rest =>
        match rest with
        | .rbracket :: final =>
            read fuel (.extend .postfixExpr (.expression (.index base first))) final
        | .colon :: .plus :: second =>
            withExpression (read fuel (.parse .expression) second) fun stop rest =>
              match rest with
              | .rbracket :: final =>
                  read fuel (.extend .postfixExpr (.expression (.slice base first stop true))) final
              | _ => none
        | .colon :: second =>
            withExpression (read fuel (.parse .expression) second) fun stop rest =>
              match rest with
              | .rbracket :: final =>
                  read fuel (.extend .postfixExpr (.expression (.slice base first stop false)))
                    final
              | _ => none
        | _ => none
  | fuel + 1, .extend .postfixExpr (.expression base), .dot :: .identifier name :: after =>
      match after with
      | .lparen :: arguments =>
          withArguments (read fuel (.parse .optionalArgumentList) arguments) fun list rest =>
            match rest with
            | .rparen :: final =>
                read fuel (.extend .postfixExpr (.expression (.methodCall base name list))) final
            | _ => none
      | after => read fuel (.extend .postfixExpr (.expression (.member base name))) after
  | fuel + 1, .extend .postfixExpr (.expression base), .unsignedQuestion :: after =>
      read fuel (.extend .postfixExpr (.expression (.unsigned base))) after
  | fuel + 1, .extend .postfixExpr (.expression base), .as :: token :: after =>
      match templateName token with
      | some name => read fuel (.extend .postfixExpr (.expression (.asTemplate base name))) after
      | none => none
  | fuel + 1, .extend .postfixExpr (.expression base), token :: after =>
      match postOperator token with
      | some op => read fuel (.extend .postfixExpr (.expression (.post op base))) after
      | none => some (.expression base, token :: after)
  | _ + 1, .extend _ value, tokens => some (value, tokens)

namespace BinaryLevel

/-- The row of the table in Standard 3.7 that the nonterminal is written for. -/
def rank : BinaryLevel → Nat
  | .multiplicativeExpr => 5
  | .additiveExpr => 6
  | .shiftExpr => 7
  | .relationalExpr => 8
  | .equalityExpr => 9
  | .bitwiseAndExpr => 10
  | .bitwiseXorExpr => 11
  | .bitwiseOrExpr => 12
  | .logicalAndExpr => 13
  | .logicalOrExpr => 14

end BinaryLevel

/-- The rank of the tightest symbol that the token can continue; 18 when it continues none. -/
def Token.strength : Token → Nat
  | .lparen => 0
  | .lbracket | .dot | .unsignedQuestion | .as | .plusPlus | .minusMinus => 1
  | .power | .typed .typedPowerOperator _ => 4
  | .star | .slash | .percent | .typed .typedMultiplicativeOperator _ => 5
  | .plus | .minus | .typed .typedAdditiveOperator _ => 6
  | .shiftLeft | .shiftRight | .typed .typedShiftOperator _ => 7
  | .less | .greater | .lessEqual | .greaterEqual => 8
  | .equalEqual | .bangEqual => 9
  | .ampersand => 10
  | .caret => 11
  | .pipe | .typed .typedBitwiseOperator _ => 12
  | .ampersandAmpersand => 13
  | .pipePipe => 14
  | .question => 15
  | .equal | .ampersandEqual | .typedAssign _ => 16
  | .comma => 17
  | .rparen => 19
  | _ => 18

def strength : List Token → Nat
  | [] => 18
  | token :: _ => token.strength

@[simp] theorem strength_nil : strength [] = 18 := rfl

@[simp] theorem strength_cons (token : Token) (rest : List Token) :
    strength (token :: rest) = token.strength := rfl

theorem operator_strength {level : BinaryLevel} {token : Token} {op : BinaryOperator}
    (found : level.operator token = some op) : token.strength = level.rank := by
  unfold BinaryLevel.operator at found
  split at found <;> first | rfl | cases found

theorem powerOperator_strength {token : Token} {op : BinaryOperator}
    (found : powerOperator token = some op) : token.strength = 4 := by
  cases token with
  | typed kind operator => cases kind <;> first | rfl | cases found
  | _ => first | rfl | cases found

theorem postOperator_strength {token : Token} {op : PostOperator}
    (found : postOperator token = some op) : token.strength = 1 := by
  cases token <;> first | rfl | cases found

theorem assignmentOperator_strength {token : Token} {op : AssignmentOperator}
    (found : assignmentOperator token = some op) : token.strength = 16 := by
  cases token <;> first | rfl | cases found

/-- The least strength a token needs to follow a word of the symbol unread. -/
def Nonterminal.stop : Nonterminal → Nat
  | .expression => 17
  | .assignmentExpr => 17
  | .conditionalExpr => 16
  | .binaryExpr level => level.rank + 1
  | .powerExpr => 5
  | .unaryExpr => 2
  | .postfixExpr => 2
  | .callExpr => 1
  | .primaryExpr => 1
  | .optionalArgumentList => 19
  | .argumentList => 18

/-- The same, where a left-recursive symbol may itself go on. -/
def Nonterminal.follow : Nonterminal → Nat
  | .binaryExpr level => level.rank
  | .postfixExpr => 1
  | .argumentList => 17
  | symbol => symbol.stop

theorem Nonterminal.follow_le_stop (symbol : Nonterminal) : symbol.follow ≤ symbol.stop := by
  cases symbol <;> simp [follow, stop]

theorem read_extend_stop (symbol : Nonterminal) (value : Value) (rest : List Token) (fuel : Nat)
    (next : symbol.stop ≤ strength rest) :
    read (fuel + 1) (.extend symbol value) rest = some (value, rest) := by
  cases symbol with
  | binaryExpr level =>
      cases value with
      | arguments list => rfl
      | expression left =>
          cases rest with
          | nil => rfl
          | cons token after =>
              have free : level.operator token = none := by
                cases found : level.operator token with
                | none => rfl
                | some op =>
                    have := operator_strength found
                    simp only [Nonterminal.stop, strength_cons] at next
                    omega
              simp only [read, free]
  | postfixExpr =>
      cases value with
      | arguments list => rfl
      | expression base =>
          cases rest with
          | nil => rfl
          | cons token after =>
              have bound : 2 ≤ token.strength := next
              cases token <;> first | rfl | exact absurd bound (by decide)
  | argumentList =>
      cases value with
      | expression expr => rfl
      | arguments list =>
          cases rest with
          | nil => rfl
          | cons token after =>
              have bound : 18 ≤ token.strength := next
              cases token <;> first | rfl | exact absurd bound (by decide)
  | _ => rfl

end HitSimple.Parser

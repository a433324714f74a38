import HitSimple.CCompat.Starts

namespace HitSimple.CCompat

/-- With enough fuel the parser answers the value and the tokens behind it. -/
def Yields {Value : Type} (parser : Nat → Reading Value) (value : Value) (rest : List Token) :
    Prop :=
  ∃ enough, ∀ fuel, enough ≤ fuel → parser fuel = answer value rest

section
variable {Value Result : Type} {value : Value} {result : Result} {rest final : List Token}

theorem yields_answer (value : Value) (rest : List Token) :
    Yields (fun _ => answer value rest) value rest :=
  ⟨0, fun _ _ => rfl⟩

theorem Yields.succ {parser : Nat → Reading Value}
    (yields : Yields (fun fuel => parser (fuel + 1)) value rest) : Yields parser value rest := by
  obtain ⟨enough, holds⟩ := yields
  refine ⟨enough + 1, fun fuel bound => ?_⟩
  obtain ⟨fuel, rfl⟩ : ∃ less, fuel = less + 1 := ⟨fuel - 1, by omega⟩
  exact holds fuel (by omega)

theorem Yields.bind {parser : Nat → Reading Value}
    (next : Nat → Value → List Token → Reading Result) (first : Yields parser value rest)
    (second : Yields (fun fuel => next fuel value rest) result final) :
    Yields (fun fuel => (parser fuel).then (next fuel)) result final := by
  obtain ⟨enough, holds⟩ := first
  obtain ⟨more, continues⟩ := second
  refine ⟨max enough more, fun fuel bound => ?_⟩
  dsimp only
  rw [holds fuel (by omega)]
  exact continues fuel (by omega)

theorem Yields.congr {parser other : Nat → Reading Value} (yields : Yields parser value rest)
    (same : ∀ fuel, other fuel = parser fuel) : Yields other value rest := by
  obtain ⟨enough, holds⟩ := yields
  exact ⟨enough, fun fuel bound => (same fuel).trans (holds fuel bound)⟩

end

section
variable {typedefNames : List String} {tokens rest final : List Token} {expr operand : Expr}

attribute [local simp] parseAssignmentExpression parseConditionalExpression parseBinaryExpression
  binaryLoop parseCastExpression parseUnaryExpression parsePostfixExpression postfixLoop
  parseArgumentList argumentLoop parsePrimaryExpression

theorem yields_unary_operator {op : UnaryOperator}
    (inner : Yields (fun fuel => parseUnaryExpression typedefNames fuel tokens) operand rest) :
    Yields (fun fuel => parseUnaryExpression typedefNames fuel (operatorToken op.lexeme :: tokens))
      (.unary op operand) rest := by
  apply Yields.succ
  apply (Yields.bind (fun _ operand rest => answer (.unary op operand) rest) inner
    (yields_answer (Expr.unary op operand) rest)).congr
  intro fuel
  cases op <;> rfl

theorem yields_unary_postfix (other : (current tokens).kind ≠ .operator)
    (inner : Yields (fun fuel => parsePostfixExpression typedefNames fuel tokens) expr rest) :
    Yields (fun fuel => parseUnaryExpression typedefNames fuel tokens) expr rest := by
  apply Yields.succ
  apply inner.congr
  intro fuel
  rw [parseUnaryExpression, if_neg other]

theorem yields_cast_unary (noCast : looksLikeCast typedefNames tokens = false)
    (inner : Yields (fun fuel => parseUnaryExpression typedefNames fuel tokens) expr rest) :
    Yields (fun fuel => parseCastExpression typedefNames fuel tokens) expr rest := by
  apply Yields.succ
  apply inner.congr
  intro fuel
  rw [parseCastExpression, noCast]
  rfl

theorem dropWhile_stars (pointerDepth : Nat) (tokens : List Token) :
    (List.replicate pointerDepth star ++ rparen :: tokens).dropWhile isStar = rparen :: tokens := by
  induction pointerDepth with
  | zero => exact List.dropWhile_cons_of_neg (by decide)
  | succ pointerDepth ih =>
      rw [List.replicate_succ, List.cons_append, List.dropWhile_cons_of_pos (by decide), ih]

theorem countStars_stars (pointerDepth : Nat) (tokens : List Token) :
    countStars (List.replicate pointerDepth star ++ rparen :: tokens) = pointerDepth := by
  unfold countStars
  induction pointerDepth with
  | zero => rw [List.replicate_zero, List.nil_append, List.takeWhile_cons_of_neg (by decide)]; rfl
  | succ pointerDepth ih =>
      rw [List.replicate_succ, List.cons_append, List.takeWhile_cons_of_pos (by decide),
        List.length_cons, ih]

theorem stars_lexeme {pointerDepth : Nat} {word : String} (notStar : word ≠ "*")
    (notClosing : word ≠ ")") :
    (current (List.replicate pointerDepth star ++ rparen :: tokens)).lexeme ≠ word := by
  cases pointerDepth with
  | zero => exact Ne.symm notClosing
  | succ pointerDepth => exact Ne.symm notStar

theorem parseType_cast {type : CType} (named : type.WellNamed typedefNames) (pointerDepth : Nat)
    (tokens : List Token) :
    parseType (type.print ++ (List.replicate pointerDepth star ++ rparen :: tokens)) =
      .ok (type, List.replicate pointerDepth star ++ rparen :: tokens) :=
  parseType_print named (stars_lexeme (by decide) (by decide))
    (stars_lexeme (by decide) (by decide))

theorem looksLikeCast_cast {type : CType} (named : type.WellNamed typedefNames)
    (pointerDepth : Nat) (tokens : List Token) :
    looksLikeCast typedefNames
      (lparen :: (type.print ++ (List.replicate pointerDepth star ++ rparen :: tokens))) = true := by
  rw [looksLikeCast_iff]
  refine ⟨rfl, type, _, parseType_cast named pointerDepth tokens, ?_, fun base => (named.2.1 base).2⟩
  rw [dropWhile_stars]
  rfl

theorem yields_cast {type : CType} {pointerDepth : Nat} (named : type.WellNamed typedefNames)
    (inner : Yields (fun fuel => parseCastExpression typedefNames fuel tokens) operand rest) :
    Yields (fun fuel => parseCastExpression typedefNames fuel
      (lparen :: (type.print ++ (List.replicate pointerDepth star ++ rparen :: tokens))))
      (.cast type pointerDepth operand) rest := by
  apply Yields.succ
  apply (Yields.bind (fun _ operand rest => answer (.cast type pointerDepth operand) rest) inner
    (yields_answer (Expr.cast type pointerDepth operand) rest)).congr
  intro fuel
  rw [parseCastExpression, looksLikeCast_cast named, List.tail_cons, parseType_cast named]
  dsimp only
  rw [dropWhile_stars, countStars_stars]
  rfl

theorem yields_binary
    {minPrecedence : Nat} {left : Expr} {middle : List Token}
    (first : Yields (fun fuel => parseCastExpression typedefNames fuel tokens) left middle)
    (loop : Yields (fun fuel => binaryLoop typedefNames fuel minPrecedence left middle) expr rest) :
    Yields (fun fuel => parseBinaryExpression typedefNames fuel minPrecedence tokens) expr rest := by
  apply Yields.succ
  apply (Yields.bind (fun fuel left middle => binaryLoop typedefNames fuel minPrecedence left middle)
    first loop).congr
  intro fuel
  rw [parseBinaryExpression]

/-- No operator of this precedence or a tighter one comes next. -/
def BinaryStops (precedence : Nat) (tokens : List Token) : Prop :=
  (current tokens).kind = .operator → ∀ op, binaryOperator (current tokens).lexeme = some op →
    op.precedence < precedence

theorem BinaryStops.mono {looser tighter : Nat} (stops : BinaryStops looser tokens)
    (bound : looser ≤ tighter) : BinaryStops tighter tokens :=
  fun operator op found => Nat.lt_of_lt_of_le (stops operator op found) bound

theorem binaryLoop_stops {minPrecedence fuel : Nat} (stops : BinaryStops minPrecedence tokens) :
    binaryLoop typedefNames (fuel + 1) minPrecedence expr tokens = answer expr tokens := by
  rw [binaryLoop]
  split
  · rfl
  rename_i operator
  split
  · rfl
  · rename_i op found
    rw [if_pos (stops (not_not.mp operator) op found)]

theorem yields_binaryLoop_stops {minPrecedence : Nat} (stops : BinaryStops minPrecedence tokens) :
    Yields (fun fuel => binaryLoop typedefNames fuel minPrecedence expr tokens) expr tokens := by
  apply Yields.succ
  apply (yields_answer expr tokens).congr
  intro fuel
  exact binaryLoop_stops stops

theorem yields_binaryLoop_operator {minPrecedence : Nat} {op : BinaryOperator} {left right : Expr}
    {middle : List Token} (tight : minPrecedence ≤ op.precedence)
    (second : Yields
      (fun fuel => parseBinaryExpression typedefNames fuel (op.precedence + 1) tokens) right middle)
    (loop : Yields
      (fun fuel => binaryLoop typedefNames fuel minPrecedence (.binary op left right) middle) expr
      rest) :
    Yields (fun fuel => binaryLoop typedefNames fuel minPrecedence left
      (operatorToken op.lexeme :: tokens)) expr rest := by
  apply Yields.succ
  apply (Yields.bind (fun fuel right middle =>
    binaryLoop typedefNames fuel minPrecedence (.binary op left right) middle) second loop).congr
  intro fuel
  rw [binaryLoop, current_cons, if_neg (by simp [operatorToken]), operatorToken,
    binaryOperator_lexeme]
  dsimp only
  rw [if_neg (by omega)]
  rfl

theorem yields_conditional_stops (noQuestion : (current rest).kind ≠ .question)
    (inner : Yields (fun fuel => parseBinaryExpression typedefNames fuel 1 tokens) expr rest) :
    Yields (fun fuel => parseConditionalExpression typedefNames fuel tokens) expr rest := by
  apply Yields.succ
  simp only [parseConditionalExpression]
  refine Yields.bind _ inner ?_
  simp only [if_pos noQuestion]
  exact yields_answer expr rest

theorem yields_conditional {condition thenExpr elseExpr : Expr} {middle last : List Token}
    (first : Yields (fun fuel => parseBinaryExpression typedefNames fuel 1 tokens) condition
      (question :: middle))
    (second : Yields (fun fuel => parseAssignmentExpression typedefNames fuel middle) thenExpr
      (colon :: last))
    (third : Yields (fun fuel => parseConditionalExpression typedefNames fuel last) elseExpr rest) :
    Yields (fun fuel => parseConditionalExpression typedefNames fuel tokens)
      (.conditional condition thenExpr elseExpr) rest := by
  apply Yields.succ
  simp only [parseConditionalExpression]
  refine Yields.bind _ first ?_
  simp only [current_cons, question, ne_eq, not_true_eq_false, if_false, List.tail_cons]
  refine Yields.bind _ second ?_
  simp only [expect, current_cons, colon, if_true, List.tail_cons]
  exact Yields.bind _ third (yields_answer _ rest)

/-- No assignment comes next. -/
def AssignmentStops (tokens : List Token) : Prop :=
  (current tokens).kind = .operator → assignmentOperator (current tokens).lexeme = none

theorem yields_assignment_stops (stops : AssignmentStops rest)
    (inner : Yields (fun fuel => parseConditionalExpression typedefNames fuel tokens) expr rest) :
    Yields (fun fuel => parseAssignmentExpression typedefNames fuel tokens) expr rest := by
  apply Yields.succ
  simp only [parseAssignmentExpression]
  refine Yields.bind _ inner ?_
  by_cases operator : (current rest).kind = .operator
  · simp only [if_pos operator, stops operator]
    exact yields_answer expr rest
  · simp only [if_neg operator]
    exact yields_answer expr rest

theorem assignmentOperator_lexeme (op : AssignmentOperator) :
    assignmentOperator op.lexeme = some op := by
  cases op <;> rfl

theorem yields_assignment {op : AssignmentOperator} {target value : Expr} {middle : List Token}
    (first : Yields (fun fuel => parseConditionalExpression typedefNames fuel tokens) target
      (operatorToken op.lexeme :: middle))
    (second : Yields (fun fuel => parseAssignmentExpression typedefNames fuel middle) value rest) :
    Yields (fun fuel => parseAssignmentExpression typedefNames fuel tokens)
      (.assignment op target value) rest := by
  apply Yields.succ
  simp only [parseAssignmentExpression]
  refine Yields.bind _ first ?_
  simp only [current_cons, operatorToken, if_true, assignmentOperator_lexeme, List.tail_cons]
  exact Yields.bind _ second (yields_answer _ rest)

/-- No suffix comes next. -/
def PostfixStops (tokens : List Token) : Prop :=
  (current tokens).kind ∉ [.lbracket, .lparen, .dot] ∧
    (current tokens).lexeme ∉ ["->", "++", "--"]

theorem yields_postfix {base : Expr} {middle : List Token}
    (first : Yields (fun fuel => parsePrimaryExpression typedefNames fuel tokens) base middle)
    (loop : Yields (fun fuel => postfixLoop typedefNames fuel base middle) expr rest) :
    Yields (fun fuel => parsePostfixExpression typedefNames fuel tokens) expr rest := by
  apply Yields.succ
  simp only [parsePostfixExpression]
  exact Yields.bind _ first loop

theorem yields_postfixLoop_stops (stops : PostfixStops tokens) :
    Yields (fun fuel => postfixLoop typedefNames fuel expr tokens) expr tokens := by
  obtain ⟨kinds, lexemes⟩ := stops
  simp only [List.mem_cons, List.not_mem_nil, or_false, not_or] at kinds lexemes
  apply Yields.succ
  simp only [postfixLoop, if_neg kinds.1, if_neg kinds.2.1, kinds.2.2, lexemes, or_self, if_false]
  exact yields_answer expr tokens

theorem yields_index {base index : Expr} {middle : List Token}
    (inner : Yields (fun fuel => parseAssignmentExpression typedefNames fuel tokens) index
      (rbracket :: middle))
    (loop : Yields (fun fuel => postfixLoop typedefNames fuel (.index base index) middle) expr rest) :
    Yields (fun fuel => postfixLoop typedefNames fuel base (lbracket :: tokens)) expr rest := by
  apply Yields.succ
  simp only [postfixLoop, current_cons, lbracket, if_true, List.tail_cons]
  refine Yields.bind _ inner ?_
  simp only [expect, current_cons, rbracket, if_true, List.tail_cons]
  exact loop

theorem yields_call {callee : Expr} {arguments : List Expr} {middle : List Token}
    (inner : Yields (fun fuel => parseArgumentList typedefNames fuel tokens) arguments middle)
    (loop : Yields (fun fuel => postfixLoop typedefNames fuel (.call callee arguments) middle) expr
      rest) :
    Yields (fun fuel => postfixLoop typedefNames fuel callee (lparen :: tokens)) expr rest := by
  apply Yields.succ
  simp only [postfixLoop, current_cons, lparen, if_true, List.tail_cons,
    show (TokenKind.lparen = .lbracket) = False by simp, if_false]
  exact Yields.bind _ inner loop

theorem yields_member {base : Expr} {name : String} {throughPointer : Bool}
    (loop : Yields (fun fuel => postfixLoop typedefNames fuel (.member base name throughPointer)
      tokens) expr rest) :
    Yields (fun fuel => postfixLoop typedefNames fuel base
      (memberToken throughPointer :: wordToken name :: tokens)) expr rest := by
  apply Yields.succ
  apply loop.congr
  intro fuel
  cases throughPointer <;> simp [postfixLoop, memberToken, operatorToken, wordToken, lookAhead]

end

section
variable {typedefNames : List String} {tokens rest : List Token} {expr : Expr}

theorem skipNewlines_of_start (start : IsStart (current tokens).kind) :
    skipNewlines tokens = tokens := by
  cases tokens with
  | nil => rfl
  | cons token tokens =>
      apply List.dropWhile_cons_of_neg
      rw [current_cons] at start
      simp only [decide_eq_true_eq]
      intro same
      rw [same] at start
      exact absurd start (by decide)

theorem yields_identifier {name : String} (notSizeof : name ≠ "sizeof") :
    Yields (fun fuel => parsePrimaryExpression typedefNames fuel (wordToken name :: tokens))
      (.identifier name) tokens := by
  apply Yields.succ
  apply (yields_answer (Expr.identifier name) tokens).congr
  intro fuel
  simp [parsePrimaryExpression, wordToken, notSizeof]

theorem yields_literal (kind : LiteralKind) (value : String) :
    Yields (fun fuel => parsePrimaryExpression typedefNames fuel (⟨kind.token, value⟩ :: tokens))
      (.literal kind value) tokens := by
  apply Yields.succ
  apply (yields_answer (Expr.literal kind value) tokens).congr
  intro fuel
  cases kind <;> rfl

theorem yields_parenthesized (start : IsStart (current tokens).kind)
    (inner : Yields (fun fuel => parseAssignmentExpression typedefNames fuel tokens) expr
      (rparen :: rest)) :
    Yields (fun fuel => parsePrimaryExpression typedefNames fuel (lparen :: tokens)) expr rest := by
  apply Yields.succ
  simp only [parsePrimaryExpression, current_cons, lparen, List.tail_cons,
    skipNewlines_of_start start]
  refine Yields.bind _ inner ?_
  simp only [expect, current_cons, rparen, if_true, List.tail_cons]
  exact yields_answer expr rest

theorem isTypeStart_print {type : CType} (named : type.WellNamed typedefNames) :
    isTypeStart typedefNames (type.print ++ rest) = true ∧
      ((current (type.print ++ rest)).lexeme ≠ "struct" ∨
        (lookAhead (type.print ++ rest) 1).kind = .identifier) := by
  obtain ⟨base, name, isConst, isVolatile⟩ := type
  cases isConst with
  | true => exact ⟨rfl, .inl (show "const" ≠ "struct" by decide)⟩
  | false =>
      cases isVolatile with
      | true => exact ⟨rfl, .inl (show "volatile" ≠ "struct" by decide)⟩
      | false =>
          cases base with
          | struct => exact ⟨rfl, .inr rfl⟩
          | typedefName =>
              obtain ⟨isName, known⟩ := named.2.1 rfl
              have known : name ∈ typedefNames := known
              refine ⟨?_, .inl (isName.ne (by decide))⟩
              simp [isTypeStart, CType.print, BaseType.words, wordToken, known]
          | _ => exact ⟨rfl, .inl (by simp [CType.print, BaseType.words, wordToken])⟩

theorem yields_sizeofType {type : CType} (named : type.WellNamed typedefNames) :
    Yields (fun fuel => parsePrimaryExpression typedefNames fuel
      (wordToken "sizeof" :: lparen :: (type.print ++ rparen :: tokens))) (.sizeofType type)
      tokens := by
  apply Yields.succ
  apply (yields_answer (Expr.sizeofType type) tokens).congr
  intro fuel
  have parsed : parseType (type.print ++ rparen :: tokens) = .ok (type, rparen :: tokens) :=
    parseType_print named (show ")" ≠ "int" by decide) (show ")" ≠ "long" by decide)
  have sized : parseSizeof typedefNames (type.print ++ rparen :: tokens) =
      answer (.sizeofType type) tokens := by
    unfold parseSizeof
    rw [if_pos (isTypeStart_print named), parsed]
    rfl
  simpa [parsePrimaryExpression, wordToken, lparen, expect] using sized

theorem yields_sizeofIdentifier {name : String} (isName : IsName name)
    (other : name ∉ typedefNames) :
    Yields (fun fuel => parsePrimaryExpression typedefNames fuel
      (wordToken "sizeof" :: lparen :: wordToken name :: rparen :: tokens))
      (.sizeofIdentifier name) tokens := by
  apply Yields.succ
  apply (yields_answer (Expr.sizeofIdentifier name) tokens).congr
  intro fuel
  have notReserved : ∀ word ∈ reservedWords, name ≠ word := fun _ => isName.ne
  simp only [reservedWords, List.forall_mem_cons] at notReserved
  obtain ⟨h1, h2, h3, h4, h5, h6, h7, h8, h9, h10, h11, h12, _⟩ := notReserved
  have noType : isTypeStart typedefNames (wordToken name :: rparen :: tokens) = false := by
    simp [isTypeStart, isQualifier, isBuiltinType, wordToken, lookAhead, rparen, other, h1, h2, h3,
      h4, h5, h6, h7, h8, h9, h10, h11, h12]
  have sized : parseSizeof typedefNames (wordToken name :: rparen :: tokens) =
      answer (.sizeofIdentifier name) tokens := by
    unfold parseSizeof
    rw [noType]
    rfl
  simpa [parsePrimaryExpression, wordToken, lparen, expect] using sized

end

/-- What stands behind an expression inside of another one, or at the end of the text. -/
def Ends (tokens : List Token) : Prop :=
  current tokens ∈ [rparen, comma, rbracket, colon, endToken]

instance (tokens : List Token) : Decidable (Ends tokens) :=
  inferInstanceAs (Decidable (_ ∈ _))

section
variable {typedefNames : List String} {rest : List Token}

theorem IsStart.ne {kind other : TokenKind} (start : IsStart kind) (noStart : ¬IsStart other) :
    kind ≠ other := by
  rintro rfl
  exact noStart start

theorem isStart_printArguments {argument : Expr} {others : List Expr}
    (opens : ∀ rest, Opens (argument.print ++ rest)) (rest : List Token) :
    IsStart (current (printArguments (argument :: others) ++ rest)).kind := by
  cases others with
  | nil => exact (opens rest).1
  | cons =>
      rw [printArguments, List.append_assoc]
      · exact (opens _).1
      · exact List.cons_ne_nil _ _

theorem skipNewlines_cons {token : Token} (other : token.kind ≠ .newline) :
    skipNewlines (token :: rest) = token :: rest :=
  List.dropWhile_cons_of_neg (by simpa using other)

theorem yields_argumentLoop_last {before : List Expr} {argument : Expr} {tokens : List Token}
    (start : IsStart (current tokens).kind)
    (reads : Yields (fun fuel => parseAssignmentExpression typedefNames fuel tokens) argument
      (rparen :: rest)) :
    Yields (fun fuel => argumentLoop typedefNames fuel before tokens) (before ++ [argument])
      rest := by
  apply Yields.succ
  simp only [argumentLoop, if_neg (start.ne (show ¬IsStart .endOfFile by decide))]
  refine Yields.bind _ reads ?_
  rw [skipNewlines_cons (by decide)]
  exact yields_answer _ rest

theorem yields_argumentLoop_comma {before arguments : List Expr} {argument : Expr}
    {tokens middle : List Token} (start : IsStart (current tokens).kind)
    (again : IsStart (current middle).kind)
    (reads : Yields (fun fuel => parseAssignmentExpression typedefNames fuel tokens) argument
      (comma :: middle))
    (loop : Yields (fun fuel => argumentLoop typedefNames fuel (before ++ [argument]) middle)
      arguments rest) :
    Yields (fun fuel => argumentLoop typedefNames fuel before tokens) arguments rest := by
  apply Yields.succ
  simp only [argumentLoop, if_neg (start.ne (show ¬IsStart .endOfFile by decide))]
  refine Yields.bind _ reads ?_
  apply loop.congr
  intro fuel
  rw [skipNewlines_cons (by decide), current_cons, if_neg (by decide), expect, current_cons,
    if_pos (by decide), List.tail_cons, skipNewlines_of_start again]

theorem yields_argumentLoop {argument : Expr} {others : List Expr} (before : List Expr)
    (opens : ∀ expr ∈ argument :: others, ∀ rest, Opens (expr.print ++ rest))
    (reads : ∀ expr ∈ argument :: others, ∀ rest, Ends rest →
      Yields (fun fuel => parseAssignmentExpression typedefNames fuel (expr.print ++ rest)) expr
        rest) :
    Yields (fun fuel => argumentLoop typedefNames fuel before
      (printArguments (argument :: others) ++ rparen :: rest)) (before ++ argument :: others)
      rest := by
  induction others generalizing argument before with
  | nil =>
      have opens := opens argument List.mem_cons_self
      have reads := reads argument List.mem_cons_self (rparen :: rest)
        (show rparen ∈ _ by decide)
      exact yields_argumentLoop_last (opens _).1 reads
  | cons next others ih =>
      have split : printArguments (argument :: next :: others) ++ rparen :: rest =
          argument.print ++ comma :: (printArguments (next :: others) ++ rparen :: rest) := by
        simp only [printArguments, List.append_assoc, List.cons_append]
      have opensNext := opens next (List.mem_cons_of_mem _ List.mem_cons_self)
      have readsFirst := reads argument List.mem_cons_self
        (comma :: (printArguments (next :: others) ++ rparen :: rest)) (show comma ∈ _ by decide)
      have loop := ih (before ++ [argument])
        (fun expr mem => opens expr (List.mem_cons_of_mem _ mem))
        (fun expr mem => reads expr (List.mem_cons_of_mem _ mem))
      rw [List.append_assoc, List.singleton_append] at loop
      rw [split]
      exact yields_argumentLoop_comma (opens argument List.mem_cons_self _).1
        (isStart_printArguments opensNext _) readsFirst loop

theorem yields_argumentList {arguments : List Expr}
    (opens : ∀ expr ∈ arguments, ∀ rest, Opens (expr.print ++ rest))
    (reads : ∀ expr ∈ arguments, ∀ rest, Ends rest →
      Yields (fun fuel => parseAssignmentExpression typedefNames fuel (expr.print ++ rest)) expr
        rest) :
    Yields (fun fuel => parseArgumentList typedefNames fuel
      (printArguments arguments ++ rparen :: rest)) arguments rest := by
  apply Yields.succ
  cases arguments with
  | nil => exact yields_answer [] rest
  | cons argument others =>
      have start : IsStart
          (current (printArguments (argument :: others) ++ rparen :: rest)).kind :=
        isStart_printArguments (opens argument List.mem_cons_self) _
      apply (yields_argumentLoop [] opens reads).congr
      intro fuel
      rw [parseArgumentList, skipNewlines_of_start start, if_neg (start.ne (by decide))]

end

end HitSimple.CCompat

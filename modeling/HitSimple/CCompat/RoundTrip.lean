import HitSimple.CCompat.Rules

namespace HitSimple.CCompat

section
variable (typedefNames : List String) (tokens : List Token) (expr : Expr)

/-- The tokens are read as the expression, and suffixes behind them go on with it. -/
def ReadsPostfix : Prop :=
  ∀ ⦃rest value final⦄, Yields (fun fuel => postfixLoop typedefNames fuel expr rest) value final →
    Yields (fun fuel => parsePostfixExpression typedefNames fuel (tokens ++ rest)) value final

def ReadsUnary : Prop :=
  ∀ ⦃rest⦄, PostfixStops rest →
    Yields (fun fuel => parseUnaryExpression typedefNames fuel (tokens ++ rest)) expr rest

def ReadsCast : Prop :=
  ∀ ⦃rest⦄, PostfixStops rest →
    Yields (fun fuel => parseCastExpression typedefNames fuel (tokens ++ rest)) expr rest

/-- The tokens are read as the left operand of the operators of a looser level. -/
def ReadsBinary (level : Nat) : Prop :=
  ∀ ⦃minPrecedence rest value final⦄, 1 ≤ minPrecedence → minPrecedence < level →
    PostfixStops rest → BinaryStops level rest →
    Yields (fun fuel => binaryLoop typedefNames fuel minPrecedence expr rest) value final →
    Yields (fun fuel => parseBinaryExpression typedefNames fuel minPrecedence (tokens ++ rest))
      value final

def ReadsConditional : Prop :=
  ∀ ⦃rest⦄, PostfixStops rest → BinaryStops 1 rest → (current rest).kind ≠ .question →
    Yields (fun fuel => parseConditionalExpression typedefNames fuel (tokens ++ rest)) expr rest

def ReadsAssignment : Prop :=
  ∀ ⦃rest⦄, PostfixStops rest → BinaryStops 1 rest → (current rest).kind ≠ .question →
    AssignmentStops rest →
    Yields (fun fuel => parseAssignmentExpression typedefNames fuel (tokens ++ rest)) expr rest

/-- Every function down to the nonterminal of the level reads the tokens as the expression. -/
structure Reads (level : Nat) : Prop where
  suffixed : 14 ≤ level → ReadsPostfix typedefNames tokens expr
  unary : 13 ≤ level → ReadsUnary typedefNames tokens expr
  cast : 12 ≤ level → ReadsCast typedefNames tokens expr
  binary : ReadsBinary typedefNames tokens expr level
  conditional : 1 ≤ level → ReadsConditional typedefNames tokens expr
  assignment : ReadsAssignment typedefNames tokens expr

end

section
variable {typedefNames : List String} {tokens : List Token} {expr : Expr} {level minimum : Nat}

theorem ReadsAssignment.of_conditional (reads : ReadsConditional typedefNames tokens expr) :
    ReadsAssignment typedefNames tokens expr := by
  intro rest suffix binary question assignment
  exact yields_assignment_stops assignment (reads suffix binary question)

theorem ReadsConditional.of_binary (reads : ReadsBinary typedefNames tokens expr level)
    (binary : 1 < level) : ReadsConditional typedefNames tokens expr := by
  intro rest suffix stops question
  apply yields_conditional_stops question
  exact reads (Nat.le_refl 1) binary suffix (stops.mono (Nat.le_of_lt binary)) (yields_binaryLoop_stops stops)

theorem ReadsBinary.of_cast (reads : ReadsCast typedefNames tokens expr) :
    ReadsBinary typedefNames tokens expr level := by
  intro minPrecedence rest value final _ _ suffix _ loop
  exact yields_binary (reads suffix) loop

theorem ReadsCast.of_unary (reads : ReadsUnary typedefNames tokens expr)
    (noCast : ∀ rest, looksLikeCast typedefNames (tokens ++ rest) = false) :
    ReadsCast typedefNames tokens expr := by
  intro rest suffix
  exact yields_cast_unary (noCast rest) (reads suffix)

theorem ReadsUnary.of_postfix (reads : ReadsPostfix typedefNames tokens expr)
    (noOperator : ∀ rest, (current (tokens ++ rest)).kind ≠ .operator) :
    ReadsUnary typedefNames tokens expr := by
  intro rest suffix
  exact yields_unary_postfix (noOperator rest) (reads (yields_postfixLoop_stops suffix))

theorem Reads.of_assignment (reads : ReadsAssignment typedefNames tokens expr) :
    Reads typedefNames tokens expr 0 where
  suffixed bound := absurd bound (by decide)
  unary bound := absurd bound (by decide)
  cast bound := absurd bound (by decide)
  binary _ _ _ _ _ bound := absurd bound (Nat.not_lt_zero _)
  conditional bound := absurd bound (by decide)
  assignment := reads

theorem Reads.of_conditional (reads : ReadsConditional typedefNames tokens expr) :
    Reads typedefNames tokens expr 1 where
  suffixed bound := absurd bound (by decide)
  unary bound := absurd bound (by decide)
  cast bound := absurd bound (by decide)
  binary _ _ _ _ positive bound := absurd bound (Nat.not_lt.mpr positive)
  conditional _ := reads
  assignment := .of_conditional reads

theorem Reads.of_binary (loose : level < 12) (binary : 1 < level)
    (reads : ReadsBinary typedefNames tokens expr level) :
    Reads typedefNames tokens expr level where
  suffixed bound := absurd bound (by omega)
  unary bound := absurd bound (by omega)
  cast bound := absurd bound (by omega)
  binary := reads
  conditional _ := .of_binary reads binary
  assignment := .of_conditional (.of_binary reads binary)

theorem Reads.of_cast (reads : ReadsCast typedefNames tokens expr) :
    Reads typedefNames tokens expr 12 :=
  have binary : ReadsBinary typedefNames tokens expr 12 := .of_cast reads
  { suffixed := fun bound => absurd bound (by decide)
    unary := fun bound => absurd bound (by decide)
    cast := fun _ => reads
    binary := binary
    conditional := fun _ => .of_binary binary (by decide)
    assignment := .of_conditional (.of_binary binary (by decide)) }

theorem Reads.of_unary (reads : ReadsUnary typedefNames tokens expr)
    (noCast : ∀ rest, looksLikeCast typedefNames (tokens ++ rest) = false) :
    Reads typedefNames tokens expr 13 :=
  have casts := Reads.of_cast (.of_unary reads noCast)
  { suffixed := fun bound => absurd bound (by decide)
    unary := fun _ => reads
    cast := fun _ => casts.cast (by decide)
    binary := .of_cast (.of_unary reads noCast)
    conditional := fun _ => casts.conditional (by decide)
    assignment := casts.assignment }

theorem Reads.of_postfix (reads : ReadsPostfix typedefNames tokens expr)
    (noCast : ∀ rest, looksLikeCast typedefNames (tokens ++ rest) = false)
    (noOperator : ∀ rest, (current (tokens ++ rest)).kind ≠ .operator) :
    Reads typedefNames tokens expr 14 :=
  have unary := ReadsUnary.of_postfix reads noOperator
  have units := Reads.of_unary unary noCast
  { suffixed := fun _ => reads
    unary := fun _ => unary
    cast := fun _ => units.cast (by decide)
    binary := .of_cast (units.cast (by decide))
    conditional := fun _ => units.conditional (by decide)
    assignment := units.assignment }

theorem Reads.loosen (reads : Reads typedefNames tokens expr level) (bound : minimum ≤ level) :
    Reads typedefNames tokens expr minimum where
  suffixed tight := reads.suffixed (Nat.le_trans tight bound)
  unary tight := reads.unary (Nat.le_trans tight bound)
  cast tight := reads.cast (Nat.le_trans tight bound)
  binary _ _ _ _ positive tight suffix stops :=
    reads.binary positive (Nat.lt_of_lt_of_le tight bound) suffix (stops.mono bound)
  conditional tight := reads.conditional (Nat.le_trans tight bound)
  assignment := reads.assignment

theorem Ends.stops {rest : List Token} (ends : Ends rest) :
    PostfixStops rest ∧ BinaryStops 1 rest ∧ (current rest).kind ≠ .question ∧
      AssignmentStops rest := by
  unfold PostfixStops BinaryStops AssignmentStops
  unfold Ends at ends
  generalize current rest = token at ends
  simp only [List.mem_cons, List.not_mem_nil, or_false] at ends
  rcases ends with rfl | rfl | rfl | rfl | rfl <;>
    exact ⟨by decide, fun operator => absurd operator (by decide), by decide, by decide⟩

/-- Between closing tokens the whole expression is read. -/
theorem Reads.whole (reads : Reads typedefNames tokens expr level) {rest : List Token}
    (ends : Ends rest) :
    Yields (fun fuel => parseAssignmentExpression typedefNames fuel (tokens ++ rest)) expr rest := by
  obtain ⟨suffix, binary, question, assignment⟩ := ends.stops
  exact reads.assignment suffix binary question assignment

theorem Reads.parenthesized (reads : Reads typedefNames tokens expr level)
    (opens : ∀ rest, Opens (tokens ++ rest))
    (blocked : ∀ rest, Blocked (tokens ++ rparen :: rest)) :
    Reads typedefNames (lparen :: (tokens ++ [rparen])) expr 14 := by
  have split : ∀ rest, lparen :: (tokens ++ [rparen]) ++ rest = lparen :: (tokens ++ rparen :: rest) :=
    fun rest => by simp
  apply Reads.of_postfix
  · intro rest value final loop
    rw [split]
    refine yields_postfix (yields_parenthesized (opens _).1 ?_) loop
    exact reads.whole (show rparen ∈ _ by decide)
  · intro rest
    rw [split]
    exact blocked rest typedefNames
  · intro rest
    rw [split]
    exact (show TokenKind.lparen ≠ .operator by decide)

/-- An operand is read at the level that its place asks for. -/
theorem Reads.enclosed {operand : Expr} (named : operand.WellNamed typedefNames)
    (reads : Reads typedefNames operand.print operand operand.level) (bound : minimum ≤ 14) :
    Reads typedefNames (enclose minimum operand.level operand.print) operand minimum := by
  unfold enclose
  split
  · rename_i tight
    exact reads.loosen tight
  · rename_i loose
    have other : ¬operand.IsIdentifier := by
      intro identifier
      cases operand <;> first
        | exact identifier.elim
        | exact loose bound
    exact (reads.parenthesized (opens_print named)
      fun rest => blocked_print named _ (.inr other)).loosen bound

end

section
variable {typedefNames : List String} {level minimum : Nat}

theorem postfixStops_operator {lexeme : String} {rest : List Token}
    (other : lexeme ∉ ["->", "++", "--"]) : PostfixStops (operatorToken lexeme :: rest) :=
  ⟨show TokenKind.operator ∉ _ by decide, other⟩

theorem reads_binary {op : BinaryOperator} {left right : Expr}
    {first second : List Token} (readsLeft : Reads typedefNames first left (op.precedence + 1))
    (readsRight : Reads typedefNames second right (op.precedence + 2)) :
    Reads typedefNames (first ++ operatorToken op.lexeme :: second) (.binary op left right)
      (op.precedence + 1) := by
  have positive := op.precedence_pos
  have bounded := op.precedence_le
  apply Reads.of_binary (by omega) (by omega)
  intro minPrecedence rest value final positive tight suffix stops loop
  rw [List.append_assoc, List.cons_append]
  apply readsLeft.binary positive tight
  · exact postfixStops_operator (by cases op <;> decide)
  · intro _ other found
    rw [current_cons, operatorToken, binaryOperator_lexeme] at found
    cases found
    exact Nat.lt_succ_self _
  · refine yields_binaryLoop_operator (Nat.le_of_lt_succ tight) ?_ loop
    exact readsRight.binary (by omega) (by omega) suffix (stops.mono (by omega))
      (yields_binaryLoop_stops stops)

theorem reads_conditional {condition thenExpr elseExpr : Expr} {first second third : List Token}
    (readsCondition : Reads typedefNames first condition 2)
    (readsThen : Reads typedefNames second thenExpr level)
    (readsElse : Reads typedefNames third elseExpr 1) :
    Reads typedefNames (first ++ question :: (second ++ colon :: third))
      (.conditional condition thenExpr elseExpr) 1 := by
  apply Reads.of_conditional
  intro rest suffix binary notQuestion
  simp only [List.append_assoc, List.cons_append]
  have elseReads := readsElse.conditional (by decide) suffix binary notQuestion
  have thenReads : Yields (fun fuel => parseAssignmentExpression typedefNames fuel
      (second ++ colon :: (third ++ rest))) thenExpr (colon :: (third ++ rest)) :=
    readsThen.whole (show colon ∈ _ by decide)
  refine yields_conditional ?_ thenReads elseReads
  · apply readsCondition.binary (by decide) (by decide) ⟨show TokenKind.question ∉ _ by decide,
      show "?" ∉ _ by decide⟩
    · exact fun operator => absurd operator (show TokenKind.question ≠ .operator by decide)
    · apply yields_binaryLoop_stops
      exact fun operator => absurd operator (show TokenKind.question ≠ .operator by decide)

theorem reads_assignment {op : AssignmentOperator} {target value : Expr}
    {first second : List Token} (readsTarget : Reads typedefNames first target 13)
    (readsValue : Reads typedefNames second value level) :
    Reads typedefNames (first ++ operatorToken op.lexeme :: second) (.assignment op target value)
      0 := by
  apply Reads.of_assignment
  intro rest suffix binary notQuestion assignment
  rw [List.append_assoc, List.cons_append]
  refine yields_assignment ?_ (readsValue.assignment suffix binary notQuestion assignment)
  apply readsTarget.conditional (by decide)
  · exact postfixStops_operator (by cases op <;> decide)
  · intro _ other found
    cases op <;> cases found
  · exact (show TokenKind.operator ≠ .question by decide)

theorem reads_cast {type : CType} {pointerDepth : Nat} {operand : Expr} {tokens : List Token}
    (named : type.WellNamed typedefNames) (reads : Reads typedefNames tokens operand 12) :
    Reads typedefNames (lparen :: (type.print ++ (List.replicate pointerDepth star ++
      rparen :: tokens))) (.cast type pointerDepth operand) 12 := by
  apply Reads.of_cast
  intro rest suffix
  simp only [List.append_assoc, List.cons_append]
  exact yields_cast named (reads.cast (Nat.le_refl 12) suffix)

theorem reads_unary {op : UnaryOperator} {operand : Expr} {tokens : List Token}
    (reads : Reads typedefNames tokens operand 13) :
    Reads typedefNames (operatorToken op.lexeme :: tokens) (.unary op operand) 13 := by
  apply Reads.of_unary
  · intro rest suffix
    exact yields_unary_operator (reads.unary (Nat.le_refl 13) suffix)
  · intro rest
    exact looksLikeCast_of_not_lparen (show TokenKind.operator ≠ .lparen by decide)

/-- A tree of `c_postfix_expr` starts with no operator. -/
theorem notOperator_print {expr : Expr} (named : expr.WellNamed typedefNames)
    (tight : 14 ≤ expr.level) (rest : List Token) :
    (current (expr.print ++ rest)).kind ≠ .operator := by
  have enclosed : ∀ {base : Expr} {rest : List Token},
      (14 ≤ base.level → ∀ rest, (current (base.print ++ rest)).kind ≠ .operator) →
      (current (enclose 14 base.level base.print ++ rest)).kind ≠ .operator := by
    intro base rest ih
    unfold enclose
    split
    · rename_i same
      exact ih same rest
    · exact (show TokenKind.lparen ≠ .operator by decide)
  induction named generalizing rest with
  | identifier => exact (show TokenKind.identifier ≠ .operator by decide)
  | @literal kind value => exact (show kind.token ≠ .operator by cases kind <;> decide)
  | sizeofType => exact (show TokenKind.identifier ≠ .operator by decide)
  | sizeofIdentifier => exact (show TokenKind.identifier ≠ .operator by decide)
  | unary => exact absurd tight (show ¬14 ≤ 13 by decide)
  | cast => exact absurd tight (show ¬14 ≤ 12 by decide)
  | @binary op =>
      have bound := op.precedence_le
      rw [Expr.level] at tight
      omega
  | conditional => exact absurd tight (show ¬14 ≤ 1 by decide)
  | assignment => exact absurd tight (show ¬14 ≤ 0 by decide)
  | index _ _ ih =>
      rw [Expr.print, List.append_assoc]
      exact enclosed ih
  | call _ _ ih =>
      rw [Expr.print, List.append_assoc]
      exact enclosed ih
  | member _ _ ih =>
      rw [Expr.print, List.append_assoc]
      exact enclosed ih

/-- Nothing more is needed at the level of `c_postfix_expr` than to read the suffixes. -/
theorem reads_suffixed {expr : Expr} (named : expr.WellNamed typedefNames)
    (tight : expr.level = 14) (reads : ReadsPostfix typedefNames expr.print expr) :
    Reads typedefNames expr.print expr expr.level := by
  rw [tight]
  exact Reads.of_postfix reads (looksLikeCast_print named (by omega))
    (notOperator_print named (by omega))

theorem readsPostfix_index {base index : Expr} {first second : List Token}
    (readsBase : Reads typedefNames first base 14)
    (readsIndex : Reads typedefNames second index level) :
    ReadsPostfix typedefNames (first ++ lbracket :: (second ++ [rbracket])) (.index base index) := by
  intro rest value final loop
  simp only [List.append_assoc, List.cons_append, List.nil_append]
  apply readsBase.suffixed (Nat.le_refl 14)
  exact yields_index (readsIndex.whole (show rbracket ∈ _ by decide)) loop

theorem readsPostfix_call {callee : Expr} {arguments : List Expr} {first : List Token}
    (readsCallee : Reads typedefNames first callee 14)
    (named : ∀ argument ∈ arguments, argument.WellNamed typedefNames)
    (readsArguments : ∀ argument ∈ arguments,
      Reads typedefNames argument.print argument argument.level) :
    ReadsPostfix typedefNames (first ++ lparen :: (printArguments arguments ++ [rparen]))
      (.call callee arguments) := by
  intro rest value final loop
  simp only [List.append_assoc, List.cons_append, List.nil_append]
  apply readsCallee.suffixed (Nat.le_refl 14)
  refine yields_call (yields_argumentList ?_ ?_) loop
  · intro argument mem rest
    exact opens_print (named argument mem) rest
  · intro argument mem rest ends
    exact (readsArguments argument mem).whole ends

theorem readsPostfix_member {base : Expr} {name : String} {throughPointer : Bool}
    {first : List Token} (readsBase : Reads typedefNames first base 14) :
    ReadsPostfix typedefNames (first ++ [memberToken throughPointer, wordToken name])
      (.member base name throughPointer) := by
  intro rest value final loop
  simp only [List.append_assoc, List.cons_append, List.nil_append]
  exact readsBase.suffixed (Nat.le_refl 14) (yields_member loop)

theorem reads_print {expr : Expr} (named : expr.WellNamed typedefNames) :
    Reads typedefNames expr.print expr expr.level := by
  have whole := named
  induction named with
  | identifier isName =>
      refine reads_suffixed whole rfl fun rest value final loop => ?_
      exact yields_postfix (yields_identifier (isName.ne (by decide))) loop
  | @literal kind value =>
      refine reads_suffixed whole rfl fun rest _ final loop => ?_
      exact yields_postfix (yields_literal kind value) loop
  | sizeofType named =>
      refine reads_suffixed whole rfl fun rest value final loop => ?_
      simp only [Expr.print, List.append_assoc, List.cons_append, List.nil_append]
      exact yields_postfix (yields_sizeofType named) loop
  | sizeofIdentifier isName other =>
      refine reads_suffixed whole rfl fun rest value final loop => ?_
      exact yields_postfix (yields_sizeofIdentifier isName other) loop
  | unary inner ih => exact reads_unary ((ih inner).enclosed inner (by decide))
  | @binary op left right first second ihLeft ihRight =>
      have bound := op.precedence_le
      exact reads_binary ((ihLeft first).enclosed first (by omega))
        ((ihRight second).enclosed second (by omega))
  | conditional first second third ihFirst ihSecond ihThird =>
      exact reads_conditional ((ihFirst first).enclosed first (by decide)) (ihSecond second)
        ((ihThird third).enclosed third (by decide))
  | assignment first second ihFirst ihSecond =>
      exact reads_assignment ((ihFirst first).enclosed first (by decide)) (ihSecond second)
  | cast named inner ih => exact reads_cast named ((ih inner).enclosed inner (by decide))
  | index first second ihFirst ihSecond =>
      refine reads_suffixed whole rfl ?_
      exact readsPostfix_index ((ihFirst first).enclosed first (by decide)) (ihSecond second)
  | call first others ihFirst ihOthers =>
      refine reads_suffixed whole rfl ?_
      exact readsPostfix_call ((ihFirst first).enclosed first (by decide)) others
        fun argument mem => ihOthers argument mem (others argument mem)
  | member first _ ih =>
      refine reads_suffixed whole rfl ?_
      exact readsPostfix_member ((ih first).enclosed first (by decide))

/-- Trees whose types are known are read back from their own tokens, and the look-ahead answers as
the type parser does. -/
theorem expression_round_trip (typedefNames : List String) :
    (∀ expr : Expr, expr.WellNamed typedefNames → ∃ enough, ∀ fuel, enough ≤ fuel →
      parseAssignmentExpression typedefNames fuel expr.print = some (.ok (expr, []))) ∧
    (∀ tokens, looksLikeCast typedefNames tokens = true ↔
      (current tokens).kind = .lparen ∧ ∃ type after, parseType tokens.tail = .ok (type, after) ∧
        (current (after.dropWhile isStar)).kind = .rparen ∧
        (type.base = .typedefName → type.name ∈ typedefNames)) := by
  refine ⟨fun expr named => ?_, looksLikeCast_iff⟩
  have ends : Ends [] := show endToken ∈ _ by decide
  have whole := (reads_print named).whole ends
  rwa [List.append_nil] at whole

end

/-- `a[i] = (T *) p + sizeof(n) * b`, where `T` is an alias. -/
theorem expression_round_trip_at_assignment :
    let expr := Expr.assignment .assign (.index (.identifier "a") (.identifier "i"))
      (.binary .add (.cast ⟨.typedefName, "T", false, false⟩ 1 (.identifier "p"))
        (.binary .multiply (.sizeofIdentifier "n") (.identifier "b")))
    ∃ enough, ∀ fuel, enough ≤ fuel →
      parseAssignmentExpression ["T"] fuel expr.print = some (.ok (expr, [])) := by
  have isName : ∀ ch : Char, isIdentifierStart ch = true →
      String.ofList [ch] ∉ reservedWords → IsName (String.ofList [ch]) :=
    fun ch start other => ⟨⟨ch, [], String.toList_ofList, start⟩, other⟩
  apply (expression_round_trip ["T"]).1
  refine .assignment (.index (.identifier ?_) (.identifier ?_))
    (.binary (.cast ?_ (.identifier ?_)) (.binary (.sizeofIdentifier ?_ ?_) (.identifier ?_)))
  · exact isName 'a' (by decide) (by decide)
  · exact isName 'i' (by decide) (by decide)
  · refine ⟨fun struct => ?_, fun _ => ⟨isName 'T' (by decide) (by decide), by decide⟩, ?_⟩
    · cases struct
    · exact fun _ other => absurd rfl other
  · exact isName 'p' (by decide) (by decide)
  · exact isName 'n' (by decide) (by decide)
  · decide
  · exact isName 'b' (by decide) (by decide)

/-- `(x) y` where `x` is no alias: the type would parse, but the look-ahead sees no cast. -/
theorem unknownAlias_is_no_cast :
    looksLikeCast [] [lparen, wordToken "x", rparen, wordToken "y"] = false ∧
      parseType [wordToken "x", rparen, wordToken "y"] =
        .ok (⟨.typedefName, "x", false, false⟩, [rparen, wordToken "y"]) ∧
      (Expr.cast ⟨.typedefName, "x", false, false⟩ 0 (.identifier "y")).print =
        [lparen, wordToken "x", rparen, wordToken "y"] ∧
      ∀ fuel, parseAssignmentExpression [] (fuel + 14)
        [lparen, wordToken "x", rparen, wordToken "y"] =
          some (.ok (.identifier "x", [wordToken "y"])) := by
  refine ⟨by decide, rfl, by decide, fun fuel => ?_⟩
  rfl

end HitSimple.CCompat

import HitSimple.CCompat.Printing

namespace HitSimple.CCompat

section
variable {typedefNames : List String}

@[simp] theorem current_cons (token : Token) (rest : List Token) : current (token :: rest) = token :=
  rfl

theorem IsName.ne {name word : String} (isName : IsName name) (reserved : word ∈ reservedWords) :
    name ≠ word := by
  rintro rfl
  exact isName.2 reserved

theorem IsName.ne_star {name : String} (isName : IsName name) : name ≠ "*" := by
  rintro rfl
  obtain ⟨⟨ch, rest, split, starts⟩, _⟩ := isName
  cases split
  exact absurd starts (by decide)

theorem IsLiteral.ne_star {kind : LiteralKind} {value : String} (isLiteral : IsLiteral kind value) :
    value ≠ "*" := by
  rintro rfl
  obtain ⟨ch, rest, split, starts⟩ := isLiteral
  cases split
  cases kind <;> exact absurd starts (by decide)

theorem readQualifiers_print {type : CType} {rest : List Token}
    (other : isQualifier (current rest).lexeme = false) :
    readQualifiers ((if type.isConst then [wordToken "const"] else []) ++
        ((if type.isVolatile then [wordToken "volatile"] else []) ++ rest)) =
      (type.isConst, type.isVolatile, rest) := by
  have plain : readQualifiers rest = (false, false, rest) := by
    cases rest with
    | nil => rfl
    | cons token rest =>
        have other : isQualifier token.lexeme = false := other
        rw [readQualifiers, other]
        simp
  cases type.isConst <;> cases type.isVolatile <;>
    simp [readQualifiers, plain, wordToken, isQualifier]

theorem skipWord_of_ne {word : String} {rest : List Token} (other : (current rest).lexeme ≠ word) :
    skipWord word rest = rest :=
  if_neg other

/-- The tokens of a type behind its qualifiers. -/
def CType.baseTokens (type : CType) : List Token :=
  type.base.words.map wordToken ++
    if type.base = .struct ∨ type.base = .typedefName then [wordToken type.name] else []

theorem readBase_baseTokens {type : CType} {rest : List Token}
    (named : type.WellNamed typedefNames) (notInt : (current rest).lexeme ≠ "int")
    (notLong : (current rest).lexeme ≠ "long") :
    (current (type.baseTokens ++ rest)).kind = .identifier ∧
      isQualifier (current (type.baseTokens ++ rest)).lexeme = false ∧
      readBase (current (type.baseTokens ++ rest)).lexeme (type.baseTokens ++ rest).tail =
        .ok (type.base, type.name, rest) := by
  obtain ⟨struct, aliased, none⟩ := named
  unfold CType.baseTokens
  cases base : type.base with
  | struct =>
      refine ⟨rfl, rfl, ?_⟩
      simp [BaseType.words, readBase, wordToken]
  | typedefName =>
      have isName := (aliased base).1
      have notReserved : ∀ word ∈ reservedWords, type.name ≠ word := fun _ => isName.ne
      simp only [reservedWords, List.forall_mem_cons] at notReserved
      obtain ⟨notConst, notVolatile, others⟩ := notReserved
      refine ⟨rfl, ?_, ?_⟩
      · simp [BaseType.words, wordToken, isQualifier, notConst, notVolatile]
      · obtain ⟨h1, h2, h3, h4, h5, h6, h7, h8, h9, h10, _⟩ := others
        simp [BaseType.words, readBase, wordToken, h1, h2, h3, h4, h5, h6, h7,
          h8, h9, h10]
  | _ =>
      have empty := none (by rw [base]; decide) (by rw [base]; decide)
      refine ⟨rfl, rfl, ?_⟩
      simp [BaseType.words, readBase, readUnsigned, wordToken, empty, Except.map,
        skipWord_of_ne notInt, notLong]

/-- A printed type parses to itself, where no integer word follows. -/
theorem parseType_print {type : CType} {rest : List Token} (named : type.WellNamed typedefNames)
    (notInt : (current rest).lexeme ≠ "int") (notLong : (current rest).lexeme ≠ "long") :
    parseType (type.print ++ rest) = .ok (type, rest) := by
  obtain ⟨word, notQualifier, read⟩ := readBase_baseTokens named notInt notLong
  have split : type.print ++ rest = (if type.isConst then [wordToken "const"] else []) ++
      ((if type.isVolatile then [wordToken "volatile"] else []) ++ (type.baseTokens ++ rest)) := by
    simp only [CType.print, CType.baseTokens, List.append_assoc]
  rw [parseType, split, readQualifiers_print notQualifier]
  dsimp only
  rw [if_neg (not_not.mpr word), read]
  rfl

/-- The kinds of the tokens that an expression starts with. -/
def IsStart (kind : TokenKind) : Prop :=
  kind ∈ [.identifier, .integer, .float, .string, .character, .lparen, .operator]

instance (kind : TokenKind) : Decidable (IsStart kind) :=
  inferInstanceAs (Decidable (kind ∈ _))

theorem LiteralKind.isStart (kind : LiteralKind) : IsStart kind.token := by
  cases kind <;> decide

/-- A text that starts an expression. -/
def Opens (tokens : List Token) : Prop :=
  IsStart (current tokens).kind ∧ (current (tokens.dropWhile isStar)).kind ≠ .rparen

theorem opens_cons {token : Token} {rest : List Token} (start : IsStart token.kind)
    (notStar : token.lexeme ≠ "*") : Opens (token :: rest) := by
  refine ⟨start, ?_⟩
  rw [List.dropWhile_cons_of_neg (by simpa [isStar] using notStar), current_cons]
  intro same
  rw [same] at start
  exact absurd start (by decide)

theorem opens_star {rest : List Token} (opens : Opens rest) : Opens (star :: rest) := by
  refine ⟨show IsStart .operator by decide, ?_⟩
  rw [List.dropWhile_cons_of_pos (by decide)]
  exact opens.2

theorem opens_enclose {minimum level : Nat} {tokens rest : List Token}
    (opens : ∀ rest, Opens (tokens ++ rest)) : Opens (enclose minimum level tokens ++ rest) := by
  unfold enclose
  split
  · exact opens rest
  · exact opens_cons (by decide) (by decide)

theorem opens_print {expr : Expr} (named : expr.WellNamed typedefNames) (rest : List Token) :
    Opens (expr.print ++ rest) := by
  induction named generalizing rest with
  | identifier isName => exact opens_cons (show IsStart .identifier by decide) isName.ne_star
  | literal isLiteral => exact opens_cons (LiteralKind.isStart _) isLiteral.ne_star
  | sizeofType => exact opens_cons (by decide) (by decide)
  | sizeofIdentifier => exact opens_cons (by decide) (by decide)
  | @unary op operand _ ih =>
      rw [Expr.print, List.cons_append]
      by_cases dereference : op = .dereference
      · rw [dereference]
        exact opens_star (opens_enclose ih)
      · apply opens_cons (show IsStart .operator by decide)
        cases op <;> first
          | decide
          | exact absurd rfl dereference
  | binary _ _ first _ =>
      rw [Expr.print, List.append_assoc]
      exact opens_enclose first
  | conditional _ _ _ first _ _ =>
      rw [Expr.print, List.append_assoc]
      exact opens_enclose first
  | assignment _ _ first _ =>
      rw [Expr.print, List.append_assoc]
      exact opens_enclose first
  | cast => exact opens_cons (by decide) (by decide)
  | index _ _ first _ =>
      rw [Expr.print, List.append_assoc]
      exact opens_enclose first
  | call _ _ first _ =>
      rw [Expr.print, List.append_assoc]
      exact opens_enclose first
  | member _ _ first =>
      rw [Expr.print, List.append_assoc]
      exact opens_enclose first

/-- What stands behind an identifier makes no type of it. -/
def Plain (rest : List Token) : Prop :=
  (current rest).kind ≠ .identifier ∧ (current rest).lexeme ∉ reservedWords ∧
    (current (rest.dropWhile isStar)).kind ≠ .rparen

/-- The tokens behind a parenthesis start no cast. -/
def Blocked (tokens : List Token) : Prop :=
  ∀ typedefNames, looksLikeCast typedefNames (lparen :: tokens) = false

theorem readQualifiers_stops {tokens : List Token} (other : (current tokens).kind ≠ .identifier) :
    (readQualifiers tokens).2.2 = tokens := by
  rw [readQualifiers_rest]
  cases tokens with
  | nil => rfl
  | cons token rest =>
      rw [current_cons] at other
      exact List.dropWhile_cons_of_neg (by simp [other])

theorem blocked_of_not_identifier {tokens : List Token}
    (other : (current tokens).kind ≠ .identifier) : Blocked tokens := by
  intro typedefNames
  rw [looksLikeCast_eq, List.tail_cons, readQualifiers_stops other]
  simp [other]

theorem blocked_of_plain {name : String} {rest : List Token} (plain : Plain rest) :
    Blocked (wordToken name :: rest) := by
  intro typedefNames
  obtain ⟨notWord, notReserved, open'⟩ := plain
  simp only [reservedWords, List.mem_cons, List.not_mem_nil, or_false, not_or] at notReserved
  obtain ⟨_, _, notChar, _, _, notShort, notInt, notLong, _⟩ := notReserved
  have stops : (readQualifiers rest).2.2 = rest := readQualifiers_stops notWord
  have closed : closesCast rest = false := decide_eq_false open'
  rw [looksLikeCast_eq, List.tail_cons]
  by_cases qualifier : isQualifier name = true
  · have skipped : (readQualifiers (wordToken name :: rest)).2.2 = rest := by
      rw [readQualifiers_rest, List.dropWhile_cons_of_pos (by simpa [wordToken] using qualifier),
        ← readQualifiers_rest, stops]
    rw [skipped]
    simp [notWord]
  · have kept : (readQualifiers (wordToken name :: rest)).2.2 = wordToken name :: rest := by
      rw [readQualifiers_rest, List.dropWhile_cons_of_neg (by simpa [wordToken] using qualifier)]
    rw [kept, List.tail_cons]
    simp only [current_cons]
    have other : wordLooksLikeType typedefNames (wordToken name).lexeme rest = false := by
      unfold wordLooksLikeType
      simp [notWord, notChar, notShort, notInt, notLong, skipWord_of_ne, closed]
    rw [other]
    simp

theorem plain_cons {token : Token} {rest : List Token} (notWord : token.kind ≠ .identifier)
    (notReserved : token.lexeme ∉ reservedWords) (notStar : token.lexeme ≠ "*")
    (notClosing : token.kind ≠ .rparen) : Plain (token :: rest) := by
  refine ⟨notWord, notReserved, ?_⟩
  rw [List.dropWhile_cons_of_neg (by simpa [isStar] using notStar), current_cons]
  exact notClosing

theorem plain_binary {op : BinaryOperator} {rest : List Token} (opens : Opens rest) :
    Plain (operatorToken op.lexeme :: rest) := by
  by_cases multiply : op = .multiply
  · subst multiply
    refine ⟨show TokenKind.operator ≠ .identifier by decide, show "*" ∉ reservedWords by decide, ?_⟩
    exact (opens_star opens).2
  · apply plain_cons (show TokenKind.operator ≠ .identifier by decide)
    · cases op <;> decide
    · cases op <;> first
        | decide
        | exact absurd rfl multiply
    · exact (show TokenKind.operator ≠ .rparen by decide)

theorem plain_assignment (op : AssignmentOperator) (rest : List Token) :
    Plain (operatorToken op.lexeme :: rest) := by
  apply plain_cons (show TokenKind.operator ≠ .identifier by decide)
  · cases op <;> decide
  · cases op <;> decide
  · exact (show TokenKind.operator ≠ .rparen by decide)

theorem plain_member (throughPointer : Bool) (rest : List Token) :
    Plain (memberToken throughPointer :: rest) := by
  cases throughPointer <;> exact plain_cons (by decide) (by decide) (by decide) (by decide)

def Expr.IsIdentifier : Expr → Prop
  | .identifier _ => True
  | _ => False

theorem blocked_enclose {minimum level : Nat} {tokens rest : List Token} (plain : Plain rest)
    (blocked : Plain rest → Blocked (tokens ++ rest)) :
    Blocked (enclose minimum level tokens ++ rest) := by
  unfold enclose
  split
  · exact blocked plain
  · exact blocked_of_not_identifier (show TokenKind.lparen ≠ .identifier by decide)

/-- A printed expression is no type, unless it is a name that ends there. -/
theorem blocked_print {expr : Expr} (named : expr.WellNamed typedefNames) (rest : List Token)
    (ends : Plain rest ∨ ¬expr.IsIdentifier) : Blocked (expr.print ++ rest) := by
  induction named generalizing rest with
  | identifier => exact blocked_of_plain (ends.resolve_right fun other => other trivial)
  | @literal kind value =>
      exact blocked_of_not_identifier (show kind.token ≠ .identifier by cases kind <;> decide)
  | sizeofType => exact blocked_of_plain (plain_cons (by decide) (by decide) (by decide) (by decide))
  | sizeofIdentifier =>
      exact blocked_of_plain (plain_cons (by decide) (by decide) (by decide) (by decide))
  | unary => exact blocked_of_not_identifier (show TokenKind.operator ≠ .identifier by decide)
  | cast => exact blocked_of_not_identifier (show TokenKind.lparen ≠ .identifier by decide)
  | @binary op left right _ second first =>
      rw [Expr.print, List.append_assoc, List.cons_append]
      exact blocked_enclose (plain_binary (opens_enclose (opens_print second)))
        fun plain => first _ (.inl plain)
  | conditional _ _ _ first =>
      rw [Expr.print, List.append_assoc, List.cons_append]
      exact blocked_enclose (plain_cons (by decide) (by decide) (by decide) (by decide))
        fun plain => first _ (.inl plain)
  | @assignment op target value _ _ first =>
      rw [Expr.print, List.append_assoc, List.cons_append]
      exact blocked_enclose (plain_assignment op _) fun plain => first _ (.inl plain)
  | index _ _ first =>
      rw [Expr.print, List.append_assoc, List.cons_append]
      exact blocked_enclose (plain_cons (by decide) (by decide) (by decide) (by decide))
        fun plain => first _ (.inl plain)
  | call _ _ first =>
      rw [Expr.print, List.append_assoc, List.cons_append]
      exact blocked_enclose (plain_cons (by decide) (by decide) (by decide) (by decide))
        fun plain => first _ (.inl plain)
  | member _ _ first =>
      rw [Expr.print, List.append_assoc, List.cons_append]
      exact blocked_enclose (plain_member _ _) fun plain => first _ (.inl plain)

theorem looksLikeCast_of_not_lparen {tokens : List Token} (other : (current tokens).kind ≠ .lparen) :
    looksLikeCast typedefNames tokens = false :=
  if_pos other

theorem BinaryOperator.precedence_le (op : BinaryOperator) : op.precedence ≤ 10 := by
  cases op <;> decide

theorem BinaryOperator.precedence_pos (op : BinaryOperator) : 1 ≤ op.precedence := by
  cases op <;> decide

/-- A tree of `c_unary_expr` does not look like a cast. -/
theorem looksLikeCast_print {expr : Expr} (named : expr.WellNamed typedefNames)
    (tight : 13 ≤ expr.level) (rest : List Token) :
    looksLikeCast typedefNames (expr.print ++ rest) = false := by
  have enclosed : ∀ {base : Expr} {rest : List Token}, base.WellNamed typedefNames →
      (13 ≤ base.level → ∀ rest, looksLikeCast typedefNames (base.print ++ rest) = false) →
      looksLikeCast typedefNames (enclose 14 base.level base.print ++ rest) = false := by
    intro base rest named ih
    unfold enclose
    split
    · exact ih (by omega) rest
    · rename_i loose
      rw [List.cons_append, List.append_assoc]
      refine blocked_print named _ (.inr fun identifier => loose ?_) typedefNames
      cases base <;> first
        | exact identifier.elim
        | exact Nat.le_refl _
  induction named generalizing rest with
  | identifier => exact looksLikeCast_of_not_lparen (show TokenKind.identifier ≠ .lparen by decide)
  | @literal kind value =>
      exact looksLikeCast_of_not_lparen (show kind.token ≠ .lparen by cases kind <;> decide)
  | sizeofType => exact looksLikeCast_of_not_lparen (show TokenKind.identifier ≠ .lparen by decide)
  | sizeofIdentifier =>
      exact looksLikeCast_of_not_lparen (show TokenKind.identifier ≠ .lparen by decide)
  | unary => exact looksLikeCast_of_not_lparen (show TokenKind.operator ≠ .lparen by decide)
  | cast => exact absurd tight (show ¬13 ≤ 12 by decide)
  | @binary op =>
      have bound := op.precedence_le
      rw [Expr.level] at tight
      omega
  | conditional => exact absurd tight (show ¬13 ≤ 1 by decide)
  | assignment => exact absurd tight (show ¬13 ≤ 0 by decide)
  | index first _ ih =>
      rw [Expr.print, List.append_assoc]
      exact enclosed first ih
  | call first _ ih =>
      rw [Expr.print, List.append_assoc]
      exact enclosed first ih
  | member first _ ih =>
      rw [Expr.print, List.append_assoc]
      exact enclosed first ih

end

end HitSimple.CCompat

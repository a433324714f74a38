import HitSimple.ParserContext.QuestionMark

namespace HitSimple.ParserContext
open Literal (Spelling)
open Lexer

/-! ### The kind of a token and its first character -/

/-- The first character of a token tells whether the scan takes it for an operand. -/
def TellsOperand (kind : TokenKind) (ch : Char) : Prop :=
  startsOperand ch = true ↔
    (beginsExpression kind = true ∧ ch ≠ '.' ∧ ch ≠ '+') ∨ Mistaken kind ch

instance (kind : TokenKind) (ch : Char) : Decidable (TellsOperand kind ch) :=
  inferInstanceAs (Decidable (_ ↔ (_ ∧ _ ∧ _) ∨ (_ ∨ _ ∧ _)))

theorem tellsOperand_of_other {kind : TokenKind} {ch : Char} (notStart : startsOperand ch = false)
    (notBegin : beginsExpression kind = false) (notMistaken : kind ∉ mistakenKinds) :
    TellsOperand kind ch := by
  simp [TellsOperand, Mistaken, notStart, notBegin, notMistaken]

theorem tellsOperand_of_begins {kind : TokenKind} {ch : Char} (start : startsOperand ch = true)
    (begins : beginsExpression kind = true) : TellsOperand kind ch := by
  refine ⟨fun _ => .inl ⟨begins, ?_, ?_⟩, fun _ => start⟩
  · rintro rfl
    exact absurd start (by decide)
  · rintro rfl
    exact absurd start (by decide)

theorem tellsOperand_invalid {ch : Char} : TellsOperand .invalid ch := by
  have notBegin : beginsExpression .invalid = false := by decide
  have notMistaken : TokenKind.invalid ∉ mistakenKinds := by decide
  simp [TellsOperand, Mistaken, notBegin, notMistaken]

theorem tellsOperand_mistaken {kind : TokenKind} {ch : Char} (start : startsOperand ch = true)
    (mistaken : kind ∈ mistakenKinds) : TellsOperand kind ch :=
  ⟨fun _ => .inr (.inl mistaken), fun _ => start⟩

theorem tellsOperand_quoted {quote : Char} {kind : QuotedKind} {rest : Spelling}
    (start : startsOperand quote = true)
    (begins : beginsExpression kind.tokenKind = true) :
    TellsOperand (scanQuotedLiteral quote kind (quote :: rest)).kind.tokenKind quote := by
  rcases @scanQuotedBody_kind quote kind false rest with same | same
  · rw [show (scanQuotedLiteral quote kind (quote :: rest)).kind = kind from same]
    exact tellsOperand_of_begins start begins
  · rw [show (scanQuotedLiteral quote kind (quote :: rest)).kind = .invalid from same]
    exact tellsOperand_invalid

theorem startsOperand_of_digit {ch : Char} (digit : isDigit ch = true) :
    startsOperand ch = true := by
  simp [startsOperand, isAlnum, digit]

theorem tellsOperand_number {kind : NumberKind} {ch : Char} {rest : Spelling}
    (starts : startsNumber (ch :: rest) = true) : TellsOperand kind.tokenKind ch := by
  simp only [startsNumber, Bool.or_eq_true, Bool.and_eq_true, decide_eq_true_eq] at starts
  rcases starts with digit | ⟨rfl, _⟩
  · have start := startsOperand_of_digit digit
    cases kind with
    | invalid => exact tellsOperand_invalid
    | _ => exact tellsOperand_of_begins start (by decide)
  · cases kind with
    | invalid => exact tellsOperand_invalid
    | _ => simp [TellsOperand, Mistaken, startsOperand, isAlnum, isAlpha, isDigit,
        NumberKind.tokenKind, mistakenKinds]

theorem wordKind_cases (word : String) :
    beginsExpression (wordKind word) = true ∨ wordKind word ∈ mistakenKinds := by
  unfold wordKind
  cases found : keywords.lookup word with
  | none => exact .inl (by decide)
  | some kind =>
      have every : ∀ entry ∈ keywords,
          beginsExpression entry.2 = true ∨ entry.2 ∈ mistakenKinds := by decide
      obtain ⟨before, after, split, _⟩ := List.lookup_eq_some_iff.mp found
      exact every (word, kind) (by rw [split]; simp)

theorem tellsOperand_word {ch : Char} (start : isIdentStart ch = true) (word : String) :
    TellsOperand (wordKind word) ch := by
  have start : startsOperand ch = true := by
    simp only [isIdentStart, Bool.or_eq_true, decide_eq_true_eq] at start
    rcases start with alpha | rfl
    · simp [startsOperand, isAlnum, alpha]
    · decide
  rcases wordKind_cases word with begins | mistaken
  · exact tellsOperand_of_begins start begins
  · exact tellsOperand_mistaken start mistaken

theorem tellsOperand_typedOperator (lexeme : Spelling) :
    TellsOperand (classifyTypedOperator lexeme) '%' := by
  unfold classifyTypedOperator
  split <;> exact tellsOperand_of_other (by decide) (by decide) (by decide)

theorem tellsOperand_percent {rest : Spelling} {kind : TokenKind}
    (read : (scanPercent '%' rest).kind = some kind) : TellsOperand kind '%' := by
  unfold scanPercent at read
  dsimp only at read
  split at read
  · split at read
    · split at read
      · cases read
        exact tellsOperand_typedOperator _
      · cases read
        exact tellsOperand_of_other (by decide) (by decide) (by decide)
    · cases read
      exact tellsOperand_of_other (by decide) (by decide) (by decide)
  · cases read
    exact tellsOperand_of_other (by decide) (by decide) (by decide)

theorem tellsOperand_semicolon (previous : Option Char) (rest : Spelling) :
    TellsOperand (semicolonKind previous rest) ';' := by
  unfold semicolonKind
  split <;> exact tellsOperand_of_other (by decide) (by decide) (by decide)

theorem tellsOperand_operator {previous : Option Char} {ch : Char} {rest : Spelling}
    {kind : TokenKind} (read : (scanOperator previous (ch :: rest)).kind = some kind) :
    TellsOperand kind ch := by
  generalize same : ch :: rest = text at read
  revert read
  fun_cases scanOperator previous text <;> intro read <;> cases same <;> cases read <;> first
    | exact tellsOperand_invalid
    | exact tellsOperand_semicolon _ _
    | decide

theorem tellsOperand_comment {rest : Spelling} {kind : TokenKind}
    (read : (scanComment '/' rest).kind = some kind) : TellsOperand kind '/' := by
  unfold scanComment at read
  split at read
  · split at read
    · cases read
    · cases read
      exact tellsOperand_invalid
  · cases read

theorem tellsOperand_newline {rest : Spelling} {kind : TokenKind}
    (read : (scanNewline '\n' rest).kind = some kind) : TellsOperand kind '\n' := by
  unfold scanNewline at read
  split at read
  · cases read
  · cases read
    exact tellsOperand_of_other (by decide) (by decide) (by decide)

theorem scanTurn_tellsOperand {previous : Option Char} {ch : Char} {rest : Spelling}
    {kind : TokenKind} (read : (scanTurn previous ch rest).kind = some kind) :
    TellsOperand kind ch := by
  unfold scanTurn at read
  split at read
  · rename_i quote
    subst quote
    cases read
    exact tellsOperand_quoted (by decide) (by decide)
  split at read
  · rename_i quote
    subst quote
    cases read
    exact tellsOperand_quoted (by decide) (by decide)
  split at read
  · rename_i starts
    cases read
    exact tellsOperand_number starts
  split at read
  · rename_i comment
    rw [comment.1] at read ⊢
    exact tellsOperand_comment read
  split at read
  · cases read
  split at read
  · rename_i newline
    subst newline
    exact tellsOperand_newline read
  split at read
  · rename_i start
    cases read
    exact tellsOperand_word start _
  split at read
  · rename_i percent
    subst percent
    exact tellsOperand_percent read
  · exact tellsOperand_operator read

/-- A turn that skips its text starts with no operand. -/
theorem startsOperand_of_skip {previous : Option Char} {ch : Char} {rest : Spelling}
    (skips : (scanTurn previous ch rest).kind = none) : startsOperand ch = false := by
  unfold scanTurn at skips
  split at skips
  · cases skips
  split at skips
  · cases skips
  split at skips
  · cases skips
  split at skips
  · rename_i comment
    rw [comment.1]
    decide
  split at skips
  · rename_i space
    simp only [isSpace, List.mem_cons, List.not_mem_nil, or_false, decide_eq_true_eq] at space
    rcases space with rfl | rfl | rfl | rfl | rfl <;> decide
  split at skips
  · rename_i newline
    rw [newline]
    decide
  split at skips
  · cases skips
  split at skips
  · exact absurd skips (scanPercent_answers ch rest)
  · exact absurd skips (scanOperator_answers previous _)

theorem scanTurn_blank {previous : Option Char} {ch : Char} {rest : Spelling}
    (blank : isInlineBlank ch = true) :
    scanTurn previous ch rest = .skip (ch :: rest.takeWhile isSpace) (rest.dropWhile isSpace) := by
  simp only [isInlineBlank, List.mem_cons, List.not_mem_nil, or_false, decide_eq_true_eq] at blank
  rcases blank with rfl | rfl | rfl <;> rfl

/-! ### The first token behind the mark -/

/-- What the first token of a text says about its first character that is no blank. -/
inductive FirstToken (behind : Spelling) (first : Token) : Prop where
  | ends (empty : behind = []) (kind : first.kind = .endOfText) (lexeme : first.lexeme = [])
      (rest : first.rest = [])
  | here {ch more} (join : first.lexeme ++ first.rest = behind) (lexeme : first.lexeme = ch :: more)
      (tells : TellsOperand first.kind ch)
  | later (shorter : (first.lexeme ++ first.rest).length < behind.length)
      (noOperand : ∀ ch, behind.head? = some ch → startsOperand ch = false)

theorem FirstToken.length_le {behind : Spelling} {first : Token}
    (token : FirstToken behind first) :
    (first.lexeme ++ first.rest).length ≤ behind.length := by
  cases token with
  | ends empty _ lexeme rest => rw [lexeme, rest, empty]; rfl
  | here join => rw [join]
  | later shorter => exact Nat.le_of_lt shorter

theorem isSpace_of_inlineBlank {ch : Char} (blank : isInlineBlank ch = true) :
    isSpace ch = true := by
  simp only [isInlineBlank, List.mem_cons, List.not_mem_nil, or_false, decide_eq_true_eq] at blank
  rcases blank with rfl | rfl | rfl <;> decide

theorem dropWhile_space_of_blank (text : Spelling) :
    (text.dropWhile isInlineBlank).dropWhile isSpace = text.dropWhile isSpace := by
  induction text with
  | nil => rfl
  | cons ch rest ih =>
      by_cases blank : isInlineBlank ch = true
      · rw [List.dropWhile_cons_of_pos blank, ih,
          List.dropWhile_cons_of_pos (isSpace_of_inlineBlank blank)]
      · rw [List.dropWhile_cons_of_neg blank]

theorem head?_dropWhile_inlineBlank {text rest : Spelling} {ch : Char}
    (dropped : text.dropWhile isInlineBlank = ch :: rest) : isInlineBlank ch = false := by
  have head := List.head?_dropWhile_not isInlineBlank text
  rw [dropped] at head
  simpa using head

/-- Behind a white space the rest of the text has the same first token. -/
theorem FirstToken.of_space {text : Spelling} {first : Token}
    (token : FirstToken ((text.dropWhile isSpace).dropWhile isInlineBlank) first) :
    FirstToken (text.dropWhile isInlineBlank) first := by
  cases behind : text.dropWhile isInlineBlank with
  | nil =>
      have empty : text.dropWhile isSpace = [] := by
        rw [← dropWhile_space_of_blank, behind]
        rfl
      rwa [empty] at token
  | cons ch rest =>
      have notBlank := head?_dropWhile_inlineBlank behind
      have same := dropWhile_space_of_blank text
      rw [behind] at same
      by_cases space : isSpace ch = true
      · rw [List.dropWhile_cons_of_pos space] at same
        apply FirstToken.later
        · have bound := token.length_le
          have shorter := (List.dropWhile_sublist isInlineBlank (l := text.dropWhile isSpace)).length_le
          have inner := (List.dropWhile_sublist isSpace (l := rest)).length_le
          rw [same] at inner
          rw [List.length_cons]
          omega
        · intro other head
          cases head
          simp only [isSpace, List.mem_cons, List.not_mem_nil, or_false, decide_eq_true_eq] at space
          rcases space with rfl | rfl | rfl | rfl | rfl <;> decide
      · rw [List.dropWhile_cons_of_neg space] at same
        rwa [← same, List.dropWhile_cons_of_neg (by simp [notBlank])] at token

theorem firstToken_tokensFrom (previous : Option Char) (location : Location) (text : Spelling) :
    ∃ first others, tokensFrom previous location text = first :: others ∧
      FirstToken (text.dropWhile isInlineBlank) first := by
  fun_induction tokensFrom previous location text with
  | case1 location => exact ⟨_, _, rfl, .ends rfl rfl rfl rfl⟩
  | case2 previous location ch rest turn behind skips ih =>
      obtain ⟨first, others, same, token⟩ := ih
      refine ⟨first, others, same, ?_⟩
      by_cases blank : isInlineBlank ch = true
      · rw [List.dropWhile_cons_of_pos blank]
        have scanned := @scanTurn_blank previous ch rest blank
        rw [show turn.rest = rest.dropWhile isSpace by rw [show turn = _ from scanned]; rfl] at token
        exact token.of_space
      · rw [List.dropWhile_cons_of_neg blank]
        apply FirstToken.later
        · have bound := token.length_le
          have inner := (List.dropWhile_sublist isInlineBlank (l := turn.rest)).length_le
          have shorter : turn.rest.length < (ch :: rest).length :=
            (scanTurn_splits previous ch rest).shorter
          omega
        · intro other head
          cases head
          exact startsOperand_of_skip skips
  | case3 previous location ch rest turn behind kind read _ =>
      refine ⟨_, _, rfl, ?_⟩
      have blank : isInlineBlank ch ≠ true := by
        intro blank
        rw [show turn = _ from @scanTurn_blank previous ch rest blank] at read
        cases read
      obtain ⟨more, lexeme, join⟩ := scanTurn_splits previous ch rest
      rw [List.dropWhile_cons_of_neg blank]
      exact .here (scanTurn_splits previous ch rest).join lexeme (scanTurn_tellsOperand read)

end HitSimple.ParserContext

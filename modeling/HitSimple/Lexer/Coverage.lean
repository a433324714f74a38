import HitSimple.Lexer.Tokens

namespace HitSimple.Lexer
open Literal (Spelling)

/-- Text that holds no token: blanks, comments, and line breaks with what is blank behind them. -/
inductive Skipped : Spelling → Prop where
  | nothing : Skipped []
  | blanks {blanks text : Spelling} (blank : ∀ ch ∈ blanks, isSpace ch = true)
      (more : Skipped text) : Skipped (blanks ++ text)
  | lineComment {line text : Spelling} (ends : '\n' ∉ line) (more : Skipped text) :
      Skipped ('/' :: '/' :: line ++ text)
  | blockComment {comment text : Spelling} (closes : closeComment comment = some (comment, []))
      (more : Skipped text) : Skipped ('/' :: '*' :: comment ++ text)
  | lineBreak {blanks text : Spelling} (blank : ∀ ch ∈ blanks, isLineSpace ch = true)
      (more : Skipped text) : Skipped ('\n' :: blanks ++ text)

/-- The tokens stand in the text one behind another, with nothing but skipped text between them,
each with the place where it ends and the text behind it; the last one is the end of the text. -/
inductive Covers : Spelling → Location → List Token → Prop where
  | finish {gap : Spelling} {location : Location} (skipped : Skipped gap) :
      Covers gap location [⟨.endOfText, [], location.advance gap, []⟩]
  | token {gap rest lexeme : Spelling} {location : Location} {kind : TokenKind}
      {tokens : List Token} (skipped : Skipped gap) (reads : lexeme ≠ [])
      (goesOn : kind ≠ .endOfText)
      (more : Covers rest (location.advance (gap ++ lexeme)) tokens) :
      Covers (gap ++ (lexeme ++ rest)) location
        (⟨kind, lexeme, location.advance (gap ++ lexeme), rest⟩ :: tokens)

theorem Location.advance_append (location : Location) (first second : Spelling) :
    location.advance (first ++ second) = (location.advance first).advance second :=
  List.foldl_append

/-- What is skipped at the start of a text only widens the first gap. -/
theorem Covers.skip {piece text : Spelling} {location : Location} {tokens : List Token}
    (skips : ∀ gap, Skipped gap → Skipped (piece ++ gap))
    (covers : Covers text (location.advance piece) tokens) :
    Covers (piece ++ text) location tokens := by
  cases covers with
  | finish skipped =>
      rw [← location.advance_append]
      exact .finish (skips _ skipped)
  | @token gap rest lexeme _ kind tokens skipped reads goesOn more =>
      rw [← location.advance_append, ← List.append_assoc] at more ⊢
      rw [← List.append_assoc piece gap]
      exact .token (skips _ skipped) reads goesOn more

/-! ### What a turn skips -/

theorem closeComment_comment {text comment rest : Spelling}
    (closed : closeComment text = some (comment, rest)) :
    closeComment comment = some (comment, []) := by
  fun_induction closeComment text generalizing comment rest with
  | case1 => cases closed
  | case2 => cases closed; rfl
  | case3 ch text other ih =>
      simp only [Option.map_eq_some_iff] at closed
      obtain ⟨⟨comment, rest⟩, closed, same⟩ := closed
      cases same
      rw [closeComment, ih closed]
      · rfl
      · rintro behind rfl rfl
        have join := closeComment_join closed
        exact other _ rfl join.symm

theorem skipped_of_scanComment {rest : Spelling} (starts : startsComment rest = true)
    (skips : (scanComment '/' rest).kind = none) (gap : Spelling) (skipped : Skipped gap) :
    Skipped ((scanComment '/' rest).lexeme ++ gap) := by
  unfold scanComment at skips ⊢
  split at skips
  · rename_i behind
    cases closed : closeComment behind with
    | none =>
        rw [closed] at skips
        cases skips
    | some found => exact .blockComment (closeComment_comment closed) skipped
  · rename_i other
    simp only [startsComment, decide_eq_true_eq] at starts
    cases rest with
    | nil => simp at starts
    | cons ch behind =>
        rcases starts with line | block
        · obtain rfl := Option.some.inj line
          have ends : '\n' ∉ behind.takeWhile (· ≠ '\n') := by
            intro member
            have kept := List.mem_takeWhile_imp member
            simp at kept
          exact .lineComment ends skipped
        · obtain rfl := Option.some.inj block
          exact absurd rfl (other behind)

theorem skipped_of_scanNewline {rest : Spelling} (skips : (scanNewline '\n' rest).kind = none)
    (gap : Spelling) (skipped : Skipped gap) : Skipped ((scanNewline '\n' rest).lexeme ++ gap) := by
  unfold scanNewline at skips ⊢
  split at skips
  · rename_i continues
    rw [if_pos continues]
    exact .lineBreak (fun ch member => List.mem_takeWhile_imp member) skipped
  · cases skips

/-- A turn that answers no token has read skipped text. -/
theorem skipped_of_scanTurn {previous : Option Char} {ch : Char} {rest : Spelling}
    (skips : (scanTurn previous ch rest).kind = none) (gap : Spelling) (skipped : Skipped gap) :
    Skipped ((scanTurn previous ch rest).lexeme ++ gap) := by
  unfold scanTurn at skips ⊢
  split at skips
  · cases skips
  rename_i notString
  split at skips
  · cases skips
  rename_i notChar
  split at skips
  · cases skips
  rename_i notNumber
  rw [if_neg notString, if_neg notChar, if_neg notNumber]
  split at skips
  · rename_i comment
    obtain ⟨rfl, starts⟩ := comment
    rw [if_pos ⟨rfl, starts⟩]
    exact skipped_of_scanComment starts skips gap skipped
  rename_i notComment
  rw [if_neg notComment]
  split at skips
  · rename_i space
    rw [if_pos space]
    refine .blanks (fun blank member => ?_) skipped
    rcases List.mem_cons.mp member with rfl | behind
    · exact space
    · exact List.mem_takeWhile_imp behind
  rename_i notSpace
  rw [if_neg notSpace]
  split at skips
  · rename_i newline
    subst newline
    rw [if_pos rfl]
    exact skipped_of_scanNewline skips gap skipped
  split at skips
  · cases skips
  split at skips
  · exact absurd skips (scanPercent_answers ch rest)
  · exact absurd skips (scanOperator_answers previous _)

/-! ### The end of the text -/

theorem wordKind_goesOn (word : String) : wordKind word ≠ .endOfText := by
  have listed : ∀ keyword ∈ keywords, keyword.2 ≠ .endOfText := by decide
  unfold wordKind
  cases found : keywords.lookup word with
  | none => exact fun same => by cases same
  | some kind =>
      obtain ⟨before, after, split, _⟩ := List.lookup_eq_some_iff.mp found
      have member : (word, kind) ∈ keywords := by
        rw [split]
        exact List.mem_append_right _ List.mem_cons_self
      exact listed _ member

theorem scanComment_goesOn (slash : Char) (rest : Spelling) :
    (scanComment slash rest).kind ≠ some .endOfText := by
  unfold scanComment
  split
  · split <;> exact fun same => by cases same
  · exact fun same => by cases same

theorem scanNewline_goesOn (newline : Char) (rest : Spelling) :
    (scanNewline newline rest).kind ≠ some .endOfText := by
  unfold scanNewline
  split <;> exact fun same => by cases same

theorem classifyTypedOperator_goesOn (lexeme : Spelling) :
    classifyTypedOperator lexeme ≠ .endOfText := by
  unfold classifyTypedOperator
  repeat' split
  all_goals exact fun same => by cases same

theorem scanPercent_goesOn (percent : Char) (rest : Spelling) :
    (scanPercent percent rest).kind ≠ some .endOfText := by
  unfold scanPercent
  dsimp only
  split
  · split
    · split
      · exact fun same => classifyTypedOperator_goesOn _ (Option.some.inj same)
      · exact fun same => by cases same
    · exact fun same => by cases same
  · exact fun same => by cases same

theorem semicolonKind_goesOn (previous : Option Char) (rest : Spelling) :
    semicolonKind previous rest ≠ .endOfText := by
  unfold semicolonKind
  split <;> exact fun same => by cases same

theorem scanOperator_goesOn (previous : Option Char) (ch : Char) (rest : Spelling) :
    (scanOperator previous (ch :: rest)).kind ≠ some .endOfText := by
  generalize same : ch :: rest = text
  fun_cases scanOperator previous text <;> first
    | exact absurd same (List.cons_ne_nil _ _)
    | exact fun answers => semicolonKind_goesOn _ _ (Option.some.inj answers)
    | exact fun answers => by cases answers

/-- No turn answers the end of the text before it. -/
theorem scanTurn_goesOn (previous : Option Char) (ch : Char) (rest : Spelling) :
    (scanTurn previous ch rest).kind ≠ some .endOfText := by
  have quoted : ∀ token : QuotedToken, token.turn.kind ≠ some .endOfText := by
    rintro ⟨kind, lexeme, rest⟩
    cases kind <;> exact fun same => by cases same
  have number : ∀ token : NumberToken, token.turn.kind ≠ some .endOfText := by
    rintro ⟨kind, lexeme, rest⟩
    cases kind <;> exact fun same => by cases same
  unfold scanTurn
  split
  · exact quoted _
  split
  · exact quoted _
  split
  · exact number _
  split
  · exact scanComment_goesOn ch rest
  split
  · exact fun same => by cases same
  split
  · exact scanNewline_goesOn ch rest
  split
  · exact fun same => wordKind_goesOn _ (Option.some.inj same)
  split
  · exact scanPercent_goesOn ch rest
  · exact scanOperator_goesOn previous ch rest

/-! ### The whole text -/

theorem tokensFrom_cover (previous : Option Char) (location : Location) (text : Spelling) :
    Covers text location (tokensFrom previous location text) := by
  fun_induction tokensFrom previous location text with
  | case1 previous location => exact .finish .nothing
  | case2 previous location ch rest turn behind skips ih =>
      have splits := (scanTurn_splits previous ch rest).join
      rw [← splits]
      exact ih.skip (skipped_of_scanTurn skips)
  | case3 previous location ch rest turn behind kind answers ih =>
      have splits := (scanTurn_splits previous ch rest).join
      obtain ⟨_, lexeme, _⟩ := scanTurn_splits previous ch rest
      have reads : turn.lexeme ≠ [] := by
        rw [lexeme]
        exact List.cons_ne_nil _ _
      rw [← splits]
      have goesOn : kind ≠ .endOfText := by
        rintro rfl
        exact scanTurn_goesOn previous ch rest answers
      exact Covers.token .nothing reads goesOn ih

/-- The lexer drops nothing but blanks, comments and line breaks, and reads all else as tokens in
their order. -/
theorem tokens_cover (source : Spelling) : Covers source .start (tokens source) :=
  tokensFrom_cover none .start source

end HitSimple.Lexer

import HitSimple.Lexer.Next
import HitSimple.Lexer.NumberTokens
import HitSimple.Lexer.QuotedTokens

namespace HitSimple.Lexer
open Literal (Spelling)

/-- The turn reads the character and what follows it up to its rest. -/
def Turn.Splits (turn : Turn) (ch : Char) (rest : Spelling) : Prop :=
  ∃ more, turn.lexeme = ch :: more ∧ more ++ turn.rest = rest

theorem Turn.splits_of_join {turn : Turn} {ch : Char} {rest : Spelling}
    (join : turn.lexeme ++ turn.rest = ch :: rest) (reads : turn.lexeme ≠ []) :
    turn.Splits ch rest := by
  cases lexeme : turn.lexeme with
  | nil => exact absurd lexeme reads
  | cons first more =>
      rw [lexeme, List.cons_append, List.cons.injEq] at join
      obtain ⟨rfl, join⟩ := join
      exact ⟨more, lexeme, join⟩

theorem Turn.Splits.join {turn : Turn} {ch : Char} {rest : Spelling} (splits : turn.Splits ch rest) :
    turn.lexeme ++ turn.rest = ch :: rest := by
  obtain ⟨more, lexeme, join⟩ := splits
  rw [lexeme, List.cons_append, join]

theorem Turn.Splits.shorter {turn : Turn} {ch : Char} {rest : Spelling}
    (splits : turn.Splits ch rest) : turn.rest.length < (ch :: rest).length := by
  obtain ⟨more, _, join⟩ := splits
  rw [← join, List.length_cons, List.length_append]
  omega

section
variable {quote : Char} {kind : QuotedKind}

theorem scanQuotedBody_join (hasContent : Bool) (text : Spelling) :
    (scanQuotedBody quote kind hasContent text).lexeme ++
      (scanQuotedBody quote kind hasContent text).rest = text := by
  fun_induction scanQuotedBody quote kind hasContent text <;>
    simp_all [QuotedToken.prepend]

theorem scanQuotedBody_kind (hasContent : Bool) (text : Spelling) :
    (scanQuotedBody quote kind hasContent text).kind = kind ∨
      (scanQuotedBody quote kind hasContent text).kind = .invalid := by
  fun_induction scanQuotedBody quote kind hasContent text <;>
    simp_all [QuotedToken.prepend]
  grind

theorem scanQuotedLiteral_splits (ch : Char) (rest : Spelling) :
    (scanQuotedLiteral quote kind (ch :: rest)).turn.Splits ch rest :=
  ⟨_, rfl, scanQuotedBody_join false rest⟩

end

theorem scanNumber_splits {ch : Char} {rest : Spelling} (starts : startsNumber (ch :: rest) = true) :
    (scanNumber (ch :: rest)).turn.Splits ch rest := by
  apply Turn.splits_of_join (scanNumber_join _)
  intro empty
  have empty : (scanNumber (ch :: rest)).lexeme = [] := empty
  have join := scanNumber_join (ch :: rest)
  have stops := scanNumber_stops (ch :: rest)
  rw [empty, List.nil_append] at join
  rw [join] at stops
  have other := stops ch rfl
  simp only [startsNumber, isNumberContinue, isIdentContinue, Bool.or_eq_true, Bool.and_eq_true,
    Bool.or_eq_false_iff, decide_eq_true_eq, decide_eq_false_iff_not] at starts other
  rcases starts with digit | ⟨point, _⟩
  · rw [digit] at other
    cases other.1.1.2
  · exact other.2 point

theorem closeComment_join {text comment rest : Spelling}
    (closed : closeComment text = some (comment, rest)) : comment ++ rest = text := by
  fun_induction closeComment text generalizing comment rest with
  | case1 => cases closed
  | case2 => cases closed; rfl
  | case3 ch text _ ih =>
      simp only [Option.map_eq_some_iff] at closed
      obtain ⟨⟨comment, rest⟩, closed, same⟩ := closed
      cases same
      rw [List.cons_append, ih closed]

theorem scanComment_splits (slash : Char) (rest : Spelling) :
    (scanComment slash rest).Splits slash rest := by
  unfold scanComment
  split
  · split
    · rename_i closed
      exact ⟨_, rfl, congrArg (List.cons '*') (closeComment_join closed)⟩
    · exact ⟨_, rfl, List.append_nil _⟩
  · exact ⟨_, rfl, List.takeWhile_append_dropWhile⟩

theorem scanNewline_splits (newline : Char) (rest : Spelling) :
    (scanNewline newline rest).Splits newline rest := by
  unfold scanNewline
  split
  · exact ⟨_, rfl, List.takeWhile_append_dropWhile⟩
  · exact ⟨_, rfl, rfl⟩

theorem scanWord_splits {ch : Char} (start : isIdentStart ch = true) (rest : Spelling) :
    (scanWord (ch :: rest)).Splits ch rest := by
  have continues : isIdentContinue ch = true := by
    simp only [isIdentStart, isIdentContinue, Bool.or_eq_true] at start ⊢
    exact start.imp .inl id
  refine ⟨rest.takeWhile isIdentContinue, ?_, ?_⟩
  · exact List.takeWhile_cons_of_pos continues
  · rw [scanWord, Turn.token, List.dropWhile_cons_of_pos continues]
    exact List.takeWhile_append_dropWhile

theorem withEqual_join (operator text : Spelling) :
    (withEqual operator text).1 ++ (withEqual operator text).2 = operator ++ text := by
  unfold withEqual
  split <;> simp

theorem scanTypedSuffix_join {letter : Char} {text suffix rest : Spelling}
    (found : scanTypedSuffix letter text = some (suffix, rest)) : suffix ++ rest = text := by
  have joined : ∀ operator text, withEqual operator text = (suffix, rest) →
      suffix ++ rest = operator ++ text := by
    intro operator text same
    have join := withEqual_join operator text
    rwa [same] at join
  unfold scanTypedSuffix at found
  split at found
  · cases found
    rfl
  · split at found
    · exact joined _ _ (Option.some.inj found)
    · cases found
  · split at found
    · exact joined _ _ (Option.some.inj found)
    · cases found
  · split at found
    · exact joined _ _ (Option.some.inj found)
    · cases found
  · split at found
    · exact joined _ _ (Option.some.inj found)
    · split at found
      · exact joined _ _ (Option.some.inj found)
      · cases found
  · cases found

theorem scanPercent_splits (percent : Char) (rest : Spelling) :
    (scanPercent percent rest).Splits percent rest := by
  unfold scanPercent
  dsimp only
  split
  · rename_i letter behind dropped
    split
    · split
      · rename_i suffix behind found
        refine ⟨rest.takeWhile isDigit ++ letter :: suffix, rfl, ?_⟩
        dsimp only [Turn.token]
        rw [List.append_assoc, List.cons_append, scanTypedSuffix_join found, ← dropped]
        exact List.takeWhile_append_dropWhile
      · exact ⟨_, rfl, rfl⟩
    · exact ⟨_, rfl, rfl⟩
  · exact ⟨_, rfl, rfl⟩

theorem scanOperator_splits (previous : Option Char) (ch : Char) (rest : Spelling) :
    (scanOperator previous (ch :: rest)).Splits ch rest := by
  apply Turn.splits_of_join
  · generalize ch :: rest = text
    fun_cases scanOperator previous text <;> rfl
  · generalize same : ch :: rest = text
    fun_cases scanOperator previous text <;> first
      | exact List.cons_ne_nil _ _
      | cases same

theorem scanTurn_splits (previous : Option Char) (ch : Char) (rest : Spelling) :
    (scanTurn previous ch rest).Splits ch rest := by
  unfold scanTurn
  split
  · exact scanQuotedLiteral_splits ch rest
  split
  · exact scanQuotedLiteral_splits ch rest
  split
  · rename_i starts
    exact scanNumber_splits starts
  split
  · exact scanComment_splits ch rest
  split
  · exact ⟨_, rfl, List.takeWhile_append_dropWhile⟩
  split
  · exact scanNewline_splits ch rest
  split
  · rename_i start
    exact scanWord_splits start rest
  split
  · exact scanPercent_splits ch rest
  · exact scanOperator_splits previous ch rest

/-- The tokens that repeated calls of `next` answer from a place of the text on. -/
def tokensFrom (previous : Option Char) (location : Location) : Spelling → List Token
  | [] => [⟨.endOfText, [], location, []⟩]
  | ch :: rest =>
      let turn := scanTurn previous ch rest
      let behind := tokensFrom turn.lexeme.getLast? (location.advance turn.lexeme) turn.rest
      match turn.kind with
      | none => behind
      | some kind => ⟨kind, turn.lexeme, location.advance turn.lexeme, turn.rest⟩ :: behind
termination_by text => text.length
decreasing_by exact (scanTurn_splits previous ch rest).shorter

def tokens (source : Spelling) : List Token :=
  tokensFrom none .start source

end HitSimple.Lexer

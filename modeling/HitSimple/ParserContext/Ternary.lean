import HitSimple.ParserContext.Classification

namespace HitSimple.ParserContext
open Literal (Spelling)
open Lexer

/-! ### The place of the mark -/

theorem advance_append (location : Location) (first second : Spelling) :
    location.advance (first ++ second) = (location.advance first).advance second :=
  List.foldl_append

theorem advance_cons (location : Location) (ch : Char) (rest : Spelling) :
    location.advance (ch :: rest) = (location.step ch).advance rest :=
  rfl

/-- A later place is on a later line, or further on the same one. -/
theorem advance_later (location : Location) (text : Spelling) :
    location.line < (location.advance text).line ∨
      location.line = (location.advance text).line ∧
        location.column + text.length = (location.advance text).column := by
  induction text generalizing location with
  | nil => exact .inr ⟨rfl, rfl⟩
  | cons ch rest ih =>
      rw [advance_cons]
      have later := ih (location.step ch)
      unfold Location.step at later ⊢
      split at later
      · rename_i newline
        rw [if_pos newline]
        dsimp only at later
        omega
      · rename_i other
        rw [if_neg other]
        dsimp only at later
        rw [List.length_cons]
        omega

/-- The loop finds the text behind the place. -/
theorem seek_advance (current : Location) (before rest : Spelling) :
    seek (current.advance before).line (current.advance before).column current (before ++ rest) =
      rest := by
  induction before generalizing current with
  | nil =>
      cases rest with
      | nil => rfl
      | cons ch rest =>
          rw [List.nil_append, seek, if_neg]
          exact not_or.mpr ⟨Nat.lt_irrefl _, Nat.lt_irrefl _⟩
  | cons ch before ih =>
      have later := advance_later current (ch :: before)
      rw [List.length_cons] at later
      rw [List.cons_append, seek, if_pos (by omega), advance_cons]
      exact ih (current.step ch)

/-- A token of the text stands behind what has been read, and the tokens behind it are those of its
rest. -/
theorem tokensFrom_split (previous : Option Char) (location : Location) (text : Spelling)
    {earlier later : List Token} {mark : Token} (inner : mark.kind ≠ .endOfText)
    (read : tokensFrom previous location text = earlier ++ mark :: later) :
    ∃ before, text = before ++ mark.rest ∧ mark.ends = location.advance before ∧
      ∃ last, later = tokensFrom last mark.ends mark.rest := by
  fun_induction tokensFrom previous location text generalizing earlier with
  | case1 location =>
      cases earlier with
      | nil =>
          cases read
          exact absurd rfl inner
      | cons => cases (List.append_eq_nil_iff.mp (List.cons.inj read).2.symm).2
  | case2 previous location ch rest turn behind skips =>
      rename_i ih
      obtain ⟨before, split, ends, later⟩ := ih read
      refine ⟨turn.lexeme ++ before, ?_, ?_, later⟩
      · rw [List.append_assoc, ← split]
        exact (scanTurn_splits previous ch rest).join.symm
      · rw [advance_append]
        exact ends
  | case3 previous location ch rest turn behind kind answers =>
      rename_i ih
      have join := (scanTurn_splits previous ch rest).join
      cases earlier with
      | nil =>
          obtain ⟨rfl, same⟩ := List.cons.inj read
          exact ⟨turn.lexeme, join.symm, rfl, _, same.symm⟩
      | cons token earlier =>
          obtain ⟨before, split, ends, later⟩ := ih (List.cons.inj read).2
          refine ⟨turn.lexeme ++ before, ?_, ?_, later⟩
          · rw [List.append_assoc, ← split]
            exact join.symm
          · rw [advance_append]
            exact ends

/-! ### The two tests on the text behind the mark -/

theorem colonOnLine_dropWhile (text : Spelling) :
    colonOnLine (text.dropWhile isInlineBlank) = colonOnLine text := by
  induction text with
  | nil => rfl
  | cons ch rest ih =>
      by_cases blank : isInlineBlank ch = true
      · rw [List.dropWhile_cons_of_pos blank, ih]
        simp only [isInlineBlank, List.mem_cons, List.not_mem_nil, or_false,
          decide_eq_true_eq] at blank
        rcases blank with rfl | rfl | rfl <;> simp [colonOnLine]
      · rw [List.dropWhile_cons_of_neg blank]

/-- The first test of the scan. -/
def StartsOperand (behind : Spelling) : Prop :=
  ∃ ch rest, behind = ch :: rest ∧ startsOperand ch = true

theorem questionStartsTernary_iff {source : Spelling} {line column : Nat} {text : Spelling}
    (found : seek line column .start source = text) :
    questionStartsTernary source line column = true ↔
      StartsOperand (text.dropWhile isInlineBlank) ∧ colonOnLine text = true := by
  rw [← colonOnLine_dropWhile, questionStartsTernary, found]
  cases text.dropWhile isInlineBlank with
  | nil => simp [StartsOperand]
  | cons ch rest =>
      have separators : ∀ other ∈ ['\n', ')', ']', '}', ';', ','], startsOperand other = false := by
        intro other separator
        simp only [List.mem_cons, List.not_mem_nil, or_false] at separator
        rcases separator with rfl | rfl | rfl | rfl | rfl | rfl <;> decide
      dsimp only
      split
      · rename_i separator
        have noOperand := separators ch separator
        simp [StartsOperand, noOperand]
      · cases operand : startsOperand ch <;> simp [StartsOperand, operand]

/-- The scan sees an operand just where the first token stands on the line and either starts an
expression visibly or is mistaken for one that does. -/
theorem startsOperand_iff {text : Spelling} {first : Token}
    (token : FirstToken (text.dropWhile isInlineBlank) first) :
    StartsOperand (text.dropWhile isInlineBlank) ↔
      Near text first ∧ (beginsExpression first.kind = true ∧ Plain first ∨
        ∃ ch, first.lexeme.head? = some ch ∧ Mistaken first.kind ch) := by
  unfold Near
  cases token with
  | ends empty kind lexeme rest =>
      have notBegin : beginsExpression .endOfText = false := by decide
      simp [StartsOperand, empty, kind, lexeme, notBegin]
  | @here ch more join lexeme tells =>
      have starts : StartsOperand (text.dropWhile isInlineBlank) ↔ startsOperand ch = true := by
        rw [← join, lexeme]
        exact ⟨fun ⟨_, _, same, start⟩ => by cases same; exact start, fun start => ⟨_, _, rfl, start⟩⟩
      rw [starts, show startsOperand ch = true ↔ _ from tells, and_iff_right join, Plain, lexeme]
      simp
  | later shorter noOperand =>
      constructor
      · rintro ⟨ch, rest, same, start⟩
        rw [noOperand ch (by rw [same]; rfl)] at start
        cases start
      · rintro ⟨near, _⟩
        rw [near] at shorter
        exact absurd shorter (Nat.lt_irrefl _)

theorem not_begins_of_mistaken {kind : TokenKind} {ch : Char} (mistaken : Mistaken kind ch) :
    beginsExpression kind = false := by
  rcases mistaken with mistaken | ⟨rfl, _⟩
  · have every : ∀ kind ∈ mistakenKinds, beginsExpression kind = false := by decide
    exact every kind mistaken
  · decide

/-- The scan and the rule agree about a mark just where the line tells what the tokens do. -/
theorem questionStartsTernary_agrees_iff (source : Spelling) (earlier later : List Token)
    (mark : Token) (read : tokens source = earlier ++ mark :: later)
    (isMark : mark.kind = .question) :
    questionStartsTernary source mark.ends.line mark.ends.column =
        startsTernary (later.map Token.kind) ↔
      LineTellsTernary mark.rest later := by
  obtain ⟨before, split, ends, last, rfl⟩ :=
    tokensFrom_split none .start source (by rw [isMark]; decide) read
  obtain ⟨first, others, same, token⟩ := firstToken_tokensFrom last mark.ends mark.rest
  have found : seek mark.ends.line mark.ends.column .start source = mark.rest := by
    rw [split, ends]
    exact seek_advance .start before mark.rest
  have scan := questionStartsTernary_iff found
  rw [startsOperand_iff token] at scan
  rw [same, Bool.eq_iff_iff, scan]
  have exclusive : ∀ ch, Mistaken first.kind ch → ¬beginsExpression first.kind = true := by
    intro ch mistaken
    rw [not_begins_of_mistaken mistaken]
    exact Bool.false_ne_true
  simp only [LineTellsTernary, startsTernary, List.map_cons, List.headD_cons, Bool.and_eq_true]
  generalize ternaryColon 0 (first.kind :: others.map Token.kind) = colon
  generalize colonOnLine mark.rest = seen
  by_cases begins : beginsExpression first.kind = true
  · have noMistake : ¬∃ ch, first.lexeme.head? = some ch ∧ Mistaken first.kind ch :=
      fun ⟨ch, _, mistaken⟩ => exclusive ch mistaken begins
    have none : ∀ ch, first.lexeme.head? = some ch → Near mark.rest first →
        Mistaken first.kind ch → seen = false :=
      fun ch head _ mistaken => absurd ⟨ch, head, mistaken⟩ noMistake
    simp only [begins, noMistake, true_and, or_false, forall_const, and_iff_left none]
    by_cases visible : Near mark.rest first ∧ Plain first
    · rw [and_iff_right visible, ← Bool.eq_iff_iff]
      simp [visible.1, visible.2]
    · simp only [visible, false_and, false_iff, not_false_eq_true, forall_const,
        Bool.not_eq_true]
      exact ⟨fun absent => ⟨fun near plain => absurd ⟨near, plain⟩ visible, absent⟩, And.right⟩
  · simp only [begins, false_and, false_or, iff_false, Bool.false_eq_true, false_implies, true_and]
    constructor
    · intro absent ch head near mistaken
      rw [← Bool.not_eq_true]
      exact fun here => absent ⟨⟨near, ch, head, mistaken⟩, here⟩
    · rintro absent ⟨⟨near, ch, head, mistaken⟩, here⟩
      rw [absent ch head near mistaken] at here
      cases here

/-- The mark in `a?b:c`. -/
theorem questionStartsTernary_at_ternary :
    questionStartsTernary "a?b:c".toList 1 3 = startsTernary [.identifier, .colon, .identifier,
        .endOfText] ↔
      LineTellsTernary "b:c".toList ((tokens "a?b:c".toList).drop 2) := by
  have read : tokens "a?b:c".toList = (tokens "a?b:c".toList).take 1 ++
      ⟨.question, ['?'], ⟨1, 3⟩, "b:c".toList⟩ :: (tokens "a?b:c".toList).drop 2 := by
    decide +kernel
  have agrees := questionStartsTernary_agrees_iff _ _ _ _ read rfl
  have kinds : ((tokens "a?b:c".toList).drop 2).map Token.kind =
      [.identifier, .colon, .identifier, .endOfText] := by decide +kernel
  rwa [kinds] at agrees

/-- A mark behind which the text is read as a ternary one, though its colon is in a slice, and one
behind which it is not, though an operand and a colon follow. -/
theorem slice_and_float_are_misread :
    (∃ mark, tokens "a?[0:1]".toList = (tokens "a?[0:1]".toList).take 1 ++
        mark :: (tokens "a?[0:1]".toList).drop 2 ∧ mark.kind = .question ∧
      questionStartsTernary "a?[0:1]".toList mark.ends.line mark.ends.column = true ∧
      startsTernary (((tokens "a?[0:1]".toList).drop 2).map Token.kind) = false) ∧
    (∃ mark, tokens "a ? .5 : b".toList = (tokens "a ? .5 : b".toList).take 1 ++
        mark :: (tokens "a ? .5 : b".toList).drop 2 ∧ mark.kind = .question ∧
      questionStartsTernary "a ? .5 : b".toList mark.ends.line mark.ends.column = false ∧
      startsTernary (((tokens "a ? .5 : b".toList).drop 2).map Token.kind) = true) :=
  ⟨⟨⟨.question, ['?'], ⟨1, 3⟩, "[0:1]".toList⟩, by decide +kernel, rfl, by decide,
      by decide +kernel⟩,
    ⟨⟨.question, ['?'], ⟨1, 4⟩, " .5 : b".toList⟩, by decide +kernel, rfl, by decide,
      by decide +kernel⟩⟩

end HitSimple.ParserContext

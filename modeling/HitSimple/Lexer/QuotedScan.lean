import HitSimple.Lexer.QuotedGrammar

namespace HitSimple.Lexer
open Literal (Spelling)

section
variable {quote : Char} {kind : QuotedKind}

/-- The lexer reads a legal piece as one step of its loop. -/
theorem scanQuotedBody_piece {piece : Piece} {behind : Spelling}
    (legal : piece.Legal quote behind) (hasContent : Bool) :
    scanQuotedBody quote kind hasContent (piece.spelling ++ behind) =
      (scanQuotedBody quote kind true behind).prepend piece.spelling := by
  cases piece with
  | plain ch =>
      obtain ⟨notQuote, notBackslash, notNewline⟩ := legal
      exact scanQuotedBody_plain kind hasContent behind notNewline notBackslash notQuote
  | simple escape =>
      have simple : isSimpleEscape escape = true := legal
      simp only [Piece.spelling, List.cons_append, List.nil_append]
      rw [scanQuotedBody.eq_def]
      dsimp only
      rw [if_neg (by decide), if_pos rfl]
      have others : escape ≠ '\n' ∧ escape ≠ 'x' ∧ escape ≠ 'u' ∧ isOctalDigit escape = false := by
        simp only [isSimpleEscape, decide_eq_true_eq, List.mem_cons, List.not_mem_nil,
          or_false] at simple
        rcases simple with rfl | rfl | rfl | rfl | rfl | rfl <;> decide
      rw [if_neg others.1, if_neg others.2.1, if_neg others.2.2.1, others.2.2.2,
        if_neg (by decide), if_pos simple]
  | hex high low =>
      obtain ⟨highDigit, lowDigit⟩ := legal
      simp only [Piece.spelling, List.cons_append, List.nil_append]
      rw [scanQuotedBody.eq_def]
      dsimp only
      rw [if_neg (by decide), if_pos rfl]
      rw [if_neg (by decide), if_pos rfl, highDigit, lowDigit]
      rfl
  | unicode first second third fourth =>
      obtain ⟨⟨firstDigit, secondDigit, thirdDigit, fourthDigit⟩, scalar⟩ := legal
      simp only [Piece.spelling, List.cons_append, List.nil_append]
      rw [scanQuotedBody.eq_def]
      dsimp only
      rw [if_neg (by decide), if_pos rfl]
      rw [if_neg (by decide), if_neg (by decide), if_pos rfl, firstDigit, secondDigit, thirdDigit,
        fourthDigit, isUnicodeSurrogateEscape_eq secondDigit thirdDigit fourthDigit, scalar]
      rfl
  | octal digits =>
      obtain ⟨nonempty, short, octal, maximal⟩ := legal
      obtain ⟨first, more, rfl⟩ := List.exists_cons_of_length_pos nonempty
      have firstOctal := octal first List.mem_cons_self
      have others : first ≠ '\n' ∧ first ≠ 'x' ∧ first ≠ 'u' := by
        refine ⟨?_, ?_, ?_⟩ <;> rintro rfl <;> exact absurd firstOctal (by decide)
      rw [Piece.spelling, List.cons_append, List.cons_append, scanQuotedBody.eq_def]
      dsimp only
      rw [if_neg (by decide), if_pos rfl, if_neg others.1, if_neg others.2.1, if_neg others.2.2,
        if_pos firstOctal]
      rcases more with _ | ⟨second, _ | ⟨third, _ | ⟨fourth, more⟩⟩⟩
      · cases behind with
        | nil => rfl
        | cons ch behind =>
            have stops := maximal (by simp) ch rfl
            simp [stops]
      · have secondOctal := octal second (by simp)
        cases behind with
        | nil => simp [secondOctal]
        | cons ch behind =>
            have stops := maximal (by simp) ch rfl
            simp [secondOctal, stops]
      · have secondOctal := octal second (by simp)
        have thirdOctal := octal third (by simp)
        simp [secondOctal, thirdOctal]
      · simp only [List.length_cons] at short
        omega

/-- Only the start of what follows matters to a piece, and no quote continues one. -/
theorem legal_append_iff (form : QuotedForm quote kind) {piece : Piece} {pieces : List Piece}
    {rest : Spelling} :
    piece.Legal quote (spell pieces ++ quote :: rest) ↔ piece.Legal quote (spell pieces) := by
  cases piece with
  | octal digits =>
      simp only [Piece.Legal]
      cases spelled : spell pieces with
      | nil => simp [form.not_octal]
      | cons ch others => simp
  | _ => rfl

theorem scanQuotedBody_end (form : QuotedForm quote kind) (hasContent : Bool) (rest : Spelling) :
    scanQuotedBody quote kind hasContent (quote :: rest) =
      ⟨if kind = .char && !hasContent then .invalid else kind, [quote], rest⟩ := by
  rw [scanQuotedBody.eq_def]
  dsimp only
  rw [if_neg form.ne_newline, if_neg form.ne_backslash, if_pos rfl]

/-- The lexer accepts the pieces up to the closing quote. -/
theorem scanQuotedBody_spell (form : QuotedForm quote kind) (rest : Spelling) (pieces : List Piece)
    (legal : LegalBody quote pieces) (hasContent : Bool)
    (content : kind = .char → hasContent = true ∨ pieces ≠ []) :
    scanQuotedBody quote kind hasContent (spell pieces ++ quote :: rest) =
      ⟨kind, spell pieces ++ [quote], rest⟩ := by
  induction pieces generalizing hasContent with
  | nil =>
      rw [spell_nil, List.nil_append, scanQuotedBody_end form, if_neg]
      · rfl
      · intro empty
        simp only [Bool.and_eq_true, decide_eq_true_eq, Bool.not_eq_true'] at empty
        rcases content empty.1 with present | present
        · rw [present] at empty
          exact absurd empty.2 (by decide)
        · exact absurd rfl present
  | cons piece pieces ih =>
      have behind : piece.Legal quote (spell pieces ++ quote :: rest) :=
        (legal_append_iff form).mpr legal.1
      rw [spell_cons, List.append_assoc, scanQuotedBody_piece behind,
        ih legal.2 true fun _ => .inl rfl]
      simp [QuotedToken.prepend]

/-- A literal the lexer accepts is made of legal pieces. -/
theorem pieces_of_scanQuotedBody (form : QuotedForm quote kind) (size : Nat) (text : Spelling)
    (bound : text.length < size) (hasContent : Bool)
    (accepted : (scanQuotedBody quote kind hasContent text).kind = kind) :
    ∃ pieces rest, LegalBody quote pieces ∧ text = spell pieces ++ quote :: rest ∧
      (kind = .char → hasContent = true ∨ pieces ≠ []) := by
  induction size generalizing text hasContent with
  | zero => cases bound
  | succ size ih =>
      have step : ∀ (piece : Piece) (tail : Spelling), text = piece.spelling ++ tail →
          tail.length < size → piece.Legal quote tail →
          (scanQuotedBody quote kind true tail).kind = kind →
          ∃ pieces rest, LegalBody quote pieces ∧ text = spell pieces ++ quote :: rest ∧
            (kind = .char → hasContent = true ∨ pieces ≠ []) := by
        intro piece tail split shorter legal more
        obtain ⟨pieces, rest, body, rfl, _⟩ := ih tail shorter true more
        refine ⟨piece :: pieces, rest, ⟨(legal_append_iff form).mp legal, body⟩, ?_,
          fun _ => .inr (List.cons_ne_nil _ _)⟩
        rw [split, spell_cons, List.append_assoc]
      have invalid : ∀ lexeme rest, (⟨.invalid, lexeme, rest⟩ : QuotedToken).kind ≠ kind :=
        fun _ _ same => form.ne_invalid same.symm
      cases text with
      | nil => exact absurd accepted (invalid _ _)
      | cons ch rest =>
          rw [List.length_cons] at bound
          rw [scanQuotedBody.eq_def] at accepted
          dsimp only at accepted
          split at accepted
          · exact absurd accepted (invalid _ _)
          rename_i notNewline
          split at accepted
          · rename_i backslash
            subst backslash
            split at accepted
            · exact absurd accepted (invalid _ _)
            rename_i escape rest
            rw [List.length_cons] at bound
            split at accepted
            · exact absurd accepted (invalid _ _)
            split at accepted
            · rename_i isHex
              subst isHex
              split at accepted
              · rename_i high low tail
                split at accepted
                · rename_i digits
                  rw [Bool.and_eq_true] at digits
                  simp only [List.length_cons] at bound
                  exact step (.hex high low) tail rfl (by omega) digits accepted
                · exact absurd accepted (invalid _ _)
              · exact absurd accepted (invalid _ _)
            split at accepted
            · rename_i isUnicode
              subst isUnicode
              split at accepted
              · rename_i first second third fourth tail
                split at accepted
                · rename_i digits
                  simp only [Bool.and_eq_true, Bool.not_eq_true'] at digits
                  obtain ⟨⟨⟨⟨firstDigit, secondDigit⟩, thirdDigit⟩, fourthDigit⟩, scalar⟩ := digits
                  rw [isUnicodeSurrogateEscape_eq secondDigit thirdDigit fourthDigit] at scalar
                  simp only [List.length_cons] at bound
                  exact step (.unicode first second third fourth) tail rfl (by omega)
                    ⟨⟨firstDigit, secondDigit, thirdDigit, fourthDigit⟩, scalar⟩ accepted
                · exact absurd accepted (invalid _ _)
              · exact absurd accepted (invalid _ _)
            split at accepted
            · rename_i escapeOctal
              split at accepted
              · rename_i second tail
                simp only [List.length_cons] at bound
                split at accepted
                · rename_i secondOctal
                  split at accepted
                  · rename_i third tail
                    simp only [List.length_cons] at bound
                    split at accepted
                    · rename_i thirdOctal
                      refine step (.octal [escape, second, third]) tail rfl (by omega) ?_ accepted
                      simp [Piece.Legal, escapeOctal, secondOctal, thirdOctal]
                    · rename_i thirdOther
                      refine step (.octal [escape, second]) (third :: tail) rfl (by simp; omega) ?_
                        accepted
                      simp [Piece.Legal, escapeOctal, secondOctal, thirdOther]
                  · refine step (.octal [escape, second]) [] rfl (by simp; omega) ?_ accepted
                    simp [Piece.Legal, escapeOctal, secondOctal]
                · rename_i secondOther
                  refine step (.octal [escape]) (second :: tail) rfl (by simp; omega) ?_ accepted
                  simp [Piece.Legal, escapeOctal, secondOther]
              · refine step (.octal [escape]) [] rfl (by simp at bound ⊢; omega) ?_ accepted
                simp [Piece.Legal, escapeOctal]
            split at accepted
            · rename_i simple
              exact step (.simple escape) rest rfl (by omega) simple accepted
            · exact absurd accepted (invalid _ _)
          rename_i notBackslash
          split at accepted
          · rename_i atQuote
            subst atQuote
            refine ⟨[], rest, trivial, rfl, fun char => .inl ?_⟩
            dsimp only at accepted
            split at accepted
            · exact absurd accepted.symm form.ne_invalid
            · rename_i content
              simpa [char] using content
          · rename_i notQuote
            exact step (.plain ch) rest rfl (by omega) ⟨notQuote, notBackslash, notNewline⟩ accepted

end

end HitSimple.Lexer

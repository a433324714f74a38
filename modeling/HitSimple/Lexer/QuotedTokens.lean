import HitSimple.Lexer.QuotedDecode

namespace HitSimple.Lexer
open Literal (Spelling)

section
variable {quote : Char}

theorem Closed.escape {escape : Char} {rest : Spelling}
    (closed : Closed quote ('\\' :: escape :: rest)) : Closed quote rest := by
  simpa only [Closed] using closed

theorem Closed.plain {ch : Char} {rest : Spelling} (other : '\\' ≠ ch)
    (closed : Closed quote (ch :: rest)) : ch ≠ quote ∧ Closed quote rest := by
  rw [Closed.eq_def] at closed
  split at closed
  · contradiction
  · rename_i same
    cases same
    exact absurd rfl other
  · rename_i same
    cases same
    exact closed

/-- Characters of an escape other than a backslash leave the rest as it was. -/
theorem Closed.drop {digits rest : Spelling} (digit : ∀ ch ∈ digits, isHexDigit ch = true)
    (closed : Closed quote (digits ++ rest)) : Closed quote rest := by
  induction digits with
  | nil => exact closed
  | cons ch digits ih =>
      have other : '\\' ≠ ch := by
        rintro rfl
        exact absurd (digit '\\' List.mem_cons_self) (by decide)
      exact ih (fun ch member => digit ch (List.mem_cons_of_mem _ member)) (closed.plain other).2

theorem isHexDigit_of_octal {ch : Char} (digit : isOctalDigit ch = true) :
    isHexDigit ch = true := by
  simp only [isOctalDigit, decide_eq_true_eq] at digit
  simp only [isHexDigit, isDigit, Bool.or_eq_true, decide_eq_true_eq]
  exact .inl (.inl ⟨digit.1, Char.le_trans digit.2 (show '7' ≤ '9' by decide)⟩)

def LegalSpelling (quote : Char) (text : Spelling) : Prop :=
  ∃ pieces, LegalBody quote pieces ∧ spell pieces = text

theorem LegalSpelling.cons {piece : Piece} {behind : Spelling} (legal : piece.Legal quote behind)
    (more : LegalSpelling quote behind) : LegalSpelling quote (piece.spelling ++ behind) := by
  obtain ⟨pieces, body, rfl⟩ := more
  exact ⟨piece :: pieces, ⟨legal, body⟩, rfl⟩

@[simp] theorem DecodeResult.prepend_error (result : DecodeResult) (bytes : List UInt8) :
    (result.prepend bytes).error = result.error := rfl

theorem error_of_decodeOctal {digits : Spelling} {behind : DecodeResult}
    (decoded : (decodeOctal digits behind).error = none) : behind.error = none := by
  unfold decodeOctal at decoded
  split at decoded
  · cases decoded
  · exact decoded

/-- A text whose rest behind a legal escape is made of legal pieces is so made. -/
theorem legalSpelling_escape {escape : Char} (digits tail : Spelling) (piece : Piece)
    (spelled : piece.spelling = '\\' :: escape :: digits) (legal : piece.Legal quote tail)
    (digit : ∀ ch ∈ digits, isHexDigit ch = true)
    (closed : Closed quote ('\\' :: escape :: (digits ++ tail)))
    (line : '\n' ∉ '\\' :: escape :: (digits ++ tail))
    (more : Closed quote tail → '\n' ∉ tail → LegalSpelling quote tail) :
    LegalSpelling quote ('\\' :: escape :: (digits ++ tail)) := by
  have whole : '\\' :: escape :: (digits ++ tail) = piece.spelling ++ tail := by
    rw [spelled]
    rfl
  rw [whole]
  apply LegalSpelling.cons legal
  apply more (closed.escape.drop digit)
  intro newline
  apply line
  simp [newline]

/-- A closed text on one line that decodes is made of legal pieces. -/
theorem legalSpelling_of_decodeBody (text : Spelling) (closed : Closed quote text)
    (line : '\n' ∉ text) (decoded : (decodeBody text).error = none) :
    LegalSpelling quote text := by
  fun_induction decodeBody text with
  | case1 => exact ⟨[], trivial, rfl⟩
  | case2 ch rest plain ih =>
      obtain ⟨notQuote, closed⟩ := closed.plain (Ne.symm plain)
      rw [List.mem_cons, not_or] at line
      have legal : (Piece.plain ch).Legal quote rest := ⟨notQuote, plain, Ne.symm line.1⟩
      exact LegalSpelling.cons legal (ih closed line.2 decoded)
  | case4 ch backslash escape rest value simple ih =>
      obtain rfl : ch = '\\' := not_not.mp backslash
      have legal : isSimpleEscape escape = true := by
        rw [← simpleValue_isSome, simple]
        rfl
      exact legalSpelling_escape [] _ (.simple escape) rfl legal (by simp) closed line
        fun closed line => ih closed line decoded
  | case6 ch backslash high low tail digits _ ih =>
      obtain rfl : ch = '\\' := not_not.mp backslash
      have both : isHexDigit high = true ∧ isHexDigit low = true := by
        simpa using digits
      exact legalSpelling_escape [high, low] _ (.hex high low) rfl both
        (by simp [both]) closed line fun closed line => ih closed line decoded
  | case10 ch backslash first second third fourth tail digits scalar _ _ ih =>
      obtain rfl : ch = '\\' := not_not.mp backslash
      simp only [Bool.or_eq_true, Bool.not_eq_true', not_or, Bool.not_eq_false] at digits
      obtain ⟨⟨⟨firstDigit, secondDigit⟩, thirdDigit⟩, fourthDigit⟩ := digits
      rw [unicodeValue_eq secondDigit thirdDigit fourthDigit, Bool.not_eq_true] at scalar
      exact legalSpelling_escape [first, second, third, fourth] _
        (.unicode first second third fourth) rfl
        ⟨⟨firstDigit, secondDigit, thirdDigit, fourthDigit⟩, scalar⟩
        (by simp [firstDigit, secondDigit, thirdDigit, fourthDigit]) closed line
        fun closed line => ih closed line decoded
  | case12 ch backslash escape _ _ _ octal second secondOctal third tail thirdOctal ih =>
      obtain rfl : ch = '\\' := not_not.mp backslash
      exact legalSpelling_escape [second, third] _ (.octal [escape, second, third]) rfl
        (by simp [Piece.Legal, octal, secondOctal, thirdOctal])
        (by simp [isHexDigit_of_octal secondOctal, isHexDigit_of_octal thirdOctal]) closed line
        fun closed line => ih closed line (error_of_decodeOctal decoded)
  | case13 ch backslash escape _ _ _ octal second secondOctal third tail thirdOther ih =>
      obtain rfl : ch = '\\' := not_not.mp backslash
      exact legalSpelling_escape [second] _ (.octal [escape, second]) rfl
        (by simpa [Piece.Legal, octal, secondOctal] using thirdOther)
        (by simp [isHexDigit_of_octal secondOctal]) closed line
        fun closed line => ih closed line (error_of_decodeOctal decoded)
  | case14 ch backslash escape _ _ _ octal second secondOctal ih =>
      obtain rfl : ch = '\\' := not_not.mp backslash
      exact legalSpelling_escape [second] [] (.octal [escape, second]) rfl
        (by simp [Piece.Legal, octal, secondOctal])
        (by simp [isHexDigit_of_octal secondOctal]) closed line
        fun _ _ => ⟨[], trivial, rfl⟩
  | case15 ch backslash escape _ _ _ octal second tail secondOther ih =>
      obtain rfl : ch = '\\' := not_not.mp backslash
      exact legalSpelling_escape [] _ (.octal [escape]) rfl
        (by simpa [Piece.Legal, octal] using secondOther) (by simp) closed line
        fun closed line => ih closed line (error_of_decodeOctal decoded)
  | case16 ch backslash escape _ _ _ octal ih =>
      obtain rfl : ch = '\\' := not_not.mp backslash
      exact legalSpelling_escape [] [] (.octal [escape]) rfl
        (by simp [Piece.Legal, octal]) (by simp) closed line fun _ _ => ⟨[], trivial, rfl⟩
  | _ => cases decoded

end

section
variable {quote : Char} {kind : QuotedKind}

/-- What the lexer accepts the decoder reads as the Standard's bytes, and a closed text on one line
that the decoder reads is one token. -/
def Agree (quote : Char) (kind : QuotedKind) (text : Spelling) : Prop :=
  ((scanQuotedLiteral quote kind text).kind = kind →
    ∃ body bytes, (scanQuotedLiteral quote kind text).lexeme = quote :: (body ++ [quote]) ∧
      text = quote :: (body ++ quote :: (scanQuotedLiteral quote kind text).rest) ∧
      Spells quote body bytes ∧
      decodeQuotedLiteral (scanQuotedLiteral quote kind text).lexeme quote = ⟨bytes, none⟩) ∧
  ∀ body rest, text = quote :: (body ++ quote :: rest) → Closed quote body → '\n' ∉ body →
    (kind = .char → body ≠ []) →
    (decodeQuotedLiteral (quote :: (body ++ [quote])) quote).error = none →
    scanQuotedLiteral quote kind text = ⟨kind, quote :: (body ++ [quote]), rest⟩

/-- No literal at the start of the text holds an octal escape above the range of a byte. -/
def NarrowOctals (quote : Char) (kind : QuotedKind) (text : Spelling) : Prop :=
  ∀ pieces rest, LegalBody quote pieces → (kind = .char → pieces ≠ []) →
    text = quote :: (spell pieces ++ quote :: rest) → ∀ piece ∈ pieces, ¬piece.IsWide

theorem decodeQuotedLiteral_quoted (quote : Char) (body : Spelling) :
    decodeQuotedLiteral (quote :: (body ++ [quote])) quote = decodeBody body := by
  rw [decodeQuotedLiteral, if_pos]
  · simp
  · refine ⟨by simp, rfl, ?_⟩
    rw [← List.cons_append, List.getLast?_concat]

theorem scanQuotedLiteral_spell (form : QuotedForm quote kind) (rest : Spelling)
    (pieces : List Piece) (legal : LegalBody quote pieces)
    (content : kind = .char → pieces ≠ []) :
    scanQuotedLiteral quote kind (quote :: (spell pieces ++ quote :: rest)) =
      ⟨kind, quote :: (spell pieces ++ [quote]), rest⟩ := by
  rw [scanQuotedLiteral, List.tail_cons,
    scanQuotedBody_spell form rest pieces legal false fun char => .inr (content char)]
  rfl

theorem agree_iff (form : QuotedForm quote kind) (text : Spelling) :
    Agree quote kind (quote :: text) ↔ NarrowOctals quote kind (quote :: text) := by
  constructor
  · intro agree pieces rest legal content split
    rw [split] at agree
    have scanned := scanQuotedLiteral_spell form rest pieces legal content
    rw [Agree, scanned] at agree
    obtain ⟨body, bytes, lexeme, _, _, decoded⟩ := agree.1 rfl
    rw [decodeQuotedLiteral_quoted] at decoded
    apply narrow_of_decodeBody pieces legal
    rw [decoded]
  · intro narrow
    constructor
    · intro accepted
      obtain ⟨pieces, rest, legal, split, content⟩ := pieces_of_scanQuotedBody form
        (text.length + 1) text (Nat.lt_succ_self _) false accepted
      have content : kind = .char → pieces ≠ [] := fun char =>
        (content char).resolve_left (by decide)
      have narrow := narrow pieces rest legal content (congrArg (quote :: ·) split)
      refine ⟨spell pieces, pieces.flatMap Piece.bytes, ?_⟩
      rw [split, scanQuotedLiteral_spell form rest pieces legal content, decodeQuotedLiteral_quoted]
      exact ⟨rfl, rfl, ⟨pieces, legal, narrow, rfl, rfl⟩, decodeBody_spell pieces legal narrow⟩
    · intro body rest split closed line content decoded
      rw [decodeQuotedLiteral_quoted] at decoded
      obtain ⟨pieces, legal, rfl⟩ := legalSpelling_of_decodeBody body closed line decoded
      rw [split]
      apply scanQuotedLiteral_spell form rest pieces legal
      rintro char rfl
      exact content char rfl

end

/-- The lexer and the decoder agree on exactly the texts without a wide octal escape. -/
theorem quotedLiterals_agree_iff (text : Spelling) :
    (Agree '\'' .char ('\'' :: text) ↔ NarrowOctals '\'' .char ('\'' :: text)) ∧
      (Agree '"' .string ('"' :: text) ↔ NarrowOctals '"' .string ('"' :: text)) :=
  ⟨agree_iff .char text, agree_iff .string text⟩

/-- The lexer accepts `"\400"`, which the decoder rejects. -/
theorem wideOctal_accepted :
    scanString "\"\\400\"".toList = ⟨.string, "\"\\400\"".toList, []⟩ ∧
      (decodeStringLiteral "\"\\400\"".toList).error = some "octal escape is out of range" ∧
      ¬Agree '"' .string "\"\\400\"".toList := by
  have scanned : scanString "\"\\400\"".toList = ⟨.string, "\"\\400\"".toList, []⟩ := by
    decide +kernel
  have rejected : (decodeStringLiteral "\"\\400\"".toList).error =
      some "octal escape is out of range" := by
    decide +kernel
  refine ⟨scanned, rejected, fun agree => ?_⟩
  rw [scanString] at scanned
  rw [Agree, scanned] at agree
  obtain ⟨_, _, _, _, _, decoded⟩ := agree.1 rfl
  rw [decodeStringLiteral, decoded] at rejected
  cases rejected

end HitSimple.Lexer

import HitSimple.Lexer.QuotedScan

namespace HitSimple.Lexer
open Literal (Spelling)

/-- The code's encoder is the UTF-8 encoding of a scalar value of four hexadecimal digits. -/
theorem appendUtf8_eq {codePoint : Nat} (small : codePoint < 0x10000)
    (scalar : isSurrogate codePoint = false) :
    appendUtf8 codePoint = String.utf8EncodeChar (Char.ofNat codePoint) := by
  have valid : codePoint.isValidChar := by
    simp only [isSurrogate, decide_eq_false_iff_not] at scalar
    unfold Nat.isValidChar
    omega
  have value : (Char.ofNat codePoint).val.toNat = codePoint := by
    rw [Char.ofNat, dif_pos valid]
    rfl
  have low : ∀ x : Nat, x &&& 0x3f = x % 2 ^ 6 := fun x => Nat.and_two_pow_sub_one_eq_mod x 6
  have lead2 : ∀ x : Nat, x < 2 ^ 6 → 0xc0 ||| x = 0xc0 + x := fun x bound =>
    (Nat.two_pow_add_eq_or_of_lt (i := 6) bound 3).symm
  have lead3 : ∀ x : Nat, x < 2 ^ 5 → 0xe0 ||| x = 0xe0 + x := fun x bound =>
    (Nat.two_pow_add_eq_or_of_lt (i := 5) bound 7).symm
  have continuation : ∀ x : Nat, 0x80 ||| x % 2 ^ 6 = 0x80 + x % 2 ^ 6 := fun x =>
    (Nat.two_pow_add_eq_or_of_lt (i := 6) (Nat.mod_lt x (by decide)) 2).symm
  unfold appendUtf8 String.utf8EncodeChar
  rw [value]
  dsimp only
  split
  · rfl
  split
  · rename_i two
    rw [low, continuation, Nat.shiftRight_eq_div_pow, lead2 _ (by omega)]
    simp only [List.cons.injEq, and_true]
    exact ⟨congrArg UInt8.ofNat (by omega), congrArg UInt8.ofNat (by omega)⟩
  · rw [if_pos (by omega), low, low, continuation, continuation, Nat.shiftRight_eq_div_pow,
      Nat.shiftRight_eq_div_pow, lead3 _ (by omega)]
    simp only [List.cons.injEq, and_true]
    exact ⟨congrArg UInt8.ofNat (by omega), congrArg UInt8.ofNat (by omega),
      congrArg UInt8.ofNat (by omega)⟩

section
variable {quote : Char}

theorem simpleValue_isSome {escape : Char} :
    (simpleValue escape).isSome = isSimpleEscape escape := by
  unfold simpleValue isSimpleEscape
  split <;> simp_all

theorem simpleValue_eq_none {escape : Char} (other : isSimpleEscape escape = false) :
    simpleValue escape = none := by
  rw [← Option.not_isSome_iff_eq_none, simpleValue_isSome, other]
  decide

theorem codePoint_lt {first second third fourth : Char} (firstDigit : isHexDigit first = true)
    (secondDigit : isHexDigit second = true) (thirdDigit : isHexDigit third = true)
    (fourthDigit : isHexDigit fourth = true) :
    Piece.codePoint first second third fourth < 0x10000 := by
  have firstValue := hexValue_lt firstDigit
  have secondValue := hexValue_lt secondDigit
  have thirdValue := hexValue_lt thirdDigit
  have fourthValue := hexValue_lt fourthDigit
  simp only [Piece.codePoint, Nat.ofDigits_cons, Nat.ofDigits_nil]
  omega

/-- The decoder reads a legal octal escape as its value, where that is a byte. -/
theorem decodeBody_octal {digits behind : Spelling}
    (legal : (Piece.octal digits).Legal quote behind) :
    decodeBody ('\\' :: digits ++ behind) = decodeOctal digits (decodeBody behind) := by
  obtain ⟨nonempty, short, octal, maximal⟩ := legal
  obtain ⟨first, more, rfl⟩ := List.exists_cons_of_length_pos nonempty
  have firstOctal := octal first List.mem_cons_self
  have others : isSimpleEscape first = false ∧ first ≠ 'x' ∧ first ≠ 'u' := by
    refine ⟨?_, ?_, ?_⟩
    · by_contra simple
      simp only [isSimpleEscape, Bool.not_eq_false, decide_eq_true_eq, List.mem_cons,
        List.not_mem_nil, or_false] at simple
      rcases simple with rfl | rfl | rfl | rfl | rfl | rfl <;> exact absurd firstOctal (by decide)
    · rintro rfl
      exact absurd firstOctal (by decide)
    · rintro rfl
      exact absurd firstOctal (by decide)
  rw [List.cons_append, List.cons_append, decodeBody.eq_def]
  dsimp only
  rw [if_neg (by decide), simpleValue_eq_none others.1]
  dsimp only
  rw [if_neg others.2.1, if_neg others.2.2, if_pos firstOctal]
  rcases more with _ | ⟨second, _ | ⟨third, _ | ⟨fourth, more⟩⟩⟩
  · cases behind with
    | nil => rfl
    | cons ch behind =>
        have stops := maximal (by simp) ch rfl
        simp [stops]
  · have secondOctal := octal second (by simp)
    cases behind with
    | nil => simp [secondOctal]
    | cons ch behind =>
        have stops := maximal (by simp) ch rfl
        simp [secondOctal, stops]
  · have secondOctal := octal second (by simp)
    have thirdOctal := octal third (by simp)
    simp [secondOctal, thirdOctal]
  · simp only [List.length_cons] at short
    omega

/-- The decoder reads a legal piece as the bytes of the escape table. -/
theorem decodeBody_piece {piece : Piece} {behind : Spelling} (legal : piece.Legal quote behind)
    (narrow : ¬piece.IsWide) :
    decodeBody (piece.spelling ++ behind) = (decodeBody behind).prepend piece.bytes := by
  cases piece with
  | plain ch =>
      exact decodeBody_plain behind legal.2.1
  | simple escape =>
      have some' : (simpleValue escape).isSome = true := by
        rw [simpleValue_isSome]
        exact legal
      obtain ⟨value, decoded⟩ := Option.isSome_iff_exists.mp some'
      simp only [Piece.spelling, List.cons_append, List.nil_append]
      rw [decodeBody.eq_def]
      dsimp only
      rw [if_neg (by decide), decoded, Piece.bytes, decoded]
      rfl
  | hex high low =>
      obtain ⟨highDigit, lowDigit⟩ := legal
      simp only [Piece.spelling, List.cons_append, List.nil_append]
      rw [decodeBody.eq_def]
      dsimp only
      rw [if_neg (by decide), simpleValue_eq_none (by decide)]
      dsimp only
      rw [if_pos rfl, highDigit, lowDigit, shiftLeft_or (hexValue_lt lowDigit), Piece.bytes]
      simp only [Nat.ofDigits_cons, Nat.ofDigits_nil]
      rw [if_neg (by decide)]
      congr 3
      omega
  | unicode first second third fourth =>
      obtain ⟨⟨firstDigit, secondDigit, thirdDigit, fourthDigit⟩, scalar⟩ := legal
      simp only [Piece.spelling, List.cons_append, List.nil_append]
      rw [decodeBody.eq_def]
      dsimp only
      rw [if_neg (by decide), simpleValue_eq_none (by decide)]
      dsimp only
      rw [if_neg (by decide), if_pos rfl, firstDigit, secondDigit, thirdDigit, fourthDigit,
        if_neg (by decide), unicodeValue_eq secondDigit thirdDigit fourthDigit, scalar,
        if_neg (by decide), Piece.bytes,
        appendUtf8_eq (codePoint_lt firstDigit secondDigit thirdDigit fourthDigit) scalar]
  | octal digits =>
      have value := octalValue_eq legal.2.2.1
      have fits : ¬0o377 < octalValue digits := by
        rw [value]
        exact narrow
      rw [Piece.spelling, decodeBody_octal legal, decodeOctal, if_neg fits, value]
      rfl

theorem decodeBody_wide {piece : Piece} {behind : Spelling} (legal : piece.Legal quote behind)
    (wide : piece.IsWide) :
    decodeBody (piece.spelling ++ behind) = .fail "octal escape is out of range" := by
  cases piece with
  | octal digits =>
      have excess : 0o377 < octalValue digits := by
        rw [octalValue_eq legal.2.2.1]
        exact wide
      rw [Piece.spelling, decodeBody_octal legal, decodeOctal, if_pos excess]
  | _ => exact wide.elim

theorem decodeBody_spell (pieces : List Piece) (legal : LegalBody quote pieces)
    (narrow : ∀ piece ∈ pieces, ¬piece.IsWide) :
    decodeBody (spell pieces) = ⟨pieces.flatMap Piece.bytes, none⟩ := by
  induction pieces with
  | nil => rfl
  | cons piece pieces ih =>
      rw [spell_cons, decodeBody_piece legal.1 (narrow piece List.mem_cons_self),
        ih legal.2 fun other member => narrow other (List.mem_cons_of_mem _ member)]
      rfl

/-- Pieces that decode without an error hold no wide octal escape. -/
theorem narrow_of_decodeBody (pieces : List Piece) (legal : LegalBody quote pieces)
    (decoded : (decodeBody (spell pieces)).error = none) : ∀ piece ∈ pieces, ¬piece.IsWide := by
  induction pieces with
  | nil => exact fun _ member => absurd member List.not_mem_nil
  | cons piece pieces ih =>
      by_cases wide : piece.IsWide
      · rw [spell_cons, decodeBody_wide legal.1 wide] at decoded
        cases decoded
      · rw [spell_cons, decodeBody_piece legal.1 wide] at decoded
        intro other member
        rcases List.mem_cons.mp member with rfl | member
        · exact wide
        · exact ih legal.2 decoded other member

end

end HitSimple.Lexer

import HitSimple.CCompat.Parser

namespace HitSimple.CCompat

section
variable {typedefNames : List String}

theorem lookAhead_one (tokens : List Token) : lookAhead tokens 1 = current tokens.tail := by
  cases tokens <;> rfl

theorem drop_two (tokens : List Token) : tokens.drop 2 = tokens.tail.tail := by
  rcases tokens with _ | ⟨_, _ | ⟨_, _⟩⟩ <;> rfl

theorem readQualifiers_rest (tokens : List Token) :
    (readQualifiers tokens).2.2 =
      tokens.dropWhile fun token => token.kind = .identifier ∧ isQualifier token.lexeme := by
  induction tokens with
  | nil => rfl
  | cons token rest ih =>
      rw [readQualifiers]
      split
      · rename_i qualifier
        rw [List.dropWhile_cons_of_pos (by simpa using qualifier), ← ih]
        obtain ⟨isConst, isVolatile, after⟩ := readQualifiers rest
        dsimp only
        split <;> rfl
      · rename_i other
        rw [List.dropWhile_cons_of_neg (by simpa using other)]

/-- The look-ahead behind the first word of a type. -/
def wordLooksLikeType (typedefNames : List String) (word : String) (rest : List Token) : Bool :=
  if word = "struct" then
    if (current rest).kind ≠ .identifier then false else closesCast rest.tail
  else if word = "signed" then
    if (current rest).lexeme ≠ "char" then false else closesCast rest.tail
  else if word = "unsigned" then
    if (current rest).lexeme ∉ ["char", "short", "int", "long"] then false
    else
      let after := if (current rest).lexeme = "long" then skipWord "long" rest.tail else rest.tail
      closesCast (if (current rest).lexeme = "long" ∨ (current rest).lexeme = "short" then
        skipWord "int" after else after)
  else if word ∈ ["char", "short", "int", "long", "float", "double", "void"] ∨
      word ∈ typedefNames then
    let after := if word = "long" then skipWord "long" rest else rest
    closesCast (if word = "long" ∨ word = "short" then skipWord "int" after else after)
  else false

theorem looksLikeCast_eq (tokens : List Token) :
    looksLikeCast typedefNames tokens =
      (decide ((current tokens).kind = .lparen) &&
        (decide ((current (readQualifiers tokens.tail).2.2).kind = .identifier) &&
          wordLooksLikeType typedefNames (current (readQualifiers tokens.tail).2.2).lexeme
            (readQualifiers tokens.tail).2.2.tail)) := by
  rw [readQualifiers_rest]
  unfold looksLikeCast wordLooksLikeType
  dsimp only
  generalize (tokens.tail.dropWhile _) = rest
  rw [lookAhead_one]
  rw [drop_two]
  by_cases paren : (current tokens).kind = .lparen
  · by_cases word : (current rest).kind = .identifier
    · simp [paren, word]
    · simp [paren, word]
  · simp [paren]

/-- The unsigned integer types of the look-ahead are the ones of the type parser. -/
theorem unsignedLooksLikeType (rest : List Token) :
    wordLooksLikeType typedefNames "unsigned" rest = true ↔
      ∃ type after, readUnsigned rest = .ok (type, after) ∧ closesCast after = true := by
  unfold wordLooksLikeType readUnsigned
  simp only [show ("unsigned" : String) ≠ "struct" by decide,
    show ("unsigned" : String) ≠ "signed" by decide, if_false, if_true]
  by_cases char : (current rest).lexeme = "char"
  · simp [char]
  by_cases short : (current rest).lexeme = "short"
  · simp [short]
  by_cases int : (current rest).lexeme = "int"
  · simp [int]
  by_cases long : (current rest).lexeme = "long"
  · by_cases again : (current rest.tail).lexeme = "long"
    · simp [long, again, skipWord]
    · simp [long, again, skipWord]
  · simp [char, short, int, long]

theorem readUnsigned_ne {rest : List Token} {pair : BaseType × List Token}
    (found : readUnsigned rest = .ok pair) : pair.1 ≠ .typedefName := by
  unfold readUnsigned at found
  split_ifs at found <;>
  · cases found
    exact nofun

theorem wordLooksLikeType_iff (word : String) (rest : List Token) :
    wordLooksLikeType typedefNames word rest = true ↔
      ∃ base name after, readBase word rest = .ok (base, name, after) ∧ closesCast after = true ∧
        (base = .typedefName → name ∈ typedefNames) := by
  by_cases isUnsigned : word = "unsigned"
  · subst isUnsigned
    rw [unsignedLooksLikeType]
    have read : readBase "unsigned" rest =
        (readUnsigned rest).map fun read => (read.1, "", read.2) := rfl
    rw [read]
    cases found : readUnsigned rest with
    | error message => simp [Except.map]
    | ok pair =>
        obtain ⟨type, after⟩ := pair
        have known : type ≠ .typedefName := readUnsigned_ne found
        simp [Except.map, known]
  by_cases isStruct : word = "struct"
  · subst isStruct
    by_cases name : (current rest).kind = .identifier <;> simp [wordLooksLikeType, readBase, name]
  by_cases isSigned : word = "signed"
  · subst isSigned
    by_cases char : (current rest).lexeme = "char" <;> simp [wordLooksLikeType, readBase, char]
  by_cases isLong : word = "long"
  · subst isLong
    by_cases again : (current rest).lexeme = "long" <;>
      simp [wordLooksLikeType, readBase, skipWord, again]
  by_cases isShort : word = "short"
  · subst isShort
    simp [wordLooksLikeType, readBase]
  by_cases isBuiltin : word ∈ ["char", "int", "float", "double", "void"]
  · simp only [List.mem_cons, List.not_mem_nil, or_false] at isBuiltin
    rcases isBuiltin with rfl | rfl | rfl | rfl | rfl <;> simp [wordLooksLikeType, readBase]
  · simp only [List.mem_cons, List.not_mem_nil, or_false, not_or] at isBuiltin
    obtain ⟨isChar, isInt, isFloat, isDouble, isVoid⟩ := isBuiltin
    have named : readBase word rest = .ok (.typedefName, word, rest) := by
      unfold readBase
      simp only [isUnsigned, isStruct, isSigned, isLong, isShort, isChar, isInt, isFloat, isDouble,
        isVoid, if_false]
    rw [named]
    simp [wordLooksLikeType, isUnsigned, isStruct, isSigned, isLong, isShort, isChar, isInt,
      isFloat, isDouble, isVoid, and_comm]

/-- The look-ahead sees a cast exactly where a type parses that names no unknown alias, with `*`
tokens and a closing parenthesis behind it. -/
theorem looksLikeCast_iff (tokens : List Token) :
    looksLikeCast typedefNames tokens = true ↔
      (current tokens).kind = .lparen ∧ ∃ type after, parseType tokens.tail = .ok (type, after) ∧
        (current (after.dropWhile isStar)).kind = .rparen ∧
        (type.base = .typedefName → type.name ∈ typedefNames) := by
  rw [looksLikeCast_eq, Bool.and_eq_true, Bool.and_eq_true, decide_eq_true_eq, decide_eq_true_eq,
    wordLooksLikeType_iff]
  refine and_congr_right fun _ => ?_
  unfold parseType
  generalize readQualifiers tokens.tail = qualifiers
  obtain ⟨isConst, isVolatile, rest⟩ := qualifiers
  dsimp only
  split
  · rename_i other
    exact ⟨fun both => absurd both.1 other, fun ⟨_, _, found, _⟩ => by cases found⟩
  · rename_i word
    rw [not_not] at word
    constructor
    · rintro ⟨_, base, name, after, read, closes, known⟩
      refine ⟨⟨base, name, isConst, isVolatile⟩, after, ?_, of_decide_eq_true closes, known⟩
      rw [read]
      rfl
    · rintro ⟨type, after, found, closes, known⟩
      refine ⟨word, ?_⟩
      cases read : readBase (current rest).lexeme rest.tail with
      | error message =>
          rw [read] at found
          cases found
      | ok triple =>
          obtain ⟨base, name, behind⟩ := triple
          rw [read] at found
          cases found
          exact ⟨base, name, behind, rfl, decide_eq_true closes, known⟩

end

end HitSimple.CCompat

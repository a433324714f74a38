import HitSimple.Lexer.Quoted

namespace HitSimple.Lexer
open Literal (Spelling)

inductive TokenKind where
  | endOfText
  | invalid
  | newline
  | identifier
  | integer
  | float
  | char
  | string
  | keywordFunc
  | keywordNew
  | keywordStatic
  | keywordExtern
  | keywordReturn
  | keywordIf
  | keywordElse
  | keywordFor
  | keywordWhile
  | keywordBreak
  | keywordContinue
  | keywordGoto
  | keywordTry
  | keywordCatch
  | keywordThrow
  | keywordTrue
  | keywordFalse
  | keywordStruct
  | keywordTemplate
  | keywordImpl
  | keywordOp
  | keywordAs
  | keywordSelf
  | keywordMut
  | keywordSet
  | keywordNone
  | keywordSizeof
  | keywordSwitch
  | keywordCase
  | keywordDefault
  | keywordDo
  | keywordTypedef
  | keywordEnum
  | keywordUnion
  | keywordConst
  | keywordVolatile
  | typedAssignOperator
  | typedAdditiveOperator
  | typedMultiplicativeOperator
  | typedShiftOperator
  | typedBitwiseOperator
  | typedPowerOperator
  | equal
  | plus
  | minus
  | star
  | slash
  | percent
  | power
  | less
  | greater
  | lessEqual
  | greaterEqual
  | equalEqual
  | bangEqual
  | bang
  | ampersand
  | pipe
  | caret
  | tilde
  | ampersandAmpersand
  | pipePipe
  | shiftLeft
  | shiftRight
  | ampersandEqual
  | plusPlus
  | minusMinus
  | question
  | arrow
  | dot
  | semicolon
  | templateMark
  | colon
  | preprocessorPrefix
  | lparen
  | rparen
  | lbrace
  | rbrace
  | lbracket
  | rbracket
  | comma
  deriving DecidableEq, Repr

/-- What one turn of `next` reads; a turn without a kind skips its text. -/
structure Turn where
  kind : Option TokenKind
  lexeme : Spelling
  rest : Spelling
  deriving DecidableEq

def Turn.token (kind : TokenKind) (lexeme rest : Spelling) : Turn :=
  ⟨some kind, lexeme, rest⟩

def Turn.skip (lexeme rest : Spelling) : Turn :=
  ⟨none, lexeme, rest⟩

def isSpace (ch : Char) : Bool :=
  ch ∈ [' ', '\t', '\r', '\x0c', '\x0b']

def isIdentStart (ch : Char) : Bool :=
  isAlpha ch || ch = '_'

def NumberKind.tokenKind : NumberKind → TokenKind
  | integer => .integer
  | float => .float
  | invalid => .invalid

def NumberToken.turn (token : NumberToken) : Turn :=
  .token token.kind.tokenKind token.lexeme token.rest

def QuotedKind.tokenKind : QuotedKind → TokenKind
  | string => .string
  | char => .char
  | invalid => .invalid

def QuotedToken.turn (token : QuotedToken) : Turn :=
  .token token.kind.tokenKind token.lexeme token.rest

/-- The text of a block comment behind its opening, up to its end, and the text behind it. -/
def closeComment : Spelling → Option (Spelling × Spelling)
  | [] => none
  | '*' :: '/' :: rest => some (['*', '/'], rest)
  | ch :: rest => (closeComment rest).map fun (comment, rest) => (ch :: comment, rest)

/-- Behind the slash, where a comment starts. -/
def scanComment (slash : Char) : Spelling → Turn
  | '*' :: rest =>
      match closeComment rest with
      | some (comment, rest) => .skip (slash :: '*' :: comment) rest
      | none => .token .invalid (slash :: '*' :: rest) []
  | rest => .skip (slash :: rest.takeWhile (· ≠ '\n')) (rest.dropWhile (· ≠ '\n'))

def startsComment (rest : Spelling) : Bool :=
  rest.head? = some '/' ∨ rest.head? = some '*'

def isLineSpace (ch : Char) : Bool :=
  isSpace ch || ch = '\n'

def startsElseKeyword (text : Spelling) : Bool :=
  text.take 4 = ['e', 'l', 's', 'e'] ∧ ((text.drop 4).head?.map isIdentContinue).getD false = false

/-- A line break is skipped before `else`, with the blank text between them. -/
def scanNewline (newline : Char) (rest : Spelling) : Turn :=
  if startsElseKeyword (rest.dropWhile isLineSpace) then
    .skip (newline :: rest.takeWhile isLineSpace) (rest.dropWhile isLineSpace)
  else .token .newline [newline] rest

def keywords : List (String × TokenKind) :=
  [("func", .keywordFunc), ("new", .keywordNew), ("static", .keywordStatic),
    ("extern", .keywordExtern), ("return", .keywordReturn), ("if", .keywordIf),
    ("else", .keywordElse), ("for", .keywordFor), ("while", .keywordWhile),
    ("break", .keywordBreak), ("continue", .keywordContinue), ("goto", .keywordGoto),
    ("try", .keywordTry), ("catch", .keywordCatch), ("throw", .keywordThrow),
    ("true", .keywordTrue), ("false", .keywordFalse), ("struct", .keywordStruct),
    ("template", .keywordTemplate), ("impl", .keywordImpl), ("op", .keywordOp),
    ("as", .keywordAs), ("self", .keywordSelf), ("mut", .keywordMut), ("set", .keywordSet),
    ("none", .keywordNone), ("sizeof", .keywordSizeof), ("switch", .keywordSwitch),
    ("case", .keywordCase), ("default", .keywordDefault), ("do", .keywordDo),
    ("typedef", .keywordTypedef), ("enum", .keywordEnum), ("union", .keywordUnion),
    ("const", .keywordConst), ("volatile", .keywordVolatile)]

def wordKind (word : String) : TokenKind :=
  (keywords.lookup word).getD .identifier

def scanWord (text : Spelling) : Turn :=
  .token (wordKind (String.ofList (text.takeWhile isIdentContinue)))
    (text.takeWhile isIdentContinue) (text.dropWhile isIdentContinue)

/-- The longest match of an operator with an optional equals sign. -/
def withEqual (operator : Spelling) : Spelling → Spelling × Spelling
  | '=' :: rest => (operator ++ ['='], rest)
  | rest => (operator, rest)

/-- The part of a typed operator behind its letter. -/
def scanTypedSuffix (letter : Char) : Spelling → Option (Spelling × Spelling)
  | '=' :: rest => some (['='], rest)
  | '*' :: '*' :: rest =>
      if letter = 'd' ∨ letter = 'f' then some (withEqual ['*', '*'] rest) else none
  | '<' :: '<' :: rest => if letter = 'd' then some (withEqual ['<', '<'] rest) else none
  | '>' :: '>' :: rest => if letter = 'd' then some (withEqual ['>', '>'] rest) else none
  | ch :: rest =>
      if ch ∈ ['+', '-', '*', '/'] ∧ (letter = 'd' ∨ letter = 'f') then some (withEqual [ch] rest)
      else if ch ∈ ['%', '&', '|', '^'] ∧ letter = 'd' then some (withEqual [ch] rest)
      else none
  | [] => none

def classifyTypedOperator (lexeme : Spelling) : TokenKind :=
  match lexeme.reverse with
  | '=' :: _ => .typedAssignOperator
  | '<' :: _ | '>' :: _ => .typedShiftOperator
  | '&' :: _ | '|' :: _ | '^' :: _ => .typedBitwiseOperator
  | '+' :: _ | '-' :: _ => .typedAdditiveOperator
  | '*' :: '*' :: _ => .typedPowerOperator
  | '*' :: _ | '/' :: _ | '%' :: _ => .typedMultiplicativeOperator
  | _ => .invalid

/-- Behind a percent sign; only the letters `d` and `f` may have a width before them. -/
def scanPercent (percent : Char) (rest : Spelling) : Turn :=
  let digits := rest.takeWhile isDigit
  match rest.dropWhile isDigit with
  | letter :: behind =>
      if letter = 'd' ∨ letter = 'f' ∨ (digits = [] ∧ (letter = 's' ∨ letter = 'b')) then
        match scanTypedSuffix letter behind with
        | some (suffix, behind) =>
            let lexeme := percent :: (digits ++ letter :: suffix)
            .token (classifyTypedOperator lexeme) lexeme behind
        | none => .token .percent [percent] rest
      else .token .percent [percent] rest
  | [] => .token .percent [percent] rest

theorem scanPercent_answers (percent : Char) (rest : Spelling) :
    (scanPercent percent rest).kind ≠ none := by
  unfold scanPercent
  dsimp only
  split
  · split
    · split <;> exact Option.some_ne_none _
    · exact Option.some_ne_none _
  · exact Option.some_ne_none _

def isBlank (ch : Char) : Bool :=
  ch = ' ' ∨ ch = '\t'

/-- A semicolon between blanks and a word stands for a template. -/
def semicolonKind (previous : Option Char) (rest : Spelling) : TokenKind :=
  if (previous.map isBlank).getD false = true ∧
      ((rest.dropWhile isBlank).head?.map isIdentStart).getD false = true then .templateMark
  else .semicolon

def scanOperator (previous : Option Char) : Spelling → Turn
  | [] => .token .endOfText [] []
  | '=' :: '=' :: rest => .token .equalEqual ['=', '='] rest
  | '=' :: rest => .token .equal ['='] rest
  | '+' :: '+' :: rest => .token .plusPlus ['+', '+'] rest
  | '+' :: rest => .token .plus ['+'] rest
  | '-' :: '-' :: rest => .token .minusMinus ['-', '-'] rest
  | '-' :: '>' :: rest => .token .arrow ['-', '>'] rest
  | '-' :: rest => .token .minus ['-'] rest
  | '*' :: '*' :: rest => .token .power ['*', '*'] rest
  | '*' :: rest => .token .star ['*'] rest
  | '/' :: rest => .token .slash ['/'] rest
  | '<' :: '=' :: rest => .token .lessEqual ['<', '='] rest
  | '<' :: '<' :: rest => .token .shiftLeft ['<', '<'] rest
  | '<' :: rest => .token .less ['<'] rest
  | '>' :: '=' :: rest => .token .greaterEqual ['>', '='] rest
  | '>' :: '>' :: rest => .token .shiftRight ['>', '>'] rest
  | '>' :: rest => .token .greater ['>'] rest
  | '!' :: '=' :: rest => .token .bangEqual ['!', '='] rest
  | '!' :: rest => .token .bang ['!'] rest
  | '&' :: '&' :: rest => .token .ampersandAmpersand ['&', '&'] rest
  | '&' :: '=' :: rest => .token .ampersandEqual ['&', '='] rest
  | '&' :: rest => .token .ampersand ['&'] rest
  | '|' :: '|' :: rest => .token .pipePipe ['|', '|'] rest
  | '|' :: rest => .token .pipe ['|'] rest
  | '^' :: rest => .token .caret ['^'] rest
  | '~' :: rest => .token .tilde ['~'] rest
  | '?' :: rest => .token .question ['?'] rest
  | '.' :: rest => .token .dot ['.'] rest
  | ';' :: rest => .token (semicolonKind previous rest) [';'] rest
  | ':' :: rest => .token .colon [':'] rest
  | '$' :: rest => .token .preprocessorPrefix ['$'] rest
  | '(' :: rest => .token .lparen ['('] rest
  | ')' :: rest => .token .rparen [')'] rest
  | '{' :: rest => .token .lbrace ['{'] rest
  | '}' :: rest => .token .rbrace ['}'] rest
  | '[' :: rest => .token .lbracket ['['] rest
  | ']' :: rest => .token .rbracket [']'] rest
  | ',' :: rest => .token .comma [','] rest
  | ch :: rest => .token .invalid [ch] rest

theorem scanOperator_answers (previous : Option Char) (text : Spelling) :
    (scanOperator previous text).kind ≠ none := by
  fun_cases scanOperator previous text <;> exact Option.some_ne_none _

/-- One turn of the loop of `next`, before the end of the text. -/
def scanTurn (previous : Option Char) (ch : Char) (rest : Spelling) : Turn :=
  if ch = '"' then (scanString (ch :: rest)).turn
  else if ch = '\'' then (scanChar (ch :: rest)).turn
  else if startsNumber (ch :: rest) then (scanNumber (ch :: rest)).turn
  else if ch = '/' ∧ startsComment rest then scanComment ch rest
  else if isSpace ch then .skip (ch :: rest.takeWhile isSpace) (rest.dropWhile isSpace)
  else if ch = '\n' then scanNewline ch rest
  else if isIdentStart ch then scanWord (ch :: rest)
  else if ch = '%' then scanPercent ch rest
  else scanOperator previous (ch :: rest)

/-- A place in the text, as `advanceLocation` counts it. -/
structure Location where
  line : Nat
  column : Nat
  deriving DecidableEq, Repr

def Location.start : Location :=
  ⟨1, 1⟩

def Location.step (location : Location) (ch : Char) : Location :=
  if ch = '\n' then ⟨location.line + 1, 1⟩ else ⟨location.line, location.column + 1⟩

def Location.advance (location : Location) (text : Spelling) : Location :=
  text.foldl Location.step location

/-- A token with its end and the text behind it. -/
structure Token where
  kind : TokenKind
  lexeme : Spelling
  ends : Location
  rest : Spelling
  deriving DecidableEq

example : scanTurn none '%' "16d**=x".toList =
    .token .typedAssignOperator "%16d**=".toList "x".toList := by decide

end HitSimple.Lexer

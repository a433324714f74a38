import HitSimple.Lexer.Tokens

namespace HitSimple.ParserContext
open Literal (Spelling)
open Lexer

/-- The first loop of `questionStartsTernary`: the text from a place on. -/
def seek (line column : Nat) (current : Location) : Spelling → Spelling
  | [] => []
  | ch :: rest =>
      if current.line < line ∨ current.column < column then
        seek line column (current.step ch) rest
      else ch :: rest

def isInlineBlank (ch : Char) : Bool :=
  ch ∈ [' ', '\t', '\r']

def isAlnum (ch : Char) : Bool :=
  isAlpha ch || isDigit ch

def startsOperand (ch : Char) : Bool :=
  isAlnum ch || ch ∈ ['_', '"', '\'', '(', '!', '~', '-', '&', '[']

def colonOnLine (text : Spelling) : Bool :=
  ':' ∈ text.takeWhile (· ≠ '\n')

/-- The place is the end of the question mark. -/
def questionStartsTernary (source : Spelling) (line column : Nat) : Bool :=
  match (seek line column .start source).dropWhile isInlineBlank with
  | [] => false
  | ch :: rest =>
      if ch ∈ ['\n', ')', ']', '}', ';', ','] then false
      else if !startsOperand ch then false
      else colonOnLine (ch :: rest)

/-- The kinds of the tokens that an expression of the grammar starts with. -/
def beginsExpression (kind : TokenKind) : Bool :=
  kind ∈ [.identifier, .integer, .float, .char, .string, .keywordSelf, .keywordTrue, .keywordFalse,
    .keywordSizeof, .lparen, .lbracket, .bang, .tilde, .minus, .ampersand, .plusPlus, .minusMinus]

/-- A colon comes at the level of the mark before the expression ends. -/
def ternaryColon : Nat → List TokenKind → Bool
  | _, [] => false
  | depth, kind :: later =>
      match kind with
      | .colon => depth = 0 || ternaryColon depth later
      | .lparen | .lbracket => ternaryColon (depth + 1) later
      | .rparen | .rbracket =>
          match depth with
          | 0 => false
          | depth + 1 => ternaryColon depth later
      | .comma => depth ≠ 0 && ternaryColon depth later
      | .newline | .semicolon | .templateMark | .lbrace | .rbrace | .endOfText | .invalid => false
      | _ => ternaryColon depth later

/-- Standard 4.8 on the tokens behind the mark. -/
def startsTernary (later : List TokenKind) : Bool :=
  beginsExpression (later.headD .endOfText) && ternaryColon 0 later

/-- Kinds that start no expression, but with a character that may start one. -/
def mistakenKinds : List TokenKind :=
  [.keywordFunc, .keywordNew, .keywordStatic, .keywordExtern, .keywordReturn, .keywordIf,
    .keywordElse, .keywordFor, .keywordWhile, .keywordBreak, .keywordContinue, .keywordGoto,
    .keywordTry, .keywordCatch, .keywordThrow, .keywordStruct, .keywordTemplate, .keywordImpl,
    .keywordOp, .keywordAs, .keywordMut, .keywordSet, .keywordNone, .keywordSwitch, .keywordCase,
    .keywordDefault, .keywordDo, .keywordTypedef, .keywordEnum, .keywordUnion, .keywordConst,
    .keywordVolatile, .bangEqual, .arrow, .ampersandAmpersand, .ampersandEqual]

def Mistaken (kind : TokenKind) (first : Char) : Prop :=
  kind ∈ mistakenKinds ∨ kind = .invalid ∧ startsOperand first = true

/-- Only blanks of the line stand before the token. -/
def Near (text : Spelling) (token : Token) : Prop :=
  token.lexeme ++ token.rest = text.dropWhile isInlineBlank

/-- Neither a float that starts with its point nor an increment. -/
def Plain (token : Token) : Prop :=
  token.lexeme.head? ≠ some '.' ∧ token.lexeme.head? ≠ some '+'

/-- Where the scan of the line and the rule about tokens agree. -/
def LineTellsTernary (text : Spelling) : List Token → Prop
  | [] => True
  | first :: others =>
      let colon := ternaryColon 0 ((first :: others).map Token.kind)
      (beginsExpression first.kind = true → Near text first → Plain first →
        colonOnLine text = colon) ∧
      (beginsExpression first.kind = true → ¬(Near text first ∧ Plain first) → colon = false) ∧
      (∀ ch, first.lexeme.head? = some ch → Near text first → Mistaken first.kind ch →
        colonOnLine text = false)

example : questionStartsTernary "a ? b : c".toList 1 4 = true := by decide

end HitSimple.ParserContext

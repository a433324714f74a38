import HitSimple.Lexer.Numbers

namespace HitSimple.Lexer
open Literal (Spelling)

/-- A `char` of the source is the character with its code. -/
def byteOf (ch : Char) : UInt8 :=
  UInt8.ofNat ch.toNat

def hexValue (ch : Char) : Nat :=
  if '0' ≤ ch ∧ ch ≤ '9' then ch.toNat - '0'.toNat
  else if 'a' ≤ ch ∧ ch ≤ 'f' then ch.toNat - 'a'.toNat + 10
  else ch.toNat - 'A'.toNat + 10

def isSimpleEscape (ch : Char) : Bool :=
  ch ∈ ['n', 't', 'r', '\\', '\'', '"']

def isSurrogate (codePoint : Nat) : Bool :=
  0xd800 ≤ codePoint ∧ codePoint ≤ 0xdfff

def unicodeValue (first second third fourth : Char) : Nat :=
  ((hexValue first <<< 4 ||| hexValue second) <<< 4 ||| hexValue third) <<< 4 ||| hexValue fourth

/-- `isUnicodeSurrogateEscape` on the four digits. -/
def isUnicodeSurrogateEscape (first second third fourth : Char) : Bool :=
  isSurrogate (hexValue first <<< 12 ||| hexValue second <<< 8 ||| hexValue third <<< 4 |||
    hexValue fourth)

inductive QuotedKind where
  | string
  | char
  | invalid
  deriving DecidableEq, Repr

structure QuotedToken where
  kind : QuotedKind
  lexeme : Spelling
  rest : Spelling
  deriving DecidableEq

def QuotedToken.prepend (token : QuotedToken) (text : Spelling) : QuotedToken :=
  { token with lexeme := text ++ token.lexeme }

/-- The loop of `scanQuotedLiteral` behind the opening quote. -/
def scanQuotedBody (quote : Char) (kind : QuotedKind) : Bool → Spelling → QuotedToken
  | _, [] => ⟨.invalid, [], []⟩
  | hasContent, ch :: rest =>
      if ch = '\n' then ⟨.invalid, [], ch :: rest⟩
      else if ch = '\\' then
        match rest with
        | [] => ⟨.invalid, [ch], []⟩
        | escape :: rest =>
            if escape = '\n' then ⟨.invalid, [ch], escape :: rest⟩
            else if escape = 'x' then
              match rest with
              | high :: low :: tail =>
                  if isHexDigit high && isHexDigit low then
                    (scanQuotedBody quote kind true tail).prepend [ch, escape, high, low]
                  else ⟨.invalid, [ch, escape], rest⟩
              | _ => ⟨.invalid, [ch, escape], rest⟩
            else if escape = 'u' then
              match rest with
              | first :: second :: third :: fourth :: tail =>
                  if (isHexDigit first && isHexDigit second && isHexDigit third &&
                      isHexDigit fourth) &&
                      !isUnicodeSurrogateEscape first second third fourth then
                    (scanQuotedBody quote kind true tail).prepend
                      [ch, escape, first, second, third, fourth]
                  else ⟨.invalid, [ch, escape], rest⟩
              | _ => ⟨.invalid, [ch, escape], rest⟩
            else if isOctalDigit escape then
              match rest with
              | second :: tail =>
                  if isOctalDigit second then
                    match tail with
                    | third :: tail =>
                        if isOctalDigit third then
                          (scanQuotedBody quote kind true tail).prepend
                            [ch, escape, second, third]
                        else
                          (scanQuotedBody quote kind true (third :: tail)).prepend
                            [ch, escape, second]
                    | [] => (scanQuotedBody quote kind true []).prepend [ch, escape, second]
                  else (scanQuotedBody quote kind true (second :: tail)).prepend [ch, escape]
              | [] => (scanQuotedBody quote kind true []).prepend [ch, escape]
            else if isSimpleEscape escape then
              (scanQuotedBody quote kind true rest).prepend [ch, escape]
            else ⟨.invalid, [ch, escape], rest⟩
      else if ch = quote then
        ⟨if kind = .char && !hasContent then .invalid else kind, [ch], rest⟩
      else (scanQuotedBody quote kind true rest).prepend [ch]

theorem scanQuotedBody_plain {quote ch : Char} (kind : QuotedKind) (hasContent : Bool)
    (rest : Spelling) (notNewline : ch ≠ '\n') (notBackslash : ch ≠ '\\') (notQuote : ch ≠ quote) :
    scanQuotedBody quote kind hasContent (ch :: rest) =
      (scanQuotedBody quote kind true rest).prepend [ch] := by
  rw [scanQuotedBody.eq_def]
  dsimp only
  rw [if_neg notNewline, if_neg notBackslash, if_neg notQuote]

/-- The text starts with the quote. -/
def scanQuotedLiteral (quote : Char) (kind : QuotedKind) (text : Spelling) : QuotedToken :=
  (scanQuotedBody quote kind false text.tail).prepend (text.take 1)

def scanChar (text : Spelling) : QuotedToken :=
  scanQuotedLiteral '\'' .char text

def scanString (text : Spelling) : QuotedToken :=
  scanQuotedLiteral '"' .string text

structure DecodeResult where
  bytes : List UInt8
  error : Option String
  deriving DecidableEq

def DecodeResult.prepend (result : DecodeResult) (bytes : List UInt8) : DecodeResult :=
  { result with bytes := bytes ++ result.bytes }

def DecodeResult.fail (message : String) : DecodeResult :=
  ⟨[], some message⟩

def appendUtf8 (codePoint : Nat) : List UInt8 :=
  if codePoint ≤ 0x7f then [UInt8.ofNat codePoint]
  else if codePoint ≤ 0x7ff then
    [UInt8.ofNat (0xc0 ||| (codePoint >>> 6)), UInt8.ofNat (0x80 ||| (codePoint &&& 0x3f))]
  else
    [UInt8.ofNat (0xe0 ||| (codePoint >>> 12)),
      UInt8.ofNat (0x80 ||| ((codePoint >>> 6) &&& 0x3f)),
      UInt8.ofNat (0x80 ||| (codePoint &&& 0x3f))]

/-- The value of the octal digits. -/
def octalValue (digits : Spelling) : Nat :=
  digits.foldl (fun value ch => value * 8 + (ch.toNat - '0'.toNat)) 0

def decodeOctal (digits : Spelling) (behind : DecodeResult) : DecodeResult :=
  if 0o377 < octalValue digits then .fail "octal escape is out of range"
  else behind.prepend [UInt8.ofNat (octalValue digits)]

def simpleValue : Char → Option UInt8
  | 'n' => some 10
  | 't' => some 9
  | 'r' => some 13
  | '\\' => some 92
  | '\'' => some 39
  | '"' => some 34
  | _ => none

/-- The loop of `decodeQuotedLiteral`. -/
def decodeBody : Spelling → DecodeResult
  | [] => ⟨[], none⟩
  | ch :: rest =>
      if ch ≠ '\\' then (decodeBody rest).prepend [byteOf ch]
      else
        match rest with
        | [] => .fail "unterminated escape sequence"
        | escape :: rest =>
            match simpleValue escape with
            | some value => (decodeBody rest).prepend [value]
            | none =>
                if escape = 'x' then
                  match rest with
                  | high :: low :: tail =>
                      if !isHexDigit high || !isHexDigit low then
                        .fail "invalid hexadecimal escape"
                      else
                        (decodeBody tail).prepend
                          [UInt8.ofNat (hexValue high <<< 4 ||| hexValue low)]
                  | _ => .fail "invalid hexadecimal escape"
                else if escape = 'u' then
                  match rest with
                  | first :: second :: third :: fourth :: tail =>
                      if !isHexDigit first || !isHexDigit second || !isHexDigit third ||
                          !isHexDigit fourth then
                        .fail "invalid unicode escape"
                      else if isSurrogate (unicodeValue first second third fourth) then
                        .fail "unicode surrogate code point is not valid"
                      else
                        (decodeBody tail).prepend
                          (appendUtf8 (unicodeValue first second third fourth))
                  | _ => .fail "invalid unicode escape"
                else if isOctalDigit escape then
                  match rest with
                  | second :: tail =>
                      if isOctalDigit second then
                        match tail with
                        | third :: tail =>
                            if isOctalDigit third then
                              decodeOctal [escape, second, third] (decodeBody tail)
                            else decodeOctal [escape, second] (decodeBody (third :: tail))
                        | [] => decodeOctal [escape, second] (decodeBody [])
                      else decodeOctal [escape] (decodeBody (second :: tail))
                  | [] => decodeOctal [escape] (decodeBody [])
                else .fail "invalid escape sequence"

theorem decodeBody_plain {ch : Char} (rest : Spelling) (plain : ch ≠ '\\') :
    decodeBody (ch :: rest) = (decodeBody rest).prepend [byteOf ch] := by
  rw [decodeBody.eq_def]
  dsimp only
  rw [if_pos plain]

def decodeQuotedLiteral (literal : Spelling) (quote : Char) : DecodeResult :=
  if 2 ≤ literal.length ∧ literal.head? = some quote ∧ literal.getLast? = some quote then
    decodeBody literal.tail.dropLast
  else decodeBody literal

def decodeCharLiteral (literal : Spelling) : DecodeResult :=
  decodeQuotedLiteral literal '\''

def decodeStringLiteral (literal : Spelling) : DecodeResult :=
  decodeQuotedLiteral literal '"'

end HitSimple.Lexer

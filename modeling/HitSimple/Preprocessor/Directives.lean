import HitSimple.Lexer.Next
import Mathlib.Data.List.DropRight

namespace HitSimple.Preprocessor

/-- The bytes of a source text. -/
abbrev Source := List UInt8

def utf8SequenceLength (lead : UInt8) : Nat :=
  if lead ≤ 0x7f then 1
  else if 0xc2 ≤ lead ∧ lead ≤ 0xdf then 2
  else if 0xe0 ≤ lead ∧ lead ≤ 0xef then 3
  else if 0xf0 ≤ lead ∧ lead ≤ 0xf4 then 4
  else 0

def isContinuationByte (byte : UInt8) : Bool :=
  0x80 ≤ byte ∧ byte ≤ 0xbf

section
variable (source : Source) (index : Nat)

/-- The loop over the offsets behind the lead byte; it has no answer where it reads behind the end
of the text. -/
def continuationBytes : Nat → Nat → Option Bool
  | _, 0 => some true
  | offset, count + 1 =>
      match source[index + offset]? with
      | none => none
      | some byte =>
          if isContinuationByte byte then continuationBytes (offset + 1) count else some false

def isValidUtf8Sequence (length : Nat) : Option Bool :=
  if source.length < index + length then some false
  else
    match source[index]? with
    | none => none
    | some b0 =>
        if length = 1 then some (b0 ≤ 0x7f)
        else
          match continuationBytes source index 1 (length - 1) with
          | none => none
          | some false => some false
          | some true =>
              if length = 3 ∨ length = 4 then
                match source[index + 1]? with
                | none => none
                | some b1 =>
                    if length = 3 then
                      if b0 = 0xe0 ∧ b1 < 0xa0 then some false
                      else if b0 = 0xed ∧ 0xa0 ≤ b1 then some false
                      else some true
                    else
                      if b0 = 0xf0 ∧ b1 < 0x90 then some false
                      else if b0 = 0xf4 ∧ 0x8f < b1 then some false
                      else some true
              else some true

end

/-- The loop of `validateUtf8`, which answers the place of its diagnostic. -/
def validateUtf8From (source : Source) (location : Lexer.Location) (index : Nat) :
    Option (Option Lexer.Location) :=
  if inside : index < source.length then
    if source[index] = 0x0a then validateUtf8From source ⟨location.line + 1, 1⟩ (index + 1)
    else if unknown : utf8SequenceLength source[index] = 0 then some (some location)
    else
      match isValidUtf8Sequence source index (utf8SequenceLength source[index]) with
      | none => none
      | some false => some (some location)
      | some true =>
          validateUtf8From source ⟨location.line, location.column + 1⟩
            (index + utf8SequenceLength source[index])
  else some none
termination_by source.length - index

/-- Whether and where "source is not valid UTF-8" is reported. -/
def validateUtf8 (source : Source) : Option (Option Lexer.Location) :=
  validateUtf8From source .start 0


abbrev Line := List UInt8

def ascii (ch : Char) : UInt8 :=
  UInt8.ofNat ch.toNat

def bytes (text : String) : Source :=
  text.toList.map ascii

/-- `std::isspace` of the C locale. -/
def isSpace (byte : UInt8) : Bool :=
  byte = ascii ' ' ∨ 0x09 ≤ byte ∧ byte ≤ 0x0d

def trim (text : Line) : Line :=
  (text.dropWhile isSpace).rdropWhile isSpace

def isDigit (ch : UInt8) : Bool :=
  ascii '0' ≤ ch ∧ ch ≤ ascii '9'

def isAlpha (ch : UInt8) : Bool :=
  (ascii 'a' ≤ ch ∧ ch ≤ ascii 'z') ∨ (ascii 'A' ≤ ch ∧ ch ≤ ascii 'Z')

def isIdentifierStart (ch : UInt8) : Bool :=
  isAlpha ch || ch = ascii '_'

def isIdentifierContinue (ch : UInt8) : Bool :=
  isIdentifierStart ch || isDigit ch

structure Directive where
  keyword : Line
  rest : Line
  deriving DecidableEq

def parseDollarDirective (line : Line) : Option Directive :=
  match line.dropWhile isSpace with
  | [] => none
  | ch :: rest =>
      if ch ≠ ascii '$' then none
      else
        let rest := rest.dropWhile isSpace
        some ⟨rest.takeWhile isIdentifierStart, trim (rest.dropWhile isIdentifierStart)⟩

def words : List String :=
  ["as", "break", "case", "catch", "const", "continue", "default", "do", "else", "enum", "extern",
    "false", "for", "func", "goto", "if", "impl", "mut", "new", "none", "op", "return", "self",
    "set", "sizeof", "static", "struct", "switch", "template", "throw", "true", "try", "typedef",
    "union", "volatile", "while"]

def isKeywordOrReserved (text : Line) : Bool :=
  words.any fun word => bytes word = text

def isReservedTemplateCounter (text : Line) : Bool :=
  match text with
  | front :: ch :: rest => front = ascii 't' && (ch :: rest).all isDigit
  | _ => false

def isLegalMacroName (text : Line) : Bool :=
  match text with
  | [] => false
  | front :: rest =>
      if front :: rest = bytes "_" || isKeywordOrReserved (front :: rest) ||
          isReservedTemplateCounter (front :: rest) || !isIdentifierStart front then false
      else (front :: rest).all isIdentifierContinue

def firstIdentifierLike (text : Line) : Line :=
  match trim text with
  | [] => []
  | front :: rest =>
      if isIdentifierStart front then front :: rest.takeWhile isIdentifierContinue else []

def shouldValidateMacroName (keyword : Line) : Bool :=
  keyword = bytes "define" || keyword = bytes "undef" || keyword = bytes "ifdef" ||
    keyword = bytes "ifndef"

def macroNameForDirective (directive : Directive) : Option Line :=
  if shouldValidateMacroName directive.keyword then some (firstIdentifierLike directive.rest)
  else none

inductive Message
  | invalidUtf8
  | invalidMacroName (keyword : Line)
  | bareHash
  | bareDoubleHash
  deriving DecidableEq

def Message.text : Message → Source
  | .invalidUtf8 => bytes "source is not valid UTF-8"
  | .invalidMacroName keyword => bytes "$" ++ keyword ++ bytes " requires a valid macro name"
  | .bareHash => bytes "bare # is not valid HitSimple source"
  | .bareDoubleHash => bytes "bare ## is not valid HitSimple source"

structure Diagnostic where
  message : Message
  line : Nat
  column : Nat
  deriving DecidableEq

def validateDirectiveMacroName (directive : Directive) (lineNumber : Nat) : Option Diagnostic :=
  match macroNameForDirective directive with
  | none => none
  | some macroName =>
      if isLegalMacroName macroName then none
      else some ⟨.invalidMacroName directive.keyword, lineNumber, 1⟩

/-- What the loop over a line carries; the source writes `'\0'` for no quote. -/
structure HashScan where
  inBlockComment : Bool
  quote : Option UInt8
  deriving DecidableEq

inductive HashTurn
  | forward (scan : HashScan)
  | skip (scan : HashScan)
  | ends
  | found (message : Message)

section
variable (scan : HashScan) (ch next : UInt8)

/-- One turn of the loop: it goes on behind this byte or behind the next one as well, leaves the
line, or reports. -/
def hashTurn : HashTurn :=
  if scan.inBlockComment then
    if ch = ascii '*' ∧ next = ascii '/' then .skip ⟨false, scan.quote⟩ else .forward scan
  else
    match scan.quote with
    | some quote =>
        if ch = ascii '\\' ∧ next ≠ 0 then .skip scan
        else if ch = quote then .forward ⟨scan.inBlockComment, none⟩
        else .forward scan
    | none =>
        if ch = ascii '/' ∧ next = ascii '/' then .ends
        else if ch = ascii '/' ∧ next = ascii '*' then .skip ⟨true, scan.quote⟩
        else if ch = ascii '"' ∨ ch = ascii '\'' then .forward ⟨scan.inBlockComment, some ch⟩
        else if ch = ascii '#' then
          .found (if next = ascii '#' then .bareDoubleHash else .bareHash)
        else .forward scan

end

/-- The report of a line with its index, and the comment flag behind the line. -/
def scanHashes (scan : HashScan) (index : Nat) : Line → Option (Message × Nat) × Bool
  | [] => (none, scan.inBlockComment)
  | ch :: rest =>
      match hashTurn scan ch (rest.headD 0) with
      | .forward after => scanHashes after (index + 1) rest
      | .skip after =>
          match rest with
          | [] => (none, after.inBlockComment)
          | _ :: rest => scanHashes after (index + 2) rest
      | .ends => (none, scan.inBlockComment)
      | .found message => (some (message, index), scan.inBlockComment)

def validateBareHashInLine (line : Line) (lineNumber : Nat) (inBlockComment : Bool) :
    Option Diagnostic × Bool :=
  if (parseDollarDirective line).isSome then (none, inBlockComment)
  else
    match scanHashes ⟨inBlockComment, none⟩ 0 line with
    | (none, after) => (none, after)
    | (some (message, index), after) => (some ⟨message, lineNumber, index + 1⟩, after)

/-- What `std::getline` reads one after the other. -/
def lines : Source → List Line
  | [] => []
  | byte :: rest =>
      if byte = 0x0a then [] :: lines rest
      else
        match lines rest with
        | [] => [[byte]]
        | line :: more => (byte :: line) :: more

/-- The loop of `validateSourceInto` over the lines. -/
def validateLines (lineNumber : Nat) (inBlockComment : Bool) : List Line → List Diagnostic
  | [] => []
  | line :: rest =>
      let macroName := (parseDollarDirective line).bind (validateDirectiveMacroName · lineNumber)
      let (hash, after) := validateBareHashInLine line lineNumber inBlockComment
      macroName.toList ++ hash.toList ++ validateLines (lineNumber + 1) after rest

def validateSourceInto (source : Source) : Option (List Diagnostic) := do
  let invalid ← validateUtf8 source
  let diagnostics := invalid.map fun place => ⟨.invalidUtf8, place.line, place.column⟩
  return diagnostics.toList ++ validateLines 1 false (lines source)

example : validateLines 1 false (lines (bytes "'#' ##\n$undef 2\n")) =
    [⟨.bareDoubleHash, 1, 5⟩, ⟨.invalidMacroName (bytes "undef"), 2, 1⟩] := by decide

end HitSimple.Preprocessor

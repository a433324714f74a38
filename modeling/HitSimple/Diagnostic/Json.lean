import HitSimple.Json.Text

namespace HitSimple.Diagnostics
open Json

/-- A place in a file; a char is a code. -/
structure SourceLocation where
  file : List Char
  line : Nat
  column : Nat
  deriving DecidableEq

structure SourceRange where
  begins : SourceLocation
  ends : SourceLocation
  deriving DecidableEq

inductive Severity where
  | note
  | warning
  | error
  deriving DecidableEq

inductive Stage where
  | cli
  | preprocessor
  | lexer
  | parser
  | sema
  | hir
  | codegen
  | runtime
  deriving DecidableEq

structure DiagnosticLabel where
  range : SourceRange
  message : List Char
  deriving DecidableEq

structure Diagnostic where
  severity : Severity
  stage : Stage
  range : Option SourceRange
  message : List Char
  labels : List DiagnosticLabel
  deriving DecidableEq

def severityName : Severity → String
  | .note => "note"
  | .warning => "warning"
  | .error => "error"

def stageName : Stage → String
  | .cli => "cli"
  | .preprocessor => "preprocessor"
  | .lexer => "lexer"
  | .parser => "parser"
  | .sema => "sema"
  | .hir => "hir"
  | .codegen => "codegen"
  | .runtime => "runtime"

/-! ### Writing -/

def hex (digit : Nat) : Char :=
  Nat.digitChar digit

/-- One turn of the loop of `appendJsonString`. -/
def appendJsonCharacter (ch : Char) : List Char :=
  if ch = '"' then ['\\', '"']
  else if ch = '\\' then ['\\', '\\']
  else if ch = '\x08' then ['\\', 'b']
  else if ch = '\x0c' then ['\\', 'f']
  else if ch = '\n' then ['\\', 'n']
  else if ch = '\r' then ['\\', 'r']
  else if ch = '\t' then ['\\', 't']
  else if ch.toNat < 0x20 then
    ['\\', 'u', '0', '0', hex (ch.toNat >>> 4 &&& 0x0f), hex (ch.toNat &&& 0x0f)]
  else [ch]

def appendJsonString (value : List Char) : List Char :=
  '"' :: (value.flatMap appendJsonCharacter ++ ['"'])

/-- The name of a member with its colon. -/
def key (name : String) : List Char :=
  '"' :: (name.toList ++ ['"', ':'])

def appendJsonLocation (location : SourceLocation) : List Char :=
  '{' :: (key "file" ++ (appendJsonString location.file ++ ',' :: (key "line" ++
    (Nat.toDigits 10 location.line ++ ',' :: (key "column" ++
      (Nat.toDigits 10 location.column ++ ['}']))))))

def appendJsonRange (range : SourceRange) : List Char :=
  '{' :: (key "begin" ++ (appendJsonLocation range.begins ++ ',' :: (key "end" ++
    (appendJsonLocation range.ends ++ ['}']))))

def appendLabel (label : DiagnosticLabel) : List Char :=
  '{' :: (key "message" ++ (appendJsonString label.message ++ ',' :: (key "range" ++
    (appendJsonRange label.range ++ ['}']))))

/-- The labels with a comma before each but the first. -/
def appendLabels : List DiagnosticLabel → List Char
  | [] => []
  | label :: labels => appendLabel label ++ labels.flatMap fun label => ',' :: appendLabel label

def appendPrimary : Option SourceRange → List Char
  | some range => appendJsonRange range
  | none => ['n', 'u', 'l', 'l']

def Diagnostic.formatJson (diagnostic : Diagnostic) : List Char :=
  '{' :: (key "severity" ++ (appendJsonString (severityName diagnostic.severity).toList ++
    ',' :: (key "stage" ++ (appendJsonString (stageName diagnostic.stage).toList ++
      ',' :: (key "message" ++ (appendJsonString diagnostic.message ++
        ',' :: (key "primary" ++ (appendPrimary diagnostic.range ++
          ',' :: (key "related" ++ '[' :: (appendLabels diagnostic.labels ++ [']', '}']))))))))))

/-! ### The record -/

def SourceLocation.value (location : SourceLocation) : Value :=
  .object [("file".toList, .string location.file), ("line".toList, .number location.line),
    ("column".toList, .number location.column)]

def SourceRange.value (range : SourceRange) : Value :=
  .object [("begin".toList, range.begins.value), ("end".toList, range.ends.value)]

def DiagnosticLabel.value (label : DiagnosticLabel) : Value :=
  .object [("message".toList, .string label.message), ("range".toList, label.range.value)]

/-- What the JSON text of a diagnostic is to say. -/
def Diagnostic.value (diagnostic : Diagnostic) : Value :=
  .object [("severity".toList, .string (severityName diagnostic.severity).toList),
    ("stage".toList, .string (stageName diagnostic.stage).toList),
    ("message".toList, .string diagnostic.message),
    ("primary".toList, (diagnostic.range.map SourceRange.value).getD .null),
    ("related".toList, .array (diagnostic.labels.map DiagnosticLabel.value))]

theorem hexDigit?_hex : ∀ digit < 16, hexDigit? (hex digit) = some digit := by
  decide

/-- A test for a character that has a letter of its own. -/
theorem body_of_short {ch escaped letter : Char} {otherwise : List Char}
    (escape : shortEscape letter = some escaped)
    (other : ch ≠ escaped → StringBody otherwise [ch]) :
    StringBody (if ch = escaped then ['\\', letter] else otherwise) [ch] := by
  by_cases same : ch = escaped
  · rw [if_pos same, same]
    exact .short escape .nothing
  · rw [if_neg same]
    exact other same

theorem body_of_character (ch : Char) : StringBody (appendJsonCharacter ch) [ch] := by
  apply body_of_short rfl
  intro notQuote
  apply body_of_short rfl
  intro notBackslash
  -- the five control characters with a letter
  apply body_of_short rfl
  intro _
  apply body_of_short rfl
  intro _
  apply body_of_short rfl
  intro _
  apply body_of_short rfl
  intro _
  apply body_of_short rfl
  intro _
  split
  · rename_i control
    have halves : ch.toNat >>> 4 &&& 0x0f = ch.toNat / 16 ∧ ch.toNat &&& 0x0f = ch.toNat % 16 := by
      constructor
      · rw [Nat.and_two_pow_sub_one_eq_mod _ 4, Nat.shiftRight_eq_div_pow]
        omega
      · exact Nat.and_two_pow_sub_one_eq_mod _ 4
    rw [halves.1, halves.2]
    have body := StringBody.unicode (hexDigit?_hex 0 (by decide)) (hexDigit?_hex 0 (by decide))
      (hexDigit?_hex (ch.toNat / 16) (by omega)) (hexDigit?_hex (ch.toNat % 16) (by omega)) .nothing
    have code : ((0 * 16 + 0) * 16 + ch.toNat / 16) * 16 + ch.toNat % 16 = ch.toNat := by omega
    rw [code, Char.ofNat_toNat] at body
    exact body
  · rename_i printed
    refine .plain ?_ notQuote notBackslash .nothing
    exact not_lt.mp printed

theorem body_of_text (text : List Char) : StringBody (text.flatMap appendJsonCharacter) text := by
  induction text with
  | nil => exact .nothing
  | cons ch text ih => exact (body_of_character ch).append ih

theorem tells_appendJsonString (text : List Char) :
    Says (appendJsonString text) (.string text) :=
  .string (body_of_text text)

/-! ### What the text says -/

/-- A name that is spelled as it is. -/
def isPlain (name : String) : Bool :=
  name.toList.all fun ch => decide (32 ≤ ch.toNat) && ch != '"' && ch != '\\'

theorem body_of_plain {name : String} (plain : isPlain name = true) :
    StringBody name.toList name.toList := by
  unfold isPlain at plain
  generalize name.toList = text at plain
  induction text with
  | nil => exact .nothing
  | cons ch text ih =>
      simp only [List.all_cons, Bool.and_eq_true, decide_eq_true_eq, bne_iff_ne] at plain
      obtain ⟨⟨⟨printed, notQuote⟩, notBackslash⟩, more⟩ := plain
      exact .plain printed notQuote notBackslash (ih more)

theorem members_one (name : String) {text : List Char} {value : Value} (plain : isPlain name = true)
    (told : Says text value) : Members (key name ++ text) [(name.toList, value)] := by
  have member := Members.one (body_of_plain plain) told
  simpa [key] using member

theorem members_more (name : String) {text others : List Char} {value : Value}
    {next : List Char × Value} {fields : List (List Char × Value)} (plain : isPlain name = true)
    (told : Says text value) (rest : Members others (next :: fields)) :
    Members (key name ++ (text ++ ',' :: others)) ((name.toList, value) :: next :: fields) := by
  have members := Members.more (body_of_plain plain) told rest
  simpa [key] using members

theorem tells_appendJsonLocation (location : SourceLocation) :
    Says (appendJsonLocation location) location.value := by
  have members := members_more "file" (by decide) (tells_appendJsonString location.file)
    (members_more "line" (by decide) (.number location.line)
      (members_one "column" (by decide) (.number location.column)))
  simpa only [appendJsonLocation, SourceLocation.value, List.append_assoc, List.cons_append,
    List.nil_append] using Says.object members

theorem tells_appendJsonRange (range : SourceRange) : Says (appendJsonRange range) range.value := by
  have members := members_more "begin" (by decide)
    (tells_appendJsonLocation range.begins)
    (members_one "end" (by decide) (tells_appendJsonLocation range.ends))
  simpa only [appendJsonRange, SourceRange.value, List.append_assoc, List.cons_append,
    List.nil_append] using Says.object members

theorem tells_appendLabel (label : DiagnosticLabel) : Says (appendLabel label) label.value := by
  have members := members_more "message" (by decide)
    (tells_appendJsonString label.message)
    (members_one "range" (by decide) (tells_appendJsonRange label.range))
  simpa only [appendLabel, DiagnosticLabel.value, List.append_assoc, List.cons_append,
    List.nil_append] using Says.object members

theorem elements_appendLabels (labels : List DiagnosticLabel) :
    Elements (appendLabels labels) (labels.map DiagnosticLabel.value) := by
  cases labels with
  | nil => exact .none
  | cons label labels =>
      induction labels generalizing label with
      | nil =>
          have told := Elements.one (tells_appendLabel label)
          simpa [appendLabels] using told
      | cons next labels ih => exact .more (tells_appendLabel label) (ih next)

theorem tells_appendPrimary (range : Option SourceRange) :
    Says (appendPrimary range) ((range.map SourceRange.value).getD .null) := by
  cases range with
  | none => exact .null
  | some range => exact tells_appendJsonRange range

theorem Diagnostic.tells_formatJson (diagnostic : Diagnostic) :
    Says diagnostic.formatJson diagnostic.value := by
  have members := members_more "severity" (by decide)
    (tells_appendJsonString (severityName diagnostic.severity).toList)
    (members_more "stage" (by decide)
      (tells_appendJsonString (stageName diagnostic.stage).toList)
      (members_more "message" (by decide) (tells_appendJsonString diagnostic.message)
        (members_more "primary" (by decide) (tells_appendPrimary diagnostic.range)
          (members_one "related" (by decide)
            (.array (elements_appendLabels diagnostic.labels))))))
  simpa only [Diagnostic.formatJson, Diagnostic.value, List.append_assoc, List.cons_append,
    List.nil_append] using Says.object members

/-! ### Reading it back -/

def readQuoted (text : List Char) : Option (List Char × List Char) := do
  let text ← expect ['"'] text
  readString text

def readLocation (text : List Char) : Option (SourceLocation × List Char) := do
  let text ← expect ('{' :: key "file") text
  let (file, text) ← readQuoted text
  let text ← expect (',' :: key "line") text
  let (line, text) ← readNumber text
  let text ← expect (',' :: key "column") text
  let (column, text) ← readNumber text
  let text ← expect ['}'] text
  return (⟨file, line, column⟩, text)

def readRange (text : List Char) : Option (SourceRange × List Char) := do
  let text ← expect ('{' :: key "begin") text
  let (begins, text) ← readLocation text
  let text ← expect (',' :: key "end") text
  let (ends, text) ← readLocation text
  let text ← expect ['}'] text
  return (⟨begins, ends⟩, text)

def readLabel (text : List Char) : Option (DiagnosticLabel × List Char) := do
  let text ← expect ('{' :: key "message") text
  let (message, text) ← readQuoted text
  let text ← expect (',' :: key "range") text
  let (range, text) ← readRange text
  let text ← expect ['}'] text
  return (⟨range, message⟩, text)

/-- The labels up to the bracket that closes them. -/
def readLabels (text : List Char) : Option (List DiagnosticLabel × List Char) :=
  if text.head? = some ']' then some ([], text)
  else do
    let (label, text) ← readLabel text
    let (labels, text) ← readMore readLabel (text.length + 1) text
    return (label :: labels, text)

def readPrimary (text : List Char) : Option (Option SourceRange × List Char) :=
  match expect ['n', 'u', 'l', 'l'] text with
  | some text => some (none, text)
  | none => (readRange text).map fun (range, text) => (some range, text)

def severityNamed (name : List Char) : Option Severity :=
  [.note, .warning, .error].find? fun severity => (severityName severity).toList = name

def stageNamed (name : List Char) : Option Stage :=
  [.cli, .preprocessor, .lexer, .parser, .sema, .hir, .codegen, .runtime].find? fun stage =>
    (stageName stage).toList = name

def readDiagnostic (text : List Char) : Option Diagnostic := do
  let text ← expect ('{' :: key "severity") text
  let (severity, text) ← readQuoted text
  let severity ← severityNamed severity
  let text ← expect (',' :: key "stage") text
  let (stage, text) ← readQuoted text
  let stage ← stageNamed stage
  let text ← expect (',' :: key "message") text
  let (message, text) ← readQuoted text
  let text ← expect (',' :: key "primary") text
  let (range, text) ← readPrimary text
  let text ← expect (',' :: (key "related" ++ ['['])) text
  let (labels, text) ← readLabels text
  if text = [']', '}'] then some ⟨severity, stage, range, message, labels⟩ else none

theorem readQuoted_append (text rest : List Char) :
    readQuoted (appendJsonString text ++ rest) = some (text, rest) := by
  have reads := readString_body (body_of_text text) rest
  simpa [readQuoted, appendJsonString] using reads

theorem readNumber_comma (number : Nat) (rest : List Char) :
    readNumber (Nat.toDigits 10 number ++ ',' :: rest) = some (number, ',' :: rest) := by
  apply readNumber_toDigits
  rintro ch ⟨⟩
  decide

theorem readNumber_brace (number : Nat) (rest : List Char) :
    readNumber (Nat.toDigits 10 number ++ '}' :: rest) = some (number, '}' :: rest) := by
  apply readNumber_toDigits
  rintro ch ⟨⟩
  decide

theorem readLocation_append (location : SourceLocation) (rest : List Char) :
    readLocation (appendJsonLocation location ++ rest) = some (location, rest) := by
  simp [readLocation, appendJsonLocation, readQuoted_append, readNumber_comma, readNumber_brace]

theorem readRange_append (range : SourceRange) (rest : List Char) :
    readRange (appendJsonRange range ++ rest) = some (range, rest) := by
  simp [readRange, appendJsonRange, readLocation_append]

theorem readLabel_append (label : DiagnosticLabel) (rest : List Char) :
    readLabel (appendLabel label ++ rest) = some (label, rest) := by
  simp [readLabel, appendLabel, readQuoted_append, readRange_append]

theorem length_le_flatMap (labels : List DiagnosticLabel) :
    labels.length ≤ (labels.flatMap fun label => ',' :: appendLabel label).length := by
  induction labels with
  | nil => exact Nat.le_refl 0
  | cons label labels ih =>
      rw [List.flatMap_cons, List.length_append, List.length_cons, List.length_cons]
      omega

theorem readLabels_append (labels : List DiagnosticLabel) (rest : List Char) :
    readLabels (appendLabels labels ++ ']' :: rest) = some (labels, ']' :: rest) := by
  cases labels with
  | nil => rfl
  | cons label labels =>
      have opens : (appendLabels (label :: labels) ++ ']' :: rest).head? = some '{' := rfl
      have further := readMore_flatMap readLabel readLabel_append labels
        (show (']' :: rest).head? ≠ some ',' by simp)
        ((labels.flatMap (fun label => ',' :: appendLabel label) ++ ']' :: rest).length + 1)
        (by
          have shorter := length_le_flatMap labels
          rw [List.length_append]
          omega)
      rw [readLabels, opens, if_neg (by decide), appendLabels, List.append_assoc, readLabel_append]
      simp only [Option.bind_eq_bind, Option.bind_some, further]
      rfl

theorem readPrimary_append (range : Option SourceRange) (rest : List Char) :
    readPrimary (appendPrimary range ++ rest) = some (range, rest) := by
  cases range with
  | none => rfl
  | some range =>
      have other : expect ['n', 'u', 'l', 'l'] (appendPrimary (some range) ++ rest) = none := rfl
      rw [readPrimary, other]
      simp [appendPrimary, readRange_append]

theorem severityNamed_name (severity : Severity) :
    severityNamed (severityName severity).toList = some severity := by
  cases severity <;> decide

theorem stageNamed_name (stage : Stage) : stageNamed (stageName stage).toList = some stage := by
  cases stage <;> decide

/-- The JSON text of a diagnostic says its record, and the diagnostic can be read back from it. -/
theorem formatJson_reads (diagnostic : Diagnostic) :
    Says diagnostic.formatJson diagnostic.value ∧
      readDiagnostic diagnostic.formatJson = some diagnostic := by
  refine ⟨diagnostic.tells_formatJson, ?_⟩
  have labels := readLabels_append diagnostic.labels ['}']
  have opens := expect_append (key "related" ++ ['['])
    (appendLabels diagnostic.labels ++ [']', '}'])
  rw [List.append_assoc, List.singleton_append] at opens
  simp [readDiagnostic, Diagnostic.formatJson, readQuoted_append, severityNamed_name,
    stageNamed_name, readPrimary_append, opens, labels]

end HitSimple.Diagnostics

import HitSimple.Format.Scan
import HitSimple.View

namespace HitSimple.Sema
open FixedWidth Format Literal HitSimple.Runtime

/-- A byte length that does not fit its type counts as none. -/
def parseByteLength (digits : List Byte) : Nat :=
  if width digits ≤ maxUInt64 then width digits else 0

def formatItem (conversion : Conversion) : Except String FormatItem :=
  let byteLength := parseByteLength conversion.digits
  let specifier := conversion.specifier
  if specifier = letter 'f' then
    if isFloatByteLength (floatByteLength byteLength) then
      .ok { specifier, floatByteLength := floatByteLength byteLength }
    else .error "float format byte length must be 2, 4, 8, or 16"
  else if byteLength ≠ 0 then .error "format byte length is only valid for %f"
  else if isIntegerSpecifier specifier ∨ specifier = letter 's' ∨ specifier = letter 'p' ∨
      specifier = letter 'c' then
    .ok { specifier, floatByteLength := 0 }
  else .error ("unknown format specifier '%" ++ String.singleton (Char.ofNat specifier.toNat) ++ "'")

def parseItems : List Token → Except String (List FormatItem)
  | [] => .ok []
  | .text _ :: rest | .percent :: rest => parseItems rest
  | .unterminated _ :: _ => .error "unterminated format specifier"
  | .conversion conversion :: rest => do
      let item ← formatItem conversion
      let items ← parseItems rest
      .ok (item :: items)

/-- The items of a literal, which the analyzer has decoded. -/
def parseLiteralFormat (format : List Byte) : Except String (List FormatItem) :=
  parseItems (tokens format)

/-- What the analyzer finds of an argument: the View that is formatted, if it can be lowered. -/
structure FormatArgument where
  hasUserTemplate : Bool
  isHandle : Bool
  lowered : Except String FormatArg

inductive OutputBuiltin where
  | print | printf | fprintf
  deriving DecidableEq, Repr

def OutputBuiltin.callee : OutputBuiltin → String
  | print => "print"
  | printf => "printf"
  | fprintf => "fprintf"

/-- An output call with a literal format, as a statement or as an expression. -/
structure OutputCall where
  builtin : OutputBuiltin
  isStatement : Bool
  fileIsHandle : Bool
  format : List Byte
  arguments : List FormatArgument

/-- A format call of the runtime, and the items that the analyzer has matched, if it has. -/
structure OutputLowering where
  format : List Byte
  items : Option (List FormatItem)
  arguments : List FormatArg

/-- The call of `print` with nothing but a string is no format. -/
def OutputCall.isPlainPrint (call : OutputCall) : Bool :=
  call.builtin == .print && call.arguments.isEmpty

def analyzeOutputCall (call : OutputCall) : Except String OutputLowering :=
  if call.builtin = .fprintf ∧ call.fileIsHandle = false then
    .error (if call.isStatement then "fprintf file argument must be a handle"
      else "function call 'fprintf' argument 1 must be a handle")
  else if call.isPlainPrint then
    .ok {
      format := [percentSign, letter 's']
      items := none
      arguments := [{ length := call.format.length + 1, kind := .string }] }
  else if call.arguments.any (·.hasUserTemplate) then
    .error ("user template formatting requires a direct print(value), " ++
      "printf(value), or fprintf(file, value) call")
  else do
    let arguments ← call.arguments.mapM (·.lowered)
    if call.isStatement then do
      let items ← (parseLiteralFormat call.format).mapError
        (("function call '" ++ call.builtin.callee ++ "' has invalid format string: ") ++ ·)
      if call.arguments.length ≠ items.length then
        .error ("function call '" ++ call.builtin.callee ++
          "' format item count does not match argument count")
      else if (items.zip call.arguments).any fun matched =>
          matched.2.isHandle && matched.1.specifier != letter 'p' then
        .error "handle values can only be formatted with %p"
      else .ok { format := call.format, items := some items, arguments }
    else .ok { format := call.format, items := none, arguments }

def validateInputTarget (item : FormatItem) (targetLength : Nat) : Option String :=
  if item.specifier = letter 'c' then
    if targetLength < 1 then some "scanf/fscanf %c target must have at least 1 byte" else none
  else if item.specifier = letter 's' then
    if targetLength < 2 then
      some "scanf/fscanf %s target must leave room for a NUL terminator"
    else none
  else if item.specifier = letter 'p' then
    if targetLength ≠ pointerByteLength then
      some "scanf/fscanf %p target must match pointer length"
    else none
  else if item.specifier = letter 'f' then
    if targetLength ≠ item.floatByteLength then
      some "scanf/fscanf float target byte length does not match format"
    else none
  else if isIntegerSpecifier item.specifier ∧ isIntegerCapacity targetLength = false then
    some "scanf/fscanf integer target byte length must be 1, 2, 4, or 8"
  else none

structure ScanReference where
  byteLength : Nat
  templateName : TemplateName

/-- A scan target of a left context, and the memory it refers to. -/
structure ScanTargetExpr where
  op : String
  isDiscard : Bool
  reference : Except String ScanReference

inductive CountTarget where
  | discard
  | variable (byteLength : Nat)
  | undeclared (name : String)
  | other

/-- `count, targets = scanf(format)`, or the same with `fscanf`. -/
structure InputCall where
  hasFile : Bool
  fileIsHandle : Bool
  fileIsPointerSized : Bool
  format : List Byte
  countOp : String
  count : CountTarget
  targets : List ScanTargetExpr

structure InputLowering where
  format : List Byte
  items : List FormatItem
  targets : List ScanTarget

/-- The kind that the emitter gives a scan target. -/
def scanKind : TemplateName → ScanKind
  | .floating size => if isFloatByteLength size then .float else .any
  | .addr | .handle => .pointer
  | .cstr => .string
  | _ => .any

def lowerScanTargets : List FormatItem → List ScanTargetExpr → Except String (List ScanTarget)
  | item :: items, target :: targets =>
      if target.op ≠ "=" then
        .error "scanf/fscanf scan targets do not support assignment operators"
      else if target.isDiscard then .error "scanf/fscanf '_' is only valid for the count target"
      else do
        let reference ← target.reference
        match validateInputTarget item reference.byteLength with
        | some diagnostic => .error diagnostic
        | none => do
            let lowered ← lowerScanTargets items targets
            .ok ({ capacity := reference.byteLength,
                   kind := scanKind reference.templateName } :: lowered)
  | _, _ => .ok []

def checkCountTarget (op : String) : CountTarget → Except String Unit
  | target =>
    if op ≠ "=" ∧ op ≠ "%d=" then
      .error "scanf/fscanf count target only supports integer assignment"
    else match target with
      | .discard => .ok ()
      | .variable byteLength =>
          if byteLength ≠ 4 then .error "scanf/fscanf count target must be 4 bytes" else .ok ()
      | .undeclared name => .error ("use of undeclared variable '" ++ name ++ "'")
      | .other => .error "scanf/fscanf count target must be an identifier or '_'"

def lowerInputLeftContext (call : InputCall) : Except String InputLowering :=
  if call.targets = [] then
    .error "scanf/fscanf left-context requires a count target and at least one scan target"
  else do
    let items ← (parseLiteralFormat call.format).mapError
      (("function call '" ++ (if call.hasFile then "fscanf" else "scanf") ++
        "' has invalid format string: ") ++ ·)
    if items = [] then
      .error "scanf/fscanf literal format must contain at least one assignment conversion"
    else if call.targets.length ≠ items.length then
      .error "scanf/fscanf left-context target count does not match format item count"
    else do
      checkCountTarget call.countOp call.count
      let targets ← lowerScanTargets items call.targets
      if call.hasFile ∧ call.fileIsHandle = false then
        .error "fscanf file argument must be a handle"
      else if call.hasFile ∧ call.fileIsPointerSized = false then
        .error "fscanf file handle must be pointer-sized"
      else .ok { format := call.format, items, targets }

end HitSimple.Sema

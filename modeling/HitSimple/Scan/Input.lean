import HitSimple.Format.Scan
import HitSimple.Registry.Objects
import HitSimple.Slots.Memory

namespace HitSimple.Scan
open FixedWidth Format HitSimple.Runtime Slots
open Literal (maxUInt64)

/-- The bytes of the process, by address. The address `0` is `NULL`. -/
abbrev Bytes := List Byte

/-- What is left of an input stream: a byte that is pushed back stays in it. -/
abbrev Input := List Byte

structure HsScanTarget extends ScanTarget where
  data : Nat
  deriving DecidableEq

def HsScanTarget.region (target : HsScanTarget) : Region :=
  ⟨target.data, target.capacity⟩

/-- What the calls of `strtof`, `strtod`, `strtof128` and `hs_f32_to_f16` answer: nothing where the
conversion leaves a byte of the token or reports a range error. -/
structure FloatScanners where
  half : Bytes → Option (BitVec 16)
  single : Bytes → Option (BitVec 32)
  double : Bytes → Option (BitVec 64)
  quad : Bytes → Option (BitVec 128)

def isSpace (byte : Byte) : Bool :=
  byte = 32#8 ∨ 9 ≤ byte.toNat ∧ byte.toNat ≤ 13

def isUpper (byte : Byte) : Bool :=
  65 ≤ byte.toNat ∧ byte.toNat ≤ 90

def isLower (byte : Byte) : Bool :=
  97 ≤ byte.toNat ∧ byte.toNat ≤ 122

def isTokenByte (byte : Byte) : Bool :=
  isDigit byte || isUpper byte || isLower byte || byte == letter '+' || byte == letter '-' ||
    byte == letter '.'

def hsDigitValue (byte : Byte) : Option Nat :=
  if isDigit byte then some (byte.toNat - 48)
  else if 97 ≤ byte.toNat ∧ byte.toNat ≤ 102 then some (byte.toNat - 97 + 10)
  else if 65 ≤ byte.toNat ∧ byte.toNat ≤ 70 then some (byte.toNat - 65 + 10)
  else none

def hsSkipInputSpace (input : Input) : Input :=
  input.dropWhile isSpace

/-- The digit loop of `hs_read_integer`: the value, the number of digits and what is left. -/
def readDigits (base : Nat) : Input → Nat → Nat → Except String (Nat × Nat × Input)
  | [], value, digits => .ok (value, digits, [])
  | ch :: rest, value, digits =>
      match hsDigitValue ch with
      | none => .ok (value, digits, ch :: rest)
      | some digit =>
          if base ≤ digit then .ok (value, digits, ch :: rest)
          else if (maxUInt64 - digit) / base < value then .error "scan integer overflow"
          else readDigits base rest (value * base + digit) (digits + 1)

def skipSign : Input → Bool × Input
  | [] => (false, [])
  | ch :: rest =>
      if ch = letter '+' ∨ ch = letter '-' then (ch = letter '-', rest) else (false, ch :: rest)

def skipHexPrefix : Input → Input
  | zero :: marker :: rest =>
      if zero = letter '0' ∧ (marker = letter 'x' ∨ marker = letter 'X') then rest
      else zero :: marker :: rest
  | text => text

def hsReadInteger (input : Input) (base : Nat) (signedValue : Bool) :
    Except String (Option (BitVec 64) × Input) :=
  if hsSkipInputSpace input = [] then .ok (none, [])
  else
    let (negative, text) := skipSign (hsSkipInputSpace input)
    match readDigits base (if base = 16 then skipHexPrefix text else text) 0 0 with
    | .error message => .error message
    | .ok (value, digits, rest) =>
        if digits = 0 then .ok (none, rest)
        else if negative then
          if !signedValue then .ok (none, rest) else .ok (some (-BitVec.ofNat 64 value), rest)
        else .ok (some (BitVec.ofNat 64 value), rest)

/-- The token, which is empty where the read fails, and what is left. -/
def hsReadFloatToken (input : Input) (size : Nat) : Except String (Bytes × Input) :=
  let token := (hsSkipInputSpace input).takeWhile isTokenByte
  if size ≤ token.length then .error "scan float token is too long"
  else .ok (token, (hsSkipInputSpace input).dropWhile isTokenByte)

def littleEndian {width : Nat} (count : Nat) (word : BitVec width) : Bytes :=
  (List.range count).map (byteAt word)

def hsStoreUnsigned (capacity : Nat) (value : BitVec 64) : Except String Bytes :=
  if isIntegerCapacity capacity then .ok (littleEndian capacity value)
  else .error "invalid scan integer target capacity"

def scanFloat (floats : FloatScanners) (floatLength : Nat) (token : Bytes) : Option Bytes :=
  if floatLength = 2 then (floats.half token).map (littleEndian 2)
  else if floatLength = 4 then (floats.single token).map (littleEndian 4)
  else if floatLength = 8 then (floats.double token).map (littleEndian 8)
  else (floats.quad token).map (littleEndian 16)

def scanBase (specifier : Byte) : Nat :=
  if specifier = letter 'x' ∨ specifier = letter 'p' then 16
  else if specifier = letter 'o' then 8
  else if specifier = letter 'b' then 2
  else 10

/-- What a conversion does: it returns, it fails, or it stores bytes and goes on. -/
inductive Converted where
  | returned (count : Int) (input : Input)
  | failed (message : String)
  | stored (bytes : Bytes) (input : Input)
  deriving DecidableEq

/-- `converted == 0 ? EOF : converted`. -/
def endOfInput (converted : Nat) : Int :=
  if converted = 0 then -1 else converted

def convertCharacter (converted : Nat) : Input → Converted
  | [] => .returned (endOfInput converted) []
  | value :: rest => .stored [value] rest

def convertString (capacity converted : Nat) (input : Input) : Converted :=
  let text := hsSkipInputSpace input
  if text = [] then .returned (endOfInput converted) []
  else
    let written := (text.takeWhile (!isSpace ·)).take (capacity - 1)
    .stored (written ++ [0#8]) (text.drop (if capacity = 0 then 1 else written.length))

def convertFloat (floats : FloatScanners) (floatLength converted : Nat) (input : Input) :
    Converted :=
  match hsReadFloatToken input 192 with
  | .error message => .failed message
  | .ok (token, rest) =>
      if token = [] then .returned converted rest
      else match scanFloat floats floatLength token with
        | none => .returned converted rest
        | some bytes => .stored bytes rest

def convertInteger (specifier : Byte) (capacity converted : Nat) (input : Input) : Converted :=
  match hsReadInteger input (scanBase specifier) (specifier = letter 'd') with
  | .error message => .failed message
  | .ok (none, rest) => .returned converted rest
  | .ok (some value, rest) =>
      match hsStoreUnsigned capacity value with
      | .error message => .failed message
      | .ok bytes => .stored bytes rest

def convert (floats : FloatScanners) (item : FormatItem) (capacity converted : Nat)
    (input : Input) : Converted :=
  if item.specifier = letter 'c' then convertCharacter converted input
  else if item.specifier = letter 's' then convertString capacity converted input
  else if item.specifier = letter 'f' then
    convertFloat floats item.floatByteLength converted input
  else convertInteger item.specifier capacity converted input

def load (memory : Bytes) (address : Nat) : Byte :=
  memory.getD address 0#8

/-- The bytes of the format from an index on, to the end of the memory. -/
def formatFrom (memory : Bytes) (format index : Nat) : Bytes :=
  memory.drop (format + index)

/-- The length of the format: `strlen`, or `hs_cstr_length` where the call is checked. -/
def formatLength (registry : Registry.State) (memory : Bytes) (format : Nat) (checked : Bool) :
    Except String Nat :=
  let text := formatFrom memory format 0
  if !checked then .ok (visible text).length
  else if format = 0 then .error "unterminated scan format string"
  else match Registry.hsFind registry format with
    | none => .error "unterminated scan format string"
    | some slot =>
        let entry := registry.allocs slot
        if entry.freed then .error "unterminated scan format string"
        else
          let remaining := entry.size - (format - entry.ptr)
          if 0#8 ∈ text.take remaining then .ok (visible (text.take remaining)).length
          else .error "unterminated scan format string"

def hsValidateScanTarget (registry : Registry.State) (target : HsScanTarget) (item : FormatItem)
    (checked : Bool) : Except String Unit := do
  if target.data = 0 then .error "null scan target"
  else
    if checked then
      Registry.hsCheck registry target.data target.capacity "invalid scan target range"
    Runtime.hsValidateScanTarget target.toScanTarget item.specifier item.floatByteLength

structure ScanCall where
  format : Nat
  targets : List HsScanTarget
  checked : Bool
  deriving DecidableEq

section
variable (registry : Registry.State) (call : ScanCall) (length : Nat)

/-- The loop of `hs_validate_scan_format` from an index and a target on: the items in the order in
which they are checked, each against the target at its place. -/
def validateFrom (memory : Bytes) (index targetIndex : Nat) : Except String (List FormatItem) :=
  if _inside : index < length then
    if load memory (call.format + index) ≠ percentSign then
      validateFrom memory (index + 1) targetIndex
    else if length ≤ index + 1 then .error "unterminated scan format specifier"
    else if load memory (call.format + (index + 1)) = percentSign then
      validateFrom memory (index + 2) targetIndex
    else
      let digits := ((formatFrom memory call.format (index + 1)).take
        (length - (index + 1))).takeWhile isDigit
      let place := index + 1 + digits.length
      do
        let _ ← formatWidth "scan format width overflow" digits
        if length ≤ place then .error "unterminated scan format specifier"
        else
          let item ← hsScanItem ⟨digits, load memory (call.format + place)⟩
          match call.targets[targetIndex]? with
          | none => .error "scan format item count does not match target count"
          | some target =>
              hsValidateScanTarget registry target item call.checked
              let items ← validateFrom memory (place + 1) (targetIndex + 1)
              .ok (item :: items)
  else if targetIndex ≠ call.targets.length then
    .error "scan format item count does not match target count"
  else .ok []
termination_by length - index

end

def hsValidateScanFormat (registry : Registry.State) (call : ScanCall) (memory : Bytes) :
    Except String (Nat × List FormatItem) := do
  let length ← formatLength registry memory call.format call.checked
  let items ← validateFrom registry call length memory 0 0
  .ok (length, items)

/-- What `hs_scan_input` does with the format and the targets. -/
inductive Event where
  | reads (index : Nat)
  | selects (target : Nat)
  | converts (target : Nat) (item : FormatItem)
  | stores (target count : Nat)
  deriving DecidableEq, Repr

inductive Finish where
  | returned (count : Int)
  | failed (message : String)
  | strayed
  deriving DecidableEq, Repr

structure Outcome where
  finish : Finish
  memory : Bytes
  input : Input
  log : List Event
  deriving DecidableEq, Repr

def Outcome.after (outcome : Outcome) (events : List Event) : Outcome :=
  { outcome with log := events ++ outcome.log }

section
variable (floats : FloatScanners) (call : ScanCall) (length : Nat)

/-- The loop of `hs_scan_input`. -/
def scanFrom (index targetIndex converted : Nat) (memory : Bytes) (input : Input) : Outcome :=
  if _inside : index < length then
    let ch := load memory (call.format + index)
    if isSpace ch then
      let run := ((formatFrom memory call.format (index + 1)).take
        (length - (index + 1))).takeWhile isSpace
      scanFrom (index + run.length + 1) targetIndex converted memory (hsSkipInputSpace input)
    else if ch ≠ percentSign then
      match input with
      | [] => ⟨.returned (endOfInput converted), memory, [], []⟩
      | inputByte :: rest =>
          if inputByte = ch then scanFrom (index + 1) targetIndex converted memory rest
          else ⟨.returned converted, memory, input, []⟩
    else
      if load memory (call.format + (index + 1)) = percentSign then
        match input with
        | [] => ⟨.returned (endOfInput converted), memory, [], [.reads (index + 1)]⟩
        | inputByte :: rest =>
            if inputByte = percentSign then
              (scanFrom (index + 2) targetIndex converted memory rest).after [.reads (index + 1)]
            else ⟨.returned converted, memory, input, [.reads (index + 1)]⟩
      else
        let digits := (formatFrom memory call.format (index + 1)).takeWhile isDigit
        let place := index + 1 + digits.length
        let specifier := load memory (call.format + place)
        let width := width digits % 2 ^ 64
        let item : FormatItem :=
          ⟨specifier, if specifier = letter 'f' then floatByteLength width else width⟩
        match call.targets[targetIndex]? with
        | none => ⟨.strayed, memory, input, [.reads (index + 1), .reads place, .selects targetIndex]⟩
        | some target =>
            let events := [.reads (index + 1), .reads place, .selects targetIndex,
              .converts targetIndex item]
            match convert floats item target.capacity converted input with
            | .returned count rest => ⟨.returned count, memory, rest, events⟩
            | .failed message => ⟨.failed message, memory, input, events⟩
            | .stored bytes rest =>
                (scanFrom (place + 1) (targetIndex + 1) (converted + 1)
                  (write memory target.data bytes) rest).after
                  (events ++ [.stores targetIndex bytes.length])
  else ⟨.returned converted, memory, input, []⟩
termination_by length - index

end

def hsScanInput (floats : FloatScanners) (registry : Registry.State) (call : ScanCall)
    (memory : Bytes) (input : Input) : Outcome :=
  match hsValidateScanFormat registry call memory with
  | .error message => ⟨.failed message, memory, input, []⟩
  | .ok (length, _) => scanFrom floats call length 0 0 0 memory input

section Text

theorem takeWhile_take {Item : Type*} {test : Item → Bool} {items : List Item} {count : Nat}
    (stop : ∀ item, items[count]? = some item → test item = false) :
    (items.take count).takeWhile test = items.takeWhile test := by
  induction items generalizing count with
  | nil => simp
  | cons item items ih =>
      cases count with
      | zero => simp [stop item rfl]
      | succ count =>
          rw [List.take_succ_cons]
          by_cases passes : test item = true
          · rw [List.takeWhile_cons_of_pos passes, List.takeWhile_cons_of_pos passes,
              ih fun other found => stop other (by simpa using found)]
          · rw [List.takeWhile_cons_of_neg passes, List.takeWhile_cons_of_neg passes]

variable {format length : Nat} {before after : Bytes}

/-- The bytes of a format, with the one that ends it. -/
def formatRegion (format length : Nat) : Region :=
  ⟨format, length + 1⟩

theorem load_eq (intact : read after (formatRegion format length) =
    read before (formatRegion format length)) {index : Nat} (bound : index ≤ length) :
    load after (format + index) = load before (format + index) := by
  have same := congrArg (·[index]?) intact
  simp only [getElem?_read, formatRegion] at same
  rw [if_pos (by omega), if_pos (by omega)] at same
  rw [load, load, List.getD_eq_getElem?_getD, List.getD_eq_getElem?_getD, same]

theorem formatFrom_take_eq (intact : read after (formatRegion format length) =
    read before (formatRegion format length)) (index : Nat) :
    (formatFrom after format index).take (length - index) =
      (formatFrom before format index).take (length - index) := by
  apply List.ext_getElem?
  intro place
  have same := congrArg (·[index + place]?) intact
  simp only [getElem?_read, formatRegion] at same
  simp only [List.getElem?_take, formatFrom, List.getElem?_drop]
  split
  · rw [if_pos (by omega), if_pos (by omega)] at same
    simpa only [Nat.add_assoc] using same
  · rfl

/-- A digit run of the format ends at the end of the format. -/
theorem digits_eq (ended : load before (format + length) = 0#8)
    (intact : read after (formatRegion format length) = read before (formatRegion format length))
    {index : Nat} (bound : index ≤ length) :
    (formatFrom after format index).takeWhile isDigit =
      ((formatFrom before format index).take (length - index)).takeWhile isDigit := by
  rw [← formatFrom_take_eq intact index]
  apply (takeWhile_take _).symm
  intro byte found
  have last : load after (format + length) = byte := by
    rw [formatFrom, List.getElem?_drop] at found
    rw [load, List.getD_eq_getElem?_getD]
    have place : format + index + (length - index) = format + length := by omega
    rw [← place, found]
    rfl
  rw [← last, load_eq intact (Nat.le_refl _), ended]
  decide

end Text

section
variable {registry : Registry.State} {call : ScanCall} {length : Nat} {memory : Bytes}

/-- What an accepted format has at an index. -/
inductive Validated (registry : Registry.State) (call : ScanCall) (length : Nat) (memory : Bytes)
    (index targetIndex : Nat) : List FormatItem → Prop where
  | ended (atEnd : length ≤ index) (all : targetIndex = call.targets.length) :
      Validated registry call length memory index targetIndex []
  | byte {items} (inside : index < length)
      (other : load memory (call.format + index) ≠ percentSign)
      (later : validateFrom registry call length memory (index + 1) targetIndex = .ok items) :
      Validated registry call length memory index targetIndex items
  | percent {items} (inside : index + 1 < length)
      (first : load memory (call.format + index) = percentSign)
      (second : load memory (call.format + (index + 1)) = percentSign)
      (later : validateFrom registry call length memory (index + 2) targetIndex = .ok items) :
      Validated registry call length memory index targetIndex items
  | conversion {conversion target items} (inside : index + 1 < length)
      (first : load memory (call.format + index) = percentSign)
      (second : load memory (call.format + (index + 1)) ≠ percentSign)
      (digits : conversion.digits = ((formatFrom memory call.format (index + 1)).take
        (length - (index + 1))).takeWhile isDigit)
      (place : index + 1 + conversion.digits.length < length)
      (specifier : conversion.specifier =
        load memory (call.format + (index + 1 + conversion.digits.length)))
      (formed : WellFormed conversion)
      (found : call.targets[targetIndex]? = some target)
      (suits : SuitsTarget conversion target.toScanTarget)
      (later : validateFrom registry call length memory (index + 1 + conversion.digits.length + 1)
        (targetIndex + 1) = .ok items) :
      Validated registry call length memory index targetIndex (conversionItem conversion :: items)

theorem suits_of_hsValidateScanTarget {target : HsScanTarget} {item : FormatItem} {checked : Bool}
    (valid : hsValidateScanTarget registry target item checked = .ok ()) :
    Runtime.hsValidateScanTarget target.toScanTarget item.specifier item.floatByteLength =
      .ok () := by
  unfold hsValidateScanTarget at valid
  split at valid
  · cases valid
  · cases checked with
    | false => exact valid
    | true => exact (bind_ok_iff.mp valid).elim fun _ both => both.2

theorem validated_of_validateFrom {index targetIndex : Nat} {items : List FormatItem}
    (valid : validateFrom registry call length memory index targetIndex = .ok items) :
    Validated registry call length memory index targetIndex items := by
  rw [validateFrom] at valid
  split at valid
  · rename_i inside
    split at valid
    · rename_i other
      exact .byte inside other valid
    rename_i first
    rw [not_not] at first
    split at valid
    · cases valid
    rename_i more
    split at valid
    · rename_i second
      exact .percent (by omega) first second valid
    rename_i second
    dsimp only at valid
    rw [bind_ok_iff] at valid
    obtain ⟨_, _, valid⟩ := valid
    split at valid
    · cases valid
    rename_i place
    rw [bind_ok_iff] at valid
    obtain ⟨item, read, valid⟩ := valid
    obtain ⟨formed, rfl⟩ := hsScanItem_ok_iff.mp read
    split at valid
    · cases valid
    rename_i target found
    rw [bind_ok_iff] at valid
    obtain ⟨_, checks, valid⟩ := valid
    rw [bind_ok_iff] at valid
    obtain ⟨later, rest, valid⟩ := valid
    cases valid
    have suits := (hsValidateScanTarget_ok_iff _ _).mp (suits_of_hsValidateScanTarget checks)
    exact .conversion (by omega) first second rfl (by dsimp only; omega) rfl formed found suits rest
  · rename_i atEnd
    split at valid
    · cases valid
    · rename_i all
      cases valid
      exact .ended (by omega) (not_not.mp all)

end

end HitSimple.Scan

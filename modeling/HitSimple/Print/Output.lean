import HitSimple.FixedWidth.Reading
import HitSimple.Scan.Input

namespace HitSimple.Print
open FixedWidth Format HitSimple.Runtime
open HitSimple.Scan (Bytes load)

/-- An output stream: what it has taken, and how many bytes it takes before it fails, if it does. -/
structure Stream where
  text : Bytes
  room : Option Nat
  deriving DecidableEq, Repr

/-- The bytes of a write that the stream takes. -/
def Stream.taken (stream : Stream) (bytes : Bytes) : Bytes :=
  match stream.room with
  | none => bytes
  | some room => bytes.take room

def Stream.after (stream : Stream) (bytes : Bytes) : Stream where
  text := stream.text ++ stream.taken bytes
  room := stream.room.map (· - (stream.taken bytes).length)

/-- `hs_write`: whether the stream has taken everything. -/
def hsWrite (bytes : Bytes) (stream : Stream) : Bool × Stream :=
  ((stream.taken bytes).length = bytes.length, stream.after bytes)

structure HsFormatArg extends FormatArg where
  data : Nat
  deriving DecidableEq

/-- What `snprintf` writes for a pointer and for the floats, with `hs_f16_to_f32` before it for a
half and `strfromf128` in its place for a quad. -/
structure Printers where
  pointer : BitVec 64 → Bytes
  half : BitVec 16 → Bytes
  single : BitVec 32 → Bytes
  double : BitVec 64 → Bytes
  quad : BitVec 128 → Bytes

/-- The digits of a number, as `snprintf` writes them. -/
def numeralText (base number : Nat) : Bytes :=
  (Nat.toDigits base number).map letter

/-- `%lld`. -/
def signedText (value : BitVec 64) : Bytes :=
  if value.toInt < 0 then letter '-' :: numeralText 10 value.toInt.natAbs
  else numeralText 10 value.toInt.natAbs

/-- `%llu`, `%llx` and `%llo`. -/
def unsignedText (base : Nat) (value : BitVec 64) : Bytes :=
  numeralText base value.toNat

/-- The bits from the low end, as the loop of `%b` collects them. -/
def reverseBits (value : BitVec 64) : Bytes :=
  let bit := BitVec.ofNat 8 (48 + (value &&& 1#64).toNat)
  if _more : value >>> 1 = 0#64 then [bit] else bit :: reverseBits (value >>> 1)
termination_by value.toNat
decreasing_by
  have smaller : value.toNat / 2 ≠ 0 := by
    intro zero
    apply _more
    apply BitVec.eq_of_toNat_eq
    rwa [BitVec.toNat_ushiftRight, Nat.shiftRight_eq_div_pow, pow_one]
  rw [BitVec.toNat_ushiftRight, Nat.shiftRight_eq_div_pow]
  omega

def binaryText (value : BitVec 64) : Bytes :=
  (reverseBits value).reverse

section Arguments
variable (registry : Registry.State) (memory : Bytes) (checked : Bool) (argument : HsFormatArg)

/-- The loop of `hs_read_unsigned` over the first bytes. -/
def gather (bytes : Nat → Byte) (count : Nat) : BitVec 64 :=
  (List.range count).foldl
    (fun value index => value ||| ((bytes index).setWidth 64 <<< (index * 8))) 0#64

def hsReadUnsigned : Except String (BitVec 64) :=
  if argument.length = 0 ∨ 8 < argument.length then
    .error "invalid format integer argument length"
  else do
    if checked then
      Registry.hsCheck registry argument.data argument.length "invalid format integer argument"
    return gather (fun index => load memory (argument.data + index)) argument.length

def hsReadSigned : Except String (BitVec 64) := do
  let value ← hsReadUnsigned registry memory checked argument
  if argument.length = 8 then return value
  else
    let sign := 1#64 <<< (argument.length * 8 - 1)
    if value &&& sign = 0#64 then return value
    else return value ||| (BitVec.allOnes 64 <<< (argument.length * 8))

/-- `hs_check_cstr_view`: the bytes of a text up to its NUL. -/
def hsCheckCstrView (value visible : Nat) : Except String Bytes := do
  Registry.hsCheck registry value 1 "invalid checked string View"
  match Registry.hsFind registry value with
  -- the check has found the object already
  | none => .error "invalid checked string View"
  | some slot =>
      let entry := registry.allocs slot
      let remaining := entry.size - (value - entry.ptr)
      let text := (memory.drop value).take (min visible remaining)
      if text.contains 0#8 then .ok (Format.visible text)
      else .error (if visible < remaining then "unterminated visible cstr View"
        else "unterminated checked string")

/-- A conversion that goes through the buffer. -/
def bufferText (printers : Printers) (specifier : Byte) (floatLength : Nat) :
    Except String Bytes :=
  if specifier = letter 'd' then
    if checked ∧ argument.kind = .float then .error "format type mismatch for %d"
    else (hsReadSigned registry memory checked argument).map signedText
  else if specifier = letter 'u' then
    if checked ∧ argument.kind = .float then .error "format type mismatch for %u"
    else (hsReadUnsigned registry memory checked argument).map (unsignedText 10)
  else if specifier = letter 'x' then
    (hsReadUnsigned registry memory checked argument).map (unsignedText 16)
  else if specifier = letter 'o' then
    (hsReadUnsigned registry memory checked argument).map (unsignedText 8)
  else if specifier = letter 'b' then
    (hsReadUnsigned registry memory checked argument).map binaryText
  else if specifier = letter 'c' then
    (hsReadUnsigned registry memory checked argument).map fun value => [value.setWidth 8]
  else if specifier = letter 'p' then
    (hsReadUnsigned registry memory checked argument).map printers.pointer
  else if specifier = letter 'f' then
    let floatLength := floatByteLength floatLength
    let bytes := fun index => load memory (argument.data + index)
    if isFloatByteLength floatLength = false then .error "invalid float format byte length"
    else if checked ∧ (argument.kind ≠ .float ∨ argument.length ≠ floatLength) then
      .error "format type mismatch for %f"
    else do
      if checked then
        Registry.hsCheck registry argument.data argument.length "invalid format float argument"
      if floatLength = 2 then return printers.half (assemble 2 bytes)
      else if floatLength = 4 then return printers.single (assemble 4 bytes)
      else if floatLength = 8 then return printers.double (assemble 8 bytes)
      else return printers.quad (assemble 16 bytes)
  else .error "unknown format specifier"

/-- `%s`. -/
def stringText : Except String Bytes :=
  if checked ∧ argument.kind = .float then .error "format type mismatch for %s"
  else if checked then hsCheckCstrView registry memory argument.data argument.length
  else .ok (Format.visible (memory.drop argument.data))

end Arguments

inductive Finish where
  | returned (count : Int)
  | failed (message : String)
  deriving DecidableEq, Repr

/-- What a call comes to, with its stream behind it. -/
structure Outcome where
  finish : Finish
  stream : Stream
  deriving DecidableEq, Repr

def bufferSize : Nat := 160

/-- Writes bytes and goes on, unless the stream fails. -/
def writeThen (bytes : Bytes) (next : Stream → Outcome) (stream : Stream) : Outcome :=
  match hsWrite bytes stream with
  | (true, stream) => next stream
  | (false, stream) => ⟨.returned (-1), stream⟩

section Output
variable (printers : Printers) (registry : Registry.State) (memory : Bytes) (checked : Bool)

/-- The loop of `hs_format_output`, over the format that is left. -/
def printFrom : List Token → List HsFormatArg → (written : Nat) → Stream → Outcome
  | [], [], written, stream =>
      ⟨.returned (if 2 ^ 31 - 1 < written then 2 ^ 31 - 1 else written), stream⟩
  | [], _ :: _, _, stream =>
      ⟨.failed "format item count does not match argument count", stream⟩
  | .text byte :: rest, arguments, written, stream =>
      writeThen [byte] (printFrom rest arguments (written + 1)) stream
  | .percent :: rest, arguments, written, stream =>
      writeThen [percentSign] (printFrom rest arguments (written + 1)) stream
  | .unterminated digits :: _, _, _, stream =>
      match formatWidth "format width overflow" digits with
      | .error message => ⟨.failed message, stream⟩
      | .ok _ => ⟨.failed "unterminated format specifier", stream⟩
  | .conversion conversion :: rest, arguments, written, stream =>
      match formatWidth "format width overflow" conversion.digits with
      | .error message => ⟨.failed message, stream⟩
      | .ok width =>
          if conversion.specifier ≠ letter 'f' ∧ width ≠ 0 then
            ⟨.failed "format byte length is only valid for %f", stream⟩
          else match arguments with
            | [] => ⟨.failed "format item count does not match argument count", stream⟩
            | argument :: arguments =>
                if conversion.specifier = letter 's' then
                  match stringText registry memory checked argument with
                  | .error message => ⟨.failed message, stream⟩
                  | .ok text =>
                      writeThen text (printFrom rest arguments (written + text.length)) stream
                else
                  match bufferText registry memory checked argument printers conversion.specifier
                    width with
                  | .error message => ⟨.failed message, stream⟩
                  | .ok text =>
                      if bufferSize ≤ text.length then ⟨.returned (-1), stream⟩
                      else writeThen text (printFrom rest arguments (written + text.length)) stream

/-- The call of `hs_format_output`. -/
structure FormatCall where
  format : Nat
  arguments : List HsFormatArg
  checked : Bool
  deriving DecidableEq

/-- The length of the format: `hs_cstr_length` has one failure, with the text of its caller. -/
def formatLength (format : Nat) : Except String Nat :=
  (Scan.formatLength registry memory format checked).mapError fun _ => "unterminated format string"

end Output

def hsFormatOutput (printers : Printers) (registry : Registry.State) (call : FormatCall)
    (memory : Bytes) (stream : Stream) : Outcome :=
  match formatLength registry memory call.checked call.format with
  | .error message => ⟨.failed message, stream⟩
  | .ok length =>
      printFrom printers registry memory call.checked
        (tokens ((memory.drop call.format).take length)) call.arguments 0 stream

/-! ### The bytes of an argument -/

section Bytes
variable {bytes : Nat → Byte} {count : Nat}

theorem getLsbD_gather (bound : count ≤ 8) {bit : Nat} :
    (gather bytes count).getLsbD bit =
      (decide (bit < count * 8) && (bytes (bit / 8)).getLsbD (bit % 8)) := by
  induction count with
  | zero => simp [gather]
  | succ count ih =>
      have step : gather bytes (count + 1) =
          gather bytes count ||| ((bytes count).setWidth 64 <<< (count * 8)) := by
        rw [gather, List.range_succ, List.foldl_append]
        rfl
      rw [step, BitVec.getLsbD_or, ih (Nat.le_of_succ_le bound), BitVec.getLsbD_shiftLeft,
        BitVec.getLsbD_setWidth]
      by_cases low : bit < count * 8
      · simp [low, Nat.lt_of_lt_of_le low (Nat.mul_le_mul_right 8 (Nat.le_succ count))]
      · by_cases here : bit < (count + 1) * 8
        · have quotient : bit / 8 = count := by omega
          have remainder : bit % 8 = bit - count * 8 := by omega
          simp [low, here, quotient, remainder, show bit < 64 by omega,
            show bit - count * 8 < 64 by omega]
        · have high : (bytes count).getLsbD (bit - count * 8) = false :=
            BitVec.getLsbD_of_ge _ _ (by omega)
          simp [low, here, high]

/-- The loop reads the word in little-endian order. -/
theorem gather_eq (bound : count ≤ 8) : gather bytes count = (assemble count bytes).setWidth 64 := by
  apply BitVec.eq_of_getLsbD_eq
  intro bit inside
  rw [getLsbD_gather bound, BitVec.getLsbD_setWidth]
  by_cases low : bit < count * 8
  · rw [getLsbD_assemble bytes low]
    simp [low, inside]
  · simp [low, BitVec.getLsbD_of_ge _ _ (Nat.le_of_not_lt low)]

theorem and_shiftLeft_eq_zero_iff {value : BitVec 64} {bit : Nat} (inside : bit < 64) :
    value &&& (1#64 <<< bit) = 0#64 ↔ value.getLsbD bit = false := by
  rw [← BitVec.twoPow_eq, BitVec.and_twoPow]
  cases value.getLsbD bit with
  | false => simp
  | true =>
      simp only [if_true, Bool.true_eq_false, iff_false]
      intro zero
      have set := congrArg (BitVec.getLsbD · bit) zero
      simp [inside] at set

/-- Setting the bits above a number is its sign extension. -/
theorem or_allOnes_eq {word : BitVec (count * 8)} (negative : word.msb = true) :
    word.setWidth 64 ||| (BitVec.allOnes 64 <<< (count * 8)) = word.signExtend 64 := by
  apply BitVec.eq_of_getLsbD_eq
  intro bit inside
  rw [BitVec.getLsbD_or, BitVec.getLsbD_setWidth, BitVec.getLsbD_shiftLeft,
    BitVec.getLsbD_allOnes, BitVec.getLsbD_signExtend, negative]
  by_cases low : bit < count * 8
  · simp [low, inside]
  · simp [low, inside, show bit - count * 8 < 64 by omega]

end Bytes

section Arguments
variable {registry : Registry.State} {memory : Bytes} {checked : Bool} {argument : HsFormatArg}
  {value : BitVec 64}

/-- The bytes of an argument as a word. -/
def argumentWord (memory : Bytes) (argument : HsFormatArg) : BitVec (argument.length * 8) :=
  assemble argument.length fun index => load memory (argument.data + index)

theorem hsReadUnsigned_ok (read : hsReadUnsigned registry memory checked argument = .ok value) :
    0 < argument.length ∧ argument.length ≤ 8 ∧ value = (argumentWord memory argument).setWidth 64 := by
  unfold hsReadUnsigned at read
  split at read
  · cases read
  · rename_i inside
    have bound : argument.length ≤ 8 := by omega
    refine ⟨by omega, bound, ?_⟩
    rw [argumentWord, ← gather_eq bound]
    dsimp only at read
    split at read
    · obtain ⟨_, _, returned⟩ := bind_ok_iff.mp read
      exact (Except.ok.inj returned).symm
    · exact (Except.ok.inj read).symm

theorem hsReadSigned_ok (read : hsReadSigned registry memory checked argument = .ok value) :
    0 < argument.length ∧ argument.length ≤ 8 ∧ value = (argumentWord memory argument).signExtend 64 := by
  obtain ⟨unsigned, loaded, rest⟩ := bind_ok_iff.mp read
  obtain ⟨positive, bound, rfl⟩ := hsReadUnsigned_ok loaded
  refine ⟨positive, bound, ?_⟩
  generalize argumentWord memory argument = word at rest ⊢
  dsimp only at rest
  have last : argument.length * 8 - 1 < 64 := by omega
  have low : argument.length * 8 - 1 < argument.length * 8 := by omega
  have sign : (word.setWidth 64).getLsbD (argument.length * 8 - 1) = word.msb := by
    rw [BitVec.getLsbD_setWidth, decide_eq_true last, Bool.true_and, BitVec.msb_eq_getLsbD_last]
  split at rest
  · rename_i whole
    rw [← Except.ok.inj rest, BitVec.signExtend_eq_setWidth_of_le _ (by omega)]
  · split at rest
    · rename_i clear
      rw [and_shiftLeft_eq_zero_iff last, sign] at clear
      rw [← Except.ok.inj rest, BitVec.signExtend_eq_setWidth_of_msb_false clear]
    · rename_i set
      rw [and_shiftLeft_eq_zero_iff last, sign, Bool.not_eq_false] at set
      rw [← Except.ok.inj rest, or_allOnes_eq set]

end Arguments

/-! ### Writing -/

theorem map_ok_iff {Value : Type} {action : Except String Value} {shown : Value → Bytes}
    {text : Bytes} :
    action.map shown = .ok text ↔ ∃ value, action = .ok value ∧ shown value = text := by
  cases action with
  | error message => exact ⟨nofun, nofun⟩
  | ok value =>
      refine ⟨fun same => ⟨value, rfl, Except.ok.inj same⟩, fun ⟨_, same, shown⟩ => ?_⟩
      cases same
      exact congrArg Except.ok shown

/-- What the stream takes of a write is all of it or less. -/
theorem Stream.taken_eq {stream : Stream} {bytes : Bytes}
    (complete : (stream.taken bytes).length = bytes.length) : stream.taken bytes = bytes := by
  unfold Stream.taken at complete ⊢
  cases room : stream.room with
  | none => rfl
  | some count =>
      rw [room, List.length_take] at complete
      exact List.take_of_length_le (by omega)

theorem writeThen_cases (bytes : Bytes) (next : Stream → Outcome) (stream : Stream) :
    (stream.after bytes).text = stream.text ++ bytes ∧
        writeThen bytes next stream = next (stream.after bytes) ∨
      writeThen bytes next stream = ⟨.returned (-1), stream.after bytes⟩ := by
  by_cases complete : (stream.taken bytes).length = bytes.length
  · refine .inl ⟨?_, ?_⟩
    · rw [Stream.after, Stream.taken_eq complete]
    · rw [writeThen, hsWrite, decide_eq_true complete]
  · refine .inr ?_
    rw [writeThen, hsWrite, decide_eq_false complete]

/-! ### The conversions of a run -/

section Pieces
variable {printers : Printers} {registry : Registry.State} {memory : Bytes} {checked : Bool}
  {argument : HsFormatArg} {specifier : Byte} {width : Nat} {text : Bytes}

theorem hsConvert_of_hsReadUnsigned {value : BitVec 64}
    (reads : isIntegerSpecifier specifier = true ∨ specifier = letter 'c' ∨ specifier = letter 'p')
    (notFloat : specifier = letter 'd' ∨ specifier = letter 'u' →
      ¬(checked = true ∧ argument.kind = .float))
    (read : hsReadUnsigned registry memory checked argument = .ok value) :
    ∃ item, hsConvert checked specifier width argument.toFormatArg = .ok item := by
  obtain ⟨positive, bound, -⟩ := hsReadUnsigned_ok read
  have inside : ¬(argument.length = 0 ∨ 8 < argument.length) := by omega
  rw [hsConvert, if_neg fun mismatch => notFloat (.inl mismatch.1) mismatch.2,
    if_neg fun mismatch => notFloat (.inr mismatch.1) mismatch.2, if_pos reads,
    Runtime.hsReadInteger, if_neg inside]
  exact ⟨_, rfl⟩

/-- What the buffer takes suits its conversion. -/
theorem hsConvert_of_bufferText
    (printed : bufferText registry memory checked argument printers specifier width = .ok text) :
    ∃ item, hsConvert checked specifier width argument.toFormatArg = .ok item := by
  have unsigned {shown : BitVec 64 → Bytes}
      (reads : isIntegerSpecifier specifier = true ∨ specifier = letter 'c' ∨
        specifier = letter 'p')
      (notFloat : specifier = letter 'd' ∨ specifier = letter 'u' →
        ¬(checked = true ∧ argument.kind = .float))
      (printed : (hsReadUnsigned registry memory checked argument).map shown = .ok text) :
      ∃ item, hsConvert checked specifier width argument.toFormatArg = .ok item := by
    obtain ⟨value, read, -⟩ := map_ok_iff.mp printed
    exact hsConvert_of_hsReadUnsigned reads notFloat read
  unfold bufferText at printed
  by_cases signed : specifier = letter 'd'
  · rw [if_pos signed] at printed
    by_cases mismatch : checked = true ∧ argument.kind = .float
    · rw [if_pos mismatch] at printed
      cases printed
    · rw [if_neg mismatch] at printed
      obtain ⟨value, read, -⟩ := map_ok_iff.mp printed
      obtain ⟨bits, loaded, -⟩ := bind_ok_iff.mp read
      exact hsConvert_of_hsReadUnsigned (.inl (by rw [signed]; decide)) (fun _ => mismatch) loaded
  rw [if_neg signed] at printed
  by_cases decimal : specifier = letter 'u'
  · rw [if_pos decimal] at printed
    by_cases mismatch : checked = true ∧ argument.kind = .float
    · rw [if_pos mismatch] at printed
      cases printed
    · rw [if_neg mismatch] at printed
      exact unsigned (.inl (by rw [decimal]; decide)) (fun _ => mismatch) printed
  rw [if_neg decimal] at printed
  have other : specifier = letter 'd' ∨ specifier = letter 'u' →
      ¬(checked = true ∧ argument.kind = .float) :=
    fun mistaken => absurd mistaken (not_or.mpr ⟨signed, decimal⟩)
  by_cases hexadecimal : specifier = letter 'x'
  · rw [if_pos hexadecimal] at printed
    exact unsigned (.inl (by rw [hexadecimal]; decide)) other printed
  rw [if_neg hexadecimal] at printed
  by_cases octal : specifier = letter 'o'
  · rw [if_pos octal] at printed
    exact unsigned (.inl (by rw [octal]; decide)) other printed
  rw [if_neg octal] at printed
  by_cases binary : specifier = letter 'b'
  · rw [if_pos binary] at printed
    exact unsigned (.inl (by rw [binary]; decide)) other printed
  rw [if_neg binary] at printed
  by_cases character : specifier = letter 'c'
  · rw [if_pos character] at printed
    exact unsigned (.inr (.inl character)) other printed
  rw [if_neg character] at printed
  by_cases pointer : specifier = letter 'p'
  · rw [if_pos pointer] at printed
    exact unsigned (.inr (.inr pointer)) other printed
  rw [if_neg pointer] at printed
  by_cases isFloat : specifier = letter 'f'
  · rw [if_pos isFloat] at printed
    dsimp only at printed
    by_cases unknown : isFloatByteLength (floatByteLength width) = false
    · rw [if_pos unknown] at printed
      cases printed
    rw [if_neg unknown] at printed
    by_cases mismatch : checked = true ∧
        (argument.kind ≠ .float ∨ argument.length ≠ floatByteLength width)
    · rw [if_pos mismatch] at printed
      cases printed
    refine ⟨{ specifier := letter 'f', floatByteLength := floatByteLength width }, ?_⟩
    have converted : hsConvert checked (letter 'f') width argument.toFormatArg =
        if isFloatByteLength (floatByteLength width) = false then
          .error "invalid float format byte length"
        else if checked ∧ (argument.kind ≠ .float ∨ argument.length ≠ floatByteLength width) then
          .error "format type mismatch for %f"
        else .ok { specifier := letter 'f', floatByteLength := floatByteLength width } := rfl
    rw [isFloat, converted, if_neg unknown, if_neg mismatch]
  · rw [if_neg isFloat] at printed
    cases printed

theorem hsConvert_of_stringText (width : Nat)
    (printed : stringText registry memory checked argument = .ok text) :
    ∃ item, hsConvert checked (letter 's') width argument.toFormatArg = .ok item := by
  unfold stringText at printed
  by_cases mismatch : checked = true ∧ argument.kind = .float
  · rw [if_pos mismatch] at printed
    cases printed
  · have converted : hsConvert checked (letter 's') width argument.toFormatArg =
        if checked ∧ argument.kind = .float then .error "format type mismatch for %s"
        else .ok { specifier := letter 's', floatByteLength := 0 } := rfl
    rw [converted, if_neg mismatch]
    exact ⟨_, rfl⟩

/-- A run that does not fail goes through the conversions that the format has, each with an argument
that suits it. -/
theorem printFrom_pieces {tokens : List Token} {arguments : List HsFormatArg} {written : Nat}
    {stream : Stream} {count : Int}
    (returned : (printFrom printers registry memory checked tokens arguments written stream).finish =
      .returned count) (complete : 0 ≤ count) :
    ∃ pieces, Runtime.hsFormatOutput checked tokens (arguments.map HsFormatArg.toFormatArg) =
      .ok pieces := by
  have goesOn {bytes : Bytes} {next : Stream → Outcome} {stream : Stream}
      (returned : (writeThen bytes next stream).finish = .returned count) :
      (next (stream.after bytes)).finish = .returned count := by
    rcases writeThen_cases bytes next stream with ⟨-, same⟩ | stops
    · rwa [same] at returned
    · rw [stops] at returned
      cases returned
      exact absurd complete (by decide)
  induction tokens generalizing arguments written stream with
  | nil =>
      cases arguments with
      | nil => exact ⟨[], rfl⟩
      | cons argument arguments => cases returned
  | cons token rest inductive_hypothesis =>
      cases token with
      | text byte =>
          obtain ⟨pieces, found⟩ := inductive_hypothesis (goesOn returned)
          exact ⟨_, map_cons_ok_iff.mpr ⟨pieces, found, rfl⟩⟩
      | percent =>
          obtain ⟨pieces, found⟩ := inductive_hypothesis (goesOn returned)
          exact ⟨_, map_cons_ok_iff.mpr ⟨pieces, found, rfl⟩⟩
      | unterminated digits =>
          rw [printFrom] at returned
          split at returned <;> cases returned
      | conversion conversion =>
          rw [printFrom, formatWidth_eq] at returned
          by_cases fits : width conversion.digits ≤ Literal.maxUInt64
          · rw [if_pos fits] at returned
            dsimp only at returned
            by_cases misplaced : conversion.specifier ≠ letter 'f' ∧ width conversion.digits ≠ 0
            · rw [if_pos misplaced] at returned
              cases returned
            rw [if_neg misplaced] at returned
            have noWidth : conversion.specifier ≠ letter 'f' → width conversion.digits = 0 :=
              fun other => not_not.mp fun wide => misplaced ⟨other, wide⟩
            cases arguments with
            | nil => cases returned
            | cons argument arguments =>
                have step {item : FormatItem} {pieces : List Piece}
                    (converted : hsConvert checked conversion.specifier (width conversion.digits)
                      argument.toFormatArg = .ok item)
                    (found : Runtime.hsFormatOutput checked rest
                      (arguments.map HsFormatArg.toFormatArg) = .ok pieces) :
                    ∃ pieces, Runtime.hsFormatOutput checked (.conversion conversion :: rest)
                      (argument.toFormatArg :: arguments.map HsFormatArg.toFormatArg) =
                        .ok pieces := by
                  obtain ⟨formed, suits, -⟩ := (hsConvert_ok_iff noWidth).mp converted
                  exact ⟨_, Runtime.hsFormatOutput_conversion.mpr
                    ⟨⟨formed, suits⟩, pieces, found, rfl⟩⟩
                dsimp only at returned
                by_cases string : conversion.specifier = letter 's'
                · rw [if_pos string] at returned
                  cases printed : stringText registry memory checked argument with
                  | error message =>
                      rw [printed] at returned
                      cases returned
                  | ok text =>
                      rw [printed] at returned
                      obtain ⟨item, converted⟩ :=
                        hsConvert_of_stringText (width conversion.digits) printed
                      obtain ⟨pieces, found⟩ := inductive_hypothesis (goesOn returned)
                      exact step (string ▸ converted) found
                · rw [if_neg string] at returned
                  cases printed : bufferText registry memory checked argument printers
                      conversion.specifier (width conversion.digits) with
                  | error message =>
                      rw [printed] at returned
                      cases returned
                  | ok text =>
                      rw [printed] at returned
                      dsimp only at returned
                      by_cases long : bufferSize ≤ text.length
                      · rw [if_pos long] at returned
                        cases returned
                        exact absurd complete (by decide)
                      · rw [if_neg long] at returned
                        obtain ⟨item, converted⟩ := hsConvert_of_bufferText printed
                        obtain ⟨pieces, found⟩ := inductive_hypothesis (goesOn returned)
                        exact step converted found
          · rw [if_neg fits] at returned
            cases returned

end Pieces
end HitSimple.Print

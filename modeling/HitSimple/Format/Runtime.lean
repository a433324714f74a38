import HitSimple.Format.Text
import HitSimple.Literal

namespace HitSimple.Runtime
open FixedWidth Format Literal

def letter (character : Char) : Byte :=
  BitVec.ofNat 8 character.toNat

inductive FormatArgKind where
  | bytes | float | string
  deriving DecidableEq, Repr

/-- A format argument: the length and the kind of its View. -/
structure FormatArg where
  length : Nat
  kind : FormatArgKind
  deriving DecidableEq, Repr

/-- A conversion specification, with the byte length of a float. -/
structure FormatItem where
  specifier : Byte
  floatByteLength : Nat
  deriving DecidableEq, Repr

/-- What a format writes: a byte of its own, or a converted argument. -/
inductive Piece where
  | byte (byte : Byte)
  | converted (item : FormatItem) (argument : FormatArg)
  deriving DecidableEq, Repr

def Piece.item? : Piece → Option FormatItem
  | .byte _ => none
  | .converted item _ => some item

section Width
variable (overflow : String)

def appendWidthDigit (width : Nat) (digit : Byte) : Except String Nat :=
  if (maxUInt64 - (digit.toNat - 48)) / 10 < width then .error overflow
  else .ok (appendDigit width digit)

def formatWidth (digits : List Byte) : Except String Nat :=
  digits.foldlM (appendWidthDigit overflow) 0

theorem appendWidthDigit_of_le {width : Nat} {digit : Byte}
    (fits : appendDigit width digit ≤ maxUInt64) :
    appendWidthDigit overflow width digit = .ok (appendDigit width digit) := by
  have small : digit.toNat < 256 := digit.isLt
  rw [appendDigit, maxUInt64] at fits
  rw [appendWidthDigit, if_neg]
  rw [maxUInt64]
  omega

theorem appendWidthDigit_of_lt {width : Nat} {digit : Byte}
    (exceeds : maxUInt64 < appendDigit width digit) :
    appendWidthDigit overflow width digit = .error overflow := by
  have small : digit.toNat < 256 := digit.isLt
  rw [appendDigit, maxUInt64] at exceeds
  rw [appendWidthDigit, if_pos]
  rw [maxUInt64]
  omega

theorem le_foldl_appendDigit (digits : List Byte) (width : Nat) :
    width ≤ digits.foldl appendDigit width := by
  induction digits generalizing width with
  | nil => exact le_rfl
  | cons digit digits ih =>
      have grows : width ≤ appendDigit width digit := by
        rw [appendDigit]
        omega
      exact grows.trans (ih _)

theorem foldlM_appendWidthDigit (digits : List Byte) {width : Nat} (fits : width ≤ maxUInt64) :
    digits.foldlM (appendWidthDigit overflow) width =
      if digits.foldl appendDigit width ≤ maxUInt64 then .ok (digits.foldl appendDigit width)
      else .error overflow := by
  induction digits generalizing width with
  | nil => exact (if_pos fits).symm
  | cons digit digits ih =>
      rw [List.foldlM_cons, List.foldl_cons]
      by_cases next : appendDigit width digit ≤ maxUInt64
      · rw [appendWidthDigit_of_le overflow next]
        exact ih next
      · rw [appendWidthDigit_of_lt overflow (not_le.mp next), if_neg]
        · rfl
        · exact fun small => next ((le_foldl_appendDigit digits _).trans small)

theorem formatWidth_eq (digits : List Byte) :
    formatWidth overflow digits =
      if width digits ≤ maxUInt64 then .ok (width digits) else .error overflow :=
  foldlM_appendWidthDigit overflow digits (Nat.zero_le _)

end Width

/-- The specifiers that write or read an integer. -/
def isIntegerSpecifier (specifier : Byte) : Bool :=
  specifier == letter 'd' || specifier == letter 'u' || specifier == letter 'x' ||
    specifier == letter 'o' || specifier == letter 'b'

def isFloatByteLength (byteLength : Nat) : Bool :=
  byteLength == 2 || byteLength == 4 || byteLength == 8 || byteLength == 16

/-- The byte length of a float conversion without a width is 8. -/
def floatByteLength (width : Nat) : Nat :=
  if width = 0 then 8 else width

section Output
variable (checked : Bool)

def hsReadInteger (argument : FormatArg) : Except String Unit :=
  if argument.length = 0 ∨ 8 < argument.length then
    .error "invalid format integer argument length"
  else .ok ()

/-- Converts an argument, unless it does not suit the conversion. -/
def hsConvert (specifier : Byte) (width : Nat) (argument : FormatArg) : Except String FormatItem :=
  if specifier = letter 'd' ∧ checked ∧ argument.kind = .float then
    .error "format type mismatch for %d"
  else if specifier = letter 'u' ∧ checked ∧ argument.kind = .float then
    .error "format type mismatch for %u"
  else if isIntegerSpecifier specifier ∨ specifier = letter 'c' ∨ specifier = letter 'p' then
    (hsReadInteger argument).map fun _ => { specifier, floatByteLength := 0 }
  else if specifier = letter 's' then
    if checked ∧ argument.kind = .float then .error "format type mismatch for %s"
    else .ok { specifier, floatByteLength := 0 }
  else if specifier = letter 'f' then
    if isFloatByteLength (floatByteLength width) = false then
      .error "invalid float format byte length"
    else if checked ∧ (argument.kind ≠ .float ∨ argument.length ≠ floatByteLength width) then
      .error "format type mismatch for %f"
    else .ok { specifier, floatByteLength := floatByteLength width }
  else .error "unknown format specifier"

def hsFormatOutput : List Token → List FormatArg → Except String (List Piece)
  | [], [] => .ok []
  | [], _ :: _ => .error "format item count does not match argument count"
  | .text byte :: rest, arguments => (hsFormatOutput rest arguments).map (.byte byte :: ·)
  | .percent :: rest, arguments => (hsFormatOutput rest arguments).map (.byte percentSign :: ·)
  | .unterminated digits :: _, _ => do
      let _ ← formatWidth "format width overflow" digits
      .error "unterminated format specifier"
  | .conversion conversion :: rest, arguments => do
      let width ← formatWidth "format width overflow" conversion.digits
      if conversion.specifier ≠ letter 'f' ∧ width ≠ 0 then
        .error "format byte length is only valid for %f"
      else match arguments with
        | [] => .error "format item count does not match argument count"
        | argument :: arguments => do
            let item ← hsConvert checked conversion.specifier width argument
            let pieces ← hsFormatOutput rest arguments
            .ok (.converted item argument :: pieces)

end Output

/-- Specifiers are known, and only floats have a width, the one of a float format. -/
structure WellFormed (conversion : Conversion) : Prop where
  known : isIntegerSpecifier conversion.specifier ∨ conversion.specifier = letter 'c' ∨
    conversion.specifier = letter 'p' ∨ conversion.specifier = letter 's' ∨
    conversion.specifier = letter 'f'
  integer : conversion.specifier ≠ letter 'f' → width conversion.digits = 0
  float : conversion.specifier = letter 'f' →
    isFloatByteLength (floatByteLength (width conversion.digits)) = true

/-- The item that a conversion stands for. -/
def conversionItem (conversion : Conversion) : FormatItem where
  specifier := conversion.specifier
  floatByteLength :=
    if conversion.specifier = letter 'f' then floatByteLength (width conversion.digits) else 0

/-- The View of an argument suits its conversion. -/
structure SuitsArgument (checked : Bool) (conversion : Conversion) (argument : FormatArg) :
    Prop where
  integer : isIntegerSpecifier conversion.specifier ∨ conversion.specifier = letter 'c' ∨
    conversion.specifier = letter 'p' → 0 < argument.length ∧ argument.length ≤ 8
  notFloat : conversion.specifier = letter 'd' ∨ conversion.specifier = letter 'u' ∨
    conversion.specifier = letter 's' → checked = true → argument.kind ≠ .float
  float : conversion.specifier = letter 'f' → checked = true → argument.kind = .float ∧
    argument.length = floatByteLength (width conversion.digits)

theorem WellFormed.width_le {conversion : Conversion} (formed : WellFormed conversion) :
    width conversion.digits ≤ maxUInt64 := by
  by_cases isFloat : conversion.specifier = letter 'f'
  · have known := formed.float isFloat
    simp only [isFloatByteLength, floatByteLength, Bool.or_eq_true, beq_iff_eq] at known
    rw [maxUInt64]
    split at known <;> omega
  · rw [formed.integer isFloat]
    exact Nat.zero_le _

theorem ne_of_isIntegerSpecifier {specifier : Byte}
    (integer : isIntegerSpecifier specifier ∨ specifier = letter 'c' ∨ specifier = letter 'p') :
    specifier ≠ letter 's' ∧ specifier ≠ letter 'f' := by
  constructor
  · rintro rfl
    exact absurd integer (by decide)
  · rintro rfl
    exact absurd integer (by decide)

theorem hsReadInteger_map_ok_iff {argument : FormatArg} {item item' : FormatItem} :
    (hsReadInteger argument).map (fun _ => item) = .ok item' ↔
      (0 < argument.length ∧ argument.length ≤ 8) ∧ item' = item := by
  rw [hsReadInteger]
  split_ifs with outside
  · refine ⟨nofun, fun ⟨inside, _⟩ => ?_⟩
    omega
  · have inside : 0 < argument.length ∧ argument.length ≤ 8 := by omega
    rw [and_iff_right inside]
    exact ⟨fun same => (Except.ok.inj same).symm, fun same => congrArg Except.ok same.symm⟩

section Convert
variable {checked : Bool} {conversion : Conversion} {argument : FormatArg} {item : FormatItem}

theorem hsConvert_integer
    (reads : isIntegerSpecifier conversion.specifier ∨ conversion.specifier = letter 'c' ∨
      conversion.specifier = letter 'p') (noWidth : width conversion.digits = 0) :
    hsConvert checked conversion.specifier (width conversion.digits) argument = .ok item ↔
      WellFormed conversion ∧ SuitsArgument checked conversion argument ∧
        item = conversionItem conversion := by
  obtain ⟨notString, notFloat⟩ := ne_of_isIntegerSpecifier reads
  have formed : WellFormed conversion := {
    known := by
      rcases reads with integer | character | pointer
      · exact .inl integer
      · exact .inr (.inl character)
      · exact .inr (.inr (.inl pointer))
    integer := fun _ => noWidth
    float := fun isFloat => absurd isFloat notFloat }
  have stands : conversionItem conversion = { specifier := conversion.specifier, floatByteLength := 0 } := by
    rw [conversionItem, if_neg notFloat]
  rw [and_iff_right formed, stands, hsConvert]
  split_ifs with signedMismatch unsignedMismatch
  · refine ⟨nofun, fun ⟨suits, _⟩ => ?_⟩
    exact absurd signedMismatch.2.2 (suits.notFloat (.inl signedMismatch.1) signedMismatch.2.1)
  · refine ⟨nofun, fun ⟨suits, _⟩ => ?_⟩
    exact absurd unsignedMismatch.2.2
      (suits.notFloat (.inr (.inl unsignedMismatch.1)) unsignedMismatch.2.1)
  · rw [hsReadInteger_map_ok_iff]
    refine and_congr_left fun _ => ⟨fun inside => ?_, fun suits => suits.integer reads⟩
    refine ⟨fun _ => inside, fun decimal isChecked isFloat => ?_, fun isFloat => absurd isFloat notFloat⟩
    rcases decimal with signed | unsigned | string
    · exact signedMismatch ⟨signed, isChecked, isFloat⟩
    · exact unsignedMismatch ⟨unsigned, isChecked, isFloat⟩
    · exact notString string

theorem hsConvert_string (string : conversion.specifier = letter 's')
    (noWidth : width conversion.digits = 0) :
    hsConvert checked conversion.specifier (width conversion.digits) argument = .ok item ↔
      WellFormed conversion ∧ SuitsArgument checked conversion argument ∧
        item = conversionItem conversion := by
  have notFloat : conversion.specifier ≠ letter 'f' := by
    rw [string]
    decide
  have formed : WellFormed conversion :=
    ⟨.inr (.inr (.inr (.inl string))), fun _ => noWidth, fun isFloat => absurd isFloat notFloat⟩
  have stands : conversionItem conversion = { specifier := letter 's', floatByteLength := 0 } := by
    rw [conversionItem, if_neg notFloat, string]
  have suits : SuitsArgument checked conversion argument ↔
      (checked = true → argument.kind ≠ .float) := by
    refine ⟨fun suits => suits.notFloat (.inr (.inr string)), fun kind => ⟨?_, fun _ => kind, ?_⟩⟩
    · rw [string]
      exact fun reads => absurd reads (by decide)
    · exact fun isFloat => absurd isFloat notFloat
  have converted : hsConvert checked (letter 's') (width conversion.digits) argument =
      if checked ∧ argument.kind = .float then .error "format type mismatch for %s"
      else .ok { specifier := letter 's', floatByteLength := 0 } := rfl
  rw [and_iff_right formed, suits, stands, string, converted]
  split_ifs with mismatch
  · exact ⟨nofun, fun ⟨kind, _⟩ => absurd mismatch.2 (kind mismatch.1)⟩
  · rw [and_iff_right fun isChecked isFloat => mismatch ⟨isChecked, isFloat⟩]
    exact ⟨fun same => (Except.ok.inj same).symm, fun same => congrArg Except.ok same.symm⟩

theorem hsConvert_float (isFloat : conversion.specifier = letter 'f') :
    hsConvert checked conversion.specifier (width conversion.digits) argument = .ok item ↔
      WellFormed conversion ∧ SuitsArgument checked conversion argument ∧
        item = conversionItem conversion := by
  have formed : WellFormed conversion ↔
      isFloatByteLength (floatByteLength (width conversion.digits)) = true :=
    ⟨fun formed => formed.float isFloat, fun known =>
      ⟨.inr (.inr (.inr (.inr isFloat))), fun other => absurd isFloat other, fun _ => known⟩⟩
  have suits : SuitsArgument checked conversion argument ↔ (checked = true →
      argument.kind = .float ∧ argument.length = floatByteLength (width conversion.digits)) := by
    refine ⟨fun suits => suits.float isFloat, fun kind => ⟨?_, ?_, fun _ => kind⟩⟩
    · rw [isFloat]
      exact fun reads => absurd reads (by decide)
    · rw [isFloat]
      exact fun decimal => absurd decimal (by decide)
  have stands : conversionItem conversion = {
      specifier := letter 'f', floatByteLength := floatByteLength (width conversion.digits) } := by
    rw [conversionItem, if_pos isFloat, isFloat]
  have converted : hsConvert checked (letter 'f') (width conversion.digits) argument =
      if isFloatByteLength (floatByteLength (width conversion.digits)) = false then
        .error "invalid float format byte length"
      else if checked ∧ (argument.kind ≠ .float ∨
          argument.length ≠ floatByteLength (width conversion.digits)) then
        .error "format type mismatch for %f"
      else .ok {
        specifier := letter 'f', floatByteLength := floatByteLength (width conversion.digits) } := rfl
  rw [formed, suits, stands, isFloat, converted]
  split_ifs with unknown mismatch
  · rw [unknown]
    exact ⟨nofun, nofun⟩
  · refine ⟨nofun, fun ⟨_, kind, _⟩ => ?_⟩
    obtain ⟨float, length⟩ := kind mismatch.1
    exact absurd mismatch.2 (not_or.mpr ⟨not_not.mpr float, not_not.mpr length⟩)
  · rw [and_iff_right (Bool.eq_true_of_not_eq_false unknown), and_iff_right]
    · exact ⟨fun same => (Except.ok.inj same).symm, fun same => congrArg Except.ok same.symm⟩
    · intro isChecked
      by_contra differs
      exact mismatch ⟨isChecked, not_and_or.mp differs⟩

/-- A conversion goes well when it is well formed and its argument suits it. -/
theorem hsConvert_ok_iff (noWidth : conversion.specifier ≠ letter 'f' → width conversion.digits = 0) :
    hsConvert checked conversion.specifier (width conversion.digits) argument = .ok item ↔
      WellFormed conversion ∧ SuitsArgument checked conversion argument ∧
        item = conversionItem conversion := by
  by_cases reads : isIntegerSpecifier conversion.specifier ∨ conversion.specifier = letter 'c' ∨
      conversion.specifier = letter 'p'
  · exact hsConvert_integer reads (noWidth (ne_of_isIntegerSpecifier reads).2)
  · by_cases string : conversion.specifier = letter 's'
    · refine hsConvert_string string (noWidth ?_)
      rw [string]
      decide
    · by_cases isFloat : conversion.specifier = letter 'f'
      · exact hsConvert_float isFloat
      · refine ⟨fun converted => ?_, fun ⟨formed, _⟩ => ?_⟩
        · rw [hsConvert, if_neg reads, if_neg string, if_neg isFloat] at converted
          split_ifs at converted
        · have known := formed.known
          tauto

end Convert

/-- The step of the output loop at a conversion. -/
theorem hsFormatOutput_conversion {checked : Bool} {conversion : Conversion} {rest : List Token}
    {argument : FormatArg} {arguments : List FormatArg} {pieces : List Piece} :
    hsFormatOutput checked (.conversion conversion :: rest) (argument :: arguments) = .ok pieces ↔
      (WellFormed conversion ∧ SuitsArgument checked conversion argument) ∧
        ∃ later, hsFormatOutput checked rest arguments = .ok later ∧
          pieces = .converted (conversionItem conversion) argument :: later := by
  rw [hsFormatOutput, formatWidth_eq]
  by_cases fits : width conversion.digits ≤ maxUInt64
  · rw [if_pos fits]
    by_cases misplaced : conversion.specifier ≠ letter 'f' ∧ width conversion.digits ≠ 0
    · simp only [bind, Except.bind, if_pos misplaced]
      exact ⟨nofun, fun ⟨⟨formed, _⟩, _⟩ => absurd (formed.integer misplaced.1) misplaced.2⟩
    · have noWidth : conversion.specifier ≠ letter 'f' → width conversion.digits = 0 :=
        fun other => not_not.mp fun wide => misplaced ⟨other, wide⟩
      simp only [bind, Except.bind, if_neg misplaced]
      constructor
      · intro whole
        cases converted : hsConvert checked conversion.specifier (width conversion.digits) argument with
        | error message =>
            rw [converted] at whole
            cases whole
        | ok item =>
            rw [converted] at whole
            obtain ⟨formed, suits, rfl⟩ := (hsConvert_ok_iff noWidth).mp converted
            cases written : hsFormatOutput checked rest arguments with
            | error message =>
                simp only [written] at whole
                cases whole
            | ok later =>
                simp only [written] at whole
                exact ⟨⟨formed, suits⟩, later, rfl, (Except.ok.inj whole).symm⟩
      · rintro ⟨⟨formed, suits⟩, later, written, rfl⟩
        rw [(hsConvert_ok_iff noWidth).mpr ⟨formed, suits, rfl⟩]
        simp only [written]
  · rw [if_neg fits]
    exact ⟨nofun, fun ⟨⟨formed, _⟩, _⟩ => absurd formed.width_le fits⟩

theorem hsFormatOutput_conversion_nil {checked : Bool} {conversion : Conversion}
    {rest : List Token} {pieces : List Piece} :
    hsFormatOutput checked (.conversion conversion :: rest) [] ≠ .ok pieces := by
  intro whole
  rw [hsFormatOutput, formatWidth_eq] at whole
  by_cases fits : width conversion.digits ≤ maxUInt64
  · simp only [if_pos fits, bind, Except.bind] at whole
    split_ifs at whole
  · simp only [if_neg fits, bind, Except.bind] at whole
    cases whole

theorem hsFormatOutput_unterminated {checked : Bool} {digits : List Byte} {rest : List Token}
    {arguments : List FormatArg} {pieces : List Piece} :
    hsFormatOutput checked (.unterminated digits :: rest) arguments ≠ .ok pieces := by
  intro written
  rw [hsFormatOutput, formatWidth_eq] at written
  by_cases fits : width digits ≤ maxUInt64
  · simp only [if_pos fits, bind, Except.bind] at written
    cases written
  · simp only [if_neg fits, bind, Except.bind] at written
    cases written

theorem map_cons_ok_iff {written : Except String (List Piece)} {piece : Piece}
    {pieces : List Piece} :
    written.map (piece :: ·) = .ok pieces ↔ ∃ later, written = .ok later ∧ pieces = piece :: later := by
  cases written with
  | error message => exact ⟨nofun, nofun⟩
  | ok later =>
      refine ⟨fun same => ⟨later, rfl, (Except.ok.inj same).symm⟩, fun ⟨_, same, first⟩ => ?_⟩
      rw [first, Except.ok.inj same]
      rfl

theorem hsFormatOutput_items {checked : Bool} {tokens : List Token} {arguments : List FormatArg}
    {pieces : List Piece} (written : hsFormatOutput checked tokens arguments = .ok pieces) :
    pieces.filterMap Piece.item? = (conversions tokens).map conversionItem := by
  induction tokens generalizing arguments pieces with
  | nil =>
      cases arguments with
      | nil =>
          obtain rfl := Except.ok.inj written
          rfl
      | cons argument arguments => cases written
  | cons token rest ih =>
      cases token with
      | text byte =>
          obtain ⟨later, found, rfl⟩ := map_cons_ok_iff.mp written
          have items := ih found
          exact items
      | percent =>
          obtain ⟨later, found, rfl⟩ := map_cons_ok_iff.mp written
          have items := ih found
          exact items
      | unterminated digits => exact absurd written hsFormatOutput_unterminated
      | conversion conversion =>
          cases arguments with
          | nil => exact absurd written hsFormatOutput_conversion_nil
          | cons argument arguments =>
              obtain ⟨_, later, found, rfl⟩ := hsFormatOutput_conversion.mp written
              exact congrArg (conversionItem conversion :: ·) (ih found)

/-- A format goes well when it is terminated, and its conversions are well formed, one for each
argument, which they suit. -/
theorem hsFormatOutput_ok_iff {checked : Bool} {tokens : List Token} {arguments : List FormatArg} :
    (∃ pieces, hsFormatOutput checked tokens arguments = .ok pieces) ↔
      Terminated tokens ∧
        List.Forall₂ (fun conversion argument =>
          WellFormed conversion ∧ SuitsArgument checked conversion argument)
          (conversions tokens) arguments := by
  induction tokens generalizing arguments with
  | nil =>
      cases arguments with
      | nil => exact ⟨fun _ => ⟨terminated_nil, .nil⟩, fun _ => ⟨[], rfl⟩⟩
      | cons argument arguments =>
          exact ⟨nofun, fun ⟨_, suited⟩ => by cases suited⟩
  | cons token rest ih =>
      cases token with
      | text byte =>
          rw [terminated_text, conversions_text, ← ih]
          simp only [hsFormatOutput, map_cons_ok_iff]
          exact ⟨fun ⟨_, later, written, _⟩ => ⟨later, written⟩,
            fun ⟨later, written⟩ => ⟨_, later, written, rfl⟩⟩
      | percent =>
          rw [terminated_percent, conversions_percent, ← ih]
          simp only [hsFormatOutput, map_cons_ok_iff]
          exact ⟨fun ⟨_, later, written, _⟩ => ⟨later, written⟩,
            fun ⟨later, written⟩ => ⟨_, later, written, rfl⟩⟩
      | unterminated digits =>
          exact ⟨fun ⟨_, written⟩ => absurd written hsFormatOutput_unterminated,
            fun ⟨terminated, _⟩ => absurd terminated not_terminated_unterminated⟩
      | conversion conversion =>
          rw [terminated_conversion, conversions_conversion]
          cases arguments with
          | nil =>
              exact ⟨fun ⟨_, written⟩ => absurd written hsFormatOutput_conversion_nil,
                fun ⟨_, suited⟩ => by cases suited⟩
          | cons argument arguments =>
              rw [List.forall₂_cons, and_left_comm, ← ih]
              simp only [hsFormatOutput_conversion]
              exact ⟨fun ⟨_, suited, later, written, _⟩ => ⟨suited, later, written⟩,
                fun ⟨suited, later, written⟩ => ⟨_, suited, later, written, rfl⟩⟩

end HitSimple.Runtime

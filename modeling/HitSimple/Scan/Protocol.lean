import HitSimple.Scan.Conversions
import Mathlib.Data.List.DropRight

namespace HitSimple.Scan
open FixedWidth Format HitSimple.Runtime Slots

inductive Ending where
  | finished
  | mismatch
  | endOfInput
  deriving DecidableEq

/-- The byte that the input must have next. -/
def expected : Token → Option Byte
  | .text byte => if isSpace byte then none else some byte
  | .percent => some percentSign
  | _ => none

/-- The protocol of a scan: the values of the conversions that complete, and how it ends. -/
inductive Protocol (floats : FloatScanners) :
    List Token → List HsScanTarget → Input → List Bytes → Ending → Prop where
  | finished {targets input} : Protocol floats [] targets input [] .finished
  | space {byte tokens targets input values ending} (space : isSpace byte = true)
      (later : Protocol floats tokens targets (hsSkipInputSpace input) values ending) :
      Protocol floats (.text byte :: tokens) targets input values ending
  | literal {token byte tokens targets rest values ending} (literal : expected token = some byte)
      (later : Protocol floats tokens targets rest values ending) :
      Protocol floats (token :: tokens) targets (byte :: rest) values ending
  | literalEnds {token byte tokens targets} (literal : expected token = some byte) :
      Protocol floats (token :: tokens) targets [] [] .endOfInput
  | literalMismatch {token byte ch tokens targets rest} (literal : expected token = some byte)
      (other : ch ≠ byte) : Protocol floats (token :: tokens) targets (ch :: rest) [] .mismatch
  | converts {conversion target tokens targets input bytes rest values ending}
      (completes : Completes floats target.capacity (kind (conversionItem conversion)) input bytes
        rest)
      (later : Protocol floats tokens targets rest values ending) :
      Protocol floats (.conversion conversion :: tokens) (target :: targets) input
        (bytes :: values) ending
  | conversionEnds {conversion target tokens targets input}
      (fails : ∀ bytes rest, ¬Completes floats target.capacity (kind (conversionItem conversion))
        input bytes rest)
      (unfinished : Unfinished floats (kind (conversionItem conversion)) input) :
      Protocol floats (.conversion conversion :: tokens) (target :: targets) input [] .endOfInput
  | conversionMismatch {conversion target tokens targets input}
      (fails : ∀ bytes rest, ¬Completes floats target.capacity (kind (conversionItem conversion))
        input bytes rest)
      (mismatch : ¬Unfinished floats (kind (conversionItem conversion)) input) :
      Protocol floats (.conversion conversion :: tokens) (target :: targets) input [] .mismatch

/-- The first conversion reads a number, and the input matches what stands before it and ends
inside the number. -/
inductive EndsInNumber (floats : FloatScanners) : List Token → Input → Prop where
  | space {byte tokens input} (space : isSpace byte = true)
      (later : EndsInNumber floats tokens (hsSkipInputSpace input)) :
      EndsInNumber floats (.text byte :: tokens) input
  | literal {token byte tokens rest} (literal : expected token = some byte)
      (later : EndsInNumber floats tokens rest) : EndsInNumber floats (token :: tokens) (byte :: rest)
  | number {conversion tokens input} (numeric : (kind (conversionItem conversion)).IsNumeric)
      (unfinished : Unfinished floats (kind (conversionItem conversion)) input) :
      EndsInNumber floats (.conversion conversion :: tokens) input

/-- The values stand in the targets from the first on, and the other targets are as before. -/
structure Stored (call : ScanCall) (first : Nat) (values : List Bytes) (before after : Bytes) :
    Prop where
  held : ∀ place bytes target, values[place]? = some bytes →
    call.targets[first + place]? = some target →
    read after target.region = bytes ++ (read before target.region).drop bytes.length
  kept : ∀ place target, call.targets[place]? = some target →
    place < first ∨ first + values.length ≤ place →
    read after target.region = read before target.region

/-- The targets are objects of their own, apart from the format. -/
structure Placed (call : ScanCall) (length : Nat) (memory : Bytes) : Prop where
  format : ∀ target ∈ call.targets, (formatRegion call.format length).Separate target.region
  targets : call.targets.Pairwise fun left right => left.region.Separate right.region
  inside : ∀ target ∈ call.targets, target.data + target.capacity ≤ memory.length

def formatTokens (memory : Bytes) (format length index : Nat) : List Token :=
  tokens ((formatFrom memory format index).take (length - index))

def FollowsProtocol (floats : FloatScanners) (call : ScanCall) (length : Nat) (memory : Bytes)
    (input : Input) (outcome : Outcome) : Prop :=
  ∃ values ending, Protocol floats (formatTokens memory call.format length 0) call.targets input
      values ending ∧
    (outcome.finish = .returned (-1) ↔ ending = .endOfInput ∧ values = []) ∧
    (¬(ending = .endOfInput ∧ values = []) → outcome.finish = .returned values.length) ∧
    Stored call 0 values memory outcome.memory

section
variable {floats : FloatScanners} {tokens : List Token} {targets : List HsScanTarget}
variable {input : Input} {values : List Bytes} {ending : Ending}

theorem expected_space {byte : Byte} (space : isSpace byte = true) :
    expected (.text byte) = none :=
  if_pos space

/-- An input that ends inside the first number ends the protocol there. -/
theorem Protocol.of_endsInNumber (ends : EndsInNumber floats tokens input)
    (run : Protocol floats tokens targets input values ending) :
    ending = .endOfInput ∧ values = [] := by
  induction ends generalizing targets with
  | space space later ih =>
      cases run with
      | space _ run => exact ih run
      | literal literal => rw [expected_space space] at literal; cases literal
      | literalEnds literal => rw [expected_space space] at literal; cases literal
      | literalMismatch literal => rw [expected_space space] at literal; cases literal
  | literal literal later ih =>
      cases run with
      | space space => rw [expected_space space] at literal; cases literal
      | literal _ run => exact ih run
      | literalMismatch same other =>
          rw [literal] at same
          cases same
          exact absurd rfl other
      | converts => cases literal
      | conversionEnds => cases literal
      | conversionMismatch => cases literal
  | number numeric unfinished =>
      cases run with
      | literal literal => cases literal
      | literalEnds literal => cases literal
      | literalMismatch literal => cases literal
      | converts completes => exact (not_completes_of_unfinished numeric unfinished completes).elim
      | conversionEnds => exact ⟨rfl, rfl⟩
      | conversionMismatch _ mismatch => exact absurd unfinished mismatch

end

section
variable {memory : Bytes} {format length : Nat}

theorem formatFrom_take_cons (available : length ≤ memory.length - format) {index : Nat}
    (inside : index < length) :
    (formatFrom memory format index).take (length - index) =
      load memory (format + index) ::
        (formatFrom memory format (index + 1)).take (length - (index + 1)) := by
  have bound : format + index < memory.length := by omega
  have count : length - index = length - (index + 1) + 1 := by omega
  rw [formatFrom, List.drop_eq_getElem_cons bound, count, List.take_succ_cons, load,
    List.getD_eq_getElem _ _ bound]
  rfl

theorem formatTokens_end {index : Nat} (atEnd : length ≤ index) :
    formatTokens memory format length index = [] := by
  rw [formatTokens, Nat.sub_eq_zero_of_le atEnd]
  rfl

theorem formatTokens_byte (available : length ≤ memory.length - format) {index : Nat}
    (inside : index < length) (other : load memory (format + index) ≠ percentSign) :
    formatTokens memory format length index =
      .text (load memory (format + index)) :: formatTokens memory format length (index + 1) := by
  rw [formatTokens, formatFrom_take_cons available inside, tokens, tokensFrom, if_neg other]
  rfl

theorem formatTokens_percent (available : length ≤ memory.length - format) {index : Nat}
    (inside : index + 1 < length) (first : load memory (format + index) = percentSign)
    (second : load memory (format + (index + 1)) = percentSign) :
    formatTokens memory format length index =
      .percent :: formatTokens memory format length (index + 2) := by
  rw [formatTokens, formatFrom_take_cons available (by omega), first, tokens, tokensFrom,
    if_pos rfl, formatFrom_take_cons available inside, second, tokensFrom, if_pos ⟨rfl, rfl⟩]
  rfl

/-- Digits are read into the conversion up to its specifier. -/
theorem tokensFrom_digits {digits before rest : Bytes} {specifier : Byte}
    (all : ∀ byte ∈ digits, isDigit byte = true) (notDigit : isDigit specifier = false)
    (notPercent : before ++ digits = [] → specifier ≠ percentSign) :
    tokensFrom (some before) (digits ++ specifier :: rest) =
      .conversion ⟨before ++ digits, specifier⟩ :: tokens rest := by
  induction digits generalizing before with
  | nil =>
      rw [List.append_nil] at notPercent ⊢
      rw [List.nil_append, tokensFrom, if_neg fun escaped => notPercent escaped.1 escaped.2, notDigit,
        if_neg (by decide)]
      rfl
  | cons byte digits ih =>
      have digit := all byte List.mem_cons_self
      have notEscaped : ¬(before = [] ∧ byte = percentSign) := by
        rintro ⟨_, rfl⟩
        exact absurd digit (by decide)
      rw [List.cons_append, tokensFrom, if_neg notEscaped, if_pos digit,
        ih (fun other member => all other (List.mem_cons_of_mem _ member)), List.append_assoc]
      · rfl
      · intro empty
        simp at empty

theorem isDigit_specifier {conversion : Conversion} (formed : WellFormed conversion) :
    isDigit conversion.specifier = false := by
  have known := formed.known
  simp only [isIntegerSpecifier, Bool.or_eq_true, beq_iff_eq] at known
  rcases known with ((((same | same) | same) | same) | same) | same | same | same | same <;>
  · rw [same]
    decide

theorem formatTokens_conversion (available : length ≤ memory.length - format) {index : Nat}
    {conversion : Conversion} (inside : index + 1 < length)
    (first : load memory (format + index) = percentSign)
    (second : load memory (format + (index + 1)) ≠ percentSign)
    (digits : conversion.digits = ((formatFrom memory format (index + 1)).take
      (length - (index + 1))).takeWhile isDigit)
    (place : index + 1 + conversion.digits.length < length)
    (specifier : conversion.specifier =
      load memory (format + (index + 1 + conversion.digits.length)))
    (formed : WellFormed conversion) :
    formatTokens memory format length index =
      .conversion conversion ::
        formatTokens memory format length (index + 1 + conversion.digits.length + 1) := by
  have all : ∀ byte ∈ conversion.digits, isDigit byte = true := by
    rw [digits]
    exact fun byte => List.mem_takeWhile_imp
  have behind : ((formatFrom memory format (index + 1)).take (length - (index + 1))).drop
      conversion.digits.length = (formatFrom memory format
        (index + 1 + conversion.digits.length)).take
          (length - (index + 1 + conversion.digits.length)) := by
    rw [List.drop_take, formatFrom, List.drop_drop, formatFrom]
    congr 1
    · omega
    · congr 1
      omega
  have whole := List.take_append_drop conversion.digits.length
    ((formatFrom memory format (index + 1)).take (length - (index + 1)))
  have front : ((formatFrom memory format (index + 1)).take (length - (index + 1))).take
      conversion.digits.length = conversion.digits := by
    conv_rhs => rw [digits]
    rw [digits]
    exact (List.prefix_iff_eq_take.mp (List.takeWhile_prefix _)).symm
  rw [front, behind, formatFrom_take_cons available place, ← specifier] at whole
  have notDigit : isDigit conversion.specifier = false := isDigit_specifier formed
  rw [formatTokens, formatFrom_take_cons available (by omega), first, tokens, tokensFrom,
    if_pos rfl, ← whole, tokensFrom_digits all notDigit]
  · rfl
  · intro empty
    rw [List.nil_append] at empty
    rw [specifier, empty]
    exact second

end

section
variable {floats : FloatScanners} {call : ScanCall} {length : Nat} {memory : Bytes} {input : Input}

@[simp] theorem hsSkipInputSpace_idem (input : Input) :
    hsSkipInputSpace (hsSkipInputSpace input) = hsSkipInputSpace input :=
  List.dropWhile_idempotent isSpace input

/-- White space of the format is passed over byte by byte. -/
theorem scanFrom_space {index targetIndex converted : Nat} (inside : index < length)
    (available : length ≤ memory.length - call.format)
    (space : isSpace (load memory (call.format + index)) = true) :
    scanFrom floats call length index targetIndex converted memory input =
      scanFrom floats call length (index + 1) targetIndex converted memory
        (hsSkipInputSpace input) := by
  rw [scanFrom.eq_def floats call length index, dif_pos inside]
  dsimp only
  rw [if_pos space]
  by_cases more : index + 1 < length
  · rw [formatFrom_take_cons available more]
    by_cases again : isSpace (load memory (call.format + (index + 1))) = true
    · rw [List.takeWhile_cons_of_pos again, scanFrom.eq_def floats call length (index + 1),
        dif_pos more]
      dsimp only
      rw [if_pos again, hsSkipInputSpace_idem, List.length_cons]
      congr 1
      omega
    · rw [List.takeWhile_cons_of_neg again]
      rfl
  · have none : length - (index + 1) = 0 := by omega
    rw [none]
    rfl

end

/-- The answer of a scan that has completed so many conversions: an input that ends inside a number
is not told from a mismatch. -/
def Answers (inNumber : Prop) (ending : Ending) (total : Nat) (count : Int) : Prop :=
  (ending = .endOfInput ∧ total = 0 ∧ ¬inNumber) ∧ count = -1 ∨
    ¬(ending = .endOfInput ∧ total = 0 ∧ ¬inNumber) ∧ count = total

/-- A scan from a place of the format on runs by the protocol, but for its answer. -/
def Reports (floats : FloatScanners) (call : ScanCall) (tokens : List Token)
    (first converted : Nat) (memory : Bytes) (input : Input) (outcome : Outcome) : Prop :=
  ∀ count, outcome.finish = .returned count →
    ∃ values ending, Protocol floats tokens (call.targets.drop first) input values ending ∧
      Answers (EndsInNumber floats tokens input) ending (converted + values.length) count ∧
      Stored call first values memory outcome.memory

section
variable {floats : FloatScanners} {call : ScanCall} {tokens : List Token} {first converted : Nat}
variable {memory : Bytes} {input rest : Input} {outcome : Outcome} {token : Token} {byte : Byte}

theorem answers_congr {left right : Prop} (same : left ↔ right) {ending : Ending} {total : Nat}
    {count : Int} (answers : Answers left ending total count) : Answers right ending total count := by
  rwa [Answers, ← same]

theorem answers_plain {inNumber : Prop} {ending : Ending} (other : ending ≠ .endOfInput)
    (total : Nat) : Answers inNumber ending total total :=
  .inr ⟨fun ends => other ends.1, rfl⟩

theorem answers_end {inNumber : Prop} (outside : ¬inNumber) (total : Nat) :
    Answers inNumber .endOfInput total (endOfInput total) := by
  unfold endOfInput
  split
  · rename_i none
    exact .inl ⟨⟨rfl, none, outside⟩, rfl⟩
  · rename_i some'
    exact .inr ⟨fun ends => some' ends.2.1, rfl⟩

theorem stored_nil (call : ScanCall) (first : Nat) (memory : Bytes) :
    Stored call first [] memory memory :=
  ⟨nofun, fun _ _ _ _ => rfl⟩

theorem Reports.finished {log : List Event} :
    Reports floats call [] first converted memory input
      ⟨.returned converted, memory, input, log⟩ := by
  intro count same
  cases same
  exact ⟨[], .finished, .finished, answers_plain (by decide) _, stored_nil call first memory⟩

theorem endsInNumber_space (space : isSpace byte = true) :
    EndsInNumber floats (.text byte :: tokens) input ↔
      EndsInNumber floats tokens (hsSkipInputSpace input) := by
  refine ⟨fun ends => ?_, .space space⟩
  cases ends with
  | space _ later => exact later
  | literal literal => rw [expected_space space] at literal; cases literal

theorem endsInNumber_literal (literal : expected token = some byte) :
    EndsInNumber floats (token :: tokens) (byte :: rest) ↔ EndsInNumber floats tokens rest := by
  refine ⟨fun ends => ?_, .literal literal⟩
  cases ends with
  | space space => rw [expected_space space] at literal; cases literal
  | literal _ later => exact later
  | number => cases literal

theorem not_endsInNumber_nil (literal : expected token = some byte) :
    ¬EndsInNumber floats (token :: tokens) [] := by
  intro ends
  cases ends with
  | space space => rw [expected_space space] at literal; cases literal
  | number => cases literal

theorem Reports.space (space : isSpace byte = true)
    (later : Reports floats call tokens first converted memory (hsSkipInputSpace input) outcome) :
    Reports floats call (.text byte :: tokens) first converted memory input outcome := by
  intro count returned
  obtain ⟨values, ending, run, answers, stored⟩ := later count returned
  exact ⟨values, ending, .space space run,
    answers_congr (endsInNumber_space space).symm answers, stored⟩

theorem Reports.literal (literal : expected token = some byte)
    (later : Reports floats call tokens first converted memory rest outcome) :
    Reports floats call (token :: tokens) first converted memory (byte :: rest) outcome := by
  intro count returned
  obtain ⟨values, ending, run, answers, stored⟩ := later count returned
  exact ⟨values, ending, .literal literal run,
    answers_congr (endsInNumber_literal literal).symm answers, stored⟩

theorem Reports.literalEnds (literal : expected token = some byte) {log : List Event} :
    Reports floats call (token :: tokens) first converted memory []
      ⟨.returned (endOfInput converted), memory, [], log⟩ := by
  intro count same
  cases same
  exact ⟨[], .endOfInput, .literalEnds literal, answers_end (not_endsInNumber_nil literal) _,
    stored_nil call first memory⟩

theorem Reports.literalMismatch (literal : expected token = some byte) {ch : Byte}
    (other : ch ≠ byte) {log : List Event} :
    Reports floats call (token :: tokens) first converted memory (ch :: rest)
      ⟨.returned converted, memory, ch :: rest, log⟩ := by
  intro count same
  cases same
  exact ⟨[], .mismatch, .literalMismatch literal other, answers_plain (by decide) _,
    stored_nil call first memory⟩

theorem drop_targets {target : HsScanTarget} (found : call.targets[first]? = some target) :
    call.targets.drop first = target :: call.targets.drop (first + 1) := by
  obtain ⟨bound, rfl⟩ := List.getElem?_eq_some_iff.mp found
  exact List.drop_eq_getElem_cons bound

/-- A conversion that does not complete returns what its kind answers. -/
theorem Reports.stops {conversion : Conversion} {target : HsScanTarget}
    (found : call.targets[first]? = some target) {count : Int} {left : Input}
    (returned : convert floats (conversionItem conversion) target.capacity converted input =
      .returned count left) {log : List Event} :
    Reports floats call (.conversion conversion :: tokens) first converted memory input
      ⟨.returned count, memory, left, log⟩ := by
  intro count' same
  cases same
  have fails : ∀ bytes rest, ¬Completes floats target.capacity (kind (conversionItem conversion))
      input bytes rest := fun _ _ => not_completes_of_returned returned
  rw [drop_targets found]
  rcases returned_cases returned with ⟨numeric, rfl⟩ | ⟨other, unfinished, rfl⟩
  · by_cases unfinished : Unfinished floats (kind (conversionItem conversion)) input
    · refine ⟨[], .endOfInput, .conversionEnds fails unfinished, ?_, stored_nil call first memory⟩
      exact .inr ⟨fun ends => ends.2.2 (.number numeric unfinished), rfl⟩
    · exact ⟨[], .mismatch, .conversionMismatch fails unfinished, answers_plain (by decide) _,
        stored_nil call first memory⟩
  · refine ⟨[], .endOfInput, .conversionEnds fails unfinished, ?_, stored_nil call first memory⟩
    apply answers_end
    intro ends
    cases ends with
    | literal literal => cases literal
    | number numeric => exact other numeric

/-- A later store leaves the earlier targets alone, and an earlier one the later targets. -/
theorem Stored.cons {target : HsScanTarget} {bytes : Bytes} {values : List Bytes} {after : Bytes}
    (apart : call.targets.Pairwise fun left right => left.region.Separate right.region)
    (found : call.targets[first]? = some target) (fits : bytes.length ≤ target.capacity)
    (inside : target.data + target.capacity ≤ memory.length)
    (later : Stored call (first + 1) values (write memory target.data bytes) after) :
    Stored call first (bytes :: values) memory after := by
  have separate : ∀ place other, call.targets[place]? = some other → place ≠ first →
      other.region.Separate ⟨target.data, bytes.length⟩ := by
    intro place other isOther different
    obtain ⟨bound, rfl⟩ := List.getElem?_eq_some_iff.mp isOther
    obtain ⟨firstBound, rfl⟩ := List.getElem?_eq_some_iff.mp found
    have whole : call.targets[place].region.Separate call.targets[first].region := by
      rw [List.pairwise_iff_getElem] at apart
      rcases Nat.lt_or_gt_of_ne different with less | greater
      · exact apart place first bound firstBound less
      · exact (apart first place firstBound bound greater).symm
    exact whole.mono fun address => Region.contains_of_le fits
  constructor
  · intro place value other held isOther
    cases place with
    | zero =>
        cases held
        rw [Nat.add_zero, found] at isOther
        cases isOther
        rw [later.kept first target found (by omega)]
        exact read_write_self fits inside
    | succ place =>
        have here : call.targets[first + 1 + place]? = some other := by
          rw [← isOther]
          congr 1
          omega
        rw [later.held place value other held here,
          read_write_of_separate (separate _ other here (by omega))]
  · intro place other isOther outside
    rw [List.length_cons] at outside
    rw [later.kept place other isOther (by omega),
      read_write_of_separate (separate place other isOther (by omega))]

theorem Reports.converts {conversion : Conversion} {target : HsScanTarget} {bytes : Bytes}
    (apart : call.targets.Pairwise fun left right => left.region.Separate right.region)
    (found : call.targets[first]? = some target) (fits : bytes.length ≤ target.capacity)
    (inside : target.data + target.capacity ≤ memory.length)
    (completes : Completes floats target.capacity (kind (conversionItem conversion)) input bytes rest)
    (later : Reports floats call tokens (first + 1) (converted + 1)
      (write memory target.data bytes) rest outcome) :
    Reports floats call (.conversion conversion :: tokens) first converted memory input outcome := by
  intro count returned
  obtain ⟨values, ending, run, answers, stored⟩ := later count returned
  rw [drop_targets found]
  refine ⟨bytes :: values, ending, .converts completes run, ?_,
    Stored.cons apart found fits inside stored⟩
  have total : converted + (bytes :: values).length = converted + 1 + values.length := by
    rw [List.length_cons]
    omega
  rw [total]
  rcases answers with ⟨ends, _⟩ | ⟨_, same⟩
  · omega
  · exact .inr ⟨fun ends => by omega, same⟩

end

section
variable {floats : FloatScanners} {registry : Registry.State} {call : ScanCall} {length : Nat}
variable {before : Bytes}

theorem expected_text {byte : Byte} (other : isSpace byte = false) :
    expected (.text byte) = some byte :=
  if_neg (by rw [other]; decide)

theorem two_le_of_string {item : FormatItem} {capacity : Nat}
    (suits : suitsCapacity item capacity = true) (string : kind item = .string) : 2 ≤ capacity := by
  have specifier : item.specifier = letter 's' := by
    unfold kind at string
    split_ifs at string
    assumption
  rw [suitsCapacity, if_pos specifier] at suits
  exact of_decide_eq_true suits

theorem length_visible_le (text : Bytes) : (visible text).length ≤ text.length :=
  (List.takeWhile_prefix _).length_le

theorem formatLength_le {memory : Bytes} {format : Nat} {checked : Bool}
    (found : formatLength registry memory format checked = .ok length) :
    length ≤ memory.length - format := by
  have whole : (formatFrom memory format 0).length = memory.length - format :=
    List.length_drop
  unfold formatLength at found
  dsimp only at found
  split_ifs at found
  · cases found
    rw [← whole]
    exact length_visible_le _
  split at found
  · cases found
  split_ifs at found
  cases found
  rw [← whole]
  exact (length_visible_le _).trans (List.length_take_le' _ _)

/-- The execution from a place that the validation has passed runs by the protocol. -/
theorem scanFrom_reports (ended : load before (call.format + length) = 0#8)
    (available : length ≤ before.length - call.format) (placed : Placed call length before)
    (size index targetIndex converted : Nat) (bound : length - index < size) {memory : Bytes}
    (intact : read memory (formatRegion call.format length) =
      read before (formatRegion call.format length))
    (sameLength : memory.length = before.length) {input : Input} {items : List FormatItem}
    (valid : validateFrom registry call length before index targetIndex = .ok items) :
    Reports floats call (formatTokens before call.format length index) targetIndex converted memory
      input (scanFrom floats call length index targetIndex converted memory input) := by
  induction size generalizing index targetIndex converted memory input items with
  | zero => cases bound
  | succ size ih =>
      have alike : ∀ {index : Nat}, index ≤ length →
          load memory (call.format + index) = load before (call.format + index) :=
        load_eq intact
      cases validated_of_validateFrom valid with
      | ended atEnd all =>
          rw [scanFrom.eq_def, dif_neg (by omega), formatTokens_end atEnd]
          exact .finished
      | byte inside other later =>
          rw [formatTokens_byte available inside other]
          by_cases space : isSpace (load before (call.format + index)) = true
          · rw [scanFrom_space inside (by omega) (by rwa [alike inside.le])]
            exact .space space (ih _ _ _ (by omega) intact sameLength later)
          · rw [Bool.not_eq_true] at space
            have literal := expected_text space
            rw [scanFrom.eq_def, dif_pos inside]
            dsimp only
            rw [alike inside.le, space, if_neg (by decide), if_pos other]
            split
            · exact .literalEnds literal
            · split
              · rename_i same
                rw [same]
                exact .literal literal (ih _ _ _ (by omega) intact sameLength later)
              · rename_i differs
                exact .literalMismatch literal differs
      | percent inside first second later =>
          rw [formatTokens_percent available inside first second]
          rw [← alike (by omega)] at first second
          rw [scanFrom.eq_def, dif_pos (by omega)]
          dsimp only
          rw [first, isSpace_percentSign, if_neg (by decide), if_neg (by simp), if_pos second]
          have literal : expected .percent = some percentSign := rfl
          split
          · exact .literalEnds literal
          · split
            · rename_i same
              rw [same]
              exact .literal literal (ih _ _ _ (by omega) intact sameLength later)
            · rename_i differs
              exact .literalMismatch literal differs
      | @conversion conversion target items inside first second digits place specifier formed found
          suits later =>
          rw [formatTokens_conversion available inside first second digits place specifier formed]
          rw [scanFrom_conversion ended intact inside first second digits place specifier formed
            found]
          dsimp only
          have member : target ∈ call.targets := List.mem_of_getElem? found
          split
          · rename_i returned
            exact .stops found returned
          · exact fun count same => by cases same
          · rename_i bytes rest stored
            have fits : bytes.length ≤ target.capacity :=
              length_le_of_convert suits.1 (isFloatByteLength_of_wellFormed formed) stored
            have kept := format_of_write intact (placed.format target member) fits
            have room : kind (conversionItem conversion) = .string → 2 ≤ target.capacity :=
              two_le_of_string suits.1
            apply Reports.converts placed.targets found fits
              (by rw [sameLength]; exact placed.inside target member)
              (completes_of_stored room stored)
            exact ih (index + 1 + conversion.digits.length + 1) _ _ (by omega) kept
              (by rw [length_write, sameLength]) later

theorem hsScanInput_reports {memory : Bytes} {input : Input} {items : List FormatItem}
    (valid : hsValidateScanFormat registry call memory = .ok (length, items))
    (placed : Placed call length memory) :
    Reports floats call (formatTokens memory call.format length 0) 0 0 memory input
      (hsScanInput floats registry call memory input) := by
  obtain ⟨run, measured, checked⟩ := hsScanInput_of_valid floats input valid
  rw [run]
  exact scanFrom_reports (load_formatLength measured) (formatLength_le measured) placed (length + 1)
    0 0 0 (by omega) rfl rfl checked

/-- A scan follows the protocol exactly where the input does not end inside a number that is the
first conversion. -/
theorem followsProtocol_iff (memory : Bytes) (input : Input) (items : List FormatItem) (count : Int)
    (valid : hsValidateScanFormat registry call memory = .ok (length, items))
    (placed : Placed call length memory)
    (returned : (hsScanInput floats registry call memory input).finish = .returned count) :
    FollowsProtocol floats call length memory input
        (hsScanInput floats registry call memory input) ↔
      ¬EndsInNumber floats (formatTokens memory call.format length 0) input := by
  obtain ⟨values, ending, run, answers, stored⟩ := hsScanInput_reports valid placed count returned
  rw [Nat.zero_add] at answers
  constructor
  · rintro ⟨others, last, followed, minusOne, _, _⟩ ends
    have failed := minusOne.mpr (followed.of_endsInNumber ends)
    rw [returned] at failed
    cases failed
    obtain ⟨rfl, rfl⟩ := run.of_endsInNumber ends
    rcases answers with ⟨⟨_, _, outside⟩, _⟩ | ⟨_, same⟩
    · exact outside ends
    · cases same
  · intro outside
    refine ⟨values, ending, run, ?_, ?_, stored⟩
    · rw [returned]
      rcases answers with ⟨⟨rfl, none, _⟩, rfl⟩ | ⟨other, rfl⟩
      · exact ⟨fun _ => ⟨rfl, List.eq_nil_of_length_eq_zero none⟩, fun _ => rfl⟩
      · constructor
        · intro same
          have negative := Finish.returned.inj same
          omega
        · rintro ⟨rfl, rfl⟩
          exact absurd ⟨rfl, rfl, outside⟩ other
    · intro more
      rw [returned]
      rcases answers with ⟨⟨rfl, none, _⟩, _⟩ | ⟨_, rfl⟩
      · exact absurd ⟨rfl, List.eq_nil_of_length_eq_zero none⟩ more
      · rfl

end

/-- The theorem at a scan of a word and a number. -/
theorem followsProtocol_at_pair :
    FollowsProtocol oneAndAHalf pairCall 5 pairMemory (ascii "ab 12")
      (hsScanInput oneAndAHalf .initial pairCall pairMemory (ascii "ab 12")) := by
  apply (followsProtocol_iff pairMemory (ascii "ab 12") [⟨letter 's', 0⟩, ⟨letter 'd', 0⟩] 2
    (by decide +kernel) ⟨by decide, by decide, by decide⟩ (by decide +kernel)).mpr
  have first : formatTokens pairMemory pairCall.format 5 0 =
      [.conversion ⟨[], letter 's'⟩, .text 32#8, .conversion ⟨[], letter 'd'⟩] := by
    decide
  rw [first]
  intro ends
  cases ends with
  | literal literal => cases literal
  | number numeric => exact numeric

/-- `count, value = scanf("%d")`. -/
def numberCall : ScanCall where
  format := 1
  targets := [⟨⟨4, .any⟩, 4⟩]
  checked := false

def numberMemory : Bytes :=
  0#8 :: ascii "%d" ++ List.replicate 8 0#8

/-- At the end of the input `%d` returns `0`, where the protocol has `-1`. -/
theorem emptyInput_returns_zero :
    hsValidateScanFormat .initial numberCall numberMemory = .ok (2, [⟨letter 'd', 0⟩]) ∧
      Placed numberCall 2 numberMemory ∧
      (hsScanInput oneAndAHalf .initial numberCall numberMemory []).finish = .returned 0 ∧
      ¬FollowsProtocol oneAndAHalf numberCall 2 numberMemory []
        (hsScanInput oneAndAHalf .initial numberCall numberMemory []) := by
  have returned : (hsScanInput oneAndAHalf .initial numberCall numberMemory []).finish =
      .returned 0 := by
    decide +kernel
  refine ⟨by decide +kernel, ⟨by decide, by decide, by decide⟩, returned, ?_⟩
  rintro ⟨values, ending, run, minusOne, _⟩
  have first : formatTokens numberMemory numberCall.format 2 0 =
      [.conversion ⟨[], letter 'd'⟩] := by
    decide
  have ends : EndsInNumber oneAndAHalf [.conversion ⟨[], letter 'd'⟩] [] :=
    .number trivial ⟨[], [], false, rfl, .none, .none, by simp⟩
  rw [first] at run
  have failed := minusOne.mpr (run.of_endsInNumber ends)
  rw [returned] at failed
  cases failed

end HitSimple.Scan

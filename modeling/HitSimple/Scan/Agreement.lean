import HitSimple.Scan.Input

namespace HitSimple.Scan
open FixedWidth Format HitSimple.Runtime Slots

section
variable {registry : Registry.State} {memory : Bytes} {format length : Nat} {checked : Bool}

theorem getD_visible (text : Bytes) : text.getD (visible text).length 0#8 = 0#8 := by
  induction text with
  | nil => rfl
  | cons byte text ih =>
      by_cases nul : byte = 0#8
      · simp [visible, nul]
      · have shown : visible (byte :: text) = byte :: visible text :=
          List.takeWhile_cons_of_pos (by simpa using nul)
        rw [shown, List.length_cons, List.getD_cons_succ, ih]

theorem load_formatFrom (index : Nat) :
    load memory (format + index) = (formatFrom memory format 0).getD index 0#8 := by
  rw [load, formatFrom, List.getD_eq_getElem?_getD, List.getD_eq_getElem?_getD,
    List.getElem?_drop, Nat.add_zero]

/-- The byte behind the format is its NUL. -/
theorem load_formatLength (found : formatLength registry memory format checked = .ok length) :
    load memory (format + length) = 0#8 := by
  rw [load_formatFrom]
  unfold formatLength at found
  dsimp only at found
  split at found
  · cases found
    exact getD_visible _
  split at found
  · cases found
  split at found
  · cases found
  rename_i slot _
  split at found
  · cases found
  split at found
  · rename_i nul
    cases found
    obtain ⟨rest, whole⟩ := append_of_nul_mem nul
    generalize registry.allocs slot = entry at nul whole ⊢
    generalize entry.size - (format - entry.ptr) = remaining at nul whole ⊢
    generalize formatFrom memory format 0 = text at nul whole ⊢
    have bound : (visible (text.take remaining)).length < (text.take remaining).length := by
      conv_rhs => rw [whole]
      simp
    have last := getD_visible (text.take remaining)
    rw [List.length_take] at bound
    rw [List.getD_eq_getElem?_getD, List.getElem?_take_of_lt (by omega)] at last
    rw [List.getD_eq_getElem?_getD, last]
  · cases found

end

section
variable {floats : FloatScanners} {capacity converted : Nat} {input rest : Input} {bytes : Bytes}
variable {message : String}

@[simp] theorem length_littleEndian {width : Nat} (count : Nat) (word : BitVec width) :
    (littleEndian count word).length = count := by
  simp [littleEndian]

theorem convertCharacter_stored (stored : convertCharacter converted input = .stored bytes rest) :
    bytes.length = 1 := by
  cases input with
  | nil => cases stored
  | cons value input =>
      cases stored
      rfl

theorem convertString_stored (room : 1 ≤ capacity)
    (stored : convertString capacity converted input = .stored bytes rest) :
    bytes.length ≤ capacity := by
  unfold convertString at stored
  dsimp only at stored
  split at stored
  · cases stored
  · cases stored
    simp only [List.length_append, List.length_take, List.length_singleton]
    omega

theorem length_scanFloat {floatLength : Nat} {token : Bytes}
    (known : isFloatByteLength floatLength = true)
    (scanned : scanFloat floats floatLength token = some bytes) : bytes.length = floatLength := by
  simp only [isFloatByteLength, Bool.or_eq_true, beq_iff_eq] at known
  unfold scanFloat at scanned
  rcases known with ((rfl | rfl) | rfl) | rfl <;>
  · obtain ⟨_, _, rfl⟩ := Option.map_eq_some_iff.mp scanned
    exact length_littleEndian _ _

theorem convertFloat_stored {floatLength : Nat} (known : isFloatByteLength floatLength = true)
    (stored : convertFloat floats floatLength converted input = .stored bytes rest) :
    bytes.length = floatLength := by
  unfold convertFloat at stored
  split at stored
  · cases stored
  split at stored
  · cases stored
  split at stored
  · cases stored
  · rename_i scanned
    cases stored
    exact length_scanFloat known scanned

theorem convertInteger_stored {specifier : Byte}
    (stored : convertInteger specifier capacity converted input = .stored bytes rest) :
    bytes.length = capacity := by
  unfold convertInteger at stored
  split at stored
  · cases stored
  · cases stored
  split at stored
  · cases stored
  · rename_i kept
    cases stored
    unfold hsStoreUnsigned at kept
    split at kept
    · cases kept
      exact length_littleEndian _ _
    · cases kept

theorem isIntegerCapacity_of_suits {item : FormatItem} (suits : suitsCapacity item capacity = true)
    (notString : item.specifier ≠ letter 's') (notCharacter : item.specifier ≠ letter 'c')
    (notFloat : item.specifier ≠ letter 'f') : isIntegerCapacity capacity = true := by
  unfold suitsCapacity at suits
  rw [if_neg notString, if_neg notCharacter, if_neg notFloat] at suits
  split at suits
  · rw [of_decide_eq_true suits]
    rfl
  · exact suits

/-- A conversion stays within the target that suits it. -/
theorem length_le_of_convert {item : FormatItem} (suits : suitsCapacity item capacity = true)
    (known : item.specifier = letter 'f' → isFloatByteLength item.floatByteLength = true)
    (stored : convert floats item capacity converted input = .stored bytes rest) :
    bytes.length ≤ capacity := by
  unfold convert at stored
  have room := suits
  unfold suitsCapacity at room
  split at stored
  · rename_i character
    rw [character, if_neg (by decide), if_pos rfl, decide_eq_true_eq] at room
    rw [convertCharacter_stored stored]
    exact room
  split at stored
  · rename_i string
    rw [if_pos string, decide_eq_true_eq] at room
    exact convertString_stored (by omega) stored
  split at stored
  · rename_i float
    rw [float, if_neg (by decide), if_neg (by decide), if_neg (by decide), if_pos rfl,
      decide_eq_true_eq] at room
    rw [convertFloat_stored (known float) stored, room]
  · exact (convertInteger_stored stored).le

/-- The runtime failure that the validation rules out. -/
def capacityFailure : String :=
  "invalid scan integer target capacity"

theorem readDigits_failed {base value digits : Nat}
    (failed : readDigits base input value digits = .error message) :
    message = "scan integer overflow" := by
  fun_induction readDigits base input value digits with
  | case1 => cases failed
  | case2 => cases failed
  | case3 => cases failed
  | case4 =>
      cases failed
      rfl
  | case5 _ _ _ _ _ _ _ _ ih => exact ih failed

theorem convert_failed_ne {item : FormatItem} (suits : suitsCapacity item capacity = true)
    (failed : convert floats item capacity converted input = .failed message) :
    message ≠ capacityFailure := by
  unfold convert at failed
  split at failed
  · cases input <;> cases failed
  rename_i notCharacter
  split at failed
  · unfold convertString at failed
    dsimp only at failed
    split at failed <;> cases failed
  rename_i notString
  split at failed
  · unfold convertFloat hsReadFloatToken at failed
    dsimp only at failed
    split at failed
    · rename_i tooLong
      cases failed
      split at tooLong
      · cases tooLong
        decide
      · cases tooLong
    split at failed
    · cases failed
    split at failed <;> cases failed
  rename_i notFloat
  unfold convertInteger at failed
  split at failed
  · rename_i overflow
    cases failed
    unfold hsReadInteger at overflow
    split at overflow
    · cases overflow
    dsimp only at overflow
    split at overflow
    · rename_i digits
      cases overflow
      rw [readDigits_failed digits]
      decide
    · split_ifs at overflow
  · cases failed
  · rw [hsStoreUnsigned, if_pos (isIntegerCapacity_of_suits suits notString notCharacter notFloat)]
      at failed
    cases failed

end

section
variable {registry : Registry.State} {call : ScanCall} {length : Nat} {memory before : Bytes}

theorem isSpace_percentSign : isSpace percentSign = false := by
  decide

/-- The white space that the execution passes over at once. -/
theorem isSpace_of_run {format index place : Nat}
    (bound : place < (((formatFrom memory format index).take (length - index)).takeWhile
      isSpace).length) :
    isSpace (load memory (format + (index + place))) = true ∧ index + place < length := by
  generalize found : ((formatFrom memory format index).take (length - index)).takeWhile isSpace =
    run at bound
  have space : ∀ byte ∈ run, isSpace byte = true := by
    rw [← found]
    exact fun byte => List.mem_takeWhile_imp
  have start : run <+: (formatFrom memory format index).take (length - index) := by
    rw [← found]
    exact List.takeWhile_prefix _
  have same := List.prefix_iff_getElem?.mp start place bound
  rw [List.getElem?_take] at same
  split at same
  · rename_i inside
    rw [formatFrom, List.getElem?_drop] at same
    refine ⟨?_, by omega⟩
    rw [load, List.getD_eq_getElem?_getD, ← Nat.add_assoc, same]
    exact space _ (List.getElem_mem bound)
  · cases same

/-- The validation passes over bytes that are no percent sign one by one. -/
theorem validateFrom_skip {index targetIndex : Nat} {items : List FormatItem} (count : Nat)
    (valid : validateFrom registry call length memory index targetIndex = .ok items)
    (plain : ∀ place < count, load memory (call.format + (index + place)) ≠ percentSign ∧
      index + place < length) :
    validateFrom registry call length memory (index + count) targetIndex = .ok items := by
  induction count with
  | zero => exact valid
  | succ count ih =>
      have here := ih fun place bound => plain place (by omega)
      have other := plain count (by omega)
      rw [validateFrom, dif_pos other.2, if_pos other.1] at here
      exact here

end

/-- An event stays within the format and the targets, and a conversion is the one that was
checked against its target. -/
def Event.Safe (call : ScanCall) (length : Nat) (items : List FormatItem) : Event → Prop
  | .reads index => index < length
  | .selects target => target < call.targets.length
  | .converts target item => items[target]? = some item
  | .stores target count => ∃ found, call.targets[target]? = some found ∧ count ≤ found.capacity

structure Outcome.Safe (call : ScanCall) (length : Nat) (items : List FormatItem)
    (memory : Bytes) (outcome : Outcome) : Prop where
  events : ∀ event ∈ outcome.log, event.Safe call length items
  finish : outcome.finish ≠ .strayed ∧ outcome.finish ≠ .failed capacityFailure
  frame : ∀ address, (∀ target ∈ call.targets, ¬target.region.Contains address) →
    outcome.memory[address]? = memory[address]?

section
variable {registry : Registry.State} {call : ScanCall} {length : Nat} {items : List FormatItem}
variable {memory before : Bytes} {outcome : Outcome}

theorem Outcome.Safe.stops {input : Input} {log : List Event} {finish : Finish}
    (events : ∀ event ∈ log, event.Safe call length items)
    (ends : finish ≠ .strayed ∧ finish ≠ .failed capacityFailure) :
    Outcome.Safe call length items memory ⟨finish, memory, input, log⟩ :=
  ⟨events, ends, fun _ _ => rfl⟩

theorem Outcome.Safe.after {earlier : List Event} (safe : outcome.Safe call length items memory)
    (events : ∀ event ∈ earlier, event.Safe call length items) :
    (outcome.after earlier).Safe call length items memory := by
  refine ⟨fun event member => ?_, safe.finish, safe.frame⟩
  rcases List.mem_append.mp member with member | member
  · exact events event member
  · exact safe.events event member

/-- What a store into a target leaves alone. -/
theorem Outcome.Safe.stored {target : HsScanTarget} {bytes : Bytes}
    (safe : outcome.Safe call length items (write memory target.data bytes))
    (member : target ∈ call.targets) (fits : bytes.length ≤ target.capacity) :
    outcome.Safe call length items memory := by
  refine ⟨safe.events, safe.finish, fun address outside => ?_⟩
  rw [safe.frame address outside]
  apply getElem?_write_of_not_contains
  intro inside
  exact outside target member (Region.contains_of_le fits inside)

end

section
variable {floats : FloatScanners} {registry : Registry.State} {call : ScanCall} {length : Nat}
variable {before : Bytes}

/-- The execution reads the item that the validation has checked. -/
theorem executionItem_eq {conversion : Conversion} (formed : WellFormed conversion) :
    FormatItem.mk conversion.specifier
      (if conversion.specifier = letter 'f' then floatByteLength (width conversion.digits % 2 ^ 64)
        else width conversion.digits % 2 ^ 64) = conversionItem conversion := by
  have fits := formed.width_le
  rw [Literal.maxUInt64] at fits
  rw [Nat.mod_eq_of_lt (by omega), conversionItem]
  congr 1
  split
  · rfl
  · rename_i notFloat
    exact formed.integer notFloat

theorem isFloatByteLength_of_wellFormed {conversion : Conversion} (formed : WellFormed conversion)
    (float : (conversionItem conversion).specifier = letter 'f') :
    isFloatByteLength (conversionItem conversion).floatByteLength = true := by
  have float : conversion.specifier = letter 'f' := float
  rw [conversionItem, if_pos float]
  exact formed.float float

/-- What the execution does at a conversion that the validation has passed. -/
theorem scanFrom_conversion (ended : load before (call.format + length) = 0#8) {memory : Bytes}
    (intact : read memory (formatRegion call.format length) =
      read before (formatRegion call.format length))
    {index targetIndex converted : Nat} {input : Input} {conversion : Conversion}
    {target : HsScanTarget} (inside : index + 1 < length)
    (first : load before (call.format + index) = percentSign)
    (second : load before (call.format + (index + 1)) ≠ percentSign)
    (digits : conversion.digits = ((formatFrom before call.format (index + 1)).take
      (length - (index + 1))).takeWhile isDigit)
    (place : index + 1 + conversion.digits.length < length)
    (specifier : conversion.specifier =
      load before (call.format + (index + 1 + conversion.digits.length)))
    (formed : WellFormed conversion) (found : call.targets[targetIndex]? = some target) :
    scanFrom floats call length index targetIndex converted memory input =
      let events := [Event.reads (index + 1), .reads (index + 1 + conversion.digits.length),
        .selects targetIndex, .converts targetIndex (conversionItem conversion)]
      match convert floats (conversionItem conversion) target.capacity converted input with
      | .returned count rest => ⟨.returned count, memory, rest, events⟩
      | .failed message => ⟨.failed message, memory, input, events⟩
      | .stored bytes rest =>
          (scanFrom floats call length (index + 1 + conversion.digits.length + 1) (targetIndex + 1)
            (converted + 1) (write memory target.data bytes) rest).after
            (events ++ [.stores targetIndex bytes.length]) := by
  rw [← load_eq intact (by omega)] at first second
  rw [← load_eq intact place.le] at specifier
  rw [← digits_eq ended intact (by omega)] at digits
  rw [scanFrom.eq_def, dif_pos (by omega)]
  dsimp only
  rw [first, isSpace_percentSign, if_neg (by decide), if_neg (by simp), if_neg second,
    ← digits, ← specifier, found]
  exact executionItem_eq formed ▸ rfl

/-- A store that fits its target leaves the format as it was. -/
theorem format_of_write {memory : Bytes} {target : HsScanTarget} {bytes : Bytes}
    (intact : read memory (formatRegion call.format length) =
      read before (formatRegion call.format length))
    (apart : (formatRegion call.format length).Separate target.region)
    (fits : bytes.length ≤ target.capacity) :
    read (write memory target.data bytes) (formatRegion call.format length) =
      read before (formatRegion call.format length) := by
  rw [read_write_of_separate, intact]
  exact apart.mono fun address => Region.contains_of_le fits

/-- The execution from a place that the validation has passed is safe. -/
theorem scanFrom_safe (ended : load before (call.format + length) = 0#8)
    (apart : ∀ target ∈ call.targets, (formatRegion call.format length).Separate target.region)
    (size index targetIndex converted : Nat) (bound : length - index < size) {memory : Bytes}
    (intact : read memory (formatRegion call.format length) =
      read before (formatRegion call.format length)) {input : Input}
    (done : List FormatItem) (counted : done.length = targetIndex) {items : List FormatItem}
    (valid : validateFrom registry call length before index targetIndex = .ok items) :
    (scanFrom floats call length index targetIndex converted memory input).Safe call length
      (done ++ items) memory := by
  induction size generalizing index targetIndex converted memory input done items with
  | zero => cases bound
  | succ size ih =>
      have alike : ∀ {index : Nat}, index ≤ length →
          load memory (call.format + index) = load before (call.format + index) :=
        load_eq intact
      have ends : ∀ count : Int, Finish.returned count ≠ .strayed ∧
          Finish.returned count ≠ .failed capacityFailure := by
        intro count
        constructor <;> intro same <;> cases same
      cases validated_of_validateFrom valid with
      | ended atEnd all =>
          rw [scanFrom.eq_def, dif_neg (by omega)]
          exact .stops (List.forall_mem_nil _) (ends _)
      | byte inside other later =>
          rw [scanFrom.eq_def, dif_pos inside]
          dsimp only
          split
          · refine ih _ targetIndex converted (by omega) intact done counted ?_
            rw [Nat.add_assoc]
            apply validateFrom_skip _ valid
            intro place within
            cases place with
            | zero => exact ⟨other, inside⟩
            | succ place =>
                obtain ⟨space, inside⟩ := isSpace_of_run (Nat.lt_of_succ_lt_succ within)
                have same : index + (place + 1) = index + 1 + place := by omega
                rw [same, ← alike inside.le]
                refine ⟨fun percent => ?_, inside⟩
                rw [percent, isSpace_percentSign] at space
                cases space
          rw [if_pos (by rwa [alike inside.le])]
          split
          · exact .stops (List.forall_mem_nil _) (ends _)
          · split
            · exact ih (index + 1) targetIndex converted (by omega) intact done counted later
            · exact .stops (List.forall_mem_nil _) (ends _)
      | percent inside first second later =>
          rw [← alike (by omega)] at first second
          have reads : ∀ event ∈ [Event.reads (index + 1)], event.Safe call length (done ++ items) := by
            simpa [Event.Safe] using inside
          rw [scanFrom.eq_def, dif_pos (by omega)]
          dsimp only
          rw [first, isSpace_percentSign, if_neg (by decide), if_neg (by simp), if_pos second]
          split
          · exact .stops reads (ends _)
          · split
            · exact (ih (index + 2) targetIndex converted (by omega) intact done counted later).after
                reads
            · exact .stops reads (ends _)
      | @conversion conversion target items inside first second digits place specifier formed found
          suits later =>
          rw [scanFrom_conversion ended intact inside first second digits place specifier formed
            found]
          dsimp only
          have selected := (List.getElem?_eq_some_iff.mp found).1
          have checked : (done ++ conversionItem conversion :: items)[targetIndex]? =
              some (conversionItem conversion) := by
            rw [← counted, List.getElem?_append_right (Nat.le_refl _), Nat.sub_self]
            rfl
          have events : ∀ event ∈ [Event.reads (index + 1),
              .reads (index + 1 + conversion.digits.length), .selects targetIndex,
              .converts targetIndex (conversionItem conversion)],
              event.Safe call length (done ++ conversionItem conversion :: items) := by
            simp only [List.forall_mem_cons, Event.Safe]
            exact ⟨inside, place, selected, checked, List.forall_mem_nil _⟩
          split
          · exact .stops events (ends _)
          · rename_i message failed
            refine .stops events ⟨fun same => ?_, fun same => ?_⟩
            · cases same
            · exact convert_failed_ne suits.1 failed (Finish.failed.inj same)
          · rename_i bytes rest stored
            have member : target ∈ call.targets := List.mem_of_getElem? found
            have fits : bytes.length ≤ target.capacity :=
              length_le_of_convert suits.1 (isFloatByteLength_of_wellFormed formed) stored
            have kept := format_of_write intact (apart target member) fits
            have safe : (scanFrom floats call length (index + 1 + conversion.digits.length + 1)
                (targetIndex + 1) (converted + 1) (write memory target.data bytes) rest).Safe call
                length (done ++ [conversionItem conversion] ++ items) _ :=
              ih _ _ _ (by omega) kept _ (by simp [counted]) later
            rw [List.append_assoc, List.singleton_append] at safe
            refine (safe.stored member fits).after fun event here => ?_
            rcases List.mem_append.mp here with here | here
            · exact events event here
            · rw [List.mem_singleton.mp here]
              exact ⟨target, found, fits⟩

/-- What a validation that passes has found, and the execution behind it. -/
theorem hsScanInput_of_valid {memory : Bytes} {items : List FormatItem} (floats : FloatScanners)
    (input : Input) (valid : hsValidateScanFormat registry call memory = .ok (length, items)) :
    hsScanInput floats registry call memory input = scanFrom floats call length 0 0 0 memory input ∧
      formatLength registry memory call.format call.checked = .ok length ∧
      validateFrom registry call length memory 0 0 = .ok items := by
  refine ⟨by rw [hsScanInput, valid], ?_⟩
  rw [hsValidateScanFormat, bind_ok_iff] at valid
  obtain ⟨_, measured, valid⟩ := valid
  rw [bind_ok_iff] at valid
  obtain ⟨_, checked, same⟩ := valid
  cases same
  exact ⟨measured, checked⟩

/-- The execution does what the validation has checked, where no target overlaps the format. -/
theorem hsScanInput_safe (memory : Bytes) (input : Input) (items : List FormatItem)
    (valid : hsValidateScanFormat registry call memory = .ok (length, items))
    (apart : ∀ target ∈ call.targets, (formatRegion call.format length).Separate target.region) :
    (hsScanInput floats registry call memory input).Safe call length items memory := by
  obtain ⟨run, measured, checked⟩ := hsScanInput_of_valid floats input valid
  rw [run]
  exact scanFrom_safe (load_formatLength measured) apart (length + 1) 0 0 0 (by omega) rfl [] rfl
    checked

end

def ascii (text : String) : Bytes :=
  text.toList.map letter

/-- `strtod` on the token `1.5`. -/
def oneAndAHalf : FloatScanners where
  half _ := none
  single _ := none
  double token := if token = ascii "1.5" then some 0x3ff8000000000000#64 else none
  quad _ := none

/-- `count, first, second = scanf(format)`. -/
def pairCall : ScanCall where
  format := 1
  targets := [⟨⟨6, .string⟩, 8⟩, ⟨⟨4, .any⟩, 14⟩]
  checked := false

def pairMemory : Bytes :=
  0#8 :: ascii "%s %d" ++ List.replicate 20 0#8

/-- `count, format, second = scanf(format)`. -/
def overlappingCall : ScanCall :=
  { pairCall with targets := [⟨⟨6, .string⟩, 1⟩, ⟨⟨4, .any⟩, 14⟩] }

/-- The theorem at a call whose targets are apart from the format. -/
theorem hsScanInput_safe_at_pair :
    (hsScanInput oneAndAHalf .initial pairCall pairMemory (ascii "ab 12")).Safe pairCall 5
      [⟨letter 's', 0⟩, ⟨letter 'd', 0⟩] pairMemory :=
  hsScanInput_safe pairMemory (ascii "ab 12") _ (by decide +kernel) (by decide +kernel)

/-- A target that is the format itself is read as the format of the next conversion, which then
stores eight bytes into a target of four. -/
theorem overlapping_unsafe :
    hsValidateScanFormat .initial overlappingCall pairMemory =
        .ok (5, [⟨letter 's', 0⟩, ⟨letter 'd', 0⟩]) ∧
      overlappingCall.targets[1]? = some ⟨⟨4, .any⟩, 14⟩ ∧
      [.converts 1 ⟨letter 'f', 8⟩, .stores 1 8] ⊆
        (hsScanInput oneAndAHalf .initial overlappingCall pairMemory (ascii "aa,%f,1.5")).log ∧
      ¬(hsScanInput oneAndAHalf .initial overlappingCall pairMemory (ascii "aa,%f,1.5")).Safe
        overlappingCall 5 [⟨letter 's', 0⟩, ⟨letter 'd', 0⟩] pairMemory := by
  have stored : Event.stores 1 8 ∈ (hsScanInput oneAndAHalf .initial overlappingCall pairMemory
      (ascii "aa,%f,1.5")).log := by
    decide +kernel
  refine ⟨by decide +kernel, rfl, by decide +kernel, fun safe => ?_⟩
  obtain ⟨target, found, fits⟩ := safe.events _ stored
  cases found
  exact absurd fits (by decide)

end HitSimple.Scan

import HitSimple.Print.Output
import HitSimple.Scan.Integers

namespace HitSimple.Print
open FixedWidth Format HitSimple.Runtime
open HitSimple.Scan (Bytes Input load isSpace isUpper isLower hsDigitValue digitNumber IsDigitOf
  numberOf readDigits signedNumber StartsWithInteger Sign Marker littleEndian)

/-! ### The bytes of an argument -/

section Arguments
variable {registry : Registry.State} {memory : Bytes} {checked : Bool} {argument : HsFormatArg}
  {value : BitVec 64}

/-- The low bytes of a word that agrees with the argument are the argument's. -/
theorem littleEndian_of_agrees {count : Nat} {bytes : Nat → Byte}
    (agrees : ∀ bit < count * 8, value.getLsbD bit = (assemble count bytes).getLsbD bit) :
    littleEndian count value = (List.range count).map bytes := by
  apply List.map_congr_left
  intro index member
  have inside : index < count := List.mem_range.mp member
  rw [← byteAt_assemble bytes inside]
  apply BitVec.eq_of_getLsbD_eq
  intro bit small
  rw [byteAt, byteAt, BitVec.getLsbD_extractLsb', BitVec.getLsbD_extractLsb',
    agrees _ (by omega)]

/-- What an integer conversion prints. -/
def integerText (specifier : Byte) (value : BitVec 64) : Bytes :=
  if specifier = letter 'd' then signedText value
  else unsignedText (Scan.scanBase specifier) value

end Arguments

/-! ### The digits of a number -/

section Numerals
variable {base : Nat} {rest : Input}

theorem hsDigitValue_digitChar {digit : Nat} (small : digit < 16) :
    hsDigitValue (letter (Nat.digitChar digit)) = some digit := by
  revert digit
  decide

theorem isDigitOf_digitChar (atMost : base ≤ 16) {digit : Nat} (small : digit < base) :
    IsDigitOf base (letter (Nat.digitChar digit)) ∧
      digitNumber (letter (Nat.digitChar digit)) = digit := by
  have found := hsDigitValue_digitChar (Nat.lt_of_lt_of_le small atMost)
  have number : digitNumber (letter (Nat.digitChar digit)) = digit := by
    rw [digitNumber, found]
    rfl
  refine ⟨⟨?_, ?_⟩, number⟩
  · rw [found]
    rfl
  · rwa [number]

theorem numeralText_of_lt {number : Nat} (small : number < base) :
    numeralText base number = [letter (Nat.digitChar number)] := by
  rw [numeralText, Nat.toDigits_of_lt_base small]
  rfl

theorem numeralText_of_le (atLeast : 1 < base) {number : Nat} (large : base ≤ number) :
    numeralText base number =
      numeralText base (number / base) ++ [letter (Nat.digitChar (number % base))] := by
  rw [numeralText, Nat.toDigits_of_base_le atLeast large, List.map_append]
  rfl

theorem numeralText_ne_nil (base number : Nat) : numeralText base number ≠ [] := by
  rw [numeralText, ne_eq, List.map_eq_nil_iff]
  exact Nat.toDigits_ne_nil

theorem numberOf_concat (digits : Bytes) (ch : Byte) :
    numberOf base (digits ++ [ch]) = base * numberOf base digits + digitNumber ch := by
  simp only [numberOf, List.reverse_append, List.reverse_cons, List.reverse_nil, List.nil_append,
    List.cons_append, List.map_cons, Nat.ofDigits_cons]
  exact Nat.add_comm _ _

/-- The digits of a number are digits, and spell it. -/
theorem numeralText_spells (atLeast : 1 < base) (atMost : base ≤ 16) (number : Nat) :
    (∀ ch ∈ numeralText base number, IsDigitOf base ch) ∧
      numberOf base (numeralText base number) = number := by
  induction number using Nat.strongRecOn with
  | ind number inductive_hypothesis =>
      by_cases small : number < base
      · obtain ⟨isDigit, value⟩ := isDigitOf_digitChar atMost small
        rw [numeralText_of_lt small]
        refine ⟨fun ch member => ?_, ?_⟩
        · rwa [List.mem_singleton.mp member]
        · simpa [numberOf] using value
      · have large : base ≤ number := Nat.le_of_not_lt small
        have shorter : number / base < number := Nat.div_lt_self (by omega) atLeast
        obtain ⟨digits, spelled⟩ := inductive_hypothesis (number / base) shorter
        obtain ⟨isDigit, value⟩ := isDigitOf_digitChar atMost (Nat.mod_lt number (by omega))
        rw [numeralText_of_le atLeast large]
        refine ⟨fun ch member => ?_, ?_⟩
        · rcases List.mem_append.mp member with earlier | last
          · exact digits ch earlier
          · rwa [List.mem_singleton.mp last]
        · rw [numberOf_concat, spelled, value]
          exact Nat.div_add_mod number base

theorem lowBit (value : BitVec 64) :
    BitVec.ofNat 8 (48 + (value &&& 1#64).toNat) = letter (Nat.digitChar (value.toNat % 2)) := by
  have parity : (value &&& 1#64).toNat = value.toNat % 2 := by
    rw [BitVec.toNat_and, BitVec.toNat_ofNat, Nat.mod_eq_of_lt (by decide), Nat.and_one_is_mod]
  have digit {parity : Nat} (small : parity < 2) :
      BitVec.ofNat 8 (48 + parity) = letter (Nat.digitChar parity) := by
    revert parity
    decide
  rw [parity, digit (Nat.mod_lt _ (by decide))]

theorem toNat_half (value : BitVec 64) : (value >>> 1).toNat = value.toNat / 2 := by
  rw [BitVec.toNat_ushiftRight, Nat.shiftRight_eq_div_pow, pow_one]

/-- The binary printer writes the binary digits. -/
theorem binaryText_eq (value : BitVec 64) : binaryText value = unsignedText 2 value := by
  rw [binaryText, unsignedText]
  fun_induction reverseBits value with
  | case1 value bit last =>
      have small : value.toNat < 2 := by
        have half := congrArg BitVec.toNat last
        rw [toNat_half] at half
        change _ = 0 at half
        omega
      rw [numeralText_of_lt small, ← Nat.mod_eq_of_lt small, ← lowBit]
      rfl
  | case2 value bit more inductive_hypothesis =>
      have large : 2 ≤ value.toNat := by
        by_contra small
        apply more
        apply BitVec.eq_of_toNat_eq
        rw [toNat_half]
        change _ = 0
        omega
      rw [List.reverse_cons, inductive_hypothesis, toNat_half, numeralText_of_le (by decide) large,
        ← lowBit]

end Numerals

/-! ### Reading a number back -/

/-- No letter and no digit goes on with a text. -/
def EndsToken (rest : Input) : Prop :=
  ∀ ch, rest.head? = some ch → (isDigit ch || isUpper ch || isLower ch) = false

section Reading
variable {base : Nat} {digits rest : Input} {signed : Bool}

theorem EndsToken.not_isDigitOf (ends : EndsToken rest) :
    ∀ ch, rest.head? = some ch → ¬IsDigitOf base ch := by
  rintro ch first ⟨isDigit, -⟩
  have other := ends ch first
  simp only [isUpper, isLower, Bool.or_eq_false_iff, decide_eq_false_iff_not] at other
  unfold hsDigitValue at isDigit
  split_ifs at isDigit with digit
  · rw [digit] at other
    exact absurd other.1.1 (by decide)
  · omega
  · omega
  · cases isDigit

/-- The loop takes a number that is in range. -/
theorem readDigits_of_lt (positive : 0 < base) (all : ∀ ch ∈ digits, IsDigitOf base ch)
    (stop : ∀ ch, rest.head? = some ch → ¬IsDigitOf base ch) (value count : Nat)
    (inRange : Scan.numberFrom base value digits < 2 ^ 64) :
    readDigits base (digits ++ rest) value count =
      .ok (Scan.numberFrom base value digits, count + digits.length, rest) := by
  refine (Scan.readDigits_digits all stop value count).resolve_right fun failed => ?_
  induction digits generalizing value count with
  | nil =>
      cases rest with
      | nil => cases failed
      | cons ch rest =>
          have other := stop ch rfl
          rw [List.nil_append, readDigits] at failed
          split at failed
          · cases failed
          · rename_i digit found
            have large : base ≤ digit := by
              by_contra small
              refine other ⟨by rw [found]; rfl, ?_⟩
              rw [digitNumber, found]
              exact Nat.lt_of_not_le small
            rw [if_pos large] at failed
            cases failed
  | cons ch digits inductive_hypothesis =>
      obtain ⟨isDigit, small⟩ := all ch List.mem_cons_self
      obtain ⟨digit, found⟩ := Option.isSome_iff_exists.mp isDigit
      have number : digitNumber ch = digit := by
        rw [digitNumber, found]
        rfl
      rw [number] at small
      rw [Scan.numberFrom_cons, number] at inRange
      have next : value * base + digit < 2 ^ 64 :=
        Nat.lt_of_le_of_lt (Scan.le_numberFrom positive _ digits) inRange
      have fits : ¬(Literal.maxUInt64 - digit) / base < value := by
        rw [Nat.div_lt_iff_lt_mul positive, Literal.maxUInt64]
        omega
      rw [List.cons_append, readDigits, found] at failed
      dsimp only at failed
      rw [if_neg small.not_ge, if_neg fits] at failed
      exact inductive_hypothesis (fun other member => all other (List.mem_cons_of_mem _ member))
        _ _ inRange failed

theorem not_isSpace_of_isDigitOf {ch : Byte} (digit : IsDigitOf base ch) : isSpace ch = false := by
  have apart : ∀ ch : Byte, (hsDigitValue ch).isSome = true → isSpace ch = false := by
    decide
  exact apart ch digit.1

theorem not_isDigitOf_marker {ch : Byte} (digit : IsDigitOf base ch) :
    ch ≠ letter 'x' ∧ ch ≠ letter 'X' := by
  constructor <;> rintro rfl <;> exact absurd digit.1 (by decide)

/-- A number that nothing goes on with has no prefix. -/
theorem unmarked_of_endsToken (nonempty : digits ≠ []) (all : ∀ ch ∈ digits, IsDigitOf base ch)
    (ends : EndsToken rest) : Scan.Unmarked base (digits ++ rest) := by
  intro marker behind isMarker split
  have second {first ch : Byte} {behind : Bytes}
      (split : digits ++ rest = first :: ch :: behind) : ch ≠ letter 'x' ∧ ch ≠ letter 'X' := by
    match digits, nonempty, split with
    | [_], _, split =>
        obtain ⟨rfl, rfl⟩ := List.cons.inj split
        have other := ends ch rfl
        constructor <;> rintro rfl <;> exact absurd other (by decide)
    | _ :: next :: _, _, split =>
        obtain ⟨rfl, rest⟩ := List.cons.inj split
        obtain ⟨rfl, -⟩ := List.cons.inj rest
        exact not_isDigitOf_marker (all _ (List.mem_cons_of_mem _ List.mem_cons_self))
  cases isMarker with
  | none => rfl
  | lower hex => exact absurd rfl (second split).1
  | upper hex => exact absurd rfl (second split).2

/-- A sign and the digits of a number in range are read as the number. -/
theorem hsReadInteger_signed (signed : Bool) {sign : Bytes} {negative : Bool}
    (isSign : Sign sign negative) (allowed : negative = true → signed = true) (positive : 0 < base) (nonempty : digits ≠ [])
    (all : ∀ ch ∈ digits, IsDigitOf base ch) (ends : EndsToken rest)
    (inRange : numberOf base digits < 2 ^ 64) :
    Scan.hsReadInteger (sign ++ (digits ++ rest)) base signed =
      .ok (some (BitVec.ofInt 64 (signedNumber negative (numberOf base digits))), rest) := by
  obtain ⟨first, more, rfl⟩ := List.exists_cons_of_ne_nil nonempty
  have isDigit := all first List.mem_cons_self
  have unsigned : ∀ ch, (first :: more ++ rest).head? = some ch →
      ch ≠ letter '+' ∧ ch ≠ letter '-' := by
    intro ch same
    cases same
    exact Scan.not_sign_of_digit isDigit
  have skipped : Scan.hsSkipInputSpace (sign ++ (first :: more ++ rest)) =
      sign ++ (first :: more ++ rest) := by
    cases isSign with
    | none => exact List.dropWhile_cons_of_neg (by simp [not_isSpace_of_isDigitOf isDigit])
    | plus => rfl
    | minus => rfl
  have unmarked := unmarked_of_endsToken nonempty all ends
  have zero : numberOf base (first :: more) = Scan.numberFrom base 0 (first :: more) := by
    rw [Scan.numberFrom, Nat.zero_mul, Nat.zero_add]
  have loop := readDigits_of_lt positive all ends.not_isDigitOf 0 0 (zero ▸ inRange)
  rw [Scan.hsReadInteger_eq, skipped, if_neg (by simp), Scan.skipSign_sign isSign unsigned]
  dsimp only
  rw [← List.nil_append (first :: more ++ rest),
    Scan.skipMarker_marker .none fun _ => unmarked, loop, ← zero]
  dsimp only
  rw [if_neg (by simp)]
  cases negative with
  | true =>
      rw [allowed rfl]
      simp only [if_true, Bool.not_true, Bool.false_eq_true, if_false, signedNumber,
        BitVec.ofInt_neg, BitVec.ofInt_natCast]
  | false => rfl

theorem hsReadInteger_numeralText (signed : Bool) {sign : Bytes} {negative : Bool}
    (isSign : Sign sign negative) (allowed : negative = true → signed = true) (atLeast : 1 < base) (atMost : base ≤ 16)
    (ends : EndsToken rest) {number : Nat} (inRange : number < 2 ^ 64) :
    Scan.hsReadInteger (sign ++ (numeralText base number ++ rest)) base signed =
      .ok (some (BitVec.ofInt 64 (signedNumber negative number)), rest) := by
  obtain ⟨all, spelled⟩ := numeralText_spells atLeast atMost number
  have read := hsReadInteger_signed signed isSign allowed (Nat.lt_of_succ_lt atLeast)
    (numeralText_ne_nil base number) all ends (spelled.symm ▸ inRange)
  rwa [spelled] at read

theorem scanBase_bounds (specifier : Byte) :
    1 < Scan.scanBase specifier ∧ Scan.scanBase specifier ≤ 16 := by
  unfold Scan.scanBase
  split_ifs <;> decide

theorem hsReadInteger_signedText (value : BitVec 64) (ends : EndsToken rest) :
    Scan.hsReadInteger (signedText value ++ rest) 10 true = .ok (some value, rest) := by
  have lowest : -2 ^ 63 ≤ value.toInt := BitVec.le_toInt value
  have highest : value.toInt < 2 ^ 63 := BitVec.toInt_lt
  have inRange : value.toInt.natAbs < 2 ^ 64 := by omega
  unfold signedText
  by_cases negative : value.toInt < 0
  · have number : signedNumber true value.toInt.natAbs = value.toInt := by
      rw [signedNumber, if_pos rfl, Int.ofNat_natAbs_of_nonpos negative.le, neg_neg]
    have read := hsReadInteger_numeralText true .minus (fun _ => rfl)
      (show 1 < 10 by decide) (by decide) ends inRange
    rw [if_pos negative]
    rwa [number, BitVec.ofInt_toInt, List.singleton_append, ← List.cons_append] at read
  · have number : signedNumber false value.toInt.natAbs = value.toInt := by
      rw [signedNumber, if_neg Bool.false_ne_true, Int.natAbs_of_nonneg (Int.not_lt.mp negative)]
    have read := hsReadInteger_numeralText true .none (fun _ => rfl)
      (show 1 < 10 by decide) (by decide) ends inRange
    rw [if_neg negative]
    rwa [number, BitVec.ofInt_toInt, List.nil_append] at read

/-- What an integer conversion prints is read back as the value. -/
theorem hsReadInteger_integerText (specifier : Byte) (value : BitVec 64) (ends : EndsToken rest) :
    Scan.hsReadInteger (integerText specifier value ++ rest) (Scan.scanBase specifier)
      (specifier = letter 'd') = .ok (some value, rest) := by
  unfold integerText
  by_cases decimal : specifier = letter 'd'
  · rw [if_pos decimal, decide_eq_true decimal, decimal]
    exact hsReadInteger_signedText value ends
  · obtain ⟨atLeast, atMost⟩ := scanBase_bounds specifier
    have read := hsReadInteger_numeralText false .none id atLeast atMost ends value.isLt
    rw [if_neg decimal, decide_eq_false decimal, unsignedText]
    rwa [signedNumber, if_neg Bool.false_ne_true, BitVec.ofInt_natCast, BitVec.ofNat_toNat,
      BitVec.setWidth_eq, List.nil_append] at read

end Reading

/-! ### The two calls -/

section Calls
variable {registry : Registry.State} {memory : Bytes} {checked : Bool} {specifier : Byte}

/-- A conversion without a width, as a C string at an address. -/
def HoldsConversion (memory : Bytes) (format : Nat) (specifier : Byte) : Prop :=
  ∃ behind, memory.drop format = percentSign :: specifier :: 0#8 :: behind

theorem visible_conversion (behind : Bytes) (notNul : specifier ≠ 0#8) :
    Format.visible (percentSign :: specifier :: 0#8 :: behind) = [percentSign, specifier] := by
  have sign : (percentSign != 0#8) = true := by decide
  simp [Format.visible, sign, notNul]

/-- The measured length of such a format. -/
theorem formatLength_conversion {format length : Nat}
    (holds : HoldsConversion memory format specifier) (notNul : specifier ≠ 0#8)
    (measured : Scan.formatLength registry memory format checked = .ok length) : length = 2 := by
  obtain ⟨behind, text⟩ := holds
  have whole : Scan.formatFrom memory format 0 = percentSign :: specifier :: 0#8 :: behind := text
  unfold Scan.formatLength at measured
  rw [whole] at measured
  dsimp only at measured
  split at measured
  · rw [visible_conversion behind notNul] at measured
    exact (Except.ok.inj measured).symm
  split at measured
  · cases measured
  split at measured
  · cases measured
  rename_i slot _
  split at measured
  · cases measured
  split at measured
  · rename_i nul
    generalize (registry.allocs slot).size - (format - (registry.allocs slot).ptr) = remaining
      at nul measured
    match remaining, nul, measured with
    | 0, nul, _ => cases nul
    | 1, nul, _ => exact absurd (List.mem_singleton.mp nul) (by decide)
    | 2, nul, _ =>
        rcases List.mem_cons.mp nul with first | second
        · exact absurd first (by decide)
        · exact absurd (List.mem_singleton.mp second).symm notNul
    | remaining + 3, _, measured =>
        have taken : (percentSign :: specifier :: 0#8 :: behind).take (remaining + 3) =
            percentSign :: specifier :: 0#8 :: behind.take remaining := rfl
        rw [taken, visible_conversion _ notNul] at measured
        exact (Except.ok.inj measured).symm
  · cases measured

theorem not_isDigit_of_isIntegerSpecifier (isInteger : isIntegerSpecifier specifier = true) :
    specifier ≠ 0#8 ∧ specifier ≠ percentSign ∧ isDigit specifier = false ∧
      specifier ≠ letter 'c' ∧ specifier ≠ letter 's' ∧ specifier ≠ letter 'f' ∧
      specifier ≠ letter 'p' := by
  simp only [isIntegerSpecifier, Bool.or_eq_true, beq_iff_eq] at isInteger
  rcases isInteger with (((rfl | rfl) | rfl) | rfl) | rfl <;> decide

theorem HoldsConversion.load {format : Nat} (holds : HoldsConversion memory format specifier) :
    Scan.load memory (format + 0) = percentSign ∧ Scan.load memory (format + 1) = specifier := by
  obtain ⟨behind, text⟩ := holds
  have whole : Scan.formatFrom memory format 0 = percentSign :: specifier :: 0#8 :: behind := text
  rw [Scan.load_formatFrom, Scan.load_formatFrom, whole]
  exact ⟨rfl, rfl⟩

theorem HoldsConversion.behind {format : Nat} (holds : HoldsConversion memory format specifier) :
    ∃ behind, Scan.formatFrom memory format 1 = specifier :: behind := by
  obtain ⟨behind, text⟩ := holds
  refine ⟨0#8 :: behind, ?_⟩
  rw [Scan.formatFrom, ← List.drop_drop, text]
  rfl

/-- A scan of one number: it is read, stored and counted. -/
theorem hsScanInput_conversion (floats : Scan.FloatScanners) {call : Scan.ScanCall}
    {target : Scan.HsScanTarget} {validated : Nat × List FormatItem} {input rest : Input}
    {value : BitVec 64} (isInteger : isIntegerSpecifier specifier = true)
    (holds : HoldsConversion memory call.format specifier) (targets : call.targets = [target])
    (capacity : isIntegerCapacity target.capacity = true)
    (valid : Scan.hsValidateScanFormat registry call memory = .ok validated)
    (read : Scan.hsReadInteger input (Scan.scanBase specifier) (specifier = letter 'd') =
      .ok (some value, rest)) :
    let outcome := Scan.hsScanInput floats registry call memory input
    outcome.finish = .returned 1 ∧ outcome.input = rest ∧
      outcome.memory = Slots.write memory target.data (littleEndian target.capacity value) := by
  obtain ⟨notNul, notPercent, notDigit, notCharacter, notString, notFloat, -⟩ :=
    not_isDigit_of_isIntegerSpecifier isInteger
  obtain ⟨first, second⟩ := holds.load
  obtain ⟨behind, text⟩ := holds.behind
  obtain ⟨length, measured, checked⟩ := bind_ok_iff.mp valid
  obtain ⟨items, -, same⟩ := bind_ok_iff.mp checked
  obtain rfl := formatLength_conversion holds notNul measured
  obtain rfl := Except.ok.inj same
  have digits : (Scan.formatFrom memory call.format 1).takeWhile isDigit = [] := by
    rw [text, List.takeWhile_cons_of_neg (by simp [notDigit])]
  have found : call.targets[0]? = some target := by
    rw [targets]
    rfl
  have converted : ∀ item : FormatItem, item.specifier = specifier →
      Scan.convert floats item target.capacity 0 input =
        .stored (littleEndian target.capacity value) rest := by
    rintro item rfl
    rw [Scan.convert, if_neg notCharacter, if_neg notString, if_neg notFloat, Scan.convertInteger,
      read]
    dsimp only
    rw [Scan.hsStoreUnsigned, if_pos capacity]
  have ended (memory : Bytes) : Scan.scanFrom floats call 2 2 1 1 memory rest =
      ⟨.returned 1, memory, rest, []⟩ := by
    rw [Scan.scanFrom.eq_def, dif_neg (by decide)]
    rfl
  rw [Scan.hsScanInput, valid]
  dsimp only
  rw [Scan.scanFrom.eq_def, dif_pos (by decide)]
  dsimp only
  rw [first, Scan.isSpace_percentSign, if_neg Bool.false_ne_true, if_neg (not_not.mpr rfl),
    Nat.zero_add, second, if_neg notPercent, digits, found]
  dsimp only
  rw [List.length_nil, Nat.add_zero, second, converted _ rfl]
  dsimp only
  rw [ended]
  exact ⟨rfl, rfl, rfl⟩

/-- The low bytes of the value are the bytes of the argument. -/
def Carries (memory : Bytes) (argument : HsFormatArg) (value : BitVec 64) : Prop :=
  littleEndian argument.length value =
    (List.range argument.length).map fun index => Scan.load memory (argument.data + index)

theorem carries_of_hsReadUnsigned {argument : HsFormatArg} {value : BitVec 64}
    (read : hsReadUnsigned registry memory checked argument = .ok value) :
    Carries memory argument value := by
  obtain ⟨-, bound, rfl⟩ := hsReadUnsigned_ok read
  refine littleEndian_of_agrees fun bit low => ?_
  rw [BitVec.getLsbD_setWidth, decide_eq_true (show bit < 64 by omega), Bool.true_and]
  rfl

theorem carries_of_hsReadSigned {argument : HsFormatArg} {value : BitVec 64}
    (read : hsReadSigned registry memory checked argument = .ok value) :
    Carries memory argument value := by
  obtain ⟨-, bound, rfl⟩ := hsReadSigned_ok read
  refine littleEndian_of_agrees fun bit low => ?_
  rw [BitVec.getLsbD_signExtend, decide_eq_true (show bit < 64 by omega), Bool.true_and,
    if_pos low]
  rfl

/-- An integer conversion prints a value whose low bytes are the argument's. -/
theorem bufferText_integer {printers : Printers} {argument : HsFormatArg} {floatLength : Nat}
    {text : Bytes} (isInteger : isIntegerSpecifier specifier = true)
    (printed : bufferText registry memory checked argument printers specifier floatLength =
      .ok text) :
    ∃ value, text = integerText specifier value ∧ Carries memory argument value := by
  have unsigned {shown : BitVec 64 → Bytes} (other : specifier ≠ letter 'd')
      (shows : shown = unsignedText (Scan.scanBase specifier))
      (printed : (hsReadUnsigned registry memory checked argument).map shown = .ok text) :
      ∃ value, text = integerText specifier value ∧ Carries memory argument value := by
    obtain ⟨value, read, rfl⟩ := map_ok_iff.mp printed
    refine ⟨value, ?_, carries_of_hsReadUnsigned read⟩
    rw [shows, integerText, if_neg other]
  simp only [isIntegerSpecifier, Bool.or_eq_true, beq_iff_eq] at isInteger
  rcases isInteger with (((rfl | rfl) | rfl) | rfl) | rfl
  · change (if _ then _ else (hsReadSigned registry memory checked argument).map signedText) = _
      at printed
    split at printed
    · cases printed
    · obtain ⟨value, read, rfl⟩ := map_ok_iff.mp printed
      exact ⟨value, rfl, carries_of_hsReadSigned read⟩
  · change (if _ then _ else (hsReadUnsigned registry memory checked argument).map
      (unsignedText 10)) = _ at printed
    split at printed
    · cases printed
    · exact unsigned (by decide) rfl printed
  · exact unsigned (by decide) rfl printed
  · exact unsigned (by decide) rfl printed
  · exact unsigned (by decide) (funext binaryText_eq) printed

theorem tokens_conversion {format : Nat} (isInteger : isIntegerSpecifier specifier = true)
    (holds : HoldsConversion memory format specifier) :
    tokens ((memory.drop format).take 2) = [.conversion ⟨[], specifier⟩] := by
  obtain ⟨-, notPercent, notDigit, -⟩ := not_isDigit_of_isIntegerSpecifier isInteger
  obtain ⟨behind, text⟩ := holds
  have taken : (memory.drop format).take 2 = [percentSign, specifier] := by
    rw [text]
    rfl
  rw [taken, tokens, tokensFrom, if_pos rfl, tokensFrom, if_neg (fun escaped => notPercent escaped.2),
    notDigit, if_neg Bool.false_ne_true, tokensFrom]

/-- A call that prints one integer and does not fail has written its text. -/
theorem hsFormatOutput_conversion {printers : Printers} {call : FormatCall}
    {argument : HsFormatArg} {stream : Stream} {text : Bytes} {count : Int}
    (isInteger : isIntegerSpecifier specifier = true)
    (holds : HoldsConversion memory call.format specifier) (arguments : call.arguments = [argument])
    (returned : (hsFormatOutput printers registry call memory stream).finish = .returned count)
    (complete : 0 ≤ count)
    (written : (hsFormatOutput printers registry call memory stream).stream.text =
      stream.text ++ text) :
    ∃ value, text = integerText specifier value ∧ Carries memory argument value := by
  obtain ⟨notNul, -, -, -, notString, notFloat, -⟩ := not_isDigit_of_isIntegerSpecifier isInteger
  unfold hsFormatOutput at returned written
  cases measured : formatLength registry memory call.checked call.format with
  | error message =>
      rw [measured] at returned
      cases returned
  | ok length =>
      have known : length = 2 := by
        unfold formatLength at measured
        cases found : Scan.formatLength registry memory call.format call.checked with
        | error message =>
            rw [found] at measured
            cases measured
        | ok length' =>
            rw [found] at measured
            obtain rfl := Except.ok.inj measured
            exact formatLength_conversion holds notNul found
      have noWidth : formatWidth "format width overflow" [] = .ok 0 := rfl
      have noLength : ¬(specifier ≠ letter 'f' ∧ 0 ≠ 0) := fun wrong => wrong.2 rfl
      rw [measured, known] at returned written
      dsimp only at returned written
      rw [tokens_conversion isInteger holds, arguments, printFrom, noWidth] at returned written
      dsimp only at returned written
      rw [if_neg noLength, if_neg notString] at returned written
      cases printed : bufferText registry memory call.checked argument printers specifier 0 with
      | error message =>
          rw [printed] at returned
          cases returned
      | ok shown =>
          rw [printed] at returned written
          dsimp only at returned written
          have fits : ¬bufferSize ≤ shown.length := by
            intro long
            rw [if_pos long] at returned
            cases returned
            exact absurd complete (by decide)
          rw [if_neg fits] at returned written
          rcases writeThen_cases shown (printFrom printers registry memory call.checked [] []
            (0 + shown.length)) stream with ⟨appended, goesOn⟩ | stops
          · have ended : (printFrom printers registry memory call.checked [] [] (0 + shown.length)
                (stream.after shown)).stream = stream.after shown := rfl
            rw [goesOn, ended, appended] at written
            rw [← List.append_cancel_left written]
            exact bufferText_integer isInteger printed
          · rw [stops] at returned
            cases returned
            exact absurd complete (by decide)

/-- The bytes of a region that the memory has. -/
theorem map_load_eq {data count : Nat} {value : Bytes} (length : count = value.length)
    (holds : Slots.read memory ⟨data, count⟩ = value) :
    (List.range count).map (fun index => Scan.load memory (data + index)) = value := by
  subst length
  apply List.ext_getElem?
  intro index
  rw [List.getElem?_map]
  by_cases inside : index < value.length
  · have byte : (Slots.read memory ⟨data, value.length⟩)[index]? = value[index]? := by
      rw [holds]
    rw [Slots.getElem?_read, if_pos inside, List.getElem?_eq_getElem inside] at byte
    rw [List.getElem?_range inside, List.getElem?_eq_getElem inside, Option.map_some, Scan.load,
      List.getD_eq_getElem?_getD, byte, Option.getD_some]
  · rw [List.getElem?_eq_none (by simpa using inside), List.getElem?_eq_none (by omega)]
    rfl

end Calls

/-- A call of `hs_format_output` that writes the bytes of an integer by one conversion, and the text
it has written. -/
structure Printing (specifier : Byte) (value text : Bytes) where
  printers : Printers
  registry : Registry.State
  memory : Bytes
  call : FormatCall
  argument : HsFormatArg
  stream : Stream
  format : HoldsConversion memory call.format specifier
  arguments : call.arguments = [argument]
  length : argument.length = value.length
  holds : Slots.read memory ⟨argument.data, argument.length⟩ = value
  count : Int
  returned : (hsFormatOutput printers registry call memory stream).finish = .returned count
  complete : 0 ≤ count
  written : (hsFormatOutput printers registry call memory stream).stream.text = stream.text ++ text

/-- A call of `hs_scan_input` that reads one integer into a target of so many bytes, and passes its
validation. -/
structure Scanning (specifier : Byte) (length : Nat) where
  floats : Scan.FloatScanners
  registry : Registry.State
  memory : Bytes
  call : Scan.ScanCall
  target : Scan.HsScanTarget
  format : HoldsConversion memory call.format specifier
  targets : call.targets = [target]
  capacity : target.capacity = length
  inside : target.data + target.capacity ≤ memory.length
  validated : Nat × List FormatItem
  valid : Scan.hsValidateScanFormat registry call memory = .ok validated

def Scanning.outcome {specifier : Byte} {length : Nat} (scanning : Scanning specifier length)
    (input : Input) : Scan.Outcome :=
  Scan.hsScanInput scanning.floats scanning.registry scanning.call scanning.memory input

/-- What is printed is read back: one conversion, with the bytes that were printed. -/
theorem Scanning.reads_printed {specifier : Byte} {value text : Bytes}
    (printing : Printing specifier value text) (scanning : Scanning specifier value.length)
    (rest : Input) (isInteger : specifier ∈ [letter 'd', letter 'u', letter 'x', letter 'o', letter 'b'])
    (size : value.length ∈ [1, 2, 4, 8]) (ends : EndsToken rest) :
    (scanning.outcome (text ++ rest)).finish = .returned 1 ∧
      (scanning.outcome (text ++ rest)).input = rest ∧
      Slots.read (scanning.outcome (text ++ rest)).memory scanning.target.region = value := by
  have isInteger : isIntegerSpecifier specifier = true := by
    simpa [isIntegerSpecifier, or_assoc] using isInteger
  have capacity : isIntegerCapacity scanning.target.capacity = true := by
    rw [scanning.capacity]
    simpa [isIntegerCapacity, or_assoc] using size
  obtain ⟨number, rfl, carries⟩ := hsFormatOutput_conversion isInteger printing.format
    printing.arguments printing.returned printing.complete printing.written
  have bytes : littleEndian scanning.target.capacity number = value := by
    rw [scanning.capacity, ← printing.length]
    exact carries.trans (map_load_eq printing.length printing.holds)
  obtain ⟨finish, left, stored⟩ := hsScanInput_conversion scanning.floats isInteger
    scanning.format scanning.targets capacity scanning.valid
    (hsReadInteger_integerText specifier number ends)
  refine ⟨finish, left, ?_⟩
  have length : value.length = scanning.target.region.length := scanning.capacity.symm
  rw [Scanning.outcome, stored, bytes]
  have written : Slots.read (Slots.write scanning.memory scanning.target.data value)
      scanning.target.region = value ++ _ :=
    Slots.read_write_self length.le scanning.inside
  have short : (Slots.read scanning.memory scanning.target.region).length ≤ value.length :=
    (List.length_take_le _ _).trans_eq length.symm
  rwa [List.drop_of_length_le short, List.append_nil] at written

/-- `printf("%d")` of the lowest byte. -/
def lowestPrinted : Printing (letter 'd') [0x80#8] (Scan.ascii "-128") where
  printers := {
    pointer := fun _ => [], half := fun _ => [], single := fun _ => []
    double := fun _ => [], quad := fun _ => [] }
  registry := .initial
  memory := 0#8 :: Scan.ascii "%d" ++ [0#8, 0x80#8]
  call := { format := 1, arguments := [⟨⟨1, .bytes⟩, 4⟩], checked := false }
  argument := ⟨⟨1, .bytes⟩, 4⟩
  stream := ⟨[], none⟩
  format := ⟨[0x80#8], rfl⟩
  arguments := rfl
  length := rfl
  holds := rfl
  count := 4
  returned := by decide +kernel
  complete := by decide
  written := by decide +kernel

/-- `scanf("%d")` into a byte. -/
def byteScanned : Scanning (letter 'd') 1 where
  floats := Scan.oneAndAHalf
  registry := .initial
  memory := 0#8 :: Scan.ascii "%d" ++ [0#8, 0#8]
  call := { format := 1, targets := [⟨⟨1, .any⟩, 4⟩], checked := false }
  target := ⟨⟨1, .any⟩, 4⟩
  format := ⟨[0#8], rfl⟩
  targets := rfl
  capacity := rfl
  inside := by decide
  validated := (2, [⟨letter 'd', 0⟩])
  valid := by decide +kernel

theorem reads_printed_lowest :
    (byteScanned.outcome (Scan.ascii "-128" ++ Scan.ascii ",")).finish = .returned 1 ∧
      (byteScanned.outcome (Scan.ascii "-128" ++ Scan.ascii ",")).input = Scan.ascii "," ∧
      Slots.read (byteScanned.outcome (Scan.ascii "-128" ++ Scan.ascii ",")).memory
        byteScanned.target.region = [0x80#8] :=
  byteScanned.reads_printed lowestPrinted (Scan.ascii ",") (by decide) (by decide) (by
    rintro ch first
    cases first
    decide)

end HitSimple.Print

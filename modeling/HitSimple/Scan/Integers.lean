import HitSimple.Scan.Conversions
import Mathlib.Tactic.FinCases

namespace HitSimple.Scan
open FixedWidth Format HitSimple.Runtime Slots

/-- What `hs_read_integer` does: it fails, its signed arithmetic overflows, it returns `0` without a
store, or it stores a value and returns `1`. -/
inductive IntegerRead where
  | failed (message : String)
  | overflowed
  | missing (rest : Input)
  | read (value : BitVec 64) (rest : Input)
  deriving DecidableEq, Repr

/-- The digit loop of `hs_read_integer` on the machine's numbers: `value` is an `uint64_t`, and
`digits` an `int`. -/
def readDigits64 (base : Nat) : Input → BitVec 64 → BitVec 32 →
    Except IntegerRead (BitVec 64 × BitVec 32 × Input)
  | [], value, digits => .ok (value, digits, [])
  | ch :: rest, value, digits =>
      match hsDigitValue ch with
      | none => .ok (value, digits, ch :: rest)
      | some digit =>
          if base ≤ digit then .ok (value, digits, ch :: rest)
          else if (BitVec.allOnes 64 - BitVec.ofNat 64 digit) / BitVec.ofNat 64 base < value then
            .error (.failed "scan integer overflow")
          else if BitVec.saddOverflow digits 1#32 then .error .overflowed
          else
            readDigits64 base rest (value * BitVec.ofNat 64 base + BitVec.ofNat 64 digit)
              (digits + 1#32)

/-- `hs_read_integer`, with the overflow of its signed arithmetic: `++digits` and the negation
`-(int64_t)value`. -/
def hsReadInteger64 (input : Input) (base : Nat) (signedValue : Bool) : IntegerRead :=
  if hsSkipInputSpace input = [] then .missing []
  else
    let (negative, text) := skipSign (hsSkipInputSpace input)
    match readDigits64 base (if base = 16 then skipHexPrefix text else text) 0#64 0#32 with
    | .error stopped => stopped
    | .ok (value, digits, rest) =>
        if digits = 0#32 then .missing rest
        else if negative then
          if !signedValue then .missing rest
          else if value.negOverflow then .overflowed
          else .read (-value) rest
        else .read value rest

instance (base : Nat) (ch : Byte) : Decidable (IsDigitOf base ch) :=
  inferInstanceAs (Decidable (_ ∧ _))

section
variable (base : Nat) (input : Input)

/-- The input has a minus sign behind its white space. -/
def hasMinus : Bool :=
  (skipSign (hsSkipInputSpace input)).1

/-- What is left behind white space, sign and prefix. -/
def numeral : Input :=
  skipMarker base (skipSign (hsSkipInputSpace input)).2

/-- The digit string of the input. -/
def digitString : Bytes :=
  (numeral base input).takeWhile (decide <| IsDigitOf base ·)

end

section
variable {base : Nat} {rest : Bytes}

/-- A value with digits behind it. -/
def numberFrom (base value : Nat) (digits : Bytes) : Nat :=
  value * base ^ digits.length + numberOf base digits

theorem numberFrom_cons (value : Nat) (ch : Byte) (digits : Bytes) :
    numberFrom base value (ch :: digits) =
      numberFrom base (value * base + digitNumber ch) digits := by
  rw [numberFrom, numberFrom, numberOf_cons, List.length_cons]
  ring

theorem le_numberFrom (positive : 0 < base) (value : Nat) (digits : Bytes) :
    value ≤ numberFrom base value digits :=
  (Nat.le_mul_of_pos_right value (Nat.pow_pos positive)).trans (Nat.le_add_right _ _)

/-- The test of the loop, which divides to stay in range. -/
theorem exceeds_iff {value digit : Nat} (inRange : value < 2 ^ 64) (positive : 0 < base)
    (small : base < 2 ^ 64) (isDigit : digit < base) :
    (BitVec.allOnes 64 - BitVec.ofNat 64 digit) / BitVec.ofNat 64 base < BitVec.ofNat 64 value ↔
      2 ^ 64 ≤ value * base + digit := by
  have digit64 : (BitVec.ofNat 64 digit).toNat = digit := by
    rw [BitVec.toNat_ofNat, Nat.mod_eq_of_lt (by omega)]
  have rest : (BitVec.allOnes 64 - BitVec.ofNat 64 digit).toNat = 2 ^ 64 - 1 - digit := by
    rw [BitVec.toNat_sub_of_le, BitVec.toNat_allOnes, digit64]
    rw [BitVec.le_def, BitVec.toNat_allOnes, digit64]
    omega
  rw [BitVec.lt_def, BitVec.toNat_udiv, rest, BitVec.toNat_ofNat, Nat.mod_eq_of_lt small,
    BitVec.toNat_ofNat, Nat.mod_eq_of_lt inRange, Nat.div_lt_iff_lt_mul positive]
  omega

theorem saddOverflow_one_iff {count : Nat} (few : count < 2 ^ 31) :
    BitVec.saddOverflow (BitVec.ofNat 32 count) 1#32 = true ↔ count + 1 = 2 ^ 31 := by
  have inRange : (BitVec.ofNat 32 count).toNat = count := by
    rw [BitVec.toNat_ofNat, Nat.mod_eq_of_lt (by omega)]
  have counted : (BitVec.ofNat 32 count).toInt = count := by
    rw [BitVec.toInt_eq_toNat_of_lt (by omega), inRange]
  have one : (1#32).toInt = 1 := rfl
  rw [BitVec.saddOverflow, counted, one]
  simp
  omega

/-- The loop fails on the digit that takes the value out of range, and overflows where it counts
`2 ^ 31` digits before. -/
theorem readDigits64_digits {digits : Bytes} (positive : 0 < base) (small : base < 2 ^ 64)
    (all : ∀ ch ∈ digits, IsDigitOf base ch)
    (stop : ∀ ch, rest.head? = some ch → ¬IsDigitOf base ch) {value count : Nat}
    (inRange : value < 2 ^ 64) (few : count < 2 ^ 31) :
    readDigits64 base (digits ++ rest) (BitVec.ofNat 64 value) (BitVec.ofNat 32 count) =
      if 2 ^ 64 ≤ numberFrom base value (digits.take (2 ^ 31 - count)) then
        .error (.failed "scan integer overflow")
      else if 2 ^ 31 ≤ count + digits.length then .error .overflowed
      else .ok (BitVec.ofNat 64 (numberFrom base value digits),
        BitVec.ofNat 32 (count + digits.length), rest) := by
  induction digits generalizing value count with
  | nil =>
      have here : numberFrom base value [] = value := by simp [numberFrom, numberOf]
      rw [List.take_nil, here, if_neg inRange.not_ge, List.length_nil, Nat.add_zero,
        if_neg few.not_ge, List.nil_append]
      cases rest with
      | nil => rfl
      | cons ch rest =>
          have other := stop ch rfl
          rw [readDigits64]
          split
          · rfl
          · rename_i digit isDigit
            rw [if_pos]
            by_contra less
            refine other ⟨by rw [isDigit]; rfl, ?_⟩
            rw [digitNumber, isDigit]
            exact Nat.lt_of_not_le less
  | cons ch digits ih =>
      obtain ⟨isDigit, less⟩ := all ch List.mem_cons_self
      obtain ⟨digit, read⟩ := Option.isSome_iff_exists.mp isDigit
      have value' : digitNumber ch = digit := by
        rw [digitNumber, read]
        rfl
      have shorter : 2 ^ 31 - count = (2 ^ 31 - (count + 1)) + 1 := by omega
      rw [value'] at less
      rw [List.cons_append, readDigits64, read, shorter, List.take_succ_cons, numberFrom_cons,
        numberFrom_cons, value', List.length_cons]
      dsimp only
      rw [if_neg less.not_ge]
      simp only [exceeds_iff inRange positive small less]
      by_cases exceeds : 2 ^ 64 ≤ value * base + digit
      · rw [if_pos exceeds, if_pos (exceeds.trans (le_numberFrom positive _ _))]
      · rw [if_neg exceeds]
        have counted : BitVec.saddOverflow (BitVec.ofNat 32 count) 1#32 = true ↔
            count + 1 = 2 ^ 31 := saddOverflow_one_iff few
        by_cases last : count + 1 = 2 ^ 31
        · rw [if_pos (counted.mpr last), last, Nat.sub_self, List.take_zero]
          have here : numberFrom base (value * base + digit) [] = value * base + digit := by
            simp [numberFrom, numberOf]
          rw [here, if_neg exceeds, if_pos (by omega)]
        · have next : BitVec.ofNat 64 value * BitVec.ofNat 64 base + BitVec.ofNat 64 digit =
              BitVec.ofNat 64 (value * base + digit) := by
            rw [← BitVec.ofNat_mul, ← BitVec.ofNat_add]
          rw [if_neg (mt counted.mp last), next, ← BitVec.ofNat_add,
            ih (fun other member => all other (List.mem_cons_of_mem _ member)) (not_le.mp exceeds)
              (by omega), Nat.add_assoc, Nat.add_comm 1]

end

section
variable {base : Nat} {input : Input} {signed : Bool}

/-- The text of the number: its digits, and behind them no digit. -/
theorem numeral_split (base : Nat) (input : Input) :
    numeral base input = digitString base input ++
        (numeral base input).dropWhile (decide <| IsDigitOf base ·) ∧
      (∀ ch ∈ digitString base input, IsDigitOf base ch) ∧
      ∀ ch, ((numeral base input).dropWhile (decide <| IsDigitOf base ·)).head? = some ch →
        ¬IsDigitOf base ch := by
  refine ⟨List.takeWhile_append_dropWhile.symm, fun ch member => ?_, fun ch first => ?_⟩
  · exact of_decide_eq_true (List.mem_takeWhile_imp (p := (decide <| IsDigitOf base ·)) member)
  · exact of_decide_eq_false (@head?_dropWhile _ (decide <| IsDigitOf base ·) _ _ first)

/-- What is read of an input that is not empty. -/
theorem hsReadInteger64_eq (positive : 0 < base) (small : base < 2 ^ 64)
    (nonempty : hsSkipInputSpace input ≠ []) :
    hsReadInteger64 input base signed =
      let digits := digitString base input
      let rest := (numeral base input).dropWhile (decide <| IsDigitOf base ·)
      let number := BitVec.ofNat 64 (numberOf base digits)
      if 2 ^ 64 ≤ numberOf base (digits.take (2 ^ 31)) then .failed "scan integer overflow"
      else if 2 ^ 31 ≤ digits.length then .overflowed
      else if digits = [] then .missing rest
      else if hasMinus input then
        if !signed then .missing rest
        else if number.negOverflow then .overflowed
        else .read (-number) rest
      else .read number rest := by
  obtain ⟨split, all, stop⟩ := numeral_split base input
  have loop := readDigits64_digits positive small all stop (show 0 < 2 ^ 64 by decide)
    (show 0 < 2 ^ 31 by decide)
  have zero (digits : Bytes) : numberFrom base 0 digits = numberOf base digits := by
    rw [numberFrom, Nat.zero_mul, Nat.zero_add]
  rw [← split, zero, zero, Nat.sub_zero, Nat.zero_add] at loop
  unfold hsReadInteger64
  rw [if_neg nonempty]
  dsimp only
  change (match readDigits64 base (numeral base input) (BitVec.ofNat 64 0) (BitVec.ofNat 32 0) with
    | .error stopped => stopped
    | .ok (value, digits, rest) => _) = _
  rw [loop]
  by_cases exceeds : 2 ^ 64 ≤ numberOf base ((digitString base input).take (2 ^ 31))
  · rw [if_pos exceeds, if_pos exceeds]
  rw [if_neg exceeds, if_neg exceeds]
  by_cases long : 2 ^ 31 ≤ (digitString base input).length
  · rw [if_pos long, if_pos long]
  rw [if_neg long, if_neg long]
  have none : BitVec.ofNat 32 (digitString base input).length = 0#32 ↔
      digitString base input = [] := by
    rw [← BitVec.toNat_inj, BitVec.toNat_ofNat, Nat.mod_eq_of_lt (by omega), ← List.length_eq_zero_iff]
    rfl
  simp only [none]
  rfl

theorem negOverflow_iff {number : Nat} (inRange : number < 2 ^ 64) :
    (BitVec.ofNat 64 number).negOverflow = true ↔ number = 2 ^ 63 := by
  have here : (BitVec.ofNat 64 number).toNat = number := by
    rw [BitVec.toNat_ofNat, Nat.mod_eq_of_lt inRange]
  rw [BitVec.negOverflow, BitVec.toInt_eq_toNat_cond, here]
  simp
  omega

theorem numberFrom_append (value : Nat) (front back : Bytes) :
    numberFrom base value (front ++ back) = numberFrom base (numberFrom base value front) back := by
  induction front generalizing value with
  | nil => simp [numberFrom, numberOf]
  | cons ch front ih => rw [List.cons_append, numberFrom_cons, ih, numberFrom_cons]

theorem numberOf_take_le (positive : 0 < base) (count : Nat) (digits : Bytes) :
    numberOf base (digits.take count) ≤ numberOf base digits := by
  have zero (digits : Bytes) : numberOf base digits = numberFrom base 0 digits := by
    rw [numberFrom, Nat.zero_mul, Nat.zero_add]
  calc
    numberOf base (digits.take count) ≤
        numberFrom base (numberOf base (digits.take count)) (digits.drop count) :=
      le_numberFrom positive _ _
    _ = numberOf base digits := by
      rw [zero, ← numberFrom_append, List.take_append_drop, ← zero]

/-! ### What is stored -/

theorem ofDigits_littleEndian {width : Nat} (word : BitVec width) (count : Nat) :
    Nat.ofDigits 256 ((littleEndian count word).map BitVec.toNat) = word.toNat % 256 ^ count := by
  induction count with
  | zero => simp [littleEndian, Nat.mod_one]
  | succ count ih =>
      have shorter : ((littleEndian count word).map BitVec.toNat).length = count := by
        rw [List.length_map, length_littleEndian]
      have byte : (byteAt word count).toNat = word.toNat / 256 ^ count % 256 := by
        rw [byteAt, BitVec.extractLsb'_toNat, Nat.shiftRight_eq_div_pow, Nat.mul_comm, pow_mul]
        rfl
      have split : littleEndian (count + 1) word = littleEndian count word ++ [byteAt word count] := by
        rw [littleEndian, List.range_succ, List.map_append]
        rfl
      rw [split, List.map_append, Nat.ofDigits_append, shorter, ih, List.map_singleton,
        Nat.ofDigits_singleton, byte, Nat.mod_pow_succ]

/-- The value is stored modulo the number of values of the target. -/
def Stores (value : BitVec 64) (number : Int) : Prop :=
  ∀ capacity ∈ [1, 2, 4, 8], ∃ bytes, hsStoreUnsigned capacity value = .ok bytes ∧
    ((Nat.ofDigits 256 (bytes.map BitVec.toNat) : Nat) : Int) = number % 2 ^ (8 * capacity)

theorem stores_ofInt (number : Int) : Stores (BitVec.ofInt 64 number) number := by
  intro capacity isCapacity
  have kept : isIntegerCapacity capacity = true := by
    fin_cases isCapacity <;> rfl
  have divides : 2 ^ (8 * capacity) ∣ 2 ^ 64 := by
    apply pow_dvd_pow
    fin_cases isCapacity <;> decide
  refine ⟨_, by rw [hsStoreUnsigned, if_pos kept], ?_⟩
  rw [ofDigits_littleEndian, BitVec.toNat_ofInt, show (256 : Nat) = 2 ^ 8 by rfl, ← pow_mul,
    Int.natCast_emod, Int.toNat_of_nonneg (Int.emod_nonneg _ (by decide)),
    Int.emod_emod_of_dvd _ (Int.natCast_dvd_natCast.mpr divides)]
  push_cast
  rfl

/-! ### The whole call -/

/-- The call overflows nowhere: it fails just on a digit string that is out of range, and what it
reads is the number of the input, which it stores modulo the target. -/
def ScansExactly (input : Input) (base : Nat) (signed : Bool) : Prop :=
  let number := numberOf base (digitString base input)
  match hsReadInteger64 input base signed with
  | .overflowed => False
  | .failed message => message = "scan integer overflow" ∧ 2 ^ 64 ≤ number
  | .missing _ => number < 2 ^ 64
  | .read value _ => number < 2 ^ 64 ∧
      value = BitVec.ofInt 64 (signedNumber (hasMinus input) number) ∧
      Stores value (signedNumber (hasMinus input) number)

/-- The number is not `-2 ^ 63`, and the `int` that counts the digits does not run out before the
value does. -/
def FitsCounters (input : Input) (base : Nat) (signed : Bool) : Prop :=
  ¬(signed = true ∧ hasMinus input = true ∧ numberOf base (digitString base input) = 2 ^ 63) ∧
    ((digitString base input).length < 2 ^ 31 ∨
      2 ^ 64 ≤ numberOf base ((digitString base input).take (2 ^ 31)))

theorem scansExactly_iff_of_base (positive : 0 < base) (small : base < 2 ^ 64) :
    ScansExactly input base signed ↔ FitsCounters input base signed := by
  unfold ScansExactly FitsCounters
  by_cases nonempty : hsSkipInputSpace input = []
  · have missing : hsReadInteger64 input base signed = .missing [] := if_pos nonempty
    have none : digitString base input = [] := by
      have text : numeral base input = [] := by
        rw [numeral, nonempty]
        exact (ite_self _).trans rfl
      rw [digitString, text]
      rfl
    rw [missing, none]
    simp [numberOf]
  rw [hsReadInteger64_eq positive small nonempty]
  dsimp only
  generalize isNumber : numberOf base (digitString base input) = number
  have taken := numberOf_take_le positive (2 ^ 31) (digitString base input)
  rw [isNumber] at taken
  by_cases exceeds : 2 ^ 64 ≤ numberOf base ((digitString base input).take (2 ^ 31))
  · rw [if_pos exceeds]
    simp only [true_and, exceeds, or_true, and_true]
    omega
  rw [if_neg exceeds]
  by_cases long : 2 ^ 31 ≤ (digitString base input).length
  · rw [if_pos long]
    simp only [exceeds, or_false, long.not_gt, and_false]
  have inRange : number < 2 ^ 64 := by
    rw [List.take_of_length_le (not_le.mp long).le, isNumber] at exceeds
    exact not_le.mp exceeds
  rw [if_neg long]
  simp only [not_le.mp long, true_or, and_true]
  by_cases none : digitString base input = []
  · rw [if_pos none]
    have zero : number = 0 := by
      rw [← isNumber, none]
      rfl
    simp [zero]
  rw [if_neg none]
  cases minus : hasMinus input with
  | false =>
      simp only [signedNumber, Bool.false_eq_true, if_false, false_and, and_false,
        not_false_eq_true, iff_true]
      exact ⟨inRange, (BitVec.ofInt_natCast _ _).symm, BitVec.ofInt_natCast 64 _ ▸ stores_ofInt _⟩
  | true =>
      cases signed with
      | false => simpa using inRange
      | true =>
          simp only [if_true, Bool.not_true, Bool.false_eq_true, if_false, negOverflow_iff inRange,
            true_and]
          by_cases lowest : number = 2 ^ 63
          · simp [lowest]
          · rw [if_neg lowest]
            simp only [lowest, not_false_eq_true, iff_true]
            refine ⟨inRange, ?_, ?_⟩
            · rw [signedNumber, if_pos rfl, BitVec.ofInt_neg, BitVec.ofInt_natCast]
            · rw [← BitVec.ofInt_natCast, ← BitVec.ofInt_neg]
              exact stores_ofInt _

/-- Reading an integer is exact and without a signed overflow, but of `-2 ^ 63`, and of more digits
than an `int` counts. -/
theorem scansExactly_iff (input : Input) (base : Nat) (signed : Bool)
    (isBase : base ∈ [2, 8, 10, 16]) :
    ScansExactly input base signed ↔ FitsCounters input base signed := by
  fin_cases isBase <;> exact scansExactly_iff_of_base (by decide) (by decide)

theorem scansExactly_iff_small :
    ScansExactly ("42;".toList.map letter) 10 false ↔
      FitsCounters ("42;".toList.map letter) 10 false :=
  scansExactly_iff _ 10 false (by decide)

/-- The lowest `int64_t`, whose magnitude has no negation in range. -/
theorem scansExactly_lowest :
    ¬∀ (input : Input) (base : Nat) (signed : Bool), base ∈ [2, 8, 10, 16] →
      ScansExactly input base signed := by
  intro claim
  have overflowed : hsReadInteger64 ("-9223372036854775808".toList.map letter) 10 true =
      .overflowed := by decide +kernel
  have exact' := claim ("-9223372036854775808".toList.map letter) 10 true (by decide)
  rw [ScansExactly, overflowed] at exact'
  exact exact'

end

/-! ### The wrapping reader -/

/-- What the call returns where it is defined. -/
def IntegerRead.outcome : IntegerRead → Option (Except String (Option (BitVec 64) × Input))
  | .failed message => some (.error message)
  | .overflowed => none
  | .missing rest => some (.ok (none, rest))
  | .read value rest => some (.ok (some value, rest))

section
variable {base : Nat} {input : Input} {signed : Bool}

theorem readDigits_of_readDigits64 (positive : 0 < base) (small : base < 2 ^ 64) (text : Input)
    {value count : Nat} (inRange : value < 2 ^ 64) (few : count < 2 ^ 31) :
    match readDigits64 base text (BitVec.ofNat 64 value) (BitVec.ofNat 32 count) with
    | .error stopped => ∀ outcome, stopped.outcome = some outcome →
        ∃ message, outcome = .error message ∧ readDigits base text value count = .error message
    | .ok (value', digits, rest) =>
        readDigits base text value count = .ok (value'.toNat, digits.toNat, rest) := by
  have here : (BitVec.ofNat 64 value).toNat = value ∧ (BitVec.ofNat 32 count).toNat = count := by
    rw [BitVec.toNat_ofNat, BitVec.toNat_ofNat, Nat.mod_eq_of_lt inRange, Nat.mod_eq_of_lt (by omega)]
    exact ⟨rfl, rfl⟩
  induction text generalizing value count with
  | nil => simp only [readDigits64, readDigits, here]
  | cons ch rest ih =>
      rw [readDigits64, readDigits]
      cases read : hsDigitValue ch with
      | none => simp only [here]
      | some digit =>
          dsimp only
          by_cases large : base ≤ digit
          · simp only [if_pos large, here]
          rw [if_neg large, if_neg large]
          have test : (Literal.maxUInt64 - digit) / base < value ↔ 2 ^ 64 ≤ value * base + digit := by
            rw [Nat.div_lt_iff_lt_mul positive, Literal.maxUInt64]
            omega
          simp only [exceeds_iff inRange positive small (not_le.mp large), test]
          by_cases exceeds : 2 ^ 64 ≤ value * base + digit
          · rw [if_pos exceeds, if_pos exceeds]
            rintro outcome returned
            cases returned
            exact ⟨_, rfl, rfl⟩
          rw [if_neg exceeds, if_neg exceeds]
          by_cases last : count + 1 = 2 ^ 31
          · rw [if_pos ((saddOverflow_one_iff few).mpr last)]
            intro outcome returned
            cases returned
          · rw [if_neg (mt (saddOverflow_one_iff few).mp last), ← BitVec.ofNat_mul,
              ← BitVec.ofNat_add, ← BitVec.ofNat_add]
            have inRange' : value * base + digit < 2 ^ 64 := not_le.mp exceeds
            have few' : count + 1 < 2 ^ 31 := by omega
            refine ih inRange' few' ⟨?_, ?_⟩
            · rw [BitVec.toNat_ofNat, Nat.mod_eq_of_lt inRange']
            · rw [BitVec.toNat_ofNat, Nat.mod_eq_of_lt (by omega)]

/-- Where nothing overflows the call returns what the reader returns whose negation wraps. -/
theorem hsReadInteger_of_outcome (positive : 0 < base) (small : base < 2 ^ 64)
    {outcome : Except String (Option (BitVec 64) × Input)}
    (defined : (hsReadInteger64 input base signed).outcome = some outcome) :
    hsReadInteger input base signed = outcome := by
  unfold hsReadInteger64 at defined
  unfold hsReadInteger
  by_cases nonempty : hsSkipInputSpace input = []
  · rw [if_pos nonempty] at defined ⊢
    cases defined
    rfl
  rw [if_neg nonempty] at defined ⊢
  dsimp only at defined ⊢
  have loop := readDigits_of_readDigits64 positive small
    (if base = 16 then skipHexPrefix (skipSign (hsSkipInputSpace input)).2
      else (skipSign (hsSkipInputSpace input)).2) (show 0 < 2 ^ 64 by decide) (show 0 < 2 ^ 31 by decide)
  change (match readDigits64 base _ (BitVec.ofNat 64 0) (BitVec.ofNat 32 0) with
    | .error stopped => stopped
    | .ok (value, digits, rest) => _ : IntegerRead).outcome = _ at defined
  generalize readDigits64 base _ (BitVec.ofNat 64 0) (BitVec.ofNat 32 0) = read at defined loop
  cases read with
  | error stopped =>
      obtain ⟨message, rfl, failed⟩ := loop outcome defined
      rw [failed]
  | ok read =>
      obtain ⟨value, digits, rest⟩ := read
      dsimp only at loop defined
      have none : digits.toNat = 0 ↔ digits = 0#32 := by
        rw [← BitVec.toNat_inj]
        rfl
      rw [loop]
      simp only [none, BitVec.ofNat_toNat, BitVec.setWidth_eq]
      split_ifs at defined ⊢ with empty minus overflows
      all_goals cases defined <;> rfl

end

end HitSimple.Scan

import HitSimple.Floating.Rational
import HitSimple.Scan.Conversions

namespace HitSimple.Floating
open FixedWidth Rounding HitSimple.Runtime
open HitSimple.Scan (skipSign Sign skipSign_split skipSign_sign)

/-- The loop of `powerOfTen`. -/
def powerLoop (exponent result base : ℕ) : ℕ :=
  if exponent = 0 then result
  else
    powerLoop (exponent >>> 1) (if exponent &&& 1 ≠ 0 then result * base else result)
      (if exponent >>> 1 ≠ 0 then base * base else base)
termination_by exponent
decreasing_by
  rw [Nat.shiftRight_eq_div_pow]
  omega

def powerOfTen (exponent : ℕ) : ℕ :=
  powerLoop exponent 1 10

def toLower (byte : Byte) : Byte :=
  if 65 ≤ byte.toNat ∧ byte.toNat ≤ 90 then byte + 32#8 else byte

/-- The digits of the number, how many of them stand behind a point, and what is left. -/
structure DigitScan where
  digits : List Byte
  fractionalDigits : ℕ
  rest : List Byte

/-- The loop over the digits and the point. -/
def scanDigits (sawPoint : Bool) : List Byte → DigitScan
  | [] => ⟨[], 0, []⟩
  | ch :: rest =>
      if Format.isDigit ch then
        let scan := scanDigits sawPoint rest
        ⟨ch :: scan.digits, (if sawPoint then 1 else 0) + scan.fractionalDigits, scan.rest⟩
      else if ch = letter '.' ∧ sawPoint = false then scanDigits true rest
      else ⟨[], 0, ch :: rest⟩

/-- The loop over the digits of the exponent, which stops to count at six digits. -/
def scanExponent (explicitExponent : ℕ) : List Byte → ℕ × List Byte
  | [] => (explicitExponent, [])
  | ch :: rest =>
      if Format.isDigit ch then
        scanExponent (if explicitExponent < 100000 then explicitExponent * 10 + (ch.toNat - 48)
          else explicitExponent) rest
      else (explicitExponent, ch :: rest)

/-- The exponent of the text, which must be all that is left of it. -/
def parseExponent : List Byte → Option ℤ
  | [] => some 0
  | ch :: rest =>
      if ch = letter 'e' ∨ ch = letter 'E' then
        let (exponentNegative, digits) := skipSign rest
        let (explicitExponent, behind) := scanExponent 0 digits
        if behind.length = digits.length then none
        else if behind ≠ [] then none
        else some (if exponentNegative then -(explicitExponent : ℤ) else explicitExponent)
      else none

/-- The end of `parseDecimalBits`: the digits from the first one that is not zero on, scaled by the
exponent. -/
def encodeDecimal (negative : Bool) (scanned : List Byte) (fractionalDigits : ℕ)
    (explicitExponent : ℤ) : Bits :=
  let digits := scanned.dropWhile (· = letter '0')
  if digits = [] then signedZero negative
  else
    let decimalExponent := explicitExponent - fractionalDigits
    let decimalMagnitude := digits.length + decimalExponent
    if 6000 < decimalMagnitude then signedZero negative ||| kExponentMask
    else if decimalMagnitude < -6000 then signedZero negative
    else
      let significand :=
        digits.foldl (fun significand (ch : Byte) => significand * 10 + (ch.toNat - 48)) 0
      if 0 ≤ decimalExponent then
        encodeRational (significand * powerOfTen decimalExponent.toNat) 1 negative
      else encodeRational significand (powerOfTen (-decimalExponent).toNat) negative

def parseDecimalBits (text : List Byte) : Option Bits :=
  if text = [] then none
  else
    let (negative, text) := skipSign text
    if text = [] then none
    else
      let lower := text.map toLower
      if lower = "inf".toList.map letter ∨ lower = "infinity".toList.map letter then
        some (signedZero negative ||| kExponentMask)
      else if lower = "nan".toList.map letter then some (signedZero negative ||| quietNaN)
      else
        let scan := scanDigits false text
        if scan.digits = [] then none
        else
          (parseExponent scan.rest).map (encodeDecimal negative scan.digits scan.fractionalDigits)

/-! ### Decimal texts -/

def decimalNumber (digits : List Byte) : ℕ :=
  Nat.ofDigits 10 (digits.reverse.map fun ch => ch.toNat - 48)

/-- The text of an exponent, and the exponent. -/
inductive ExponentText : List Byte → ℤ → Prop where
  | none : ExponentText [] 0
  | some {marker : Byte} {sign digits : List Byte} {negative : Bool}
      (isMarker : marker = letter 'e' ∨ marker = letter 'E') (isSign : Sign sign negative)
      (nonempty : digits ≠ []) (all : ∀ ch ∈ digits, Format.isDigit ch = true) :
      ExponentText (marker :: (sign ++ digits))
        (if negative then -(decimalNumber digits : ℤ) else decimalNumber digits)

/-- A number in decimal notation: the text, the sign, and the magnitude. -/
inductive DecimalText : List Byte → Bool → ℚ → Prop where
  | number {sign whole point fraction tail : List Byte} {negative : Bool} {exponent : ℤ}
      (isSign : Sign sign negative) (isPoint : point = [] ∧ fraction = [] ∨ point = [letter '.'])
      (all : ∀ ch ∈ whole ++ fraction, Format.isDigit ch = true) (nonempty : whole ++ fraction ≠ [])
      (isExponent : ExponentText tail exponent) :
      DecimalText (sign ++ (whole ++ (point ++ (fraction ++ tail)))) negative
        (decimalNumber (whole ++ fraction) * 10 ^ (exponent - fraction.length))

/-- An optional sign and one of some words, in any case. -/
def IsWord (words : List (List Byte)) (text : List Byte) (negative : Bool) : Prop :=
  ∃ sign word, text = sign ++ word ∧ Sign sign negative ∧ word.map toLower ∈ words

def infinities : List (List Byte) :=
  ["inf".toList.map letter, "infinity".toList.map letter]

def nans : List (List Byte) :=
  ["nan".toList.map letter]

section
variable {digits front back : List Byte}

theorem decimalNumber_append (front back : List Byte) :
    decimalNumber (front ++ back) =
      decimalNumber front * 10 ^ back.length + decimalNumber back := by
  simp only [decimalNumber, List.reverse_append, List.map_append, Nat.ofDigits_append,
    List.length_map, List.length_reverse]
  ring

@[simp] theorem decimalNumber_nil : decimalNumber [] = 0 := rfl

theorem decimalNumber_singleton (ch : Byte) : decimalNumber [ch] = ch.toNat - 48 := by
  simp [decimalNumber]

theorem decimalNumber_cons (ch : Byte) (digits : List Byte) :
    decimalNumber (ch :: digits) =
      (ch.toNat - 48) * 10 ^ digits.length + decimalNumber digits := by
  rw [← List.singleton_append, decimalNumber_append, decimalNumber_singleton]

theorem foldl_eq (significand : ℕ) (digits : List Byte) :
    digits.foldl (fun significand (ch : Byte) => significand * 10 + (ch.toNat - 48)) significand =
      significand * 10 ^ digits.length + decimalNumber digits := by
  induction digits generalizing significand with
  | nil => simp
  | cons ch digits ih =>
      rw [List.foldl_cons, ih, decimalNumber_cons, List.length_cons]
      ring

theorem digit_bounds {ch : Byte} (digit : Format.isDigit ch = true) :
    48 ≤ ch.toNat ∧ ch.toNat ≤ 57 := by
  simpa [Format.isDigit] using digit

theorem decimalNumber_lt (all : ∀ ch ∈ digits, Format.isDigit ch = true) :
    decimalNumber digits < 10 ^ digits.length := by
  induction digits with
  | nil => simp
  | cons ch digits ih =>
      have digit := digit_bounds (all ch List.mem_cons_self)
      have rest := ih fun other member => all other (List.mem_cons_of_mem _ member)
      have high : (ch.toNat - 48) * 10 ^ digits.length ≤ 9 * 10 ^ digits.length :=
        Nat.mul_le_mul_right _ (by omega)
      rw [decimalNumber_cons, List.length_cons, pow_succ]
      omega

theorem le_decimalNumber {ch : Byte} (digit : Format.isDigit ch = true) (nonzero : ch ≠ letter '0') :
    10 ^ digits.length ≤ decimalNumber (ch :: digits) := by
  have bounds := digit_bounds digit
  have other : ch.toNat ≠ 48 := fun same => nonzero (BitVec.eq_of_toNat_eq same)
  have high : 1 * 10 ^ digits.length ≤ (ch.toNat - 48) * 10 ^ digits.length :=
    Nat.mul_le_mul_right _ (by omega)
  rw [decimalNumber_cons]
  omega

/-- Leading zeros count for nothing. -/
theorem decimalNumber_dropWhile (digits : List Byte) :
    decimalNumber (digits.dropWhile (· = letter '0')) = decimalNumber digits := by
  induction digits with
  | nil => rfl
  | cons ch digits ih =>
      by_cases zero : ch = letter '0'
      · subst zero
        rw [List.dropWhile_cons_of_pos (by simp), ih, decimalNumber_cons]
        simp [letter]
      · rw [List.dropWhile_cons_of_neg (by simpa using zero)]

theorem powerLoop_eq (exponent result base : ℕ) :
    powerLoop exponent result base = result * base ^ exponent := by
  induction exponent using Nat.strong_induction_on generalizing result base with
  | _ exponent ih =>
      rw [powerLoop]
      split
      · rename_i none
        rw [none, pow_zero, Nat.mul_one]
      rename_i nonzero
      have half : exponent >>> 1 = exponent / 2 := Nat.shiftRight_eq_div_pow _ 1
      have square : (if exponent / 2 ≠ 0 then base * base else base) ^ (exponent / 2) =
          base ^ (2 * (exponent / 2)) := by
        split
        · rw [pow_mul, pow_two]
        · rename_i none
          rw [not_not.mp none]
      rw [half, ih _ (by omega), square, Nat.and_one_is_mod]
      split
      · rename_i odd
        have split : exponent = 2 * (exponent / 2) + 1 := by omega
        conv_rhs => rw [split, pow_succ]
        ring
      · rename_i even
        rw [show 2 * (exponent / 2) = exponent by omega]

theorem powerOfTen_eq (exponent : ℕ) : powerOfTen exponent = 10 ^ exponent := by
  rw [powerOfTen, powerLoop_eq, Nat.one_mul]

/-! ### The scans of the text -/

theorem scanDigits_append {sawPoint : Bool} {tail : List Byte}
    (all : ∀ ch ∈ digits, Format.isDigit ch = true) :
    scanDigits sawPoint (digits ++ tail) =
      ⟨digits ++ (scanDigits sawPoint tail).digits,
        (if sawPoint then digits.length else 0) + (scanDigits sawPoint tail).fractionalDigits,
        (scanDigits sawPoint tail).rest⟩ := by
  induction digits with
  | nil => simp
  | cons ch digits ih =>
      have digit := all ch List.mem_cons_self
      rw [List.cons_append, scanDigits, if_pos digit,
        ih fun other member => all other (List.mem_cons_of_mem _ member)]
      cases sawPoint <;> simp [Nat.add_comm, Nat.add_assoc]

/-- The scan stops at what is neither a digit nor a first point. -/
theorem scanDigits_stop {sawPoint : Bool} {tail : List Byte}
    (stop : ∀ ch, tail.head? = some ch → Format.isDigit ch = false ∧ ch ≠ letter '.') :
    scanDigits sawPoint tail = ⟨[], 0, tail⟩ := by
  cases tail with
  | nil => rfl
  | cons ch rest =>
      obtain ⟨noDigit, noPoint⟩ := stop ch rfl
      rw [scanDigits, if_neg (by rw [noDigit]; decide), if_neg (fun found => noPoint found.1)]

theorem scanDigits_point (tail : List Byte) :
    scanDigits false (letter '.' :: tail) = scanDigits true tail := by
  rw [scanDigits, if_neg (by decide), if_pos ⟨rfl, rfl⟩]

/-- What the scan has read, behind a point. -/
theorem scanDigits_true_split (text : List Byte) :
    text = (scanDigits true text).digits ++ (scanDigits true text).rest ∧
      (scanDigits true text).fractionalDigits = (scanDigits true text).digits.length ∧
      ∀ ch ∈ (scanDigits true text).digits, Format.isDigit ch = true := by
  induction text with
  | nil => simp [scanDigits]
  | cons ch rest ih =>
      obtain ⟨split, count, all⟩ := ih
      rw [scanDigits]
      split
      · rename_i digit
        refine ⟨congrArg (ch :: ·) split, ?_, ?_⟩
        · dsimp only
          rw [count, if_pos rfl, List.length_cons, Nat.add_comm]
        · intro other member
          rcases List.mem_cons.mp member with rfl | member
          · exact digit
          · exact all other member
      · rw [if_neg (by simp)]
        exact ⟨rfl, rfl, nofun⟩

/-- What the scan has read. -/
theorem scanDigits_split (text : List Byte) :
    ∃ whole point fraction, text = whole ++ (point ++ (fraction ++ (scanDigits false text).rest)) ∧
      (point = [] ∧ fraction = [] ∨ point = [letter '.']) ∧
      (scanDigits false text).digits = whole ++ fraction ∧
      (scanDigits false text).fractionalDigits = fraction.length ∧
      ∀ ch ∈ whole ++ fraction, Format.isDigit ch = true := by
  induction text with
  | nil => exact ⟨[], [], [], rfl, .inl ⟨rfl, rfl⟩, rfl, rfl, nofun⟩
  | cons ch rest ih =>
      rw [scanDigits]
      split
      · rename_i digit
        obtain ⟨whole, point, fraction, split, isPoint, digits, count, all⟩ := ih
        refine ⟨ch :: whole, point, fraction, congrArg (ch :: ·) split, isPoint,
          congrArg (ch :: ·) digits, ?_, ?_⟩
        · dsimp only
          rw [count, if_neg (by decide), Nat.zero_add]
        · intro other member
          rcases List.mem_cons.mp member with rfl | member
          · exact digit
          · exact all other member
      split
      · rename_i isPoint
        obtain ⟨split, count, all⟩ := scanDigits_true_split rest
        exact ⟨[], [letter '.'], _, by rw [isPoint.1]; exact congrArg _ split, .inr rfl, rfl, count,
          all⟩
      · exact ⟨[], [], [], rfl, .inl ⟨rfl, rfl⟩, rfl, rfl, nofun⟩

/-- The counted exponent is the exponent of the text, but where both are out of every range. -/
inductive Saturates : ℤ → ℤ → Prop where
  | exact (exponent : ℤ) : Saturates exponent exponent
  | high {counted exponent : ℤ} (large : 100000 ≤ counted) (large' : 100000 ≤ exponent) :
      Saturates counted exponent
  | low {counted exponent : ℤ} (small : counted ≤ -100000) (small' : exponent ≤ -100000) :
      Saturates counted exponent

theorem scanExponent_digits {tail : List Byte} (all : ∀ ch ∈ digits, Format.isDigit ch = true)
    (stop : ∀ ch, tail.head? = some ch → Format.isDigit ch = false) (explicitExponent : ℕ) :
    ∃ counted, scanExponent explicitExponent (digits ++ tail) = (counted, tail) ∧
      (counted = explicitExponent * 10 ^ digits.length + decimalNumber digits ∨
        100000 ≤ counted ∧
          100000 ≤ explicitExponent * 10 ^ digits.length + decimalNumber digits) := by
  induction digits generalizing explicitExponent with
  | nil =>
      refine ⟨explicitExponent, ?_, .inl (by simp)⟩
      cases tail with
      | nil => rfl
      | cons ch rest =>
          rw [List.nil_append, scanExponent, if_neg (by rw [stop ch rfl]; decide)]
  | cons ch digits ih =>
      have digit := all ch List.mem_cons_self
      obtain ⟨counted, scan, relation⟩ :=
        ih (fun other member => all other (List.mem_cons_of_mem _ member))
          (if explicitExponent < 100000 then explicitExponent * 10 + (ch.toNat - 48)
            else explicitExponent)
      refine ⟨counted, by rw [List.cons_append, scanExponent, if_pos digit, scan], ?_⟩
      have whole : explicitExponent * 10 ^ (ch :: digits).length + decimalNumber (ch :: digits) =
          (explicitExponent * 10 + (ch.toNat - 48)) * 10 ^ digits.length + decimalNumber digits := by
        rw [decimalNumber_cons, List.length_cons]
        ring
      rw [whole]
      have power : 0 < 10 ^ digits.length := Nat.pow_pos (by decide)
      split at relation
      · exact relation
      · rename_i large
        have grown : explicitExponent ≤ explicitExponent * 10 ^ digits.length :=
          Nat.le_mul_of_pos_right _ power
        have more : explicitExponent * 10 ^ digits.length ≤
            (explicitExponent * 10 + (ch.toNat - 48)) * 10 ^ digits.length :=
          Nat.mul_le_mul_right _ (by omega)
        right
        omega

theorem scanExponent_rest (explicitExponent : ℕ) (text : List Byte) :
    (scanExponent explicitExponent text).2 = text.dropWhile Format.isDigit := by
  induction text generalizing explicitExponent with
  | nil => rfl
  | cons ch rest ih =>
      rw [scanExponent]
      by_cases digit : Format.isDigit ch = true
      · rw [if_pos digit, ih, List.dropWhile_cons_of_pos digit]
      · rw [if_neg digit, List.dropWhile_cons_of_neg digit]

theorem unsigned_digits (all : ∀ ch ∈ digits, Format.isDigit ch = true) (ch : Byte)
    (first : digits.head? = some ch) : ch ≠ letter '+' ∧ ch ≠ letter '-' := by
  have digit := all ch (List.mem_of_head? first)
  constructor <;> rintro rfl <;> exact absurd digit (by decide)

theorem parseExponent_of_text {tail : List Byte} {exponent : ℤ}
    (isExponent : ExponentText tail exponent) :
    ∃ counted, parseExponent tail = some counted ∧ Saturates counted exponent := by
  cases isExponent with
  | none => exact ⟨0, rfl, .exact 0⟩
  | @some marker sign digits negative isMarker isSign nonempty all =>
      obtain ⟨counted, scan, relation⟩ :=
        scanExponent_digits all (show ∀ ch, [].head? = some ch → _ from nofun) 0
      rw [List.append_nil] at scan
      rw [Nat.zero_mul, Nat.zero_add] at relation
      have length : ([] : List Byte).length ≠ digits.length := by
        intro same
        exact nonempty (List.length_eq_zero_iff.mp same.symm)
      refine ⟨if negative then -(counted : ℤ) else counted, ?_, ?_⟩
      · rw [parseExponent, if_pos isMarker, skipSign_sign isSign (unsigned_digits all)]
        dsimp only
        rw [scan]
        dsimp only
        rw [if_neg length, if_neg (not_not.mpr rfl)]
      · rcases relation with rfl | ⟨large, large'⟩
        · exact .exact _
        · cases negative
          · exact .high (by simpa using large) (by simpa using large')
          · exact .low (by simpa using large) (by simpa using large')

theorem text_of_parseExponent {tail : List Byte} {counted : ℤ}
    (parsed : parseExponent tail = some counted) : ∃ exponent, ExponentText tail exponent := by
  cases tail with
  | nil => exact ⟨0, .none⟩
  | cons marker rest =>
      rw [parseExponent] at parsed
      split at parsed
      · rename_i isMarker
        obtain ⟨sign, split, isSign⟩ := skipSign_split rest
        have behind := scanExponent_rest 0 (skipSign rest).2
        dsimp only at parsed
        generalize scanExponent 0 (skipSign rest).2 = scan at parsed behind
        generalize (skipSign rest).2 = digits at parsed split behind
        split at parsed
        · cases parsed
        rename_i empty
        split at parsed
        · cases parsed
        rename_i more
        rw [not_not.mp more] at behind empty
        rw [split]
        refine ⟨_, .some isMarker isSign ?_ ?_⟩
        · rintro rfl
          exact empty rfl
        · exact List.dropWhile_eq_nil_iff.mp behind.symm
      · cases parsed

end

/-! ### The whole text -/

section
variable {text : List Byte} {negative : Bool}

/-- From `10 ^ 6000` on the number is infinite. -/
theorem rounds_huge {magnitude : ℚ} {exponent : ℤ} (large : 6000 ≤ exponent)
    (least : 10 ^ exponent ≤ magnitude) : binary128.Rounds magnitude binary128.infinity := by
  apply Format.rounds_infinity
  rw [Format.value_infinity]
  have eight : (2 : ℚ) ^ (18000 : ℤ) = 8 ^ (6000 : ℤ) := by
    rw [show (8 : ℚ) = 2 ^ (3 : ℤ) by norm_num, ← zpow_mul]
    norm_num
  calc
    (2 : ℚ) ^ (2 ^ (binary128.exponent - 1) : ℤ) ≤ 2 ^ (18000 : ℤ) :=
      zpow_le_zpow_right₀ one_le_two (by decide)
    _ = 8 ^ (6000 : ℤ) := eight
    _ ≤ 10 ^ (6000 : ℤ) := zpow_le_zpow_left₀ (by decide) (by norm_num) (by norm_num)
    _ ≤ 10 ^ exponent := zpow_le_zpow_right₀ (by norm_num) large
    _ ≤ magnitude := least

/-- Up to `10 ^ -6000` it is zero. -/
theorem rounds_tiny {magnitude : ℚ} {exponent : ℤ} (small : exponent ≤ -6000)
    (most : magnitude < 10 ^ exponent) : binary128.Rounds magnitude 0 := by
  apply Format.rounds_zero
  have eight : (2 : ℚ) ^ (-18000 : ℤ) = 8 ^ (-6000 : ℤ) := by
    rw [show (8 : ℚ) = 2 ^ (3 : ℤ) by norm_num, ← zpow_mul]
    norm_num
  have bound : magnitude < 2 ^ (-18000 : ℤ) := by
    calc
      magnitude < 10 ^ exponent := most
      _ ≤ 10 ^ (-6000 : ℤ) := zpow_le_zpow_right₀ (by norm_num) small
      _ ≤ 8 ^ (-6000 : ℤ) := by
        rw [zpow_neg, zpow_neg]
        exact inv_anti₀ (by positivity) (zpow_le_zpow_left₀ (by decide) (by norm_num) (by norm_num))
      _ = 2 ^ (-18000 : ℤ) := eight.symm
  calc
    2 * magnitude < 2 ^ (1 : ℤ) * 2 ^ (-18000 : ℤ) := by
      rw [zpow_one]
      linarith
    _ = 2 ^ (1 + -18000 : ℤ) := (zpow_add₀ two_ne_zero _ _).symm
    _ ≤ 2 ^ binary128.lowest := zpow_le_zpow_right₀ one_le_two (by rw [lowest128]; decide)

theorem encodeDecimal_rounds {scanned : List Byte} {fractionalDigits : ℕ} {counted exponent : ℤ}
    (all : ∀ ch ∈ scanned, Format.isDigit ch = true) (few : scanned.length < 192)
    (few' : fractionalDigits < 192) (saturates : Saturates counted exponent) :
    (encodeDecimal negative scanned fractionalDigits counted).msb = negative ∧
      binary128.Rounds (decimalNumber scanned * 10 ^ (exponent - fractionalDigits))
        (place (encodeDecimal negative scanned fractionalDigits counted)) := by
  unfold encodeDecimal
  rw [← decimalNumber_dropWhile]
  have shorter : (scanned.dropWhile (· = letter '0')).length ≤ scanned.length :=
    (List.dropWhile_suffix _).length_le
  have all' : ∀ ch ∈ scanned.dropWhile (· = letter '0'), Format.isDigit ch = true :=
    fun ch member => all ch ((List.dropWhile_suffix _).subset member)
  have first : ∀ ch, (scanned.dropWhile (· = letter '0')).head? = some ch → ch ≠ letter '0' := by
    intro ch first
    simpa using Scan.head?_dropWhile first
  generalize scanned.dropWhile (· = letter '0') = digits at shorter all' first
  dsimp only
  cases digits with
  | nil =>
      rw [if_pos rfl, decimalNumber_nil, Nat.cast_zero, zero_mul]
      exact zero_rounds negative
  | cons ch digits =>
      rw [if_neg (List.cons_ne_nil _ _)]
      have nonzero := @le_decimalNumber digits ch (all' ch List.mem_cons_self) (first ch rfl)
      have less := decimalNumber_lt all'
      rw [List.length_cons] at shorter less ⊢
      rw [foldl_eq, Nat.zero_mul, Nat.zero_add, powerOfTen_eq, powerOfTen_eq]
      generalize decimalNumber (ch :: digits) = number at nonzero less
      generalize digits.length = behind at shorter nonzero less
      have ten : (0 : ℚ) < 10 := by norm_num
      have power : (0 : ℚ) < 10 ^ (exponent - fractionalDigits) := zpow_pos ten _
      have least : (10 : ℚ) ^ (behind + (exponent - fractionalDigits)) ≤
          number * 10 ^ (exponent - fractionalDigits) := by
        rw [zpow_add₀ ten.ne', zpow_natCast]
        exact mul_le_mul_of_nonneg_right (by exact_mod_cast nonzero) power.le
      have most : (number : ℚ) * 10 ^ (exponent - fractionalDigits) <
          10 ^ ((behind + 1 : ℕ) + (exponent - fractionalDigits)) := by
        rw [zpow_add₀ ten.ne', zpow_natCast]
        exact mul_lt_mul_of_pos_right (by exact_mod_cast less) power
      by_cases huge : 6000 < ((behind + 1 : ℕ) : ℤ) + (counted - fractionalDigits)
      · rw [if_pos huge, (infinity_pattern negative).2]
        refine ⟨(infinity_pattern negative).1, rounds_huge ?_ least⟩
        cases saturates <;> omega
      rw [if_neg huge]
      by_cases tiny : ((behind + 1 : ℕ) : ℤ) + (counted - fractionalDigits) < -6000
      · rw [if_pos tiny, (signedZero_pattern negative).2]
        refine ⟨(signedZero_pattern negative).1, rounds_tiny ?_ most⟩
        cases saturates <;> omega
      rw [if_neg tiny]
      obtain rfl : counted = exponent := by cases saturates <;> omega
      generalize counted - (fractionalDigits : ℤ) = scale
      split
      · rename_i up
        obtain ⟨count, rfl⟩ := Int.eq_ofNat_of_zero_le up
        have same : (number * 10 ^ (count : ℤ) : ℚ) = (number * 10 ^ count : ℕ) / (1 : ℕ) := by
          push_cast
          rw [zpow_natCast, div_one]
        rw [Int.toNat_natCast, same]
        exact encodeRational_rounds Nat.one_pos negative
      · rename_i down
        obtain ⟨count, isDown⟩ := Int.eq_ofNat_of_zero_le (show 0 ≤ -scale by omega)
        obtain rfl : scale = -count := by omega
        have same : (number * 10 ^ (-(count : ℤ)) : ℚ) = number / (10 ^ count : ℕ) := by
          push_cast
          rw [zpow_neg, zpow_natCast, div_eq_mul_inv]
        rw [neg_neg, Int.toNat_natCast, same]
        exact encodeRational_rounds (Nat.pow_pos (by decide)) negative

theorem parseDecimalBits_eq {body : List Byte} (skip : skipSign text = (negative, body))
    (nonempty : body ≠ []) :
    parseDecimalBits text =
      if body.map toLower ∈ infinities then some (signedZero negative ||| kExponentMask)
      else if body.map toLower ∈ nans then some (signedZero negative ||| quietNaN)
      else if (scanDigits false body).digits = [] then none
      else (parseExponent (scanDigits false body).rest).map
        (encodeDecimal negative (scanDigits false body).digits
          (scanDigits false body).fractionalDigits) := by
  have some' : text ≠ [] := by
    rintro rfl
    cases skip
    exact nonempty rfl
  rw [parseDecimalBits, if_neg some', skip]
  simp only [infinities, nans, List.mem_cons, List.not_mem_nil, or_false, if_neg nonempty]

theorem parseDecimalBits_of_empty (empty : (skipSign text).2 = []) :
    parseDecimalBits text = none := by
  rw [parseDecimalBits]
  split
  · rfl
  · dsimp only
    rw [if_pos empty]

/-- No word is empty or starts with a sign. -/
theorem skipSign_of_isWord {words : List (List Byte)}
    (letters : ∀ word ∈ words, word ≠ [] ∧ letter '+' ∉ word ∧ letter '-' ∉ word)
    (isWord : IsWord words text negative) :
    ∃ body, skipSign text = (negative, body) ∧ body ≠ [] ∧ body.map toLower ∈ words := by
  obtain ⟨sign, body, rfl, isSign, member⟩ := isWord
  obtain ⟨nonempty, notPlus, notMinus⟩ := letters _ member
  refine ⟨body, skipSign_sign isSign (fun ch first => ?_), mt (congrArg _) nonempty, member⟩
  have lower := List.mem_map_of_mem (f := toLower) (List.mem_of_head? first)
  constructor
  · rintro rfl
    exact notPlus lower
  · rintro rfl
    exact notMinus lower

/-- A body with a digit is none of the words. -/
theorem not_mem_words {words : List (List Byte)} {body : List Byte}
    (letters : ∀ word ∈ words, ∀ ch ∈ word, Format.isDigit ch = false)
    {ch : Byte} (member : ch ∈ body) (digit : Format.isDigit ch = true) :
    body.map toLower ∉ words := by
  intro isWord
  have bounds := digit_bounds digit
  have same : toLower ch = ch := if_neg (by omega)
  have noDigit := letters _ isWord (toLower ch) (List.mem_map_of_mem member)
  rw [same, digit] at noDigit
  cases noDigit

/-- The scan of a number. -/
theorem scanDigits_number {whole point fraction tail : List Byte} {exponent : ℤ}
    (isPoint : point = [] ∧ fraction = [] ∨ point = [letter '.'])
    (all : ∀ ch ∈ whole ++ fraction, Format.isDigit ch = true)
    (isExponent : ExponentText tail exponent) :
    scanDigits false (whole ++ (point ++ (fraction ++ tail))) =
      ⟨whole ++ fraction, fraction.length, tail⟩ := by
  have stop : ∀ ch, tail.head? = some ch → Format.isDigit ch = false ∧ ch ≠ letter '.' := by
    intro ch first
    cases isExponent with
    | none => cases first
    | some isMarker =>
        cases first
        rcases isMarker with rfl | rfl <;> decide
  have whole' : ∀ ch ∈ whole, Format.isDigit ch = true :=
    fun ch member => all ch (List.mem_append_left _ member)
  have fraction' : ∀ ch ∈ fraction, Format.isDigit ch = true :=
    fun ch member => all ch (List.mem_append_right _ member)
  rw [scanDigits_append whole']
  rcases isPoint with ⟨rfl, rfl⟩ | rfl
  · rw [List.nil_append, List.nil_append, scanDigits_stop stop]
    simp
  · rw [List.singleton_append, scanDigits_point, scanDigits_append fraction', scanDigits_stop stop]
    simp

/-- A number without its sign does not start with one. -/
theorem unsigned_number {whole point fraction tail : List Byte}
    (isPoint : point = [] ∧ fraction = [] ∨ point = [letter '.'])
    (all : ∀ ch ∈ whole ++ fraction, Format.isDigit ch = true) (nonempty : whole ++ fraction ≠ [])
    (ch : Byte) (first : (whole ++ (point ++ (fraction ++ tail))).head? = some ch) :
    ch ≠ letter '+' ∧ ch ≠ letter '-' := by
  cases whole with
  | cons digit whole =>
      cases first
      exact unsigned_digits all ch rfl
  | nil =>
      rcases isPoint with ⟨rfl, rfl⟩ | rfl
      · exact absurd rfl nonempty
      · cases first
        decide

/-- The text is parsed as its number, rounded once, or as its word; no other text is parsed. -/
structure ParsesCorrectly (text : List Byte) : Prop where
  number : ∀ negative magnitude, DecimalText text negative magnitude →
    ∃ bits, parseDecimalBits text = some bits ∧
      binary128.IsRounded (.finite negative magnitude) bits
  infinite : ∀ negative, IsWord infinities text negative →
    ∃ bits, parseDecimalBits text = some bits ∧ binary128.decode bits = .infinite negative
  nan : ∀ negative, IsWord nans text negative →
    ∃ bits, parseDecimalBits text = some bits ∧ binary128.decode bits = .nan negative
  other : ∀ bits, parseDecimalBits text = some bits →
    (∃ negative magnitude, DecimalText text negative magnitude) ∨
      (∃ negative, IsWord infinities text negative) ∨ ∃ negative, IsWord nans text negative

/-- Decimal texts within the bound of the token buffer are converted with one rounding. -/
theorem parseDecimalBits_correct (text : List Byte) (short : text.length < 192) :
    ParsesCorrectly text where
  number negative magnitude isNumber := by
    cases isNumber with
    | @number sign whole point fraction tail _ exponent isSign isPoint all nonempty isExponent =>
        obtain ⟨counted, parsed, saturates⟩ := parseExponent_of_text isExponent
        obtain ⟨ch, member⟩ := List.exists_mem_of_ne_nil _ nonempty
        have inBody : ch ∈ whole ++ (point ++ (fraction ++ tail)) := by
          rcases List.mem_append.mp member with member | member <;> simp [member]
        have unsigned := @unsigned_number _ _ _ tail isPoint all nonempty
        have scan := scanDigits_number isPoint all isExponent
        have lengths : (whole ++ fraction).length < 192 ∧ fraction.length < 192 := by
          simp only [List.length_append] at short ⊢
          omega
        rw [parseDecimalBits_eq (skipSign_sign isSign unsigned) (List.ne_nil_of_mem inBody),
          if_neg (not_mem_words (by decide) inBody (all ch member)),
          if_neg (not_mem_words (by decide) inBody (all ch member)), scan, if_neg nonempty, parsed]
        exact ⟨_, rfl, encodeDecimal_rounds all lengths.1 lengths.2 saturates⟩
  infinite negative isWord := by
    obtain ⟨body, skip, nonempty, member⟩ := skipSign_of_isWord (by decide) isWord
    refine ⟨_, (parseDecimalBits_eq skip nonempty).trans (if_pos member), ?_⟩
    obtain ⟨sign, same⟩ := infinity_pattern negative
    exact Format.decode_eq_infinite_iff.mpr ⟨same, sign⟩
  nan negative isWord := by
    obtain ⟨body, skip, nonempty, member⟩ := skipSign_of_isWord (by decide) isWord
    have other : body.map toLower ∉ infinities := by
      rw [List.mem_singleton.mp member]
      decide
    refine ⟨_, (parseDecimalBits_eq skip nonempty).trans
      ((if_neg other).trans (if_pos member)), ?_⟩
    obtain ⟨sign, same⟩ := signed_pattern negative (show quietNaN.toNat < 2 ^ 127 by decide)
    exact Format.decode_eq_nan_iff.mpr ⟨by rw [same]; decide, sign⟩
  other bits parsed := by
    obtain ⟨sign, split, isSign⟩ := skipSign_split text
    rcases skip : skipSign text with ⟨negative, body⟩
    rw [skip] at split isSign
    dsimp only at split isSign
    by_cases empty : body = []
    · rw [parseDecimalBits_of_empty (by rw [skip]; exact empty)] at parsed
      cases parsed
    rw [parseDecimalBits_eq skip empty] at parsed
    split at parsed
    · exact .inr (.inl ⟨negative, sign, body, split, isSign, ‹_›⟩)
    split at parsed
    · exact .inr (.inr ⟨negative, sign, body, split, isSign, ‹_›⟩)
    split at parsed
    · cases parsed
    rename_i nonempty
    obtain ⟨counted, isExponent, _⟩ := Option.map_eq_some_iff.mp parsed
    obtain ⟨exponent, isExponent⟩ := text_of_parseExponent isExponent
    obtain ⟨whole, point, fraction, isBody, isPoint, digits, _, all⟩ := scanDigits_split body
    rw [digits] at nonempty
    rw [isBody] at split
    rw [split]
    exact .inl ⟨_, _, .number isSign isPoint all nonempty isExponent⟩

theorem parseDecimalBits_correct_half : ParsesCorrectly ("-1.5e3".toList.map letter) :=
  parseDecimalBits_correct _ (by decide)

end

end HitSimple.Floating

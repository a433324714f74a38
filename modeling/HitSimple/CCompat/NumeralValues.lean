import HitSimple.CCompat.Numerals

namespace HitSimple.CCompat
open Literal (Spelling digitValue maxUInt64 parseDigits parseUnsignedIntegerLiteral)
open Lexer (Digits digitsValue digits_cons_iff parseDigits_digits)

section
variable {base : Nat} {text : Spelling}

theorem isDigitOf_underscore : isDigitOf base '_' = false := rfl

theorem digitsBelow_isDigitOf : Lexer.DigitsBelow (isDigitOf base) base := by
  intro ch valid
  unfold isDigitOf at valid
  cases decoded : digitValue ch with
  | none => simp [decoded] at valid
  | some digit => exact ⟨digit, rfl, by simpa [decoded] using valid⟩

/-- What the digit loops may still read: digits at once at the start and behind a separator, else
also nothing or a separator with digits behind it. -/
def Continues (base : Nat) (sawDigit previousUnderscore : Bool) (run : Spelling) : Prop :=
  if !sawDigit || previousUnderscore then Digits (isDigitOf base) run
  else run = [] ∨ Digits (isDigitOf base) run ∨
    ∃ more, run = '_' :: more ∧ Digits (isDigitOf base) more

theorem not_digits_nil : ¬Digits (isDigitOf base) [] :=
  fun digits => digits.ne_nil rfl

theorem not_digits_underscore : ¬Digits (isDigitOf base) ('_' :: text) :=
  fun digits => Bool.false_ne_true (digits_cons_iff.mp digits).1

theorem continues_nil {sawDigit previousUnderscore : Bool} :
    Continues base sawDigit previousUnderscore [] ↔ (!sawDigit || previousUnderscore) = false := by
  unfold Continues
  split
  next fresh => exact iff_of_false not_digits_nil (by simp [fresh])
  next running => exact iff_of_true (.inl rfl) (Bool.eq_false_iff.mpr running)

theorem continues_underscore {sawDigit previousUnderscore : Bool} :
    Continues base sawDigit previousUnderscore ('_' :: text) ↔
      (!sawDigit || previousUnderscore) = false ∧ Continues base sawDigit true text := by
  unfold Continues
  split
  next fresh => exact iff_of_false not_digits_underscore (by simp [fresh])
  next running =>
    rw [Bool.or_true, if_pos rfl]
    refine ⟨?_, fun ⟨_, digits⟩ => .inr (.inr ⟨text, rfl, digits⟩)⟩
    rintro (absent | digits | ⟨more, same, digits⟩)
    · cases absent
    · exact absurd digits not_digits_underscore
    · cases same
      exact ⟨Bool.eq_false_iff.mpr running, digits⟩

theorem continues_digit {sawDigit previousUnderscore : Bool} {ch : Char} (plain : ch ≠ '_') :
    Continues base sawDigit previousUnderscore (ch :: text) ↔
      isDigitOf base ch = true ∧ Continues base true false text := by
  have digits : Digits (isDigitOf base) (ch :: text) ↔
      isDigitOf base ch = true ∧ Continues base true false text := digits_cons_iff
  unfold Continues at digits ⊢
  split
  · exact digits
  · rw [← digits]
    refine ⟨?_, fun valid => .inr (.inl valid)⟩
    rintro (absent | valid | ⟨more, same, _⟩)
    · cases absent
    · exact valid
    · cases same
      exact absurd rfl plain

theorem arrayCountDigits_eq {value count : Nat} {sawDigit previousUnderscore : Bool} :
    arrayCountDigits base value sawDigit previousUnderscore text = some count ↔
      Continues base sawDigit previousUnderscore text ∧
        parseDigits base text value sawDigit = some count := by
  induction text generalizing value sawDigit previousUnderscore with
  | nil =>
      rw [arrayCountDigits, parseDigits, continues_nil]
      cases sawDigit <;> cases previousUnderscore <;> simp
  | cons ch rest ih =>
      rw [arrayCountDigits, parseDigits]
      by_cases separator : ch = '_'
      · subst separator
        rw [if_pos rfl, if_pos rfl, continues_underscore, and_assoc, ← ih]
        cases sawDigit <;> cases previousUnderscore <;> simp
      · rw [if_neg separator, if_neg separator, continues_digit separator, isDigitOf]
        cases digitValue ch with
        | none => simp
        | some digit =>
            dsimp only [Option.any_some]
            by_cases valid : digit < base
            · by_cases room : (maxUInt64 - digit) / base < value
              · simp [valid, room]
              · simp [valid, room, ih]
            · simp [valid, Nat.not_lt.mp valid]

/-- The digits stop where something stands that is neither a digit nor a separator. -/
def RunEnds (base : Nat) (behind : Spelling) : Prop :=
  ∀ ch, behind.head? = some ch → ch ≠ '_' ∧ isDigitOf base ch = false

theorem cIntegerDigits_eq {run behind : Spelling} {sawDigit previousUnderscore : Bool} :
    cIntegerDigits base sawDigit previousUnderscore text = some (run, behind) ↔
      text = run ++ behind ∧ Continues base sawDigit previousUnderscore run ∧ RunEnds base behind := by
  induction text generalizing run sawDigit previousUnderscore with
  | nil =>
      rw [cIntegerDigits]
      constructor
      · intro taken
        split at taken
        · cases taken
        next running =>
          cases taken
          exact ⟨rfl, continues_nil.mpr (Bool.eq_false_iff.mpr running), fun _ first => by cases first⟩
      · rintro ⟨split, continues, _⟩
        obtain ⟨rfl, rfl⟩ := List.append_eq_nil_iff.mp split.symm
        rw [continues_nil.mp continues]
        rfl
  | cons ch rest ih =>
      rw [cIntegerDigits]
      have split_run {first : Char} {more : Spelling} :
          ch :: rest = first :: more ++ behind ↔ first = ch ∧ rest = more ++ behind := by
        rw [List.cons_append, List.cons.injEq, eq_comm]
      by_cases separator : ch = '_'
      · subst separator
        rw [if_pos rfl]
        cases run with
        | nil =>
            refine iff_of_false ?_ ?_
            · split
              · exact fun taken => by cases taken
              · simp
            · rintro ⟨split, _, ends⟩
              exact (ends '_' (by rw [← List.nil_append behind, ← split]; rfl)).1 rfl
        | cons first more =>
            rw [split_run]
            constructor
            · intro taken
              split at taken
              · cases taken
              next running =>
                obtain ⟨⟨inner, after⟩, read, same⟩ := Option.map_eq_some_iff.mp taken
                cases same
                obtain ⟨joined, continues, ends⟩ := ih.mp read
                refine ⟨⟨rfl, joined⟩, ?_, ends⟩
                exact continues_underscore.mpr ⟨Bool.eq_false_iff.mpr running, continues⟩
            · rintro ⟨⟨rfl, joined⟩, continues, ends⟩
              obtain ⟨running, continues⟩ := continues_underscore.mp continues
              rw [running, if_neg Bool.false_ne_true, ih.mpr ⟨joined, continues, ends⟩]
              rfl
      rw [if_neg separator]
      by_cases digit : isDigitOf base ch = true
      · have decoded : (digitValue ch).any (· < base) = true := digit
        rw [if_pos decoded]
        cases run with
        | nil =>
            refine iff_of_false (by simp) ?_
            rintro ⟨split, _, ends⟩
            have stopped := (ends ch (by rw [← List.nil_append behind, ← split]; rfl)).2
            rw [digit] at stopped
            cases stopped
        | cons first more =>
            rw [split_run]
            constructor
            · intro taken
              obtain ⟨⟨inner, after⟩, read, same⟩ := Option.map_eq_some_iff.mp taken
              cases same
              obtain ⟨joined, continues, ends⟩ := ih.mp read
              exact ⟨⟨rfl, joined⟩, (continues_digit separator).mpr ⟨digit, continues⟩, ends⟩
            · rintro ⟨⟨rfl, joined⟩, continues, ends⟩
              rw [ih.mpr ⟨joined, ((continues_digit separator).mp continues).2, ends⟩]
              rfl
      · have undecoded : ¬(digitValue ch).any (· < base) = true := digit
        rw [if_neg undecoded]
        constructor
        · intro taken
          split at taken
          · cases taken
          next running =>
            cases taken
            refine ⟨rfl, continues_nil.mpr (Bool.eq_false_iff.mpr running), fun other first => ?_⟩
            cases first
            exact ⟨separator, Bool.eq_false_iff.mpr digit⟩
        · rintro ⟨split, continues, ends⟩
          cases run with
          | nil =>
              rw [continues_nil.mp continues, if_neg Bool.false_ne_true]
              rw [List.nil_append] at split
              rw [split]
          | cons first more =>
              obtain ⟨rfl, _⟩ := split_run.mp split
              exact absurd ((continues_digit separator).mp continues).1 digit

/-- From the start on, the digits are separated digits with nothing that continues them behind. -/
theorem cIntegerDigits_start {run behind : Spelling} :
    cIntegerDigits base false false text = some (run, behind) ↔
      text = run ++ behind ∧ Digits (isDigitOf base) run ∧ RunEnds base behind :=
  cIntegerDigits_eq

end

/-! ### Suffixes -/

theorem toNat_toLower (ch : Char) :
    ch.toLower.toNat = if 65 ≤ ch.toNat ∧ ch.toNat ≤ 90 then ch.toNat + 32 else ch.toNat := by
  unfold Char.toLower
  split
  next capital =>
    have low : 65 ≤ ch.toNat := capital.1
    have high : ch.toNat ≤ 90 := capital.2
    rw [if_pos ⟨low, high⟩]
    show (ch.val + 32).toNat = ch.val.toNat + 32
    have bound : ch.val.toNat ≤ 90 := high
    rw [UInt32.toNat_add]
    exact Nat.mod_eq_of_lt (by simp; omega)
  next other => exact (if_neg fun inside => other inside).symm

theorem toLower_eq_iff {ch lower : Char} (upper : Char) (range : 97 ≤ lower.toNat ∧ lower.toNat ≤ 122)
    (paired : upper.toNat + 32 = lower.toNat) : ch.toLower = lower ↔ ch = lower ∨ ch = upper := by
  have numbers {a b : Char} : a = b ↔ a.toNat = b.toNat := Char.toNat_inj.symm
  rw [numbers (b := lower), numbers (a := ch) (b := lower), numbers (b := upper), toNat_toLower]
  split <;> omega

theorem isUnsignedMark_iff {ch : Char} : ch.toLower = 'u' ↔ isUnsignedMark ch = true := by
  rw [toLower_eq_iff 'U' (by decide) (by decide)]
  simp [isUnsignedMark]

theorem isLongMark_iff {ch : Char} : ch.toLower = 'l' ↔ isLongMark ch = true := by
  rw [toLower_eq_iff 'L' (by decide) (by decide)]
  simp [isLongMark]

/-- A mark is of one kind. -/
theorem isLongMark_of_unsigned {ch : Char} (mark : isUnsignedMark ch = true) :
    isLongMark ch = false := by
  have lower := isUnsignedMark_iff.mpr mark
  rw [Bool.eq_false_iff, ne_eq, ← isLongMark_iff, lower]
  decide

theorem cIntegerSuffix_eq {suffix : Spelling} {hasUnsigned : Bool} {longCount : Nat}
    {read : Bool × Nat} (bound : longCount ≤ 2) :
    cIntegerSuffix hasUnsigned longCount suffix = some read ↔
      (∀ ch ∈ suffix, isUnsignedMark ch = true ∨ isLongMark ch = true) ∧
      suffix.countP isUnsignedMark + hasUnsigned.toNat ≤ 1 ∧
      suffix.countP isLongMark + longCount ≤ 2 ∧
      read = (hasUnsigned || decide (0 < suffix.countP isUnsignedMark),
        suffix.countP isLongMark + longCount) := by
  induction suffix generalizing hasUnsigned longCount with
  | nil =>
      have one := Bool.toNat_le hasUnsigned
      simp [cIntegerSuffix, eq_comm (a := read), bound, one]
  | cons ch rest ih =>
      rw [cIntegerSuffix]
      simp only [isUnsignedMark_iff, isLongMark_iff]
      by_cases unsigned : isUnsignedMark ch = true
      · have short := isLongMark_of_unsigned unsigned
        cases hasUnsigned with
        | false =>
            rw [if_pos ⟨unsigned, rfl⟩, ih bound]
            simp [unsigned, short]
        | true => simp [unsigned, short]
      · rw [if_neg fun both => unsigned both.1]
        by_cases long : isLongMark ch = true
        · by_cases room : longCount < 2
          · rw [if_pos ⟨long, room⟩, ih (by omega)]
            have moved : rest.countP isLongMark + (longCount + 1) =
                rest.countP isLongMark + 1 + longCount := by omega
            simp [unsigned, long, moved]
          · have full : ¬rest.countP isLongMark + 1 + longCount ≤ 2 := by omega
            simp [unsigned, long, room, full]
        · simp [unsigned, long]

theorem cIntegerSuffix_start {suffix : Spelling} {read : Bool × Nat} :
    cIntegerSuffix false 0 suffix = some read ↔ IsSuffix suffix ∧
      read = (decide (0 < suffix.countP isUnsignedMark), suffix.countP isLongMark) := by
  rw [cIntegerSuffix_eq (Nat.zero_le 2)]
  simp only [Bool.toNat_false, Nat.add_zero, Bool.false_or]
  exact ⟨fun ⟨marks, unsigned, long, same⟩ => ⟨⟨marks, unsigned, long⟩, same⟩,
    fun ⟨⟨marks, unsigned, long⟩, same⟩ => ⟨marks, unsigned, long, same⟩⟩

theorem not_isDigitOf_mark (base : Nat) {ch : Char}
    (mark : isUnsignedMark ch = true ∨ isLongMark ch = true) :
    ch ≠ '_' ∧ isDigitOf base ch = false := by
  have known : ch = 'u' ∨ ch = 'U' ∨ ch = 'l' ∨ ch = 'L' := by
    simpa [isUnsignedMark, isLongMark, or_assoc] using mark
  rcases known with rfl | rfl | rfl | rfl <;> exact ⟨by decide, rfl⟩

theorem IsSuffix.ends {base : Nat} {suffix : Spelling}
    (marks : IsSuffix suffix) : RunEnds base suffix :=
  fun ch first => not_isDigitOf_mark _ (marks.marks ch (List.mem_of_mem_head? first))

/-! ### Numerals -/

section
variable {base : Nat} {run text suffix : Spelling}

theorem Numeral.base_bounds (numeral : Numeral base run text) : 2 ≤ base ∧ base ≤ 16 := by
  cases numeral with
  | decimal => decide
  | octal => decide
  | radix known => cases known <;> decide

theorem Numeral.digits (numeral : Numeral base run text) : Digits (isDigitOf base) run := by
  cases numeral with
  | decimal digits => exact digits
  | octal digits => exact digits
  | radix _ valid => exact valid

theorem parseDigits_of_digits (two : 2 ≤ base) (sixteen : base ≤ 16)
    (valid : Digits (isDigitOf base) run) :
    parseDigits base run 0 false =
      if digitsValue base run ≤ maxUInt64 then some (digitsValue base run) else none :=
  parseDigits_digits (by omega) (le_trans sixteen (by decide)) digitsBelow_isDigitOf
    isDigitOf_underscore valid

theorem parseDigits_numeral (numeral : Numeral base run text) :
    parseDigits base run 0 false =
      if digitsValue base run ≤ maxUInt64 then some (digitsValue base run) else none :=
  parseDigits_of_digits numeral.base_bounds.1 numeral.base_bounds.2 numeral.digits

/-- A leading zero changes nothing. -/
theorem parseDigits_zero {rest : Spelling} (positive : 0 < base) (more : rest ≠ [])
    (valid : Digits (isDigitOf base) ('0' :: rest)) :
    parseDigits base ('0' :: rest) 0 false = parseDigits base rest 0 false := by
  have decoded : digitValue '0' = some 0 := by decide
  have digit (hasDigit : Bool) (text : Spelling) (some_digit : ∃ ch ∈ text, ch ≠ '_')
      (value : Nat) : parseDigits base text value hasDigit = parseDigits base text value false := by
    induction text generalizing value hasDigit with
    | nil =>
        obtain ⟨_, listed, _⟩ := some_digit
        cases listed
    | cons ch rest ih =>
        rw [parseDigits, parseDigits]
        split
        next separator =>
          obtain ⟨other, listed, plain⟩ := some_digit
          rcases List.mem_cons.mp listed with rfl | listed
          · exact absurd separator plain
          · exact ih hasDigit ⟨other, listed, plain⟩ value
        · rfl
  rw [parseDigits, if_neg (by decide), decoded]
  dsimp only
  rw [if_neg (by omega), if_neg (Nat.not_lt_zero _), Nat.zero_mul]
  refine digit true rest ?_ 0
  rcases (digits_cons_iff.mp valid).2 with rfl | digits | ⟨behind, rfl, digits⟩
  · exact absurd rfl more
  · obtain ⟨first, _, rfl, isDigit⟩ := digits.head
    refine ⟨first, List.mem_cons_self, ?_⟩
    rintro rfl
    exact Bool.false_ne_true isDigit
  · obtain ⟨first, _, rfl, isDigit⟩ := digits.head
    refine ⟨first, List.mem_cons_of_mem _ List.mem_cons_self, ?_⟩
    rintro rfl
    exact Bool.false_ne_true isDigit

theorem not_radixPrefix {ch : Char} (valid : isDigitOf 8 ch = true ∨ ch = '_') :
    ¬RadixPrefix ch base := by
  intro marker
  cases marker <;> simp [isDigitOf] at valid <;> revert valid <;> decide

theorem octal_second {second : Char} {rest : Spelling}
    (valid : Digits (isDigitOf 8) ('0' :: second :: rest)) : ¬RadixPrefix second base :=
  not_radixPrefix (valid.mem second (List.mem_cons_of_mem _ List.mem_cons_self))

/-- The core literal parser reads the value of a numeral. -/
theorem parseUnsignedIntegerLiteral_numeral (numeral : Numeral base run text) :
    parseUnsignedIntegerLiteral text =
      if digitsValue base run ≤ maxUInt64 then some (digitsValue base run) else none := by
  rw [← parseDigits_numeral numeral]
  cases numeral with
  | decimal digits leading =>
      unfold parseUnsignedIntegerLiteral
      split
      · exact absurd rfl digits.ne_nil
      all_goals first | exact absurd rfl leading | rfl
  | @octal rest digits =>
      cases rest with
      | nil => decide
      | cons second rest =>
          rw [parseDigits_zero (by decide) (List.cons_ne_nil _ _) digits]
          unfold parseUnsignedIntegerLiteral
          split
          next absent => cases absent
          next same => cases same; exact absurd .hex (octal_second digits)
          next same => cases same; exact absurd .upperHex (octal_second digits)
          next same => cases same; exact absurd .binary (octal_second digits)
          next same => cases same; exact absurd .upperBinary (octal_second digits)
          next same => cases same; exact absurd .octal (octal_second digits)
          next same => cases same; exact absurd .upperOctal (octal_second digits)
          next same => cases same; rfl
          next other => exact absurd rfl (other second rest)
  | radix known valid => cases known <;> rfl

/-- The first digits of a text and what stands behind them, with the prefix put back. -/
def Scans (text numeral behind : Spelling) : Prop :=
  ∃ run, cIntegerDigits (cIntegerRadix text).base false false
      (text.drop (cIntegerRadix text).offset) = some (run, behind) ∧
    numeral = text.take (cIntegerRadix text).offset ++ run

theorem cIntegerRadix_of_known {marker : Char} {text : Spelling}
    (known : RadixPrefix marker base) :
    cIntegerRadix ('0' :: marker :: text) = ⟨base, 2, true⟩ := by
  cases known <;> rfl

theorem cIntegerRadix_zero {second : Char} {rest : Spelling}
    (plain : ∀ base, ¬RadixPrefix second base) :
    cIntegerRadix ('0' :: second :: rest) = ⟨8, 0, true⟩ := by
  unfold cIntegerRadix
  split
  next same => cases same; exact absurd .hex (plain 16)
  next same => cases same; exact absurd .upperHex (plain 16)
  next same => cases same; exact absurd .octal (plain 8)
  next same => cases same; exact absurd .upperOctal (plain 8)
  next same => cases same; exact absurd .binary (plain 2)
  next same => cases same; exact absurd .upperBinary (plain 2)
  next => rfl
  next other => exact absurd rfl (other second rest)

theorem cIntegerRadix_decimal (leading : text.head? ≠ some '0') :
    cIntegerRadix text = ⟨10, 0, false⟩ := by
  unfold cIntegerRadix
  split <;> first | exact absurd rfl leading | rfl

/-- The ways a text begins. -/
theorem start_cases (text : Spelling) :
    (∃ marker base rest, RadixPrefix marker base ∧ text = '0' :: marker :: rest) ∨
      (∃ second rest, (∀ base, ¬RadixPrefix second base) ∧ text = '0' :: second :: rest) ∨
      text = ['0'] ∨ text.head? ≠ some '0' := by
  match text with
  | [] => exact .inr (.inr (.inr (by simp)))
  | first :: rest =>
      by_cases zero : first = '0'
      · subst zero
        cases rest with
        | nil => exact .inr (.inr (.inl rfl))
        | cons second rest =>
            by_cases marked : ∃ base, RadixPrefix second base
            · obtain ⟨base, known⟩ := marked
              exact .inl ⟨second, base, rest, known, rfl⟩
            · exact .inr (.inl ⟨second, rest, fun base known => marked ⟨base, known⟩, rfl⟩)
      · exact .inr (.inr (.inr (by simpa using zero)))

theorem head_of_digits {ch : Char} {rest behind : Spelling} (valid : Digits (isDigitOf base) run)
    (split : ch :: rest = run ++ behind) : ∃ more, run = ch :: more := by
  obtain ⟨first, more, rfl, _⟩ := valid.head
  cases split
  exact ⟨more, rfl⟩

/-- The digit loop takes a numeral. -/
theorem Scans.numeral {behind numeral : Spelling} (scans : Scans text numeral behind) :
    text = numeral ++ behind ∧ ∃ base run, Numeral base run numeral ∧
      ((cIntegerRadix text).nonDecimal = true → base ≠ 10) ∧
      ((cIntegerRadix text).nonDecimal = false → base = 10 ∨ digitsValue base run = 0) := by
  obtain ⟨run, scanned, rfl⟩ := scans
  obtain ⟨joined, valid, _⟩ := cIntegerDigits_start.mp scanned
  refine ⟨?_, ?_⟩
  · rw [List.append_assoc, ← joined, List.take_append_drop]
  rcases start_cases text with ⟨marker, base, rest, known, rfl⟩ | ⟨second, rest, plain, rfl⟩ | rfl |
    leading
  · rw [cIntegerRadix_of_known known] at valid ⊢
    refine ⟨base, run, .radix known valid, fun _ => ?_, fun decimal => by cases decimal⟩
    cases known <;> decide
  · rw [cIntegerRadix_zero plain] at valid joined ⊢
    obtain ⟨more, rfl⟩ := head_of_digits valid joined
    exact ⟨8, _, .octal valid, fun _ => by decide, fun decimal => by cases decimal⟩
  · obtain ⟨more, rfl⟩ := head_of_digits valid joined
    obtain ⟨rfl, rfl⟩ := List.append_eq_nil_iff.mp (List.cons.inj joined).2.symm
    exact ⟨8, _, .octal (.one rfl), (fun decimal => by cases decimal), fun _ => .inr rfl⟩
  · rw [cIntegerRadix_decimal leading] at valid joined ⊢
    refine ⟨10, run, .decimal valid ?_, (fun decimal => by cases decimal), fun _ => .inl rfl⟩
    obtain ⟨first, more, rfl, _⟩ := valid.head
    rw [List.drop_zero] at joined
    rw [joined] at leading
    exact leading

/-- A numeral is what the digit loop takes in front of a suffix. -/
theorem Numeral.scans (numeral : Numeral base run text) (marks : IsSuffix suffix) :
    Scans (text ++ suffix) text suffix ∧
      ((cIntegerRadix (text ++ suffix)).nonDecimal = true ∨ base = 10 ∨
        digitsValue base run = 0) := by
  have ends (base : Nat) : RunEnds base suffix := marks.ends
  cases numeral with
  | decimal digits leading =>
      have plain : (run ++ suffix).head? ≠ some '0' := by
        obtain ⟨first, more, rfl, _⟩ := digits.head
        exact leading
      refine ⟨⟨run, ?_, ?_⟩, .inr (.inl rfl)⟩
      · rw [cIntegerRadix_decimal plain]
        exact cIntegerDigits_start.mpr ⟨rfl, digits, ends 10⟩
      · rw [cIntegerRadix_decimal plain]
        rfl
  | @octal rest digits =>
      rcases start_cases ('0' :: rest ++ suffix) with ⟨marker, base, behind, known, split⟩ |
        ⟨second, behind, plain, split⟩ | single | leading
      · exfalso
        cases rest with
        | nil =>
            obtain rfl := (List.cons.inj split).2
            have mark := marks.marks marker List.mem_cons_self
            cases known <;> simp [isUnsignedMark, isLongMark] at mark
        | cons second rest =>
            cases split
            exact octal_second digits known
      · refine ⟨⟨'0' :: rest, ?_, ?_⟩, .inl ?_⟩
        · rw [split, cIntegerRadix_zero plain, ← split]
          exact cIntegerDigits_start.mpr ⟨rfl, digits, ends 8⟩
        · rw [split, cIntegerRadix_zero plain]
          rfl
        · rw [split, cIntegerRadix_zero plain]
      · obtain ⟨rfl, rfl⟩ := List.append_eq_nil_iff.mp (List.cons.inj single).2
        exact ⟨⟨['0'], rfl, rfl⟩, .inr (.inr rfl)⟩
      · exact absurd rfl leading
  | radix known valid =>
      refine ⟨⟨run, ?_, ?_⟩, .inl ?_⟩
      · rw [List.cons_append, List.cons_append, cIntegerRadix_of_known known]
        exact cIntegerDigits_start.mpr ⟨rfl, valid, ends base⟩
      · rw [List.cons_append, List.cons_append, cIntegerRadix_of_known known]
        rfl
      · rw [List.cons_append, List.cons_append, cIntegerRadix_of_known known]

end

/-! ### The three parsers -/

theorem cIntegerType_value {value : Spelling} {parsed longSuffixCount : Nat}
    {nonDecimal hasUnsignedSuffix : Bool} {literal : CIntegerLiteral}
    (typed : cIntegerType value parsed nonDecimal hasUnsignedSuffix longSuffixCount =
      some literal) : literal.value = value := by
  unfold cIntegerType at typed
  grind

theorem cIntegerType_isSome {value : Spelling} {parsed longSuffixCount : Nat}
    {nonDecimal hasUnsignedSuffix : Bool} :
    (cIntegerType value parsed nonDecimal hasUnsignedSuffix longSuffixCount).isSome ↔
      hasUnsignedSuffix = true ∨ nonDecimal = true ∨ parsed < 2 ^ 63 := by
  unfold cIntegerType
  grind

theorem parseCIntegerLiteral_eq_some {text : Spelling} {literal : CIntegerLiteral} :
    parseCIntegerLiteral text = some literal ↔
      ∃ numeral suffix parsed, Scans text numeral suffix ∧ IsSuffix suffix ∧
        parseUnsignedIntegerLiteral numeral = some parsed ∧
        cIntegerType numeral parsed (cIntegerRadix text).nonDecimal
          (decide (0 < suffix.countP isUnsignedMark)) (suffix.countP isLongMark) = some literal := by
  unfold parseCIntegerLiteral
  simp only [Option.bind_eq_bind, Option.bind_eq_some_iff]
  constructor
  · rintro ⟨⟨run, suffix⟩, scanned, ⟨hasUnsigned, longCount⟩, marks, parsed, value, typed⟩
    obtain ⟨isSuffix, same⟩ := cIntegerSuffix_start.mp marks
    cases same
    exact ⟨_, suffix, parsed, ⟨run, scanned, rfl⟩, isSuffix, value, typed⟩
  · rintro ⟨_, suffix, parsed, ⟨run, scanned, rfl⟩, isSuffix, value, typed⟩
    exact ⟨(run, suffix), scanned, _, cIntegerSuffix_start.mpr ⟨isSuffix, rfl⟩, parsed, value, typed⟩

/-- The value is in the range of the literal's types. -/
def FitsSuffix (base value : Nat) (suffix : Spelling) : Prop :=
  value ≤ maxUInt64 ∧ (base = 10 → suffix.countP isUnsignedMark = 0 → value < 2 ^ 63)

theorem parseCIntegerLiteral_isSome {text : Spelling} :
    (parseCIntegerLiteral text).isSome ↔
      ∃ base run numeral suffix, text = numeral ++ suffix ∧ Numeral base run numeral ∧
        IsSuffix suffix ∧ FitsSuffix base (digitsValue base run) suffix := by
  constructor
  · intro accepted
    obtain ⟨literal, parsed⟩ := Option.isSome_iff_exists.mp accepted
    obtain ⟨numeral, suffix, value, scans, marks, read, typed⟩ :=
      parseCIntegerLiteral_eq_some.mp parsed
    obtain ⟨joined, base, run, isNumeral, other, _⟩ := scans.numeral
    rw [parseUnsignedIntegerLiteral_numeral isNumeral] at read
    split at read
    next bound =>
      cases read
      refine ⟨base, run, numeral, suffix, joined, isNumeral, marks, bound, fun ten plain => ?_⟩
      have fits := cIntegerType_isSome.mp (Option.isSome_iff_exists.mpr ⟨literal, typed⟩)
      rcases fits with unsigned | nonDecimal | small
      · simp [plain] at unsigned
      · exact absurd ten (other nonDecimal)
      · exact small
    next => cases read
  · rintro ⟨base, run, numeral, suffix, rfl, isNumeral, marks, bound, range⟩
    obtain ⟨scans, decimal⟩ := isNumeral.scans marks
    have fits : (cIntegerType numeral (digitsValue base run)
        (cIntegerRadix (numeral ++ suffix)).nonDecimal
        (decide (0 < suffix.countP isUnsignedMark)) (suffix.countP isLongMark)).isSome := by
      rw [cIntegerType_isSome, decide_eq_true_iff]
      by_cases unsigned : 0 < suffix.countP isUnsignedMark
      · exact .inl unsigned
      rcases decimal with nonDecimal | ten | zero
      · exact .inr (.inl nonDecimal)
      · exact .inr (.inr (range ten (Nat.eq_zero_of_not_pos unsigned)))
      · exact .inr (.inr (by omega))
    obtain ⟨literal, typed⟩ := Option.isSome_iff_exists.mp fits
    refine Option.isSome_iff_exists.mpr ⟨literal, parseCIntegerLiteral_eq_some.mpr
      ⟨numeral, suffix, _, scans, marks, ?_, typed⟩⟩
    rw [parseUnsignedIntegerLiteral_numeral isNumeral, if_pos bound]

/-- The lowered spelling has the value of the numeral. -/
theorem parseCIntegerLiteral_value {text : Spelling} {literal : CIntegerLiteral}
    (parsed : parseCIntegerLiteral text = some literal) :
    ∃ base run suffix, text = literal.value ++ suffix ∧ IsSuffix suffix ∧
      Numeral base run literal.value ∧
      parseUnsignedIntegerLiteral literal.value = some (digitsValue base run) := by
  obtain ⟨numeral, suffix, value, scans, marks, read, typed⟩ :=
    parseCIntegerLiteral_eq_some.mp parsed
  obtain ⟨joined, base, run, isNumeral, _⟩ := scans.numeral
  rw [cIntegerType_value typed]
  refine ⟨base, run, suffix, joined, marks, isNumeral, ?_⟩
  have same := parseUnsignedIntegerLiteral_numeral isNumeral
  rw [read] at same ⊢
  split at same
  · exact same
  · cases same

/-- A leading zero with no prefix behind it; C takes what follows for octal digits. -/
def HasLeadingZero (text : Spelling) : Prop :=
  ∃ second rest, text = '0' :: second :: rest ∧ ∀ base, ¬RadixPrefix second base

theorem arrayCountDigits_start {base count : Nat} {text : Spelling} (two : 2 ≤ base)
    (sixteen : base ≤ 16) :
    arrayCountDigits base 0 false false text = some count ↔
      Digits (isDigitOf base) text ∧ digitsValue base text = count ∧ count ≤ maxUInt64 := by
  rw [arrayCountDigits_eq]
  have start : Continues base false false text ↔ Digits (isDigitOf base) text := .rfl
  rw [start]
  refine and_congr_right fun valid => ?_
  rw [parseDigits_of_digits two sixteen valid]
  constructor
  · intro read
    split at read
    next bound =>
      cases read
      exact ⟨rfl, bound⟩
    next => cases read
  · rintro ⟨rfl, bound⟩
    exact if_pos bound

theorem RadixPrefix.unique {marker : Char} {left right : Nat} (first : RadixPrefix marker left)
    (second : RadixPrefix marker right) : left = right := by
  cases first <;> cases second <;> rfl

theorem parseArrayCount_eq_some {text : Spelling} (plain : ¬HasLeadingZero text) {count : Nat} :
    parseArrayCount text = some count ↔
      ∃ base run, Numeral base run text ∧ digitsValue base run = count ∧ count ≤ maxUInt64 := by
  rcases start_cases text with ⟨marker, base, rest, known, rfl⟩ | ⟨second, rest, other, rfl⟩ | rfl |
    leading
  · have reads : parseArrayCount ('0' :: marker :: rest) = arrayCountDigits base 0 false false rest := by
      cases known <;> rfl
    have bounds : 2 ≤ base ∧ base ≤ 16 := by cases known <;> decide
    rw [reads, arrayCountDigits_start bounds.1 bounds.2]
    constructor
    · rintro ⟨valid, value, bound⟩
      exact ⟨base, rest, .radix known valid, value, bound⟩
    · rintro ⟨_, _, isNumeral, value, bound⟩
      cases isNumeral with
      | decimal _ leading => exact absurd rfl leading
      | octal digits => exact absurd known (octal_second digits)
      | radix known' valid =>
          obtain rfl := known.unique known'
          exact ⟨valid, value, bound⟩
  · exact absurd ⟨second, rest, rfl, other⟩ plain
  · have single : parseArrayCount ['0'] = some 0 := by decide
    rw [single, Option.some_inj]
    constructor
    · rintro rfl
      exact ⟨8, ['0'], .octal (.one rfl), rfl, by decide⟩
    · rintro ⟨base, run, isNumeral, rfl, _⟩
      cases isNumeral with
      | decimal _ leading => exact absurd rfl leading
      | octal => rfl
  · have reads : parseArrayCount text = arrayCountDigits 10 0 false false text := by
      unfold parseArrayCount
      split
      · rfl
      all_goals first | exact absurd rfl leading | rfl
    rw [reads, arrayCountDigits_start (by decide) (by decide)]
    constructor
    · rintro ⟨valid, value, bound⟩
      exact ⟨10, text, .decimal valid leading, value, bound⟩
    · rintro ⟨_, _, isNumeral, value, bound⟩
      cases isNumeral with
      | decimal valid _ => exact ⟨valid, value, bound⟩
      | octal => exact absurd rfl leading
      | radix => exact absurd rfl leading

theorem Scans.unique {text left right leftBehind rightBehind : Spelling}
    (first : Scans text left leftBehind) (second : Scans text right rightBehind) : left = right := by
  obtain ⟨run, scanned, rfl⟩ := first
  obtain ⟨other, again, rfl⟩ := second
  rw [scanned] at again
  cases again
  rfl

theorem value_of_numeral {base : Nat} {run text : Spelling} {literal : CIntegerLiteral}
    (whole : Numeral base run text) (parsed : parseCIntegerLiteral text = some literal) :
    literal.value = text := by
  have none : IsSuffix [] := ⟨(fun _ listed => by cases listed), Nat.zero_le 1, Nat.zero_le 2⟩
  have scansWhole := (whole.scans none).1
  rw [List.append_nil] at scansWhole
  obtain ⟨numeral, suffix, value, scans, _, _, typed⟩ := parseCIntegerLiteral_eq_some.mp parsed
  rw [cIntegerType_value typed]
  exact scans.unique scansWhole

/-- Expressions accept the numerals with a suffix and a value in range, array counts the numerals
alone; each gives the value of the digits, and where both accept a text they agree with the core
parser on the lowered spelling. -/
theorem numerals_agree (text : Spelling) :
    ((parseCIntegerLiteral text).isSome ↔
      ∃ base run numeral suffix, text = numeral ++ suffix ∧ Numeral base run numeral ∧
        IsSuffix suffix ∧ FitsSuffix base (digitsValue base run) suffix) ∧
    (∀ literal, parseCIntegerLiteral text = some literal →
      ∃ base run suffix, text = literal.value ++ suffix ∧ IsSuffix suffix ∧
        Numeral base run literal.value ∧
        parseUnsignedIntegerLiteral literal.value = some (digitsValue base run)) ∧
    (¬HasLeadingZero text → ∀ count, parseArrayCount text = some count ↔
      ∃ base run, Numeral base run text ∧ digitsValue base run = count ∧ count ≤ maxUInt64) ∧
    (¬HasLeadingZero text → ∀ count literal, parseArrayCount text = some count →
      parseCIntegerLiteral text = some literal →
        parseUnsignedIntegerLiteral literal.value = some count) := by
  refine ⟨parseCIntegerLiteral_isSome, fun literal => parseCIntegerLiteral_value,
    fun plain count => parseArrayCount_eq_some plain, fun plain count literal counted parsed => ?_⟩
  obtain ⟨base, run, whole, rfl, bound⟩ := (parseArrayCount_eq_some plain).mp counted
  rw [value_of_numeral whole parsed, parseUnsignedIntegerLiteral_numeral whole, if_pos bound]

theorem numerals_agree_at_hex :
    parseUnsignedIntegerLiteral "0x1f".toList = some 31 := by
  have plain : ¬HasLeadingZero "0x1f".toList := by
    rintro ⟨second, rest, same, other⟩
    cases same
    exact other 16 .hex
  have counted : parseArrayCount "0x1f".toList = some 31 := by decide
  have parsed : parseCIntegerLiteral "0x1f".toList = some ⟨"0x1f".toList, 4, true⟩ := by decide
  exact (numerals_agree "0x1f".toList).2.2.2 plain 31 ⟨"0x1f".toList, 4, true⟩ counted parsed

/-- The front end reads separators, which C has not, and takes no suffix for an array count. -/
theorem extended_numerals :
    parseArrayCount "1_0".toList = some 10 ∧
      parseCIntegerLiteral "1_0".toList = some ⟨"1_0".toList, 4, true⟩ ∧
      parseArrayCount "10u".toList = none ∧
      parseCIntegerLiteral "10u".toList = some ⟨"10".toList, 4, false⟩ := by decide

end HitSimple.CCompat

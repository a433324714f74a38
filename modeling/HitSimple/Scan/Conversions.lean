import HitSimple.Scan.Agreement
import Mathlib.Data.Nat.Digits.Defs
import Mathlib.Tactic.Ring

namespace HitSimple.Scan
open FixedWidth Format HitSimple.Runtime Slots

inductive Kind where
  | character
  | string
  | float (length : Nat)
  | integer (base : Nat) (signed : Bool)
  deriving DecidableEq

def kind (item : FormatItem) : Kind :=
  if item.specifier = letter 'c' then .character
  else if item.specifier = letter 's' then .string
  else if item.specifier = letter 'f' then .float item.floatByteLength
  else .integer (scanBase item.specifier) (item.specifier = letter 'd')

/-- The conversions that read a number. -/
def Kind.IsNumeric : Kind → Prop
  | .character | .string => False
  | .float _ | .integer .. => True

inductive Sign : Bytes → Bool → Prop where
  | none : Sign [] false
  | plus : Sign [letter '+'] false
  | minus : Sign [letter '-'] true

inductive Marker (base : Nat) : Bytes → Prop where
  | none : Marker base []
  | lower (hex : base = 16) : Marker base [letter '0', letter 'x']
  | upper (hex : base = 16) : Marker base [letter '0', letter 'X']

/-- A text has no marker but the empty one. -/
def Unmarked (base : Nat) (text : Bytes) : Prop :=
  ∀ other behind, Marker base other → text = other ++ behind → other = []

def digitNumber (ch : Byte) : Nat :=
  (hsDigitValue ch).getD 0

def IsDigitOf (base : Nat) (ch : Byte) : Prop :=
  (hsDigitValue ch).isSome = true ∧ digitNumber ch < base

def numberOf (base : Nat) (digits : Bytes) : Nat :=
  Nat.ofDigits base (digits.reverse.map digitNumber)

def signedNumber (negative : Bool) (number : Nat) : Int :=
  if negative then -number else number

/-- The text starts with the longest integer that it can be read as. -/
structure StartsWithInteger (base : Nat) (signed : Bool) (text : Bytes) (negative : Bool)
    (digits rest : Bytes) : Prop where
  split : ∃ sign marker, text = sign ++ (marker ++ (digits ++ rest)) ∧ Sign sign negative ∧
    Marker base marker ∧
    (marker = [] → Unmarked base (digits ++ rest))
  nonempty : digits ≠ []
  digit : ∀ ch ∈ digits, IsDigitOf base ch
  longest : ∀ ch, rest.head? = some ch → ¬IsDigitOf base ch
  sign : negative = true → signed = true

/-- The conversion takes an item from the start of the input, stores these bytes and leaves the
rest. -/
def Completes (floats : FloatScanners) (capacity : Nat) : Kind → Input → Bytes → Input → Prop
  | .character, input, bytes, rest => ∃ value, input = value :: rest ∧ bytes = [value]
  | .string, input, bytes, rest => ∃ text, hsSkipInputSpace input = text ++ rest ∧ text ≠ [] ∧
      (∀ ch ∈ text, isSpace ch = false) ∧ text.length ≤ capacity - 1 ∧
      (text.length = capacity - 1 ∨ ∀ ch, rest.head? = some ch → isSpace ch = true) ∧
      bytes = text ++ [0#8]
  | .float length, input, bytes, rest => ∃ token, hsSkipInputSpace input = token ++ rest ∧
      token ≠ [] ∧ (∀ ch ∈ token, isTokenByte ch = true) ∧
      (∀ ch, rest.head? = some ch → isTokenByte ch = false) ∧
      scanFloat floats length token = some bytes
  | .integer base signed, input, bytes, rest => ∃ negative digits,
      StartsWithInteger base signed (hsSkipInputSpace input) negative digits rest ∧
      bytes = littleEndian capacity (BitVec.ofInt 64 (signedNumber negative (numberOf base digits)))

/-- The input ends inside the item: behind white space it is only the start of one. -/
def Unfinished (floats : FloatScanners) : Kind → Input → Prop
  | .character, input => input = []
  | .string, input => hsSkipInputSpace input = []
  | .float length, input => hsSkipInputSpace input = [] ∨
      (∀ ch ∈ hsSkipInputSpace input, isTokenByte ch = true) ∧
        scanFloat floats length (hsSkipInputSpace input) = none ∧
        ∃ more, (∀ ch ∈ more, isTokenByte ch = true) ∧
          (scanFloat floats length (hsSkipInputSpace input ++ more)).isSome = true
  | .integer base signed, input => ∃ sign marker negative,
      hsSkipInputSpace input = sign ++ marker ∧ Sign sign negative ∧ Marker base marker ∧
        (negative = true → signed = true)

section
variable {base : Nat} {text rest : Bytes}

theorem numberOf_cons (ch : Byte) (digits : Bytes) :
    numberOf base (ch :: digits) = digitNumber ch * base ^ digits.length + numberOf base digits := by
  simp only [numberOf, List.reverse_cons, List.map_append, List.map_cons, List.map_nil,
    Nat.ofDigits_append, List.length_map, List.length_reverse, Nat.ofDigits_singleton]
  ring

/-- The digit loop takes the digits at the start of the text, and adds them to the value. -/
theorem readDigits_ok {value count after number : Nat}
    (read : readDigits base text value count = .ok (number, after, rest)) :
    ∃ digits, text = digits ++ rest ∧ (∀ ch ∈ digits, IsDigitOf base ch) ∧
      (∀ ch, rest.head? = some ch → ¬IsDigitOf base ch) ∧ after = count + digits.length ∧
      number = value * base ^ digits.length + numberOf base digits := by
  fun_induction readDigits base text value count with
  | case1 =>
      cases read
      refine ⟨[], rfl, List.forall_mem_nil _, fun ch first => ?_, rfl, by simp [numberOf]⟩
      cases first
  | case2 ch tail value count noDigit =>
      cases read
      refine ⟨[], rfl, List.forall_mem_nil _, fun other same digit => ?_, rfl, by simp [numberOf]⟩
      cases same
      rw [IsDigitOf, noDigit] at digit
      cases digit.1
  | case3 ch tail value count digit isDigit large =>
      cases read
      refine ⟨[], rfl, List.forall_mem_nil _, fun other same small => ?_, rfl, by simp [numberOf]⟩
      cases same
      rw [IsDigitOf, digitNumber, isDigit] at small
      exact absurd small.2 (Nat.not_lt.mpr large)
  | case4 => cases read
  | case5 ch tail value count digit isDigit small _ ih =>
      obtain ⟨digits, rfl, all, stop, rfl, rfl⟩ := ih read
      have value' : digitNumber ch = digit := by
        rw [digitNumber, isDigit]
        rfl
      refine ⟨ch :: digits, rfl, ?_, stop, ?_, ?_⟩
      · intro other member
        rcases List.mem_cons.mp member with rfl | member
        · exact ⟨by rw [isDigit]; rfl, by omega⟩
        · exact all other member
      · rw [List.length_cons]
        omega
      · rw [numberOf_cons, value', List.length_cons]
        ring

theorem readDigits_digits {digits : Bytes} (all : ∀ ch ∈ digits, IsDigitOf base ch)
    (stop : ∀ ch, rest.head? = some ch → ¬IsDigitOf base ch) (value count : Nat) :
    readDigits base (digits ++ rest) value count =
        .ok (value * base ^ digits.length + numberOf base digits, count + digits.length, rest) ∨
      readDigits base (digits ++ rest) value count = .error "scan integer overflow" := by
  induction digits generalizing value count with
  | nil =>
      left
      cases rest with
      | nil => simp [readDigits, numberOf]
      | cons ch rest =>
          have other := stop ch rfl
          rw [List.nil_append, readDigits]
          split
          · simp [numberOf]
          · rename_i digit isDigit
            have large : base ≤ digit := by
              by_contra small
              refine other ⟨by rw [isDigit]; rfl, ?_⟩
              rw [digitNumber, isDigit]
              exact Nat.lt_of_not_le small
            rw [if_pos large]
            simp [numberOf]
  | cons ch digits ih =>
      obtain ⟨isDigit, small⟩ := all ch List.mem_cons_self
      obtain ⟨digit, read⟩ := Option.isSome_iff_exists.mp isDigit
      have value' : digitNumber ch = digit := by
        rw [digitNumber, read]
        rfl
      rw [value'] at small
      rw [List.cons_append, readDigits, read]
      dsimp only
      rw [if_neg (by omega)]
      split
      · exact .inr rfl
      · have more := ih (fun other member => all other (List.mem_cons_of_mem _ member))
          (value * base + digit) (count + 1)
        refine more.imp_left fun same => ?_
        rw [same, numberOf_cons, value', List.length_cons]
        congr 2
        · ring
        · congr 1
          omega

theorem skipSign_split (text : Bytes) :
    ∃ sign, text = sign ++ (skipSign text).2 ∧ Sign sign (skipSign text).1 := by
  cases text with
  | nil => exact ⟨[], rfl, .none⟩
  | cons ch rest =>
      rw [skipSign]
      split
      · rename_i isSign
        refine ⟨[ch], rfl, ?_⟩
        rcases isSign with rfl | rfl
        · exact .plus
        · exact .minus
      · exact ⟨[], rfl, .none⟩

theorem skipSign_sign {sign body : Bytes} {negative : Bool} (isSign : Sign sign negative)
    (unsigned : ∀ ch, body.head? = some ch → ch ≠ letter '+' ∧ ch ≠ letter '-') :
    skipSign (sign ++ body) = (negative, body) := by
  cases isSign with
  | none =>
      cases body with
      | nil => rfl
      | cons ch body =>
          have other := unsigned ch rfl
          rw [List.nil_append, skipSign, if_neg (not_or.mpr other)]
  | plus => rfl
  | minus => rfl

/-- The text behind the marker that the base allows. -/
def skipMarker (base : Nat) (text : Bytes) : Bytes :=
  if base = 16 then skipHexPrefix text else text

theorem skipMarker_split (base : Nat) (text : Bytes) :
    ∃ marker, text = marker ++ skipMarker base text ∧ Marker base marker ∧
      (marker = [] → Unmarked base text) := by
  unfold skipMarker
  split
  · rename_i hex
    unfold skipHexPrefix
    split
    · rename_i zero marker rest
      split
      · rename_i found
        obtain ⟨rfl, rfl | rfl⟩ := found
        · exact ⟨_, rfl, .lower hex, nofun⟩
        · exact ⟨_, rfl, .upper hex, nofun⟩
      · rename_i absent
        refine ⟨[], rfl, .none, fun _ other behind isMarker split => ?_⟩
        cases isMarker with
        | none => rfl
        | lower =>
            cases split
            exact absurd ⟨rfl, .inl rfl⟩ absent
        | upper =>
            cases split
            exact absurd ⟨rfl, .inr rfl⟩ absent
    · rename_i short
      refine ⟨[], rfl, .none, fun _ other behind isMarker split => ?_⟩
      cases isMarker with
      | none => rfl
      | lower => exact (short _ _ _ split).elim
      | upper => exact (short _ _ _ split).elim
  · rename_i other
    refine ⟨[], rfl, .none, fun _ marker behind isMarker split => ?_⟩
    cases isMarker with
    | none => rfl
    | lower hex => exact absurd hex other
    | upper hex => exact absurd hex other

theorem skipMarker_marker {marker body : Bytes} (isMarker : Marker base marker)
    (longest : marker = [] → Unmarked base body) : skipMarker base (marker ++ body) = body := by
  cases isMarker with
  | none =>
      obtain ⟨marker, split, isMarker, _⟩ := skipMarker_split base body
      have empty := longest rfl marker _ isMarker split
      rw [empty, List.nil_append] at split
      exact split.symm
  | lower hex =>
      rw [skipMarker, if_pos hex]
      rfl
  | upper hex =>
      rw [skipMarker, if_pos hex]
      rfl

theorem not_sign_of_digit {ch : Byte} (digit : IsDigitOf base ch) :
    ch ≠ letter '+' ∧ ch ≠ letter '-' := by
  constructor <;> rintro rfl <;> exact absurd digit.1 (by decide)

end

section
variable {base capacity converted : Nat} {signed : Bool} {input rest : Input} {bytes : Bytes}

theorem hsReadInteger_eq (input : Input) (base : Nat) (signed : Bool) :
    hsReadInteger input base signed =
      if hsSkipInputSpace input = [] then .ok (none, [])
      else match readDigits base (skipMarker base (skipSign (hsSkipInputSpace input)).2) 0 0 with
        | .error message => .error message
        | .ok (value, digits, rest) =>
            if digits = 0 then .ok (none, rest)
            else if (skipSign (hsSkipInputSpace input)).1 then
              if !signed then .ok (none, rest) else .ok (some (-BitVec.ofNat 64 value), rest)
            else .ok (some (BitVec.ofNat 64 value), rest) := rfl

theorem startsWithInteger_of_hsReadInteger {value : BitVec 64}
    (read : hsReadInteger input base signed = .ok (some value, rest)) :
    ∃ negative digits,
      StartsWithInteger base signed (hsSkipInputSpace input) negative digits rest ∧
      value = BitVec.ofInt 64 (signedNumber negative (numberOf base digits)) := by
  rw [hsReadInteger_eq] at read
  split at read
  · cases read
  obtain ⟨sign, splitSign, isSign⟩ := skipSign_split (hsSkipInputSpace input)
  generalize skipSign (hsSkipInputSpace input) = pair at read splitSign isSign
  obtain ⟨negative, body⟩ := pair
  dsimp only at read splitSign isSign
  obtain ⟨marker, splitMarker, isMarker, longest⟩ := skipMarker_split base body
  split at read
  · cases read
  rename_i number count left digitsRead
  obtain ⟨digits, splitDigits, all, stop, counted, rfl⟩ := readDigits_ok digitsRead
  split at read
  · cases read
  rename_i some'
  have nonempty : digits ≠ [] := by
    rintro rfl
    exact some' (by rw [counted]; rfl)
  have starts (allowed : negative = true → signed = true) :
      StartsWithInteger base signed (hsSkipInputSpace input) negative digits left := by
    refine ⟨⟨sign, marker, ?_, isSign, isMarker, ?_⟩, nonempty, all, stop, allowed⟩
    · rw [splitSign, ← splitDigits, ← splitMarker]
    · rintro rfl
      rw [← splitDigits, ← List.nil_append (skipMarker base body), ← splitMarker]
      exact longest rfl
  rw [Nat.zero_mul, Nat.zero_add] at read
  split at read
  · rename_i isNegative
    split at read
    · cases read
    · rename_i allowed
      cases read
      refine ⟨negative, digits, starts fun _ => by simpa using allowed, ?_⟩
      rw [signedNumber, if_pos isNegative, BitVec.ofInt_neg, BitVec.ofInt_natCast]
  · rename_i positive
    cases read
    refine ⟨negative, digits, starts fun negative => absurd negative positive, ?_⟩
    rw [signedNumber, if_neg positive, BitVec.ofInt_natCast]

/-- No sign starts what a marker and digits start. -/
theorem unsigned_of_marker {marker text : Bytes} (isMarker : Marker base marker)
    (unsigned : ∀ ch, text.head? = some ch → ch ≠ letter '+' ∧ ch ≠ letter '-') (ch : Byte)
    (first : (marker ++ text).head? = some ch) : ch ≠ letter '+' ∧ ch ≠ letter '-' := by
  cases isMarker with
  | none => exact unsigned ch first
  | lower =>
      cases first
      decide
  | upper =>
      cases first
      decide

theorem hsReadInteger_of_startsWithInteger {negative : Bool} {digits : Bytes}
    (starts : StartsWithInteger base signed (hsSkipInputSpace input) negative digits rest) :
    hsReadInteger input base signed =
        .ok (some (BitVec.ofInt 64 (signedNumber negative (numberOf base digits))), rest) ∨
      hsReadInteger input base signed = .error "scan integer overflow" := by
  obtain ⟨⟨sign, marker, split, isSign, isMarker, longest⟩, nonempty, all, stop, allowed⟩ := starts
  obtain ⟨first, more, rfl⟩ := List.exists_cons_of_ne_nil nonempty
  have unsigned : ∀ ch, (marker ++ (first :: more ++ rest)).head? = some ch →
      ch ≠ letter '+' ∧ ch ≠ letter '-' := by
    apply unsigned_of_marker isMarker
    intro ch same
    cases same
    exact not_sign_of_digit (all first List.mem_cons_self)
  have some' : hsSkipInputSpace input ≠ [] := by
    rw [split]
    simp
  rw [hsReadInteger_eq, if_neg some', split, skipSign_sign isSign unsigned]
  dsimp only
  rw [skipMarker_marker isMarker longest]
  rcases readDigits_digits all stop 0 0 with read | read
  · left
    rw [read]
    dsimp only
    rw [if_neg (by simp), Nat.zero_mul, Nat.zero_add]
    cases negative with
    | true =>
        rw [allowed rfl]
        simp only [if_true, Bool.not_true, Bool.false_eq_true, if_false, signedNumber,
          BitVec.ofInt_neg, BitVec.ofInt_natCast]
    | false => rfl
  · right
    rw [read]

/-- At the end of the input there is no integer. -/
theorem hsReadInteger_of_unfinished {sign marker : Bytes} {negative : Bool}
    (ends : hsSkipInputSpace input = sign ++ marker) (isSign : Sign sign negative)
    (isMarker : Marker base marker) : hsReadInteger input base signed = .ok (none, []) := by
  have unsigned : ∀ ch, (marker ++ []).head? = some ch → ch ≠ letter '+' ∧ ch ≠ letter '-' :=
    unsigned_of_marker isMarker nofun
  rw [List.append_nil] at unsigned
  have body : skipMarker base marker = [] := by
    have longest : marker = [] → Unmarked base [] := by
      intro _ other behind isOther split
      exact (List.append_eq_nil_iff.mp split.symm).1
    have skipped : skipMarker base (marker ++ []) = [] := skipMarker_marker isMarker longest
    rwa [List.append_nil] at skipped
  rw [hsReadInteger_eq]
  split
  · rfl
  · rw [ends, skipSign_sign isSign unsigned]
    dsimp only
    rw [body]
    rfl

end

section
variable {floats : FloatScanners} {item : FormatItem} {capacity converted : Nat}
variable {input rest : Input} {bytes : Bytes}

/-- The conversion by the kind of its item. -/
theorem convert_eq (floats : FloatScanners) (item : FormatItem) (capacity converted : Nat)
    (input : Input) :
    convert floats item capacity converted input =
      match kind item with
      | .character => convertCharacter converted input
      | .string => convertString capacity converted input
      | .float length => convertFloat floats length converted input
      | .integer .. => convertInteger item.specifier capacity converted input := by
  unfold convert kind
  split_ifs <;> rfl

theorem head?_dropWhile {Item : Type*} {test : Item → Bool} {items : List Item} {item : Item}
    (first : (items.dropWhile test).head? = some item) : test item = false := by
  have other := List.head?_dropWhile_not test items
  rw [first] at other
  simpa using other

/-- Taking at most so many characters of a run leaves a text that starts with no such character, or
has taken them all. -/
theorem take_takeWhile_split (test : Byte → Bool) (text : Bytes) (limit : Nat) :
    text = (text.takeWhile test).take limit ++
        text.drop ((text.takeWhile test).take limit).length ∧
      (∀ ch ∈ (text.takeWhile test).take limit, test ch = true) ∧
      ((text.takeWhile test).take limit).length ≤ limit ∧
      (((text.takeWhile test).take limit).length = limit ∨
        ∀ ch, (text.drop ((text.takeWhile test).take limit).length).head? = some ch →
          test ch = false) := by
  have start : (text.takeWhile test).take limit <+: text :=
    (List.take_prefix _ _).trans (List.takeWhile_prefix _)
  refine ⟨(List.prefix_iff_eq_append.mp start).symm,
    fun ch member => List.mem_takeWhile_imp (List.mem_of_mem_take member), List.length_take_le _ _,
    ?_⟩
  by_cases full : limit ≤ (text.takeWhile test).length
  · left
    rw [List.length_take, Nat.min_eq_left full]
  · right
    rw [List.take_of_length_le (by omega)]
    have behind : text.drop (text.takeWhile test).length = text.dropWhile test := by
      conv_lhs =>
        arg 2
        rw [← List.takeWhile_append_dropWhile (p := test) (l := text)]
      rw [List.drop_left]
    rw [behind]
    exact fun ch => head?_dropWhile

theorem convertString_completes (room : 2 ≤ capacity)
    (stored : convertString capacity converted input = .stored bytes rest) :
    Completes floats capacity .string input bytes rest := by
  unfold convertString at stored
  dsimp only at stored
  split at stored
  · cases stored
  rename_i some'
  generalize text : hsSkipInputSpace input = skipped at stored some'
  obtain ⟨first, behind, rfl⟩ := List.exists_cons_of_ne_nil some'
  have notSpace : isSpace first = false := by
    apply @head?_dropWhile _ isSpace input
    rw [← hsSkipInputSpace, text]
    rfl
  cases stored
  rw [if_neg (by omega)]
  obtain ⟨split, all, short, stop⟩ := take_takeWhile_split (!isSpace ·) (first :: behind)
    (capacity - 1)
  refine ⟨_, text.trans split, ?_, fun ch member => by simpa using all ch member, short,
    stop.imp_right fun stop ch first => by simpa using stop ch first, rfl⟩
  rw [List.takeWhile_cons_of_pos (by simp [notSpace]), List.take_cons (by omega)]
  exact List.cons_ne_nil _ _

theorem completes_of_stored (room : kind item = .string → 2 ≤ capacity)
    (stored : convert floats item capacity converted input = .stored bytes rest) :
    Completes floats capacity (kind item) input bytes rest := by
  rw [convert_eq] at stored
  cases shape : kind item with
  | character =>
      rw [shape] at stored
      cases input with
      | nil => cases stored
      | cons value input =>
          cases stored
          exact ⟨value, rfl, rfl⟩
  | string =>
      rw [shape] at stored
      exact convertString_completes (room shape) stored
  | float length =>
      rw [shape] at stored
      dsimp only at stored
      unfold convertFloat hsReadFloatToken at stored
      dsimp only at stored
      split at stored
      · cases stored
      rename_i token left found
      split at found
      · cases found
      cases found
      split at stored
      · cases stored
      rename_i nonempty
      split at stored
      · cases stored
      rename_i scanned
      cases stored
      refine ⟨_, List.takeWhile_append_dropWhile.symm, nonempty, ?_, ?_, scanned⟩
      · exact fun ch => List.mem_takeWhile_imp
      · exact fun ch => head?_dropWhile
  | integer base signed =>
      rw [shape] at stored
      dsimp only at stored
      unfold convertInteger at stored
      have names : base = scanBase item.specifier ∧
          signed = decide (item.specifier = letter 'd') := by
        unfold kind at shape
        split_ifs at shape
        cases shape
        exact ⟨rfl, rfl⟩
      obtain ⟨rfl, rfl⟩ := names
      split at stored
      · cases stored
      · cases stored
      rename_i value left read
      split at stored
      · cases stored
      rename_i kept
      cases stored
      obtain ⟨negative, digits, starts, rfl⟩ := startsWithInteger_of_hsReadInteger read
      unfold hsStoreUnsigned at kept
      split at kept
      · cases kept
        exact ⟨negative, digits, starts, rfl⟩
      · cases kept

/-- A float token is all that can be read of it. -/
theorem takeWhile_token {token : Bytes} (all : ∀ ch ∈ token, isTokenByte ch = true)
    (stop : ∀ ch, rest.head? = some ch → isTokenByte ch = false) :
    (token ++ rest).takeWhile isTokenByte = token ∧ (token ++ rest).dropWhile isTokenByte = rest := by
  rw [List.takeWhile_append_of_pos all, List.dropWhile_append_of_pos all]
  cases rest with
  | nil => simp
  | cons ch rest =>
      have other : ¬isTokenByte ch = true := by rw [stop ch rfl]; decide
      rw [List.takeWhile_cons_of_neg other, List.dropWhile_cons_of_neg other, List.append_nil]
      exact ⟨rfl, rfl⟩

/-- A conversion that returns has not completed. -/
theorem not_completes_of_returned {count : Int} {left : Input}
    (returned : convert floats item capacity converted input = .returned count left) :
    ¬Completes floats capacity (kind item) input bytes rest := by
  intro completes
  rw [convert_eq] at returned
  cases shape : kind item with
  | character =>
      rw [shape] at returned completes
      obtain ⟨value, rfl, _⟩ := completes
      cases returned
  | string =>
      rw [shape] at returned completes
      obtain ⟨text, split, nonempty, _⟩ := completes
      dsimp only at returned
      unfold convertString at returned
      dsimp only at returned
      rw [if_neg (by rw [split]; simp [nonempty])] at returned
      cases returned
  | float length =>
      rw [shape] at returned completes
      obtain ⟨token, split, nonempty, all, stop, scanned⟩ := completes
      dsimp only at returned
      unfold convertFloat hsReadFloatToken at returned
      dsimp only at returned
      rw [split, (takeWhile_token all stop).1, (takeWhile_token all stop).2] at returned
      split at returned
      · cases returned
      rename_i token' left' found
      split at found
      · cases found
      cases found
      rw [if_neg nonempty, scanned] at returned
      cases returned
  | integer base signed =>
      rw [shape] at returned completes
      obtain ⟨negative, digits, starts, _⟩ := completes
      dsimp only at returned
      unfold convertInteger at returned
      unfold kind at shape
      split_ifs at shape
      cases shape
      rcases hsReadInteger_of_startsWithInteger starts with read | read
      · rw [read] at returned
        dsimp only at returned
        split at returned <;> cases returned
      · rw [read] at returned
        cases returned

/-- What a conversion returns that does not complete. -/
theorem returned_cases {count : Int} {left : Input}
    (returned : convert floats item capacity converted input = .returned count left) :
    (kind item).IsNumeric ∧ count = converted ∨
      ¬(kind item).IsNumeric ∧ Unfinished floats (kind item) input ∧
        count = endOfInput converted := by
  rw [convert_eq] at returned
  cases shape : kind item with
  | character =>
      rw [shape] at returned
      right
      cases input with
      | nil =>
          cases returned
          exact ⟨id, rfl, rfl⟩
      | cons value input => cases returned
  | string =>
      rw [shape] at returned
      dsimp only at returned
      unfold convertString at returned
      dsimp only at returned
      split at returned
      · rename_i ends
        cases returned
        exact .inr ⟨id, ends, rfl⟩
      · cases returned
  | float length =>
      rw [shape] at returned
      dsimp only at returned
      unfold convertFloat at returned
      refine .inl ⟨trivial, ?_⟩
      split at returned
      · cases returned
      split at returned
      · cases returned
        rfl
      split at returned
      · cases returned
        rfl
      · cases returned
  | integer base signed =>
      rw [shape] at returned
      dsimp only at returned
      unfold convertInteger at returned
      refine .inl ⟨trivial, ?_⟩
      split at returned
      · cases returned
      · cases returned
        rfl
      split at returned <;> cases returned

/-- An input that ends inside a number does not hold the number. -/
theorem not_completes_of_unfinished {kind : Kind} (numeric : kind.IsNumeric)
    (unfinished : Unfinished floats kind input) :
    ¬Completes floats capacity kind input bytes rest := by
  intro completes
  cases kind with
  | character => exact numeric
  | string => exact numeric
  | float length =>
      obtain ⟨token, split, nonempty, all, stop, scanned⟩ := completes
      rw [Unfinished, split] at unfinished
      rcases unfinished with empty | ⟨whole, missing, _⟩
      · exact nonempty (List.append_eq_nil_iff.mp empty).1
      · cases rest with
        | nil =>
            rw [List.append_nil, scanned] at missing
            cases missing
        | cons ch rest =>
            have other := whole ch (by simp)
            rw [stop ch rfl] at other
            cases other
  | integer base signed =>
      obtain ⟨negative, digits, starts, _⟩ := completes
      obtain ⟨sign, marker, minus, ends, isSign, isMarker, _⟩ := unfinished
      have none : hsReadInteger _ base signed = .ok (none, []) :=
        hsReadInteger_of_unfinished ends isSign isMarker
      rcases hsReadInteger_of_startsWithInteger starts with read | read <;>
      · rw [none] at read
        cases read

end

end HitSimple.Scan

import Mathlib.Data.List.TakeWhile

/-! JSON texts without blanks, what they say, and readers of their parts. -/

namespace Json

inductive Value where
  | null
  | string (text : List Char)
  | number (value : Nat)
  | array (items : List Value)
  | object (members : List (List Char × Value))

/-! ### Strings -/

/-- The character that a letter behind a backslash stands for. -/
def shortEscape : Char → Option Char
  | '"' => some '"'
  | '\\' => some '\\'
  | '/' => some '/'
  | 'b' => some '\x08'
  | 'f' => some '\x0c'
  | 'n' => some '\n'
  | 'r' => some '\r'
  | 't' => some '\t'
  | _ => none

def hexDigit? (ch : Char) : Option Nat :=
  if 48 ≤ ch.toNat ∧ ch.toNat ≤ 57 then some (ch.toNat - 48)
  else if 97 ≤ ch.toNat ∧ ch.toNat ≤ 102 then some (ch.toNat - 87)
  else if 65 ≤ ch.toNat ∧ ch.toNat ≤ 70 then some (ch.toNat - 55)
  else none

/-- The text between the quotes of a string, and the characters that it says. -/
inductive StringBody : List Char → List Char → Prop where
  | nothing : StringBody [] []
  | plain {ch : Char} {text said : List Char} (printed : 32 ≤ ch.toNat) (notQuote : ch ≠ '"')
      (notBackslash : ch ≠ '\\') (more : StringBody text said) :
      StringBody (ch :: text) (ch :: said)
  | short {letter ch : Char} {text said : List Char} (escape : shortEscape letter = some ch)
      (more : StringBody text said) : StringBody ('\\' :: letter :: text) (ch :: said)
  | unicode {first second third fourth : Char} {a b c d : Nat} {text said : List Char}
      (isFirst : hexDigit? first = some a) (isSecond : hexDigit? second = some b)
      (isThird : hexDigit? third = some c) (isFourth : hexDigit? fourth = some d)
      (more : StringBody text said) :
      StringBody ('\\' :: 'u' :: first :: second :: third :: fourth :: text)
        (Char.ofNat (((a * 16 + b) * 16 + c) * 16 + d) :: said)

theorem StringBody.append {first second said more : List Char} (body : StringBody first said)
    (rest : StringBody second more) : StringBody (first ++ second) (said ++ more) := by
  induction body with
  | nothing => exact rest
  | plain printed notQuote notBackslash _ ih => exact .plain printed notQuote notBackslash ih
  | short escape _ ih => exact .short escape ih
  | unicode isFirst isSecond isThird isFourth _ ih =>
      exact .unicode isFirst isSecond isThird isFourth ih

/-- Reads the rest of a string behind its opening quote. -/
def readString : List Char → Option (List Char × List Char)
  | [] => none
  | '"' :: rest => some ([], rest)
  | '\\' :: 'u' :: first :: second :: third :: fourth :: rest =>
      match hexDigit? first, hexDigit? second, hexDigit? third, hexDigit? fourth with
      | some a, some b, some c, some d => (readString rest).map fun (said, rest) =>
          (Char.ofNat (((a * 16 + b) * 16 + c) * 16 + d) :: said, rest)
      | _, _, _, _ => none
  | '\\' :: letter :: rest =>
      match shortEscape letter with
      | some ch => (readString rest).map fun (said, rest) => (ch :: said, rest)
      | none => none
  | ch :: rest =>
      if 32 ≤ ch.toNat then (readString rest).map fun (said, rest) => (ch :: said, rest) else none

/-- A string is read as what it says, whatever stands behind it. -/
theorem readString_body {text said : List Char} (body : StringBody text said) (rest : List Char) :
    readString (text ++ '"' :: rest) = some (said, rest) := by
  induction body with
  | nothing => rfl
  | @plain ch text said printed notQuote notBackslash more ih =>
      rw [List.cons_append, readString.eq_def]
      split
      · rename_i same
        cases same
      · rename_i same
        cases same
        exact absurd rfl notQuote
      · rename_i same
        exact absurd (List.cons.inj same).1 notBackslash
      · rename_i same
        exact absurd (List.cons.inj same).1 notBackslash
      · rename_i same
        cases same
        rw [if_pos printed, ih]
        rfl
  | @short letter ch text said escape more ih =>
      have notUnicode : letter ≠ 'u' := by
        rintro rfl
        cases escape
      rw [List.cons_append, List.cons_append, readString.eq_def]
      split
      · rename_i same
        cases same
      · rename_i same
        cases same
      · rename_i same
        exact absurd (List.cons.inj (List.cons.inj same).2).1 notUnicode
      · rename_i same
        cases same
        rw [escape, ih]
        rfl
      · rename_i other same
        cases same
        exact absurd rfl (other _ _ rfl)
  | unicode isFirst isSecond isThird isFourth more ih =>
      simp only [List.cons_append, readString, isFirst, isSecond, isThird, isFourth, ih]
      rfl

/-! ### Numbers -/

def readNumber (text : List Char) : Option (Nat × List Char) :=
  if text.takeWhile Char.isDigit = [] then none
  else some (Nat.ofDigitChars 10 (text.takeWhile Char.isDigit) 0, text.dropWhile Char.isDigit)

theorem readNumber_toDigits (number : Nat) {rest : List Char}
    (ends : ∀ ch, rest.head? = some ch → ch.isDigit = false) :
    readNumber (Nat.toDigits 10 number ++ rest) = some (number, rest) := by
  have digits : ∀ ch ∈ Nat.toDigits 10 number, ch.isDigit = true := fun ch member =>
    Nat.isDigit_of_mem_toDigits (by decide) (by decide) member
  have taken : rest.takeWhile Char.isDigit = [] := by
    cases rest with
    | nil => rfl
    | cons ch rest => rw [List.takeWhile_cons, ends ch rfl]; rfl
  have dropped : rest.dropWhile Char.isDigit = rest := by
    cases rest with
    | nil => rfl
    | cons ch rest => rw [List.dropWhile_cons, ends ch rfl]; rfl
  rw [readNumber, List.takeWhile_append_of_pos digits, List.dropWhile_append_of_pos digits, taken,
    dropped, List.append_nil, if_neg Nat.toDigits_ne_nil, Nat.ofDigitChars_ten_toDigits]

/-! ### Values -/

mutual

/-- A text is a JSON value and says this value. -/
inductive Says : List Char → Value → Prop where
  | null : Says ['n', 'u', 'l', 'l'] .null
  | string {text said : List Char} (body : StringBody text said) :
      Says ('"' :: (text ++ ['"'])) (.string said)
  | number (value : Nat) : Says (Nat.toDigits 10 value) (.number value)
  | array {text : List Char} {items : List Value} (elements : Elements text items) :
      Says ('[' :: (text ++ [']'])) (.array items)
  | object {text : List Char} {fields : List (List Char × Value)} (members : Members text fields) :
      Says ('{' :: (text ++ ['}'])) (.object fields)

/-- The text between the brackets of an array. -/
inductive Elements : List Char → List Value → Prop where
  | none : Elements [] []
  | one {text : List Char} {item : Value} (told : Says text item) : Elements text [item]
  | more {text others : List Char} {item next : Value} {items : List Value}
      (told : Says text item) (rest : Elements others (next :: items)) :
      Elements (text ++ ',' :: others) (item :: next :: items)

/-- The text between the braces of an object. -/
inductive Members : List Char → List (List Char × Value) → Prop where
  | none : Members [] []
  | one {name said text : List Char} {value : Value} (body : StringBody name said)
      (told : Says text value) : Members ('"' :: (name ++ '"' :: ':' :: text)) [(said, value)]
  | more {name said text others : List Char} {value : Value} {next : List Char × Value}
      {fields : List (List Char × Value)} (body : StringBody name said) (told : Says text value)
      (rest : Members others (next :: fields)) :
      Members ('"' :: (name ++ '"' :: ':' :: (text ++ ',' :: others)))
        ((said, value) :: next :: fields)

end

/-! ### Fixed text and lists -/

/-- What stands behind a fixed text. -/
def expect : List Char → List Char → Option (List Char)
  | [], text => some text
  | ch :: fixed, other :: text => if ch = other then expect fixed text else none
  | _ :: _, [] => none

@[simp] theorem expect_append (fixed rest : List Char) :
    expect fixed (fixed ++ rest) = some rest := by
  induction fixed with
  | nil => rfl
  | cons ch fixed ih => rw [List.cons_append, expect, if_pos rfl, ih]

@[simp] theorem expect_nil (text : List Char) : expect [] text = some text := by
  cases text <;> rfl

@[simp] theorem expect_cons (ch : Char) (fixed text : List Char) :
    expect (ch :: fixed) (ch :: text) = expect fixed text := if_pos rfl

section
variable {α : Type} (read : List Char → Option (α × List Char))

/-- Reads the further items of a list, each behind a comma. -/
def readMore : Nat → List Char → Option (List α × List Char)
  | 0, _ => none
  | fuel + 1, ',' :: text => do
      let (item, rest) ← read text
      let (items, rest) ← readMore fuel rest
      return (item :: items, rest)
  | _ + 1, rest => some ([], rest)

theorem readMore_flatMap {write : α → List Char}
    (reads : ∀ item rest, read (write item ++ rest) = some (item, rest)) (items : List α)
    {rest : List Char} (ends : rest.head? ≠ some ',') (fuel : Nat) (enough : items.length < fuel) :
    readMore read fuel (items.flatMap (fun item => ',' :: write item) ++ rest) =
      some (items, rest) := by
  induction items generalizing fuel with
  | nil =>
      obtain ⟨fuel, rfl⟩ := Nat.exists_eq_succ_of_ne_zero enough.ne'
      cases rest with
      | nil => rfl
      | cons ch rest =>
          have other : ch ≠ ',' := fun same => ends (by rw [same]; rfl)
          simp [readMore, other]
  | cons item items ih =>
      obtain ⟨fuel, rfl⟩ := Nat.exists_eq_succ_of_ne_zero (Nat.ne_zero_of_lt enough)
      have further := ih fuel (Nat.lt_of_succ_lt_succ enough)
      rw [List.flatMap_cons, List.append_assoc, List.cons_append, readMore, reads]
      simp only [Option.bind_eq_bind, Option.bind_some, further]
      rfl

end

end Json

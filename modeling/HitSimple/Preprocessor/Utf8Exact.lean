import HitSimple.Encoding.Utf8
import HitSimple.Preprocessor.Directives

namespace HitSimple.Preprocessor
open Encoding

theorem isContinuationByte_iff {byte : UInt8} :
    isContinuationByte byte = true ↔ 0x80 ≤ byte.toNat ∧ byte.toNat ≤ 0xbf := by
  simp [isContinuationByte, UInt8.le_iff_toNat_le]

/-- The lead byte tells how long a sequence is. -/
theorem length_encode {ch : Char} {lead : UInt8} {more : List UInt8}
    (encoded : encode ch = lead :: more) :
    utf8SequenceLength lead = (lead :: more).length := by
  match more with
  | [] =>
      have range := encode_eq_one_iff.mp ⟨ch, encoded⟩
      simp [utf8SequenceLength, UInt8.le_iff_toNat_le, range]
  | [second] =>
      have range := encode_eq_two_iff.mp ⟨ch, encoded⟩
      simp only [utf8SequenceLength, UInt8.le_iff_toNat_le, UInt8.reduceToNat, List.length_cons,
        List.length_nil]
      rw [if_neg (by omega), if_pos (by omega)]
  | [second, third] =>
      have range := encode_eq_three_iff.mp ⟨ch, encoded⟩
      simp only [utf8SequenceLength, UInt8.le_iff_toNat_le, UInt8.reduceToNat, List.length_cons,
        List.length_nil]
      rw [if_neg (by omega), if_neg (by omega), if_pos (by omega)]
  | [second, third, fourth] =>
      have range := encode_eq_four_iff.mp ⟨ch, encoded⟩
      simp only [utf8SequenceLength, UInt8.le_iff_toNat_le, UInt8.reduceToNat, List.length_cons,
        List.length_nil]
      rw [if_neg (by omega), if_neg (by omega), if_neg (by omega), if_pos (by omega)]
  | _ :: _ :: _ :: _ :: _ =>
      have long := congrArg List.length encoded
      have bound := ch.utf8Size_le_four
      rw [String.length_utf8EncodeChar] at long
      simp only [List.length_cons] at long
      omega

/-! ### One sequence -/

section
variable {source rest : Source} {index : Nat}

theorem continuationBytes_drop (split : source.drop index = rest) (offset count : Nat) :
    continuationBytes source index offset count = continuationBytes rest 0 offset count := by
  induction count generalizing offset with
  | zero => rfl
  | succ count ih =>
      simp only [continuationBytes, ih]
      rw [← split, List.getElem?_drop, Nat.zero_add]

theorem isValidUtf8Sequence_drop (split : source.drop index = rest) (inside : index ≤ source.length)
    (length : Nat) :
    isValidUtf8Sequence source index length = isValidUtf8Sequence rest 0 length := by
  have lead : source[index]? = rest[0]? := by
    rw [← split, List.getElem?_drop, Nat.add_zero]
  have second : source[index + 1]? = rest[0 + 1]? := by
    rw [← split, List.getElem?_drop]
  have size : source.length < index + length ↔ rest.length < 0 + length := by
    rw [← split, List.length_drop]
    omega
  unfold isValidUtf8Sequence
  simp only [lead, second, size, continuationBytes_drop split]

/-- What is decided about the text from a lead byte on. -/
def Decides (rest : Source) (length : Nat) (answer : Option Bool) : Prop :=
  answer = some true ∧ (∃ ch behind, rest = encode ch ++ behind ∧ (encode ch).length = length) ∨
    answer = some false ∧ ∀ ch behind, rest ≠ encode ch ++ behind

theorem Decides.of_iff {bytes behind : Source} {length : Nat} {answer : Option Bool}
    (size : bytes.length = length) (answers : answer = some true ∨ answer = some false)
    (accepts : answer = some true ↔ ∃ ch, encode ch = bytes)
    (leads : ∀ ch more, bytes ++ behind = encode ch ++ more → (encode ch).length = length) :
    Decides (bytes ++ behind) length answer := by
  rcases answers with yes | no
  · obtain ⟨ch, encoded⟩ := accepts.mp yes
    exact .inl ⟨yes, ch, behind, by rw [encoded], by rw [encoded, size]⟩
  · refine .inr ⟨no, fun ch more same => ?_⟩
    have same := List.append_inj_left same (by rw [size, leads ch more same])
    rw [accepts.mpr ⟨ch, same.symm⟩] at no
    cases no

theorem length_of_split {lead : UInt8} {tail more : Source} {ch : Char}
    (split : lead :: tail = encode ch ++ more) :
    (encode ch).length = utf8SequenceLength lead := by
  cases encoded : encode ch with
  | nil => exact absurd encoded (encode_ne_nil ch)
  | cons first others =>
      rw [encoded, List.cons_append, List.cons.injEq] at split
      rw [split.1, length_encode encoded]

theorem decides_short {lead : UInt8} {tail : Source}
    (short : (lead :: tail).length < utf8SequenceLength lead) :
    Decides (lead :: tail) (utf8SequenceLength lead)
      (isValidUtf8Sequence (lead :: tail) 0 (utf8SequenceLength lead)) := by
  refine .inr ⟨?_, fun ch more split => ?_⟩
  · rw [isValidUtf8Sequence, if_pos (by omega)]
  · have length := length_of_split split
    have whole := congrArg List.length split
    rw [List.length_append] at whole
    omega

theorem utf8SequenceLength_cases {lead : UInt8} (known : utf8SequenceLength lead ≠ 0) :
    utf8SequenceLength lead = 1 ∧ lead.toNat ≤ 0x7f ∨
      utf8SequenceLength lead = 2 ∧ (0xc2 ≤ lead.toNat ∧ lead.toNat ≤ 0xdf) ∨
      utf8SequenceLength lead = 3 ∧ (0xe0 ≤ lead.toNat ∧ lead.toNat ≤ 0xef) ∨
      utf8SequenceLength lead = 4 ∧ (0xf0 ≤ lead.toNat ∧ lead.toNat ≤ 0xf4) := by
  revert known
  fun_cases utf8SequenceLength lead with
  | case1 range => exact fun _ => .inl ⟨rfl, range⟩
  | case2 _ range => exact fun _ => .inr (.inl ⟨rfl, range⟩)
  | case3 _ _ range => exact fun _ => .inr (.inr (.inl ⟨rfl, range⟩))
  | case4 _ _ _ range => exact fun _ => .inr (.inr (.inr ⟨rfl, range⟩))
  | case5 => exact fun known => absurd rfl known

theorem some_true_or_false (answer : Bool) : some answer = some true ∨ some answer = some false := by
  cases answer
  · exact .inr rfl
  · exact .inl rfl

theorem valid_one (lead : UInt8) (behind : Source) :
    isValidUtf8Sequence ([lead] ++ behind) 0 1 = some (decide (lead ≤ 0x7f)) := by
  simp [isValidUtf8Sequence]

theorem valid_two (lead second : UInt8) (behind : Source) :
    isValidUtf8Sequence ([lead, second] ++ behind) 0 2 = some (isContinuationByte second) := by
  cases tail : isContinuationByte second <;> simp [isValidUtf8Sequence, continuationBytes, tail]

theorem valid_three (lead second third : UInt8) (behind : Source) :
    isValidUtf8Sequence ([lead, second, third] ++ behind) 0 3 =
      some (isContinuationByte second && isContinuationByte third &&
        !(lead = 0xe0 && second < 0xa0) && !(lead = 0xed && 0xa0 ≤ second)) := by
  cases first : isContinuationByte second <;> cases last : isContinuationByte third <;>
    simp [isValidUtf8Sequence, continuationBytes, first, last]
  grind

theorem valid_four (lead second third fourth : UInt8) (behind : Source) :
    isValidUtf8Sequence ([lead, second, third, fourth] ++ behind) 0 4 =
      some (isContinuationByte second && isContinuationByte third && isContinuationByte fourth &&
        !(lead = 0xf0 && second < 0x90) && !(lead = 0xf4 && 0x8f < second)) := by
  cases first : isContinuationByte second <;> cases middle : isContinuationByte third <;>
    cases last : isContinuationByte fourth <;>
    simp [isValidUtf8Sequence, continuationBytes, first, middle, last]
  grind

/-- Whether the bytes behind a lead byte make a sequence is decided without reading behind the
end. -/
theorem decides_sequence {lead : UInt8} {tail : Source} (known : utf8SequenceLength lead ≠ 0) :
    Decides (lead :: tail) (utf8SequenceLength lead)
      (isValidUtf8Sequence (lead :: tail) 0 (utf8SequenceLength lead)) := by
  by_cases short : (lead :: tail).length < utf8SequenceLength lead
  · exact decides_short short
  have leads := fun ch more (split : lead :: tail = encode ch ++ more) => length_of_split split
  rcases utf8SequenceLength_cases known with ⟨size, range⟩ | ⟨size, range⟩ | ⟨size, range⟩ |
    ⟨size, range⟩ <;> rw [size] at leads short ⊢
  · change Decides ([lead] ++ tail) _ (isValidUtf8Sequence ([lead] ++ tail) 0 1)
    rw [valid_one]
    refine Decides.of_iff rfl (some_true_or_false _) ?_ leads
    rw [encode_eq_one_iff]
    simp [UInt8.le_iff_toNat_le]
  · obtain ⟨second, tail, rfl⟩ : ∃ second more, tail = second :: more := by
      match tail with
      | [] => exact absurd (show 1 < 2 by decide) short
      | second :: more => exact ⟨second, more, rfl⟩
    change Decides ([lead, second] ++ tail) _ (isValidUtf8Sequence ([lead, second] ++ tail) 0 2)
    rw [valid_two]
    refine Decides.of_iff rfl (some_true_or_false _) ?_ leads
    rw [encode_eq_two_iff, Option.some_inj, isContinuationByte_iff]
    omega
  · obtain ⟨second, third, tail, rfl⟩ : ∃ second third more, tail = second :: third :: more := by
      match tail with
      | [] => exact absurd (show 1 < 3 by decide) short
      | [_] => exact absurd (show 2 < 3 by decide) short
      | second :: third :: more => exact ⟨second, third, more, rfl⟩
    change Decides ([lead, second, third] ++ tail) _
      (isValidUtf8Sequence ([lead, second, third] ++ tail) 0 3)
    rw [valid_three]
    refine Decides.of_iff rfl (some_true_or_false _) ?_ leads
    rw [encode_eq_three_iff, Option.some_inj]
    simp only [Bool.and_eq_true, isContinuationByte_iff, Bool.not_eq_true', Bool.and_eq_false_iff,
      decide_eq_false_iff_not, UInt8.lt_iff_toNat_lt, UInt8.le_iff_toNat_le, ← UInt8.toNat_inj,
      UInt8.reduceToNat]
    omega
  · obtain ⟨second, third, fourth, tail, rfl⟩ : ∃ second third fourth more,
        tail = second :: third :: fourth :: more := by
      match tail with
      | [] => exact absurd (show 1 < 4 by decide) short
      | [_] => exact absurd (show 2 < 4 by decide) short
      | [_, _] => exact absurd (show 3 < 4 by decide) short
      | second :: third :: fourth :: more => exact ⟨second, third, fourth, more, rfl⟩
    change Decides ([lead, second, third, fourth] ++ tail) _
      (isValidUtf8Sequence ([lead, second, third, fourth] ++ tail) 0 4)
    rw [valid_four]
    refine Decides.of_iff rfl (some_true_or_false _) ?_ leads
    rw [encode_eq_four_iff, Option.some_inj]
    simp only [Bool.and_eq_true, isContinuationByte_iff, Bool.not_eq_true', Bool.and_eq_false_iff,
      decide_eq_false_iff_not, UInt8.lt_iff_toNat_lt, ← UInt8.toNat_inj, UInt8.reduceToNat]
    omega

end

/-! ### The whole text -/

/-- Two texts that start with a sequence each start with the same number of bytes. -/
theorem length_encode_eq {first second : Char} {left right : Source}
    (same : encode first ++ left = encode second ++ right) :
    (encode first).length = (encode second).length := by
  cases encoded : encode first with
  | nil => exact absurd encoded (encode_ne_nil first)
  | cons lead more =>
      rw [encoded, List.cons_append] at same
      rw [length_of_split same, length_encode encoded]

/-- Behind well-formed sequences, bytes that start no sequence make the text ill-formed. -/
theorem ill_formed_of_split {chars : List Char} {rest : Source} (present : rest ≠ [])
    (stuck : ∀ ch more, rest ≠ encode ch ++ more) (others : List Char) :
    chars.flatMap encode ++ rest ≠ others.flatMap encode := by
  induction chars generalizing others with
  | nil =>
      cases others with
      | nil => exact present
      | cons ch others => exact stuck ch _
  | cons ch chars ih =>
      cases others with
      | nil =>
          intro same
          exact encode_ne_nil ch (List.append_eq_nil_iff.mp (List.append_eq_nil_iff.mp same).1).1
      | cons other others =>
          intro same
          rw [List.flatMap_cons, List.flatMap_cons, List.append_assoc] at same
          exact ih others (List.append_inj_right same (length_encode_eq same))

theorem encode_newline : encode '\n' = [0x0a] := rfl

theorem ne_newline_of_split {lead : UInt8} {tail more : Source} {ch : Char} (other : lead ≠ 0x0a)
    (split : lead :: tail = encode ch ++ more) : ch ≠ '\n' := by
  rintro rfl
  rw [encode_newline] at split
  exact other (List.cons.inj split).1

/-- What the scan answers about the bytes it still has before it. -/
def Answers (location : Lexer.Location) (rest : Source) : Option Lexer.Location → Prop
  | none => ∃ chars : List Char, rest = chars.flatMap encode
  | some place => ∃ (chars : List Char) (stuck : Source), rest = chars.flatMap encode ++ stuck ∧
      stuck ≠ [] ∧ (∀ ch more, stuck ≠ encode ch ++ more) ∧ place = location.advance chars

theorem Answers.cons {location : Lexer.Location} {rest : Source} {ch : Char}
    {answer : Option Lexer.Location} (answers : Answers (location.step ch) rest answer) :
    Answers location (encode ch ++ rest) answer := by
  cases answer with
  | none =>
      obtain ⟨chars, rfl⟩ := answers
      exact ⟨ch :: chars, rfl⟩
  | some place =>
      obtain ⟨chars, stuck, rfl, present, ends, rfl⟩ := answers
      refine ⟨ch :: chars, stuck, ?_, present, ends, rfl⟩
      rw [List.flatMap_cons, List.append_assoc]

theorem Answers.stuck {location : Lexer.Location} {rest : Source} (present : rest ≠ [])
    (ends : ∀ ch more, rest ≠ encode ch ++ more) : Answers location rest (some location) :=
  ⟨[], rest, rfl, present, ends, rfl⟩

theorem Answers.of_unknown {location : Lexer.Location} {lead : UInt8} {tail : Source}
    (unknown : utf8SequenceLength lead = 0) : Answers location (lead :: tail) (some location) := by
  refine .stuck (List.cons_ne_nil _ _) fun ch more split => ?_
  have length := length_of_split split
  rw [unknown] at length
  exact encode_ne_nil ch (List.eq_nil_of_length_eq_zero length)

theorem validateUtf8From_answers (source : Source) (location : Lexer.Location) (index : Nat) :
    ∃ answer, validateUtf8From source location index = some answer ∧
      Answers location (source.drop index) answer := by
  have decides {index : Nat} (inside : index < source.length)
      (known : utf8SequenceLength source[index] ≠ 0) :
      Decides (source[index] :: source.drop (index + 1)) (utf8SequenceLength source[index])
        (isValidUtf8Sequence source index (utf8SequenceLength source[index])) := by
    rw [isValidUtf8Sequence_drop (List.drop_eq_getElem_cons inside) inside.le]
    exact decides_sequence known
  fun_induction validateUtf8From source location index with
  | case1 location index inside newline ih =>
      obtain ⟨answer, same, answers⟩ := ih
      refine ⟨answer, same, ?_⟩
      rw [List.drop_eq_getElem_cons inside, newline]
      change Answers (location.step '\n') _ _ at answers
      exact answers.cons
  | case2 location index inside newline unknown =>
      refine ⟨_, rfl, ?_⟩
      rw [List.drop_eq_getElem_cons inside]
      exact .of_unknown unknown
  | case3 location index inside newline known faults =>
      rcases decides inside known with ⟨same, _⟩ | ⟨same, _⟩ <;> simp [faults] at same
  | case4 location index inside newline known invalid =>
      rcases decides inside known with ⟨same, _⟩ | ⟨_, ends⟩
      · simp [invalid] at same
      · refine ⟨_, rfl, ?_⟩
        rw [List.drop_eq_getElem_cons inside]
        exact .stuck (List.cons_ne_nil _ _) ends
  | case5 location index inside newline known valid ih =>
      rcases decides inside known with ⟨_, ch, behind, split, length⟩ | ⟨same, _⟩
      · obtain ⟨answer, same, answers⟩ := ih
        refine ⟨answer, same, ?_⟩
        have step : location.step ch = ⟨location.line, location.column + 1⟩ :=
          if_neg (ne_newline_of_split newline split)
        rw [← List.drop_eq_getElem_cons inside] at split
        rw [← length, ← List.drop_drop, split, List.drop_left, ← step] at answers
        rw [split]
        exact answers.cons
      · simp [valid] at same
  | case6 location index outside =>
      refine ⟨none, rfl, [], ?_⟩
      rw [List.drop_eq_nil_of_le (by omega)]
      rfl

/-- The scan always answers, so it reads no byte behind the end; it reports nothing just when the
text is a sequence of encoded characters, and else the place behind the characters that come first,
where no encoded character follows. -/
theorem validateUtf8_exact (source : Source) :
    ∃ answer, validateUtf8 source = some answer ∧
      (answer = none ↔ ∃ chars : List Char, source = chars.flatMap encode) ∧
      ∀ place, answer = some place →
        ∃ (chars : List Char) (rest : Source), source = chars.flatMap encode ++ rest ∧ rest ≠ [] ∧
          (∀ ch more, rest ≠ encode ch ++ more) ∧ place = Lexer.Location.start.advance chars := by
  obtain ⟨answer, same, answers⟩ := validateUtf8From_answers source .start 0
  refine ⟨answer, same, ?_⟩
  rw [List.drop_zero] at answers
  cases answer with
  | none => exact ⟨iff_of_true rfl answers, fun place absent => by cases absent⟩
  | some place =>
      obtain ⟨chars, stuck, split, present, ends, located⟩ := answers
      refine ⟨iff_of_false (by simp) ?_, ?_⟩
      · rintro ⟨others, whole⟩
        exact ill_formed_of_split present ends others (split.symm.trans whole)
      · rintro _ ⟨⟩
        exact ⟨chars, stuck, split, present, ends, located⟩

end HitSimple.Preprocessor

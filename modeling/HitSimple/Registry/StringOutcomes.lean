import HitSimple.Registry.ByteOutcomes

namespace HitSimple.Registry
open Slots FixedWidth

namespace Outcome
variable {state : State} {bytes : Bytes}

theorem strlen (value : Nat) : ByteCall.Outcome state bytes (.strlen value) where
  refuses missing := (hsCstrLength_of_not missing _).bind
  undefined _ copies := copies.elim
  answers found _ := by
    obtain ⟨length, string⟩ := found
    exact ⟨.length length, bytes, ⟨rfl, length, string.2, rfl⟩,
      Action.return_of_ok (hsCstrLength_of_string string _) Answer.length⟩

/-! ### Comparison and search -/

/-- Where the shorter string ends, the longer one has a byte more. -/
theorem compare_ends {left right : Byte} :
    (left = 0 → right ≠ 0 → compare left.toNat right.toNat = .lt) ∧
      (left ≠ 0 → right = 0 → compare left.toNat right.toNat = .gt) := by
  constructor
  · rintro rfl filled
    have positive : right.toNat ≠ 0 := fun zero => filled (BitVec.eq_of_toNat_eq zero)
    exact Nat.compare_eq_lt.mpr (Nat.pos_of_ne_zero positive)
  · rintro filled rfl
    have positive : left.toNat ≠ 0 := fun zero => filled (BitVec.eq_of_toNat_eq zero)
    exact Nat.compare_eq_gt.mpr (Nat.pos_of_ne_zero positive)

/-- The sign that `hs_strcmp` makes from the lengths and its comparison. -/
def strcmpSign (leftLength rightLength : Nat) (result : Ordering) : Ordering :=
  if result ≠ .eq then result
  else if leftLength = rightLength then .eq
  else if leftLength < rightLength then .lt
  else .gt

theorem hsStrcmp_of_strings {left right leftLength rightLength : Nat}
    (first : HasString state.Finds bytes left leftLength)
    (second : HasString state.Finds bytes right rightLength) :
    hsStrcmp state left right bytes = (.ok (strcmpSign leftLength rightLength
      (memcmpFrom bytes left right 0 (min leftLength rightLength))), bytes) := by
  have shorter : (if leftLength < rightLength then leftLength else rightLength) =
      min leftLength rightLength := by
    rw [min_def]
    split <;> split <;> omega
  have compared : Registry.memcmp left right (min leftLength rightLength) bytes =
      (.ok (memcmpFrom bytes left right 0 (min leftLength rightLength)), bytes) := rfl
  rw [hsStrcmp, Action.bind_of_ok (hsCstrLength_of_string first _),
    Action.bind_of_ok (hsCstrLength_of_string second _), shorter, Action.bind_of_ok compared,
    strcmpSign]
  repeat' split
  all_goals rfl

theorem strcmpSign_compares {left right leftLength rightLength : Nat}
    (first : IsString bytes left leftLength) (second : IsString bytes right rightLength)
    {result : Ordering} (compares : ComparesRange bytes left right (min leftLength rightLength) result) :
    ComparesStrings bytes left right (strcmpSign leftLength rightLength result) := by
  rcases compares with ⟨rfl, equal⟩ | ⟨place, below, equal, differs, sign⟩
  · have before (index : Nat) (below : index < min leftLength rightLength) :
        bytes (left + index) = bytes (right + index) ∧ bytes (left + index) ≠ 0 :=
      ⟨equal index below, first.2 index (by omega)⟩
    refine ⟨min leftLength rightLength, before, ?_⟩
    rcases Nat.lt_trichotomy leftLength rightLength with shorter | rfl | longer
    · rw [min_eq_left shorter.le]
      have more := second.2 leftLength shorter
      refine .inr ⟨by rw [first.1]; exact more.symm, ?_⟩
      rw [compare_ends.1 first.1 more, strcmpSign, if_neg (by simp), if_neg (by omega),
        if_pos shorter]
    · rw [min_self]
      exact .inl ⟨first.1, second.1, by simp [strcmpSign]⟩
    · rw [min_eq_right longer.le]
      have more := first.2 rightLength longer
      refine .inr ⟨by rw [second.1]; exact more, ?_⟩
      rw [compare_ends.2 more second.1, strcmpSign, if_neg (by simp), if_neg (by omega),
        if_neg (by omega)]
  · have unequal : result ≠ .eq := by
      rw [sign, Ne, Nat.compare_eq_eq]
      exact fun same => differs (BitVec.eq_of_toNat_eq same)
    refine ⟨place, fun index earlier => ⟨equal index earlier, first.2 index (by omega)⟩, .inr
      ⟨differs, ?_⟩⟩
    rw [strcmpSign, if_pos unequal, sign]

theorem strcmp (left right : Nat) : ByteCall.Outcome state bytes (.strcmp left right) where
  refuses missing := by
    by_cases first : ∃ length, HasString state.Finds bytes left length
    · have absent : ¬∃ length, HasString state.Finds bytes right length :=
        fun second => missing ⟨first, second⟩
      obtain ⟨length, string⟩ := first
      exact (Action.refuses_of_ok (hsCstrLength_of_string string _)
        (hsCstrLength_of_not absent _).bind).bind
    · exact (hsCstrLength_of_not first _).bind.bind
  undefined _ copies := copies.elim
  answers found _ := by
    obtain ⟨⟨leftLength, first⟩, rightLength, second⟩ := found
    exact ⟨.order _, bytes, ⟨rfl, _, rfl, strcmpSign_compares first.2 second.2
        (memcmpFrom_compares left right _)⟩,
      Action.return_of_ok (hsStrcmp_of_strings first second) Answer.order⟩

theorem memchrFrom_spec (bytes : Bytes) (value : Nat) (ch : Byte) (index count : Nat) :
    (∃ place, (index ≤ place ∧ place < index + count) ∧ bytes (value + place) = ch ∧
      (∀ earlier, index ≤ earlier → earlier < place → bytes (value + earlier) ≠ ch) ∧
      memchrFrom bytes value ch index count = value + place) ∨
    ((∀ place, index ≤ place → place < index + count → bytes (value + place) ≠ ch) ∧
      memchrFrom bytes value ch index count = 0) := by
  induction count generalizing index with
  | zero => exact .inr ⟨by omega, rfl⟩
  | succ count ih =>
      rw [memchrFrom]
      split
      next same => exact .inl ⟨index, by omega, same, by omega, rfl⟩
      next differs =>
        have extended {bound : Nat} (missing : ∀ place, index + 1 ≤ place → place < bound →
            bytes (value + place) ≠ ch) (place : Nat) (from' : index ≤ place)
            (below : place < bound) : bytes (value + place) ≠ ch := by
          rcases Nat.eq_or_lt_of_le from' with rfl | later
          · exact differs
          · exact missing place later below
        rcases ih (index + 1) with ⟨place, range, same, earlier, found⟩ | ⟨missing, none⟩
        · exact .inl ⟨place, by omega, same, extended earlier, found⟩
        · refine .inr ⟨extended fun place from' below => missing place from' (by omega), none⟩

theorem strchr (addressable : state.Addressable) (value : Nat) (ch : BitVec 32) :
    ByteCall.Outcome state bytes (.strchr value ch) where
  refuses missing := (hsCstrLength_of_not missing _).bind.bind
  undefined _ copies := copies.elim
  answers found _ := by
    obtain ⟨length, string⟩ := found
    have bound := size_lt addressable string.1
    have ran : hsStrchr state value ch bytes =
        (.ok (memchrFrom bytes value (ch.setWidth 8) 0 (length + 1)), bytes) := by
      rw [hsStrchr, Action.bind_of_ok (hsCstrLength_of_string string _),
        Nat.mod_eq_of_lt (by omega)]
      rfl
    refine ⟨.address _, bytes, ⟨rfl, length, string.2, ?_⟩, Action.return_of_ok ran Answer.address⟩
    rcases memchrFrom_spec bytes value (ch.setWidth 8) 0 (length + 1) with ⟨place, range, same, earlier, found⟩ | ⟨missing, none⟩
    · exact .inl ⟨place, by omega, same, fun index below => earlier index (Nat.zero_le _) below,
        by rw [found]⟩
    · exact .inr ⟨fun index below => missing index (Nat.zero_le _) (by omega), by rw [none]⟩

/-! ### Copies -/

theorem isRange_succ {ptr size : Nat} :
    IsRange state.Finds ptr (size + 1) ↔ state.Finds ptr (size + 1) :=
  or_iff_right (Nat.succ_ne_zero size)

theorem memcpy_separate {dst src count : Nat} (separate : Region.Separate ⟨dst, count⟩ ⟨src, count⟩) :
    Registry.memcpy dst src count bytes = (.ok dst, copied bytes dst src count) := by
  rw [Registry.memcpy, if_pos separate]
  rfl

theorem memcpy_overlapping {dst src count : Nat}
    (overlaps : ¬Region.Separate ⟨dst, count⟩ ⟨src, count⟩) :
    Registry.memcpy dst src count bytes = (.error .undefined, bytes) := by
  rw [Registry.memcpy, if_neg overlaps]

/-- `hs_strcpy` up to its `memcpy`. -/
theorem hsStrcpy_of_string (addressable : state.Addressable) {dst src length : Nat}
    (string : HasString state.Finds bytes src length) (room : state.Finds dst (length + 1)) :
    hsStrcpy state dst src bytes =
      (Registry.memcpy dst src (length + 1) >>= fun _ => pure dst) bytes := by
  have bound := size_lt addressable string.1
  rw [hsStrcpy, Action.bind_of_ok (hsCstrLength_of_string string _), Nat.mod_eq_of_lt (by omega),
    Action.bind_of_ok (checkRange_of_finds (isRange_succ.mpr room) _)]

theorem strcpy (addressable : state.Addressable) (dst src : Nat) :
    ByteCall.Outcome state bytes (.strcpy dst src) where
  refuses missing := by
    by_cases found : ∃ length, HasString state.Finds bytes src length
    · obtain ⟨length, string⟩ := found
      have bound := size_lt addressable string.1
      have outside : ¬IsRange state.Finds dst ((length + 1) % 2 ^ 64) := by
        rw [Nat.mod_eq_of_lt (by omega), isRange_succ]
        exact fun room => missing ⟨length, string, room⟩
      exact (Action.refuses_of_ok (hsCstrLength_of_string string _)
        (checkRange_of_not outside _).bind).bind
    · exact (hsCstrLength_of_not found _).bind.bind
  undefined allowed copies := by
    obtain ⟨length, string, room⟩ := allowed
    obtain ⟨other, isString, overlaps⟩ := copies
    obtain rfl := string.2.unique isString
    apply Action.bind_of_error
    rw [hsStrcpy_of_string addressable string room,
      Action.bind_of_error (memcpy_overlapping overlaps)]
  answers allowed apart := by
    obtain ⟨length, string, room⟩ := allowed
    have separate : Region.Separate ⟨dst, length + 1⟩ ⟨src, length + 1⟩ := by
      by_contra overlaps
      exact apart ⟨length, string.2, overlaps⟩
    refine ⟨.address dst, _, ⟨rfl, length, string.2, fun address => rfl⟩,
      Action.return_of_ok ?_ Answer.address⟩
    rw [hsStrcpy_of_string addressable string room,
      Action.bind_of_ok (memcpy_separate separate), Action.pure_apply]
    rfl

/-- `hs_strcat` up to its `memcpy`. -/
theorem hsStrcat_of_strings (addressable : state.Addressable) {dst src before length : Nat}
    (first : HasString state.Finds bytes dst before)
    (second : HasString state.Finds bytes src length)
    (room : state.Finds dst (before + length + 1)) :
    hsStrcat state dst src bytes =
      (Registry.memcpy (dst + before) src (length + 1) >>= fun _ => pure dst) bytes := by
  have bound := size_lt addressable room
  rw [hsStrcat, Action.bind_of_ok (hsCstrLength_of_string first _),
    Action.bind_of_ok (hsCstrLength_of_string second _),
    Nat.mod_eq_of_lt (show before + length + 1 < 2 ^ 64 by omega),
    Nat.mod_eq_of_lt (show length + 1 < 2 ^ 64 by omega),
    Action.bind_of_ok (checkRange_of_finds (isRange_succ.mpr room) _)]

theorem strcat (addressable : state.Addressable) (dst src : Nat) :
    ByteCall.Outcome state bytes (.strcat dst src) where
  refuses missing := by
    by_cases first : ∃ before, HasString state.Finds bytes dst before
    · obtain ⟨before, inDst⟩ := first
      by_cases second : ∃ length, HasString state.Finds bytes src length
      · obtain ⟨length, inSrc⟩ := second
        have := size_lt addressable inDst.1
        have := size_lt addressable inSrc.1
        have outside : ¬IsRange state.Finds dst ((before + length + 1) % 2 ^ 64) := by
          rw [Nat.mod_eq_of_lt (by omega), isRange_succ]
          exact fun room => missing ⟨before, length, inDst, inSrc, room⟩
        exact (Action.refuses_of_ok (hsCstrLength_of_string inDst _) (Action.refuses_of_ok
          (hsCstrLength_of_string inSrc _) (checkRange_of_not outside _).bind)).bind
      · exact (Action.refuses_of_ok (hsCstrLength_of_string inDst _)
          (hsCstrLength_of_not second _).bind).bind
    · exact (hsCstrLength_of_not first _).bind.bind
  undefined allowed copies := by
    obtain ⟨before, length, first, second, room⟩ := allowed
    obtain ⟨_, _, isFirst, isSecond, overlaps⟩ := copies
    obtain rfl := first.2.unique isFirst
    obtain rfl := second.2.unique isSecond
    apply Action.bind_of_error
    rw [hsStrcat_of_strings addressable first second room,
      Action.bind_of_error (memcpy_overlapping overlaps)]
  answers allowed apart := by
    obtain ⟨before, length, first, second, room⟩ := allowed
    have separate : Region.Separate ⟨dst + before, length + 1⟩ ⟨src, length + 1⟩ := by
      by_contra overlaps
      exact apart ⟨before, length, first.2, second.2, overlaps⟩
    refine ⟨.address dst, _, ⟨rfl, before, length, first.2, second.2, fun address => rfl⟩,
      Action.return_of_ok ?_ Answer.address⟩
    rw [hsStrcat_of_strings addressable first second room,
      Action.bind_of_ok (memcpy_separate separate), Action.pure_apply]
    rfl

theorem terminatorFrom_getD {src length count : Nat} (string : IsString bytes src length) :
    (terminatorFrom bytes src 0 count).getD count = min length count := by
  by_cases below : length < count
  · rw [terminatorFrom_start.mpr ⟨below, string⟩, Option.getD_some, min_eq_left below.le]
  · have endless : terminatorFrom bytes src 0 count = none := by
      rw [Option.eq_none_iff_forall_ne_some]
      intro other found
      obtain ⟨otherBelow, isString⟩ := terminatorFrom_start.mp found
      have same := string.unique isString
      omega
    rw [endless, Option.getD_none, min_eq_right (by omega)]

/-- `hs_strncpy` up to its `strncpy`. -/
theorem hsStrncpy_of_string {dst src size length : Nat} (sized : size ≠ 0)
    (range : IsRange state.Finds dst size) (string : HasString state.Finds bytes src length) :
    hsStrncpy state dst src size bytes =
      if Region.Separate ⟨dst, size⟩ ⟨src, min size (length + 1)⟩ then
        (.ok dst, padded bytes dst src (min length size) size)
      else (.error .undefined, bytes) := by
  have reads : min size (min length size + 1) = min size (length + 1) := by omega
  rw [hsStrncpy, Action.bind_of_ok (checkRange_of_finds range _),
    Action.bind_of_ok (hsCstrLength_of_string string _), if_neg sized, Registry.strncpy,
    terminatorFrom_getD string.2, reads]

theorem padded_writes (dst src length size : Nat) :
    Writes bytes (padded bytes dst src (min length size) size) dst size
      fun index => if index < length then bytes (src + index) else 0 := by
  intro address
  rw [padded]
  split
  next inside =>
    have same : address - dst < min length size ↔ address - dst < length := by omega
    simp only [same]
  · rfl

theorem strncpy (dst src size : Nat) :
    ByteCall.Outcome state bytes (.strncpy dst src size) where
  refuses missing := by
    by_cases range : IsRange state.Finds dst size
    · have absent : ¬∃ length, HasString state.Finds bytes src length :=
        fun string => missing ⟨range, string⟩
      exact (Action.refuses_of_ok (checkRange_of_finds range _)
        (hsCstrLength_of_not absent _).bind).bind
    · exact (checkRange_of_not range _).bind.bind
  undefined allowed copies := by
    obtain ⟨range, length, string⟩ := allowed
    obtain ⟨other, isString, overlaps⟩ := copies
    obtain rfl := string.2.unique isString
    have sized : size ≠ 0 := by
      rintro rfl
      exact overlaps (Region.separate_iff.mpr (.inl rfl))
    apply Action.bind_of_error
    rw [hsStrncpy_of_string sized range string, if_neg overlaps]
  answers allowed apart := by
    obtain ⟨range, length, string⟩ := allowed
    have separate : Region.Separate ⟨dst, size⟩ ⟨src, min size (length + 1)⟩ := by
      by_contra overlaps
      exact apart ⟨length, string.2, overlaps⟩
    by_cases empty : size = 0
    · subst empty
      refine ⟨.address dst, bytes, ⟨rfl, length, string.2, writes_nothing⟩,
        Action.return_of_ok ?_ Answer.address⟩
      rw [hsStrncpy, Action.bind_of_ok (checkRange_of_finds range _),
        Action.bind_of_ok (hsCstrLength_of_string string _), if_pos rfl, Action.pure_apply]
    · refine ⟨.address dst, _, ⟨rfl, length, string.2, padded_writes dst src length size⟩,
        Action.return_of_ok ?_ Answer.address⟩
      rw [hsStrncpy_of_string empty range string, if_pos separate]

end Outcome

theorem ByteCall.outcome {state : State} (addressable : state.Addressable) (bytes : Bytes)
    (call : ByteCall) : call.Outcome state bytes := by
  cases call with
  | memset dst value size => exact Outcome.memset dst value size
  | memcpy dst src size => exact Outcome.memcpy addressable dst src size
  | memmove dst src size => exact Outcome.memmove dst src size
  | memcmp left right size => exact Outcome.memcmp left right size
  | strlen value => exact Outcome.strlen value
  | strcmp left right => exact Outcome.strcmp left right
  | strcpy dst src => exact Outcome.strcpy addressable dst src
  | strncpy dst src size => exact Outcome.strncpy dst src size
  | strcat dst src => exact Outcome.strcat addressable dst src
  | strchr value ch => exact Outcome.strchr addressable value ch

section
variable {bytes after : Bytes} {dst src : Nat} {answer : Answer}

/-- After a copy the destination is the terminated string of the source. -/
theorem Specified.strcpy_string (specified : Specified bytes after (.strcpy dst src) answer) :
    ∃ length, IsString bytes src length ∧ IsString after dst length ∧
      ∀ index < length, after (dst + index) = bytes (src + index) := by
  obtain ⟨_, length, string, writes⟩ := specified
  have written (index : Nat) (below : index < length + 1) :
      after (dst + index) = bytes (src + index) := by
    rw [writes, if_pos (by omega), Nat.add_sub_cancel_left]
  refine ⟨length, string, ⟨?_, fun index below => ?_⟩, fun index below => written index (by omega)⟩
  · rw [written length (by omega)]
    exact string.1
  · rw [written index (by omega)]
    exact string.2 index below

/-- After a concatenation it is its own string and the source's behind it. -/
theorem Specified.strcat_string (specified : Specified bytes after (.strcat dst src) answer) :
    ∃ before length, IsString bytes dst before ∧ IsString bytes src length ∧
      IsString after dst (before + length) ∧
      (∀ index < before, after (dst + index) = bytes (dst + index)) ∧
      ∀ index < length, after (dst + before + index) = bytes (src + index) := by
  obtain ⟨_, before, length, first, second, writes⟩ := specified
  have kept (index : Nat) (below : index < before) :
      after (dst + index) = bytes (dst + index) := by
    rw [writes, if_neg (by omega)]
  have written (index : Nat) (below : index < length + 1) :
      after (dst + before + index) = bytes (src + index) := by
    rw [writes, if_pos (by omega), Nat.add_sub_cancel_left]
  refine ⟨before, length, first, second, ⟨?_, fun index below => ?_⟩, kept,
    fun index below => written index (by omega)⟩
  · rw [← Nat.add_assoc, written length (by omega)]
    exact second.1
  · by_cases own : index < before
    · rw [kept index own]
      exact first.2 index own
    · have place : dst + index = dst + before + (index - before) := by omega
      rw [place, written (index - before) (by omega)]
      exact second.2 (index - before) (by omega)

end

/-- A call meets the Standard exactly where its conditions hold of what the registry finds, once
they hold of the objects, and it copies no string over itself. -/
theorem ByteCall.conforms_iff {state : State} (addressable : state.Addressable) (bytes : Bytes)
    (call : ByteCall) :
    call.Conforms state bytes ↔ (Allowed state.Inside bytes call →
      Allowed state.Finds bytes call ∧ ¬CopiesOverItself bytes call) := by
  have outcome := call.outcome addressable bytes
  constructor
  · intro conforms allowed
    obtain ⟨answer, after, _, ran⟩ := conforms.answers allowed
    have found : Allowed state.Finds bytes call := by
      by_contra missing
      obtain ⟨message, stopped⟩ := outcome.refuses missing
      rw [ran] at stopped
      cases stopped
    refine ⟨found, fun copies => ?_⟩
    have stopped := outcome.undefined found copies
    rw [ran] at stopped
    cases stopped
  · intro meets
    constructor
    · intro violated
      exact outcome.refuses fun found => violated (found.mono fun _ _ => State.Finds.inside)
    · intro allowed
      exact outcome.answers (meets allowed).1 (meets allowed).2

/-- One object of four bytes. -/
def wordObject : State :=
  State.initial.put ⟨0, by decide⟩ ⟨1000, 4, 0, 0, 0, .heap, false⟩

/-- The string `a` at its start. -/
def wordBytes : Bytes :=
  fun address => if address = 1000 then 97 else 0

theorem wordObject_first :
    wordObject.allocs ⟨0, by decide⟩ = ⟨1000, 4, 0, 0, 0, .heap, false⟩ := by
  decide

theorem wordObject_addressable : wordObject.Addressable := by
  have slots (slot : Fin maxObjects) :
      wordObject.allocs slot = ⟨1000, 4, 0, 0, 0, .heap, false⟩ ∨
        wordObject.allocs slot = ⟨0, 0, 0, 0, 0, .heap, false⟩ := by
    by_cases first : slot = ⟨0, by decide⟩
    · subst first
      exact .inl wordObject_first
    · exact .inr (Function.update_of_ne first _ _)
  constructor <;> intro slot <;> rcases slots slot with used | unused
  · rw [used]
    decide
  · rw [unused]
    decide
  · rw [used]
    decide
  · rw [unused]
    decide

theorem wordBytes_string : IsString wordBytes 1000 1 := by
  constructor <;> decide

theorem conforms_iff_of_word :
    (ByteCall.strcat 1000 1000).Conforms wordObject wordBytes ↔
      (Allowed wordObject.Inside wordBytes (.strcat 1000 1000) →
        Allowed wordObject.Finds wordBytes (.strcat 1000 1000) ∧
          ¬CopiesOverItself wordBytes (.strcat 1000 1000)) :=
  ByteCall.conforms_iff wordObject_addressable wordBytes (.strcat 1000 1000)

/-- `strcat(s, s)` has room and strings, and runs into an overlapping `memcpy`. -/
theorem doubled_string_undefined :
    Allowed wordObject.Inside wordBytes (.strcat 1000 1000) ∧
      (ByteCall.strcat 1000 1000).run wordObject wordBytes = (.error .undefined, wordBytes) ∧
      ¬(ByteCall.strcat 1000 1000).Conforms wordObject wordBytes := by
  have finds (size : Nat) (fits : size ≤ 4) : wordObject.Finds 1000 size := by
    refine ⟨⟨0, by decide⟩, ⟨by decide, fun earlier below => ?_⟩, by decide, by decide, ?_⟩
    · exact absurd below (Nat.not_lt_zero earlier.val)
    · rw [wordObject_first]
      exact Nat.add_le_add_left fits 1000
  have string : HasString wordObject.Finds wordBytes 1000 1 :=
    ⟨finds 2 (by decide), wordBytes_string⟩
  have allowed : Allowed wordObject.Finds wordBytes (.strcat 1000 1000) :=
    ⟨1, 1, string, string, finds 3 (by decide)⟩
  have copies : CopiesOverItself wordBytes (.strcat 1000 1000) :=
    ⟨1, 1, wordBytes_string, wordBytes_string, by decide⟩
  have stopped := (ByteCall.outcome wordObject_addressable wordBytes
    (.strcat 1000 1000)).undefined allowed copies
  have specified := allowed.mono fun _ _ => State.Finds.inside
  refine ⟨specified, stopped, fun conforms => ?_⟩
  obtain ⟨answer, after, _, ran⟩ := conforms.answers specified
  rw [stopped] at ran
  cases ran

end HitSimple.Registry

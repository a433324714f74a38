import HitSimple.Registry.ByteFunctions
import HitSimple.Registry.Operations

namespace HitSimple.Registry
open Slots FixedWidth

/-- The checked memory and string functions of the Standard, 14.1 and 14.3. -/
inductive ByteCall where
  | memset (dst : Nat) (value : BitVec 32) (size : Nat)
  | memcpy (dst src size : Nat)
  | memmove (dst src size : Nat)
  | memcmp (left right size : Nat)
  | strlen (value : Nat)
  | strcmp (left right : Nat)
  | strcpy (dst src : Nat)
  | strncpy (dst src size : Nat)
  | strcat (dst src : Nat)
  | strchr (value : Nat) (ch : BitVec 32)
  deriving DecidableEq

/-- Of an order C fixes the sign only. -/
inductive Answer where
  | address (ptr : Nat)
  | length (count : Nat)
  | order (sign : Ordering)
  deriving DecidableEq

def ByteCall.run (state : State) : ByteCall → Action Answer
  | .memset dst value size => do return .address (← hsMemset state dst value size)
  | .memcpy dst src size => do return .address (← hsMemcpy state dst src size)
  | .memmove dst src size => do return .address (← hsMemmove state dst src size)
  | .memcmp left right size => do return .order (← hsMemcmp state left right size)
  | .strlen value => do return .length (← hsStrlen state value)
  | .strcmp left right => do return .order (← hsStrcmp state left right)
  | .strcpy dst src => do return .address (← hsStrcpy state dst src)
  | .strncpy dst src size => do return .address (← hsStrncpy state dst src size)
  | .strcat dst src => do return .address (← hsStrcat state dst src)
  | .strchr value ch => do return .address (← hsStrchr state value ch)

/-- A registry of objects that C can have: none has more bytes than a pointer difference can tell,
and the address behind the last byte is one. -/
structure State.Addressable (state : State) : Prop where
  size : ∀ slot, (state.allocs slot).size < 2 ^ 63
  ends : ∀ slot, (state.allocs slot).ptr + (state.allocs slot).size < 2 ^ 64

namespace State
variable (state : State) (ptr size : Nat)

def Holds (slot : Fin maxObjects) : Prop :=
  (state.allocs slot).Live ∧ (state.allocs slot).ptr ≤ ptr ∧
    ptr + size ≤ (state.allocs slot).ptr + (state.allocs slot).size

/-- The bytes lie inside one live object. -/
def Inside : Prop :=
  ∃ slot, state.Holds ptr size slot

/-- They lie inside the first object of the table that covers the first one, and it is live. -/
def Finds : Prop :=
  ∃ slot, ((state.allocs slot).Covers ptr ∧ ∀ earlier < slot, ¬(state.allocs earlier).Covers ptr) ∧
    state.Holds ptr size slot

end State

/-! ### What the Standard specifies -/

section
variable (inside : Nat → Nat → Prop) (bytes : Bytes)

def IsRange (ptr size : Nat) : Prop :=
  size = 0 ∨ inside ptr size

def IsString (value length : Nat) : Prop :=
  bytes (value + length) = 0 ∧ ∀ index < length, bytes (value + index) ≠ 0

/-- A string with its terminator. -/
def HasString (value length : Nat) : Prop :=
  inside value (length + 1) ∧ IsString bytes value length

/-- The conditions of a call, over what it means for bytes to lie inside an object. -/
def Allowed : ByteCall → Prop
  | .memset dst _ size => IsRange inside dst size
  | .memcpy dst src size =>
      IsRange inside dst size ∧ IsRange inside src size ∧ Region.Separate ⟨dst, size⟩ ⟨src, size⟩
  | .memmove left right size | .memcmp left right size =>
      IsRange inside left size ∧ IsRange inside right size
  | .strlen value | .strchr value _ => ∃ length, HasString inside bytes value length
  | .strcmp left right =>
      (∃ length, HasString inside bytes left length) ∧ ∃ length, HasString inside bytes right length
  | .strcpy dst src => ∃ length, HasString inside bytes src length ∧ inside dst (length + 1)
  | .strncpy dst src size => IsRange inside dst size ∧ ∃ length, HasString inside bytes src length
  | .strcat dst src => ∃ before length, HasString inside bytes dst before ∧
      HasString inside bytes src length ∧ inside dst (before + length + 1)

end

section
variable (bytes after : Bytes)

/-- So many bytes from an address on are written, and no others. -/
def Writes (dst count : Nat) (written : Nat → Byte) : Prop :=
  ∀ address, after address =
    if dst ≤ address ∧ address < dst + count then written (address - dst) else bytes address

/-- The first place of a range where two rows of bytes differ decides. -/
def ComparesRange (left right size : Nat) (sign : Ordering) : Prop :=
  (sign = .eq ∧ ∀ index < size, bytes (left + index) = bytes (right + index)) ∨
    ∃ place < size, (∀ index < place, bytes (left + index) = bytes (right + index)) ∧
      bytes (left + place) ≠ bytes (right + place) ∧
      sign = compare (bytes (left + place)).toNat (bytes (right + place)).toNat

/-- The first place where two strings differ or end decides. -/
def ComparesStrings (left right : Nat) (sign : Ordering) : Prop :=
  ∃ place, (∀ index < place,
      bytes (left + index) = bytes (right + index) ∧ bytes (left + index) ≠ 0) ∧
    ((bytes (left + place) = 0 ∧ bytes (right + place) = 0 ∧ sign = .eq) ∨
      (bytes (left + place) ≠ bytes (right + place) ∧
        sign = compare (bytes (left + place)).toNat (bytes (right + place)).toNat))

/-- The answer of a call and the bytes behind it, from the bytes before it. -/
def Specified : ByteCall → Answer → Prop
  | .memset dst value size, answer =>
      answer = .address dst ∧ Writes bytes after dst size fun _ => value.setWidth 8
  | .memcpy dst src size, answer | .memmove dst src size, answer =>
      answer = .address dst ∧ Writes bytes after dst size fun index => bytes (src + index)
  | .memcmp left right size, answer => after = bytes ∧
      ∃ sign, answer = .order sign ∧ ComparesRange bytes left right size sign
  | .strlen value, answer => after = bytes ∧
      ∃ length, IsString bytes value length ∧ answer = .length length
  | .strcmp left right, answer => after = bytes ∧
      ∃ sign, answer = .order sign ∧ ComparesStrings bytes left right sign
  | .strcpy dst src, answer => answer = .address dst ∧
      ∃ length, IsString bytes src length ∧
        Writes bytes after dst (length + 1) fun index => bytes (src + index)
  | .strncpy dst src size, answer => answer = .address dst ∧
      ∃ length, IsString bytes src length ∧
        Writes bytes after dst size fun index => if index < length then bytes (src + index) else 0
  | .strcat dst src, answer => answer = .address dst ∧
      ∃ before length, IsString bytes dst before ∧ IsString bytes src length ∧
        Writes bytes after (dst + before) (length + 1) fun index => bytes (src + index)
  | .strchr value ch, answer => after = bytes ∧
      ∃ length, IsString bytes value length ∧
        ((∃ place ≤ length, bytes (value + place) = ch.setWidth 8 ∧
            (∀ index < place, bytes (value + index) ≠ ch.setWidth 8) ∧
            answer = .address (value + place)) ∨
          ((∀ index ≤ length, bytes (value + index) ≠ ch.setWidth 8) ∧ answer = .address 0))

end

/-- A call fails without a write where its conditions are violated, and else answers and writes
what is specified. -/
structure ByteCall.Conforms (state : State) (bytes : Bytes) (call : ByteCall) : Prop where
  fails : ¬Allowed state.Inside bytes call →
    ∃ message, call.run state bytes = (.error (.failed message), bytes)
  answers : Allowed state.Inside bytes call →
    ∃ answer after, Specified bytes after call answer ∧ call.run state bytes = (.ok answer, after)

/-- The string copies whose bytes are read and written at once. -/
def CopiesOverItself (bytes : Bytes) : ByteCall → Prop
  | .strcpy dst src => ∃ length, IsString bytes src length ∧
      ¬Region.Separate ⟨dst, length + 1⟩ ⟨src, length + 1⟩
  | .strncpy dst src size => ∃ length, IsString bytes src length ∧
      ¬Region.Separate ⟨dst, size⟩ ⟨src, min size (length + 1)⟩
  | .strcat dst src => ∃ before length, IsString bytes dst before ∧ IsString bytes src length ∧
      ¬Region.Separate ⟨dst + before, length + 1⟩ ⟨src, length + 1⟩
  | _ => False

namespace Action

/-- The action ends with a runtime error before it writes. -/
def Refuses {α : Type} (action : Action α) (bytes : Bytes) : Prop :=
  ∃ message, action bytes = (.error (.failed message), bytes)

variable {α β : Type} {first : Action α} {next : α → Action β} {bytes after : Bytes}

theorem Refuses.bind (refuses : first.Refuses bytes) : (first >>= next).Refuses bytes :=
  refuses.imp fun _ ran => bind_of_error ran

theorem refuses_of_ok {value : α} (ran : first bytes = (.ok value, bytes))
    (refuses : (next value).Refuses bytes) : (first >>= next).Refuses bytes :=
  refuses.imp fun _ stopped => (bind_of_ok ran).trans stopped

theorem return_of_ok {value : α} (ran : first bytes = (.ok value, after)) (result : α → β) :
    (first >>= fun value => pure (result value)) bytes = (.ok (result value), after) :=
  bind_of_ok ran

end Action

section
variable {state : State} {bytes : Bytes} {ptr size : Nat}

theorem State.Finds.inside (finds : state.Finds ptr size) : state.Inside ptr size :=
  finds.imp fun _ found => found.2

/-- Conditions over what the registry finds are conditions over the objects. -/
theorem Allowed.mono {strong weak : Nat → Nat → Prop}
    (implies : ∀ ptr size, strong ptr size → weak ptr size) {call : ByteCall}
    (allowed : Allowed strong bytes call) : Allowed weak bytes call := by
  have range {ptr size : Nat} : IsRange strong ptr size → IsRange weak ptr size :=
    Or.imp_right (implies _ _)
  have string {value length : Nat} :
      HasString strong bytes value length → HasString weak bytes value length :=
    And.imp_left (implies _ _)
  cases call with
  | memset => exact range allowed
  | memcpy => exact ⟨range allowed.1, range allowed.2.1, allowed.2.2⟩
  | memmove => exact ⟨range allowed.1, range allowed.2⟩
  | memcmp => exact ⟨range allowed.1, range allowed.2⟩
  | strlen => exact allowed.imp fun _ => string
  | strchr => exact allowed.imp fun _ => string
  | strcmp => exact ⟨allowed.1.imp fun _ => string, allowed.2.imp fun _ => string⟩
  | strcpy => exact allowed.imp fun _ => And.imp string (implies _ _)
  | strncpy => exact ⟨range allowed.1, allowed.2.imp fun _ => string⟩
  | strcat =>
      obtain ⟨before, length, first, second, room⟩ := allowed
      exact ⟨before, length, string first, string second, implies _ _ room⟩

/-! ### The checks -/

theorem holds_iff {slot : Fin maxObjects} (found : hsFind state ptr = some slot) :
    state.Holds ptr size slot ↔ (state.allocs slot).freed = false ∧
      ptr + size ≤ (state.allocs slot).ptr + (state.allocs slot).size := by
  obtain ⟨nonnull, low, _⟩ := (hsFind_eq_some_iff.mp found).1
  constructor
  · rintro ⟨live, _, bound⟩
    exact ⟨live.2, bound⟩
  · rintro ⟨kept, bound⟩
    exact ⟨⟨nonnull, kept⟩, low, bound⟩

theorem checkRange_of_finds (range : IsRange state.Finds ptr size) (message : String) :
    checkRange state ptr size message bytes = (.ok (), bytes) := by
  have checked : hsCheck state ptr size message = .ok () := by
    unfold hsCheck
    split
    · rfl
    next sized =>
      obtain ⟨slot, first, holds⟩ := range.resolve_left sized
      have found := hsFind_eq_some_iff.mpr first
      obtain ⟨nonnull, low, inside⟩ := first.1
      obtain ⟨kept, bound⟩ := (holds_iff found).mp holds
      rw [if_neg (by omega), found]
      dsimp only
      rw [kept, if_neg Bool.false_ne_true, if_neg (by omega)]
  rw [checkRange, checked]
  rfl

theorem checkRange_of_not (outside : ¬IsRange state.Finds ptr size) (message : String) :
    (checkRange state ptr size message).Refuses bytes := by
  have refused : ∃ failure, hsCheck state ptr size message = .error failure := by
    unfold hsCheck
    split
    next empty => exact absurd (.inl empty) outside
    split
    · exact ⟨_, rfl⟩
    split
    · exact ⟨_, rfl⟩
    next slot found =>
      dsimp only
      split
      · exact ⟨_, rfl⟩
      next kept =>
        split
        · exact ⟨_, rfl⟩
        next inside =>
          obtain ⟨nonnull, low, _⟩ := (hsFind_eq_some_iff.mp found).1
          refine absurd (.inr ⟨slot, hsFind_eq_some_iff.mp found, (holds_iff found).mpr ⟨?_, by omega⟩⟩) outside
          exact Bool.eq_false_iff.mpr kept
  obtain ⟨failure, refused⟩ := refused
  exact ⟨failure, by rw [checkRange, refused]; rfl⟩

theorem terminatorFrom_eq_some {value index count length : Nat} :
    terminatorFrom bytes value index count = some length ↔
      (index ≤ length ∧ length < index + count) ∧ bytes (value + length) = 0 ∧
        ∀ earlier, index ≤ earlier → earlier < length → bytes (value + earlier) ≠ 0 := by
  induction count generalizing index with
  | zero =>
      rw [terminatorFrom]
      exact iff_of_false (by simp) (by omega)
  | succ count ih =>
      rw [terminatorFrom]
      split
      next here =>
        rw [Option.some_inj]
        constructor
        · rintro rfl
          exact ⟨by omega, here, by omega⟩
        · rintro ⟨range, _, earlier⟩
          by_contra later
          exact earlier index le_rfl (by omega) here
      next filled =>
        rw [ih]
        constructor
        · rintro ⟨range, zero, earlier⟩
          refine ⟨by omega, zero, fun place from' below => ?_⟩
          by_cases same : place = index
          · rwa [same]
          · exact earlier place (by omega) below
        · rintro ⟨range, zero, earlier⟩
          have later : index ≠ length := by
            rintro rfl
            exact filled zero
          exact ⟨by omega, zero, fun place from' below => earlier place (by omega) below⟩

theorem terminatorFrom_start {value count length : Nat} :
    terminatorFrom bytes value 0 count = some length ↔
      length < count ∧ IsString bytes value length := by
  rw [terminatorFrom_eq_some]
  simp [IsString]

theorem IsString.unique {value length other : Nat} (first : IsString bytes value length)
    (second : IsString bytes value other) : length = other := by
  rcases Nat.lt_trichotomy length other with below | same | above
  · exact absurd first.1 (second.2 length below)
  · exact same
  · exact absurd second.1 (first.2 other above)

theorem hsCstrLength_of_string {value length : Nat}
    (string : HasString state.Finds bytes value length) (message : String) :
    hsCstrLength state value message bytes = (.ok length, bytes) := by
  obtain ⟨⟨slot, first, holds⟩, isString⟩ := string
  have found := hsFind_eq_some_iff.mpr first
  obtain ⟨nonnull, low, inside⟩ := first.1
  obtain ⟨kept, bound⟩ := (holds_iff found).mp holds
  have terminated := terminatorFrom_start.mpr
    ⟨show length < (state.allocs slot).size - (value - (state.allocs slot).ptr) by omega, isString⟩
  rw [hsCstrLength, if_neg (by omega), found]
  dsimp only
  rw [kept, if_neg Bool.false_ne_true, cstrScan, terminated]

theorem hsCstrLength_of_not {value : Nat}
    (missing : ¬∃ length, HasString state.Finds bytes value length) (message : String) :
    (hsCstrLength state value message).Refuses bytes := by
  refine ⟨message, ?_⟩
  rw [hsCstrLength]
  split
  · rfl
  cases found : hsFind state value with
  | none => rfl
  | some slot =>
      dsimp only
      split
      · rfl
      next kept =>
        rw [cstrScan]
        cases terminated : terminatorFrom bytes value 0
            ((state.allocs slot).size - (value - (state.allocs slot).ptr)) with
        | none => rfl
        | some length =>
            obtain ⟨bound, isString⟩ := terminatorFrom_start.mp terminated
            obtain ⟨nonnull, low, inside⟩ := (hsFind_eq_some_iff.mp found).1
            refine absurd ⟨length, ⟨slot, hsFind_eq_some_iff.mp found, (holds_iff found).mpr ⟨?_, by omega⟩⟩, isString⟩
              missing
            exact Bool.eq_false_iff.mpr kept

end

end HitSimple.Registry

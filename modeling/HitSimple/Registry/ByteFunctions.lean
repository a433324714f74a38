import HitSimple.FixedWidth.Bytes
import HitSimple.Registry.Objects

namespace HitSimple.Registry
open Slots FixedWidth

abbrev Bytes := Nat → Byte

/-- How a call ends without an answer: with a runtime error, or in what C leaves undefined. -/
inductive Stop where
  | failed (message : String)
  | undefined
  deriving DecidableEq

/-- What a function does with the bytes of the process. -/
def Action (α : Type) :=
  Bytes → Except Stop α × Bytes

namespace Action

instance : Monad Action where
  pure value := fun bytes => (.ok value, bytes)
  bind first next := fun bytes =>
    match first bytes with
    | (.ok value, bytes) => next value bytes
    | (.error stop, bytes) => (.error stop, bytes)

section
variable {α β : Type} {first : Action α} {next : α → Action β} {bytes after : Bytes}

theorem bind_of_ok {value : α} (ran : first bytes = (.ok value, after)) :
    (first >>= next) bytes = next value after := by
  simp only [bind, ran]

theorem bind_of_error {stop : Stop} (ran : first bytes = (.error stop, after)) :
    (first >>= next) bytes = (.error stop, after) := by
  simp only [bind, ran]

theorem pure_apply {value : α} : (pure value : Action α) bytes = (.ok value, bytes) := rfl

end

end Action

def hsFail {α : Type} (message : String) : Action α :=
  fun bytes => (.error (.failed message), bytes)

/-- The index of the first zero byte, among so many from an index on. -/
def terminatorFrom (bytes : Bytes) (value index : Nat) : Nat → Option Nat
  | 0 => none
  | remaining + 1 =>
      if bytes (value + index) = 0 then some index
      else terminatorFrom bytes value (index + 1) remaining

/-! ### The functions of C -/

def copied (bytes : Bytes) (dst src count : Nat) : Bytes :=
  fun address =>
    if dst ≤ address ∧ address < dst + count then bytes (src + (address - dst)) else bytes address

def memset (dst : Nat) (value : Byte) (count : Nat) : Action Nat :=
  fun bytes => (.ok dst, fun address =>
    if dst ≤ address ∧ address < dst + count then value else bytes address)

def memmove (dst src count : Nat) : Action Nat :=
  fun bytes => (.ok dst, copied bytes dst src count)

def memcpy (dst src count : Nat) : Action Nat :=
  fun bytes =>
    if Region.Separate ⟨dst, count⟩ ⟨src, count⟩ then memmove dst src count bytes
    else (.error .undefined, bytes)

/-- The order of the first bytes that differ; C fixes the sign of its answer only. -/
def memcmpFrom (bytes : Bytes) (left right index : Nat) : Nat → Ordering
  | 0 => .eq
  | count + 1 =>
      if bytes (left + index) = bytes (right + index) then
        memcmpFrom bytes left right (index + 1) count
      else compare (bytes (left + index)).toNat (bytes (right + index)).toNat

def memcmp (left right count : Nat) : Action Ordering :=
  fun bytes => (.ok (memcmpFrom bytes left right 0 count), bytes)

def memchrFrom (bytes : Bytes) (value : Nat) (ch : Byte) (index : Nat) : Nat → Nat
  | 0 => 0
  | count + 1 =>
      if bytes (value + index) = ch then value + index
      else memchrFrom bytes value ch (index + 1) count

def memchr (value : Nat) (ch : Byte) (count : Nat) : Action Nat :=
  fun bytes => (.ok (memchrFrom bytes value ch 0 count), bytes)

/-- Bytes of the string, and zeros behind it. -/
def padded (bytes : Bytes) (dst src length count : Nat) : Bytes :=
  fun address =>
    if dst ≤ address ∧ address < dst + count then
      if address - dst < length then bytes (src + (address - dst)) else 0
    else bytes address

def strncpy (dst src count : Nat) : Action Nat :=
  fun bytes =>
    let length := (terminatorFrom bytes src 0 count).getD count
    if Region.Separate ⟨dst, count⟩ ⟨src, min count (length + 1)⟩ then
      (.ok dst, padded bytes dst src length count)
    else (.error .undefined, bytes)

/-! ### The checked functions -/

section

/-- The loop of `hs_cstr_length` over the bytes that an object has left. -/
def cstrScan (value remaining : Nat) (message : String) : Action Nat :=
  fun bytes =>
    match terminatorFrom bytes value 0 remaining with
    | some index => (.ok index, bytes)
    | none => (.error (.failed message), bytes)

variable (state : State)

def checkRange (ptr size : Nat) (message : String) : Action Unit :=
  match hsCheck state ptr size message with
  | .ok () => pure ()
  | .error message => hsFail message

def hsCstrLength (value : Nat) (message : String) : Action Nat :=
  if value = 0 then hsFail message
  else
    match hsFind state value with
    | none => hsFail message
    | some slot =>
        let entry := state.allocs slot
        if entry.freed then hsFail message
        else cstrScan value (entry.size - (value - entry.ptr)) message

def hsMemset (dst : Nat) (value : BitVec 32) (size : Nat) : Action Nat := do
  checkRange state dst size "invalid memset range"
  if size = 0 then return dst
  else memset dst (value.setWidth 8) size

def hsMemcpy (dst src size : Nat) : Action Nat := do
  checkRange state dst size "invalid memcpy destination range"
  checkRange state src size "invalid memcpy source range"
  if size = 0 then return dst
  else if dst < (src + size) % 2 ^ 64 ∧ src < (dst + size) % 2 ^ 64 then
    hsFail "overlapping memcpy ranges"
  else memcpy dst src size

def hsMemmove (dst src size : Nat) : Action Nat := do
  checkRange state dst size "invalid memmove destination range"
  checkRange state src size "invalid memmove source range"
  if size = 0 then return dst
  else memmove dst src size

def hsMemcmp (left right size : Nat) : Action Ordering := do
  checkRange state left size "invalid memcmp left range"
  checkRange state right size "invalid memcmp right range"
  if size = 0 then return .eq
  else memcmp left right size

def hsStrlen (value : Nat) : Action Nat :=
  hsCstrLength state value "unterminated checked string"

def hsStrcmp (left right : Nat) : Action Ordering := do
  let leftLength ← hsCstrLength state left "unterminated checked string"
  let rightLength ← hsCstrLength state right "unterminated checked string"
  let result ← memcmp left right (if leftLength < rightLength then leftLength else rightLength)
  if result ≠ .eq then return result
  else if leftLength = rightLength then return .eq
  else if leftLength < rightLength then return .lt
  else return .gt

def hsStrcpy (dst src : Nat) : Action Nat := do
  let sourceLength ← hsCstrLength state src "unterminated checked string"
  checkRange state dst ((sourceLength + 1) % 2 ^ 64) "insufficient strcpy destination capacity"
  let _ ← memcpy dst src ((sourceLength + 1) % 2 ^ 64)
  return dst

def hsStrncpy (dst src size : Nat) : Action Nat := do
  checkRange state dst size "insufficient strncpy destination capacity"
  let _ ← hsCstrLength state src "unterminated checked string"
  if size = 0 then return dst
  else strncpy dst src size

def hsStrcat (dst src : Nat) : Action Nat := do
  let destinationLength ← hsCstrLength state dst "unterminated checked destination string"
  let sourceLength ← hsCstrLength state src "unterminated checked string"
  checkRange state dst ((destinationLength + sourceLength + 1) % 2 ^ 64)
    "insufficient strcat destination capacity"
  let _ ← memcpy (dst + destinationLength) src ((sourceLength + 1) % 2 ^ 64)
  return dst

def hsStrchr (value : Nat) (ch : BitVec 32) : Action Nat := do
  let length ← hsCstrLength state value "unterminated checked string"
  memchr value (ch.setWidth 8) ((length + 1) % 2 ^ 64)

end

end HitSimple.Registry

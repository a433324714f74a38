import HitSimple.Slots.Memory
import Mathlib.Logic.Function.Basic
import Mathlib.Algebra.Group.Nat.Defs

namespace HitSimple.Registry
open Function

def maxObjects : Nat := 1024

def maxFrames : Nat := 1024

def maxUInt64 : Nat := 2 ^ 64 - 1

inductive HsObjectKind where
  | heap
  | static
  | local
  | temporary
  deriving DecidableEq

/-- A slot of the table. The address `0` is `NULL`. -/
structure HsAlloc where
  ptr : Nat
  size : Nat
  frame : Nat
  scope : Nat
  registrationId : Nat
  kind : HsObjectKind
  freed : Bool
  deriving DecidableEq

namespace HsAlloc

def clear (allocation : HsAlloc) : HsAlloc :=
  { allocation with
    ptr := 0
    size := 0
    frame := 0
    scope := 0
    registrationId := 0
    freed := false }

/-- The test of `hs_find` on one slot. -/
def Covers (allocation : HsAlloc) (address : Nat) : Prop :=
  allocation.ptr ≠ 0 ∧ allocation.ptr ≤ address ∧ address - allocation.ptr < allocation.size

instance (allocation : HsAlloc) (address : Nat) : Decidable (allocation.Covers address) :=
  inferInstanceAs (Decidable (_ ∧ _))

/-- The test of `hs_slot` on one slot. -/
def Vacant (allocation : HsAlloc) : Prop :=
  allocation.ptr = 0 ∨ allocation.freed = true

instance (allocation : HsAlloc) : Decidable allocation.Vacant :=
  inferInstanceAs (Decidable (_ ∨ _))

def IsExact (allocation : HsAlloc) (ptr : Nat) (kind : HsObjectKind) (frame scope : Nat) : Prop :=
  allocation.ptr = ptr ∧ allocation.kind = kind ∧ allocation.frame = frame ∧
    allocation.scope = scope ∧ allocation.freed = false

instance (allocation : HsAlloc) (ptr : Nat) (kind : HsObjectKind) (frame scope : Nat) :
    Decidable (allocation.IsExact ptr kind frame scope) :=
  inferInstanceAs (Decidable (_ ∧ _))

def IsTemporary (allocation : HsAlloc) (frame scope registrationId : Nat) : Prop :=
  allocation.ptr ≠ 0 ∧ allocation.kind = .temporary ∧ allocation.frame = frame ∧
    allocation.scope = scope ∧ allocation.registrationId = registrationId ∧
    allocation.freed = false

instance (allocation : HsAlloc) (frame scope registrationId : Nat) :
    Decidable (allocation.IsTemporary frame scope registrationId) :=
  inferInstanceAs (Decidable (_ ∧ _))

/-- The objects that belong to a frame. -/
def Stacked (allocation : HsAlloc) : Prop :=
  allocation.ptr ≠ 0 ∧ (allocation.kind = .local ∨ allocation.kind = .temporary)

instance (allocation : HsAlloc) : Decidable allocation.Stacked :=
  inferInstanceAs (Decidable (_ ∧ _))

end HsAlloc

abbrev Table := Fin maxObjects → HsAlloc

structure State where
  allocs : Table
  currentFrame : Fin maxFrames
  frameScopes : Fin maxFrames → Nat

/-- A call that reports a runtime error ends the program with its message. -/
abbrev Result (α : Type) := Except String α

namespace State

/-- The zero-initialised globals. -/
def initial : State where
  allocs _ := ⟨0, 0, 0, 0, 0, .heap, false⟩
  currentFrame := ⟨0, by decide⟩
  frameScopes _ := 0

def scope (state : State) : Nat :=
  state.frameScopes state.currentFrame

def put (state : State) (slot : Fin maxObjects) (allocation : HsAlloc) : State :=
  { state with allocs := update state.allocs slot allocation }

/-- The loop of the frame and scope exits over the table. -/
def sweep (state : State) (ends : HsAlloc → Prop) [DecidablePred ends] : State :=
  { state with
    allocs slot :=
      if ends (state.allocs slot) then (state.allocs slot).clear else state.allocs slot }

end State

def hsFind (state : State) (ptr : Nat) : Option (Fin maxObjects) :=
  Fin.find? fun slot => decide ((state.allocs slot).Covers ptr)

def hsSlot (state : State) : Result (Fin maxObjects) :=
  match Fin.find? fun slot => decide (state.allocs slot).Vacant with
  | some slot => .ok slot
  | none => .error "object registry is full"

def hsFindExact (state : State) (ptr : Nat) (kind : HsObjectKind) (frame scope : Nat) :
    Option (Fin maxObjects) :=
  Fin.find? fun slot => decide ((state.allocs slot).IsExact ptr kind frame scope)

def hsFindTemporary (state : State) (frame scope registrationId : Nat) :
    Option (Fin maxObjects) :=
  Fin.find? fun slot => decide ((state.allocs slot).IsTemporary frame scope registrationId)

def hsRegister (state : State) (ptr size : Nat) (kind : HsObjectKind) (frame scope : Nat) :
    Result State :=
  if ptr = 0 ∨ size = 0 then .error "invalid object registration"
  else match hsFindExact state ptr kind frame scope with
    | some existing =>
        if (state.allocs existing).size ≠ size then .error "conflicting object registration"
        else .ok state
    | none => do
        let slot ← hsSlot state
        return state.put slot ⟨ptr, size, frame, scope, 0, kind, false⟩

def hsFrameEnter (state : State) : Result State :=
  if bound : state.currentFrame.val + 1 < maxFrames then
    .ok { state with
      currentFrame := ⟨state.currentFrame.val + 1, bound⟩
      frameScopes := update state.frameScopes ⟨state.currentFrame.val + 1, bound⟩ 0 }
  else .error "runtime frame depth overflow"

def hsFrameExit (state : State) : Result State :=
  if state.currentFrame.val = 0 then .error "runtime frame underflow"
  else
    let swept := state.sweep fun allocation =>
      allocation.Stacked ∧ allocation.frame = state.currentFrame.val
    .ok { swept with
      currentFrame := ⟨state.currentFrame.val - 1, by omega⟩
      frameScopes := update state.frameScopes state.currentFrame 0 }

def hsScopeEnter (state : State) : Result State :=
  if state.currentFrame.val = 0 then .error "scope entered outside a runtime frame"
  else if state.scope = maxUInt64 then .error "runtime scope depth overflow"
  else .ok { state with
    frameScopes := update state.frameScopes state.currentFrame (state.scope + 1) }

def hsScopeExit (state : State) : Result State :=
  if state.currentFrame.val = 0 ∨ state.scope = 0 then .error "runtime scope underflow"
  else
    let swept := state.sweep fun allocation =>
      allocation.Stacked ∧ allocation.frame = state.currentFrame.val ∧
        allocation.scope = state.scope
    .ok { swept with
      frameScopes := update state.frameScopes state.currentFrame (state.scope - 1) }

/-- The loop of `hs_scope_exit_to`; a scope exit lowers the depth by one. -/
def exitScopes (targetScope : Nat) : Nat → State → Result State
  | 0, state => .ok state
  | fuel + 1, state =>
      if targetScope < state.scope then do
        let state ← hsScopeExit state
        exitScopes targetScope fuel state
      else .ok state

def hsScopeExitTo (state : State) (targetScope : Nat) : Result State :=
  if state.currentFrame.val = 0 ∨ state.scope < targetScope then
    .error "invalid runtime scope exit"
  else exitScopes targetScope state.scope state

def hsRegisterLocal (state : State) (ptr size : Nat) : Result State :=
  if state.currentFrame.val = 0 then .error "local object registered outside a runtime frame"
  else hsRegister state ptr size .local state.currentFrame.val state.scope

def hsRegisterTemporary (state : State) (ptr size registrationId : Nat) : Result State :=
  if state.currentFrame.val = 0 then
    .error "temporary object registered outside a runtime frame"
  else
    let existing := hsFindTemporary state state.currentFrame.val state.scope registrationId
    if size = 0 then
      match existing with
      | some slot => .ok (state.put slot (state.allocs slot).clear)
      | none => .ok state
    else if ptr = 0 then .error "invalid object registration"
    else match existing with
      | some slot => .ok (state.put slot { state.allocs slot with ptr, size })
      | none => do
          let slot ← hsSlot state
          return state.put slot
            ⟨ptr, size, state.currentFrame.val, state.scope, registrationId, .temporary, false⟩

def hsRegisterStatic (state : State) (ptr size : Nat) : Result State :=
  hsRegister state ptr size .static 0 0

/-- `answer` is the pointer that `malloc` returns. -/
def hsAlloc (state : State) (size answer : Nat) : Result (State × Nat) :=
  if size = 0 then .ok (state, 0)
  else if answer = 0 then .error "allocation returned null"
  else do
    let state ← hsRegister state answer size .heap 0 0
    return (state, answer)

/-- `answer` is the pointer that `calloc` returns. -/
def hsCalloc (state : State) (count size answer : Nat) : Result (State × Nat) :=
  if count ≠ 0 ∧ maxUInt64 / count < size then .error "calloc size overflow"
  else if count * size = 0 then .ok (state, 0)
  else if answer = 0 then .error "allocation returned null"
  else do
    let state ← hsRegister state answer (count * size) .heap 0 0
    return (state, answer)

def hsFree (state : State) (ptr : Nat) : Result State :=
  if ptr = 0 then .ok state
  else match hsFind state ptr with
    | none => .error "invalid free"
    | some slot =>
        let entry := state.allocs slot
        if entry.ptr ≠ ptr ∨ entry.kind ≠ .heap then .error "invalid free"
        else if entry.freed then .error "double free"
        else .ok (state.put slot { entry with freed := true })

/-- `answer` is the pointer that `malloc` or `realloc` returns. -/
def hsRealloc (state : State) (ptr size answer : Nat) : Result (State × Nat) :=
  if ptr = 0 then hsAlloc state size answer
  else if size = 0 then do
    let state ← hsFree state ptr
    return (state, 0)
  else match hsFind state ptr with
    | none => .error "invalid realloc"
    | some slot =>
        let entry := state.allocs slot
        if entry.freed ∨ entry.ptr ≠ ptr ∨ entry.kind ≠ .heap then .error "invalid realloc"
        else if answer = 0 then .error "realloc returned null"
        else .ok (state.put slot
          { entry with ptr := answer, size, frame := 0, kind := .heap, freed := false }, answer)

def hsCheck (state : State) (ptr size : Nat) (message : String) : Result Unit :=
  if size = 0 then .ok ()
  else if ptr = 0 then .error "null address"
  else match hsFind state ptr with
    | none => .error message
    | some slot =>
        let entry := state.allocs slot
        if entry.freed then .error message
        else if entry.size < size ∨ entry.size - size < ptr - entry.ptr then .error message
        else .ok ()

def hsCheckLoad (state : State) (ptr size : Nat) : Result Unit :=
  hsCheck state ptr size "invalid checked load"

def hsCheckStore (state : State) (ptr size : Nat) : Result Unit :=
  hsCheck state ptr size "invalid checked store"

/-- The calls that change the registry, each with the host allocator's answer where it asks for
one. -/
inductive Call where
  | alloc (size answer : Nat)
  | calloc (count size answer : Nat)
  | realloc (ptr size answer : Nat)
  | free (ptr : Nat)
  | frameEnter
  | frameExit
  | scopeEnter
  | scopeExit
  | scopeExitTo (targetScope : Nat)
  | registerLocal (ptr size : Nat)
  | registerTemporary (ptr size registrationId : Nat)
  | registerStatic (ptr size : Nat)
  deriving DecidableEq

def State.run (state : State) : Call → Result State
  | .alloc size answer => (hsAlloc state size answer).map Prod.fst
  | .calloc count size answer => (hsCalloc state count size answer).map Prod.fst
  | .realloc ptr size answer => (hsRealloc state ptr size answer).map Prod.fst
  | .free ptr => hsFree state ptr
  | .frameEnter => hsFrameEnter state
  | .frameExit => hsFrameExit state
  | .scopeEnter => hsScopeEnter state
  | .scopeExit => hsScopeExit state
  | .scopeExitTo targetScope => hsScopeExitTo state targetScope
  | .registerLocal ptr size => hsRegisterLocal state ptr size
  | .registerTemporary ptr size registrationId =>
      hsRegisterTemporary state ptr size registrationId
  | .registerStatic ptr size => hsRegisterStatic state ptr size

end HitSimple.Registry

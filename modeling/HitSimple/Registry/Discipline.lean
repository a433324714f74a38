import HitSimple.Registry.Lifetimes

namespace HitSimple.Registry
open Slots Function

namespace HsAlloc

def Live (allocation : HsAlloc) : Prop :=
  allocation.ptr ≠ 0 ∧ allocation.freed = false

instance (allocation : HsAlloc) : Decidable allocation.Live :=
  inferInstanceAs (Decidable (_ ∧ _))

def region (allocation : HsAlloc) : Region :=
  ⟨allocation.ptr, allocation.size⟩

def owner (allocation : HsAlloc) : Owner :=
  match allocation.kind with
  | .heap => .heap
  | .static => .static
  | .local => .scope allocation.frame allocation.scope .local
  | .temporary =>
      .scope allocation.frame allocation.scope (.temporary allocation.registrationId)

def object (allocation : HsAlloc) : Object :=
  ⟨allocation.owner, allocation.region⟩

/-- What at most one live slot may hold. -/
def key (allocation : HsAlloc) : Owner × Option Nat :=
  (allocation.owner, if allocation.kind = .temporary then none else some allocation.ptr)

/-- A slot outside the frames carries no scope. -/
def Grounded (allocation : HsAlloc) : Prop :=
  allocation.kind = .heap ∨ allocation.kind = .static →
    allocation.frame = 0 ∧ allocation.scope = 0

theorem not_vacant_iff {allocation : HsAlloc} : ¬allocation.Vacant ↔ allocation.Live := by
  simp [Vacant, Live]

theorem not_live_clear (allocation : HsAlloc) : ¬allocation.clear.Live := by
  simp [Live, clear]

theorem not_stacked_clear (allocation : HsAlloc) : ¬allocation.clear.Stacked := by
  simp [Stacked, clear]

theorem isExact_of_key {allocation other : HsAlloc} (live : allocation.Live)
    (same : allocation.key = other.key) (lasting : other.kind ≠ .temporary)
    (grounded : allocation.Grounded) (otherGrounded : other.Grounded) :
    allocation.IsExact other.ptr other.kind other.frame other.scope := by
  obtain ⟨ptr, size, frame, scope, registrationId, kind, freed⟩ := allocation
  obtain ⟨ptr', size', frame', scope', registrationId', kind', freed'⟩ := other
  cases kind <;> cases kind' <;>
    simp_all [key, owner, IsExact, Live, Grounded]

theorem key_of_isExact {allocation : HsAlloc} (other : HsAlloc) (lasting : other.kind ≠ .temporary)
    (exact' : allocation.IsExact other.ptr other.kind other.frame other.scope) :
    allocation.key = other.key := by
  obtain ⟨ptr, size, frame, scope, registrationId, kind, freed⟩ := allocation
  obtain ⟨ptr', size', frame', scope', registrationId', kind', freed'⟩ := other
  simp only [IsExact] at exact'
  obtain ⟨rfl, rfl, rfl, rfl, _⟩ := exact'
  cases kind <;> simp_all [key, owner]

theorem isTemporary_iff {allocation : HsAlloc} {frame scope registrationId : Nat} :
    allocation.IsTemporary frame scope registrationId ↔
      allocation.Live ∧ allocation.owner = .scope frame scope (.temporary registrationId) := by
  obtain ⟨ptr, size, frame', scope', registrationId', kind, freed⟩ := allocation
  cases kind <;> simp [IsTemporary, Live, owner]
  tauto

theorem owner_heap_iff {allocation : HsAlloc} :
    allocation.owner = .heap ↔ allocation.kind = .heap := by
  cases kind : allocation.kind <;> simp [owner, kind]

theorem owner_scope {allocation : HsAlloc} {frame scope : Nat} {role : Role}
    (owned : allocation.owner = .scope frame scope role) :
    (allocation.kind = .local ∨ allocation.kind = .temporary) ∧
      allocation.frame = frame ∧ allocation.scope = scope := by
  cases kind : allocation.kind <;> simp [owner, kind] at owned ⊢
  all_goals exact ⟨owned.1, owned.2.1⟩

theorem stacked_owner {allocation : HsAlloc} (stacked : allocation.Stacked) :
    ∃ role, allocation.owner = .scope allocation.frame allocation.scope role := by
  rcases stacked.2 with kind | kind
  · exact ⟨.local, by simp [owner, kind]⟩
  · exact ⟨.temporary allocation.registrationId, by simp [owner, kind]⟩

end HsAlloc

namespace State

def Live (state : State) (object : Object) : Prop :=
  ∃ slot, (state.allocs slot).Live ∧ (state.allocs slot).object = object

/-- The slot `hs_slot` hands out. -/
def FirstVacant (state : State) (slot : Fin maxObjects) : Prop :=
  (state.allocs slot).Vacant ∧ ∀ earlier < slot, (state.allocs earlier).Live

/-- The scope of the slot is open. -/
def Encloses (state : State) (allocation : HsAlloc) : Prop :=
  allocation.freed = false ∧ 1 ≤ allocation.frame ∧
    allocation.frame ≤ state.currentFrame.val ∧
    ∃ frame : Fin maxFrames, frame.val = allocation.frame ∧
      allocation.scope ≤ state.frameScopes frame

@[simp] theorem put_same (state : State) (slot : Fin maxObjects) (entry : HsAlloc) :
    (state.put slot entry).allocs slot = entry := by
  simp [put]

theorem put_other {state : State} {slot other : Fin maxObjects} (entry : HsAlloc)
    (different : other ≠ slot) : (state.put slot entry).allocs other = state.allocs other := by
  simp [put, different]

@[simp] theorem put_currentFrame (state : State) (slot : Fin maxObjects) (entry : HsAlloc) :
    (state.put slot entry).currentFrame = state.currentFrame := rfl

@[simp] theorem put_frameScopes (state : State) (slot : Fin maxObjects) (entry : HsAlloc) :
    (state.put slot entry).frameScopes = state.frameScopes := rfl

theorem forall_put {state : State} {slot : Fin maxObjects} {entry : HsAlloc}
    {property : HsAlloc → Prop} (here : property entry)
    (elsewhere : ∀ other, property (state.allocs other)) (other : Fin maxObjects) :
    property ((state.put slot entry).allocs other) := by
  by_cases same : other = slot
  · subst same
    rwa [put_same]
  · rw [put_other entry same]
    exact elsewhere other

theorem live_put {state : State} {slot : Fin maxObjects} {entry : HsAlloc} {object : Object} :
    (state.put slot entry).Live object ↔
      (entry.Live ∧ entry.object = object) ∨
      ∃ other, other ≠ slot ∧ (state.allocs other).Live ∧ (state.allocs other).object = object := by
  constructor
  · rintro ⟨other, live, same⟩
    by_cases here : other = slot
    · subst here
      rw [put_same] at live same
      exact .inl ⟨live, same⟩
    · rw [put_other entry here] at live same
      exact .inr ⟨other, here, live, same⟩
  · rintro (⟨live, same⟩ | ⟨other, different, live, same⟩)
    · exact ⟨slot, by simpa using live, by simpa using same⟩
    · exact ⟨other, by rwa [put_other entry different], by rwa [put_other entry different]⟩

section
variable {state after : State} {ends : HsAlloc → Prop} [DecidablePred ends]

theorem swept_or (swept : after.allocs = (state.sweep ends).allocs) (slot : Fin maxObjects) :
    (ends (state.allocs slot) ∧ after.allocs slot = (state.allocs slot).clear) ∨
      (¬ends (state.allocs slot) ∧ after.allocs slot = state.allocs slot) := by
  rw [swept]
  by_cases ended : ends (state.allocs slot)
  · exact .inl ⟨ended, if_pos ended⟩
  · exact .inr ⟨ended, if_neg ended⟩

theorem live_swept (swept : after.allocs = (state.sweep ends).allocs) {slot : Fin maxObjects}
    (live : (after.allocs slot).Live) :
    ¬ends (state.allocs slot) ∧ after.allocs slot = state.allocs slot := by
  rcases swept_or swept slot with ⟨_, cleared⟩ | kept
  · rw [cleared] at live
    exact absurd live (HsAlloc.not_live_clear _)
  · exact kept

theorem live_sweep (swept : after.allocs = (state.sweep ends).allocs) {object : Object} :
    after.Live object ↔ ∃ slot, ¬ends (state.allocs slot) ∧ (state.allocs slot).Live ∧
      (state.allocs slot).object = object := by
  constructor
  · rintro ⟨slot, live, same⟩
    obtain ⟨kept, unchanged⟩ := live_swept swept live
    rw [unchanged] at live same
    exact ⟨slot, kept, live, same⟩
  · rintro ⟨slot, kept, live, same⟩
    rcases swept_or swept slot with ⟨ended, _⟩ | ⟨_, unchanged⟩
    · exact absurd ended kept
    · exact ⟨slot, by rwa [unchanged], by rwa [unchanged]⟩

end

theorem live_put_vacant {state : State} {slot : Fin maxObjects} {entry : HsAlloc}
    {object : Object} (vacant : (state.allocs slot).Vacant) (live : entry.Live) :
    (state.put slot entry).Live object ↔ object = entry.object ∨ state.Live object := by
  rw [live_put]
  constructor
  · rintro (⟨_, same⟩ | ⟨other, _, otherLive, same⟩)
    · exact .inl same.symm
    · exact .inr ⟨other, otherLive, same⟩
  · rintro (rfl | ⟨other, otherLive, same⟩)
    · exact .inl ⟨live, rfl⟩
    · refine .inr ⟨other, ?_, otherLive, same⟩
      rintro rfl
      exact HsAlloc.not_vacant_iff.mpr otherLive vacant

end State

/-- The registry keeps one live slot for each object, and stacked objects in open scopes only. -/
structure Disciplined (state : State) : Prop where
  unique : ∀ left right, (state.allocs left).Live → (state.allocs right).Live →
    (state.allocs left).key = (state.allocs right).key → left = right
  sized : ∀ slot, (state.allocs slot).Live → 0 < (state.allocs slot).size
  grounded : ∀ slot, (state.allocs slot).Live → (state.allocs slot).Grounded
  stacked : ∀ slot, (state.allocs slot).Stacked → state.Encloses (state.allocs slot)

theorem disciplined_initial : Disciplined State.initial where
  unique _ _ live := absurd rfl live.1
  sized _ live := absurd rfl live.1
  grounded _ live := absurd rfl live.1
  stacked _ stacked := absurd rfl stacked.1

namespace Disciplined
variable {state : State} (disciplined : Disciplined state)
include disciplined

theorem put {slot : Fin maxObjects} {entry : HsAlloc}
    (fresh : entry.Live → ∀ other, other ≠ slot → (state.allocs other).Live →
      (state.allocs other).key ≠ entry.key)
    (sized : entry.Live → 0 < entry.size) (grounded : entry.Live → entry.Grounded)
    (stacked : entry.Stacked → state.Encloses entry) : Disciplined (state.put slot entry) where
  unique left right leftLive rightLive same := by
    by_cases leftHere : left = slot <;> by_cases rightHere : right = slot
    · exact leftHere.trans rightHere.symm
    · subst leftHere
      rw [State.put_same] at leftLive same
      rw [State.put_other entry rightHere] at rightLive same
      exact absurd same.symm (fresh leftLive right rightHere rightLive)
    · subst rightHere
      rw [State.put_same] at rightLive same
      rw [State.put_other entry leftHere] at leftLive same
      exact absurd same (fresh rightLive left leftHere leftLive)
    · rw [State.put_other entry leftHere] at leftLive same
      rw [State.put_other entry rightHere] at rightLive same
      exact disciplined.unique left right leftLive rightLive same
  sized := @State.forall_put state slot entry (fun held => held.Live → 0 < held.size)
    sized disciplined.sized
  grounded := @State.forall_put state slot entry (fun held => held.Live → held.Grounded)
    grounded disciplined.grounded
  stacked := @State.forall_put state slot entry (fun held => held.Stacked → state.Encloses held)
    stacked disciplined.stacked

theorem sweep {after : State} {ends : HsAlloc → Prop} [DecidablePred ends]
    (swept : after.allocs = (state.sweep ends).allocs)
    (kept : ∀ slot, (state.allocs slot).Stacked → ¬ends (state.allocs slot) →
      after.Encloses (state.allocs slot)) : Disciplined after where
  unique left right leftLive rightLive same := by
    have leftKept := (State.live_swept swept leftLive).2
    have rightKept := (State.live_swept swept rightLive).2
    rw [leftKept] at leftLive same
    rw [rightKept] at rightLive same
    exact disciplined.unique left right leftLive rightLive same
  sized slot live := by
    have unchanged := (State.live_swept swept live).2
    rw [unchanged] at live ⊢
    exact disciplined.sized slot live
  grounded slot live := by
    have unchanged := (State.live_swept swept live).2
    rw [unchanged] at live ⊢
    exact disciplined.grounded slot live
  stacked slot inFrame := by
    rcases State.swept_or swept slot with ⟨_, cleared⟩ | ⟨notEnded, unchanged⟩
    · rw [cleared] at inFrame
      exact absurd inFrame (HsAlloc.not_stacked_clear _)
    · rw [unchanged] at inFrame ⊢
      exact kept slot inFrame notEnded

/-- The objects whose registration ends are those with the key of the slot. -/
theorem live_put_replaced (gone : Object → Prop) {slot : Fin maxObjects} {entry : HsAlloc}
    {object : Object} (live : (state.allocs slot).Live)
    (identified : ∀ other, (state.allocs other).Live →
      (gone (state.allocs other).object ↔
        (state.allocs other).key = (state.allocs slot).key)) :
    (state.put slot entry).Live object ↔
      (entry.Live ∧ entry.object = object) ∨ (state.Live object ∧ ¬gone object) := by
  rw [State.live_put]
  apply or_congr_right
  constructor
  · rintro ⟨other, different, otherLive, rfl⟩
    refine ⟨⟨other, otherLive, rfl⟩, fun isGone => different ?_⟩
    exact disciplined.unique other slot otherLive live ((identified other otherLive).mp isGone)
  · rintro ⟨⟨other, otherLive, rfl⟩, kept⟩
    refine ⟨other, ?_, otherLive, rfl⟩
    rintro rfl
    exact kept ((identified other otherLive).mpr rfl)

end Disciplined

end HitSimple.Registry

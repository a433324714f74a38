import HitSimple.Registry.Discipline

namespace HitSimple.Registry
open Slots Function

section
variable {state after : State}

theorem hsFind_eq_some_iff {ptr : Nat} {slot : Fin maxObjects} :
    hsFind state ptr = some slot ↔
      (state.allocs slot).Covers ptr ∧ ∀ earlier < slot, ¬(state.allocs earlier).Covers ptr := by
  rw [hsFind, Fin.find?_eq_some_iff]
  simp only [decide_eq_true_eq, decide_eq_false_iff_not]

theorem hsFindExact_eq_none_iff {ptr : Nat} {kind : HsObjectKind} {frame scope : Nat} :
    hsFindExact state ptr kind frame scope = none ↔
      ∀ slot, ¬(state.allocs slot).IsExact ptr kind frame scope := by
  rw [hsFindExact, Fin.find?_eq_none_iff]
  simp only [decide_eq_false_iff_not]

theorem isExact_of_hsFindExact {ptr : Nat} {kind : HsObjectKind} {frame scope : Nat}
    {slot : Fin maxObjects} (found : hsFindExact state ptr kind frame scope = some slot) :
    (state.allocs slot).IsExact ptr kind frame scope := by
  rw [hsFindExact, Fin.find?_eq_some_iff] at found
  exact of_decide_eq_true found.1

theorem hsFindTemporary_eq_none_iff {frame scope registrationId : Nat} :
    hsFindTemporary state frame scope registrationId = none ↔
      ∀ slot, ¬(state.allocs slot).IsTemporary frame scope registrationId := by
  rw [hsFindTemporary, Fin.find?_eq_none_iff]
  simp only [decide_eq_false_iff_not]

theorem isTemporary_of_hsFindTemporary {frame scope registrationId : Nat}
    {slot : Fin maxObjects}
    (found : hsFindTemporary state frame scope registrationId = some slot) :
    (state.allocs slot).IsTemporary frame scope registrationId := by
  rw [hsFindTemporary, Fin.find?_eq_some_iff] at found
  exact of_decide_eq_true found.1

theorem hsSlot_eq_ok {slot : Fin maxObjects} (run : hsSlot state = .ok slot) :
    state.FirstVacant slot := by
  unfold hsSlot at run
  split at run
  · rename_i found
    cases run
    rw [Fin.find?_eq_some_iff] at found
    exact ⟨of_decide_eq_true found.1, fun earlier before =>
      HsAlloc.not_vacant_iff.mp (of_decide_eq_false (found.2 earlier before))⟩
  · cases run

/-- A registration finds its object registered already or takes the first vacant slot. -/
theorem hsRegister_eq_ok {ptr size : Nat} {kind : HsObjectKind} {frame scope : Nat}
    (run : hsRegister state ptr size kind frame scope = .ok after) :
    ptr ≠ 0 ∧ 0 < size ∧
      ((after = state ∧ ∃ slot, (state.allocs slot).IsExact ptr kind frame scope ∧
          (state.allocs slot).size = size) ∨
        ((∀ slot, ¬(state.allocs slot).IsExact ptr kind frame scope) ∧
          ∃ slot, state.FirstVacant slot ∧
            after = state.put slot ⟨ptr, size, frame, scope, 0, kind, false⟩)) := by
  unfold hsRegister at run
  split at run
  · cases run
  rename_i valid
  rw [not_or] at valid
  refine ⟨valid.1, Nat.pos_of_ne_zero valid.2, ?_⟩
  split at run
  · rename_i slot found
    split at run
    · cases run
    · rename_i sameSize
      cases run
      exact .inl ⟨rfl, slot, isExact_of_hsFindExact found, not_not.mp sameSize⟩
  · rename_i missing
    rw [hsFindExact_eq_none_iff] at missing
    cases vacant : hsSlot state with
    | error message =>
        rw [vacant] at run
        cases run
    | ok slot =>
        rw [vacant] at run
        cases run
        exact .inr ⟨missing, slot, hsSlot_eq_ok vacant, rfl⟩

theorem hsFree_eq_ok {ptr : Nat} (run : hsFree state ptr = .ok after) :
    (ptr = 0 ∧ after = state) ∨
      ∃ slot, hsFind state ptr = some slot ∧ (state.allocs slot).Live ∧
        (state.allocs slot).kind = .heap ∧ (state.allocs slot).ptr = ptr ∧
        after = state.put slot { state.allocs slot with freed := true } := by
  unfold hsFree at run
  split at run
  · rename_i null
    cases run
    exact .inl ⟨null, rfl⟩
  rename_i nonnull
  split at run
  · cases run
  · rename_i slot found
    dsimp only at run
    split at run
    · cases run
    rename_i base
    rw [not_or, not_not, not_not] at base
    split at run
    · cases run
    · rename_i kept
      cases run
      exact .inr ⟨slot, found, ⟨by rwa [base.1], Bool.eq_false_iff.mpr kept⟩, base.2, base.1, rfl⟩

theorem hsRealloc_eq_ok {ptr size answer result : Nat} (nonnull : ptr ≠ 0) (sized : size ≠ 0)
    (run : hsRealloc state ptr size answer = .ok (after, result)) :
    answer ≠ 0 ∧
      ∃ slot, hsFind state ptr = some slot ∧ (state.allocs slot).Live ∧
        (state.allocs slot).kind = .heap ∧ (state.allocs slot).ptr = ptr ∧
        after = state.put slot
          { state.allocs slot with
            ptr := answer, size, frame := 0, kind := .heap, freed := false } := by
  unfold hsRealloc at run
  rw [if_neg nonnull, if_neg sized] at run
  split at run
  · cases run
  · rename_i slot found
    dsimp only at run
    split at run
    · cases run
    rename_i base
    rw [not_or, not_or, not_not, not_not] at base
    split at run
    · cases run
    · rename_i answered
      cases run
      exact ⟨answered, slot, found, ⟨by rwa [base.2.1], Bool.eq_false_iff.mpr base.1⟩, base.2.2,
        base.2.1, rfl⟩

/-- A temporary is withdrawn, moved in place or registered in the first vacant slot. -/
theorem hsRegisterTemporary_eq_ok {ptr size registrationId : Nat}
    (run : hsRegisterTemporary state ptr size registrationId = .ok after) :
    state.currentFrame.val ≠ 0 ∧
      ((size = 0 ∧
          ((after = state ∧ ∀ slot, ¬(state.allocs slot).IsTemporary state.currentFrame.val
              state.scope registrationId) ∨
            ∃ slot, (state.allocs slot).IsTemporary state.currentFrame.val state.scope
                registrationId ∧
              after = state.put slot (state.allocs slot).clear)) ∨
        (0 < size ∧ ptr ≠ 0 ∧
          (((∀ slot, ¬(state.allocs slot).IsTemporary state.currentFrame.val state.scope
                registrationId) ∧
              ∃ slot, state.FirstVacant slot ∧ after = state.put slot
                ⟨ptr, size, state.currentFrame.val, state.scope, registrationId, .temporary,
                  false⟩) ∨
            ∃ slot, hsFindTemporary state state.currentFrame.val state.scope registrationId =
                some slot ∧
              after = state.put slot { state.allocs slot with ptr, size }))) := by
  unfold hsRegisterTemporary at run
  split at run
  · cases run
  rename_i framed
  refine ⟨framed, ?_⟩
  dsimp only at run
  split at run
  · rename_i empty
    refine .inl ⟨empty, ?_⟩
    split at run
    · rename_i slot found
      cases run
      exact .inr ⟨slot, isTemporary_of_hsFindTemporary found, rfl⟩
    · rename_i missing
      cases run
      exact .inl ⟨rfl, hsFindTemporary_eq_none_iff.mp missing⟩
  rename_i sized
  split at run
  · cases run
  rename_i nonnull
  refine .inr ⟨Nat.pos_of_ne_zero sized, nonnull, ?_⟩
  split at run
  · rename_i slot found
    cases run
    exact .inr ⟨slot, found, rfl⟩
  · rename_i missing
    cases vacant : hsSlot state with
    | error message =>
        rw [vacant] at run
        cases run
    | ok slot =>
        rw [vacant] at run
        cases run
        exact .inl ⟨hsFindTemporary_eq_none_iff.mp missing, slot, hsSlot_eq_ok vacant, rfl⟩

theorem hsFrameEnter_eq_ok (run : hsFrameEnter state = .ok after) :
    after.allocs = state.allocs ∧ after.currentFrame.val = state.currentFrame.val + 1 ∧
      after.frameScopes = update state.frameScopes after.currentFrame 0 := by
  unfold hsFrameEnter at run
  split at run
  · cases run
    exact ⟨rfl, rfl, rfl⟩
  · cases run

theorem hsFrameExit_eq_ok (run : hsFrameExit state = .ok after) :
    state.currentFrame.val ≠ 0 ∧
      after.allocs = (state.sweep fun allocation =>
        allocation.Stacked ∧ allocation.frame = state.currentFrame.val).allocs ∧
      after.currentFrame.val + 1 = state.currentFrame.val ∧
      after.frameScopes = update state.frameScopes state.currentFrame 0 := by
  unfold hsFrameExit at run
  split at run
  · cases run
  · rename_i framed
    cases run
    exact ⟨framed, rfl, Nat.sub_add_cancel (Nat.pos_of_ne_zero framed), rfl⟩

theorem hsScopeEnter_eq_ok (run : hsScopeEnter state = .ok after) :
    state.currentFrame.val ≠ 0 ∧
      after = { state with
        frameScopes := update state.frameScopes state.currentFrame (state.scope + 1) } := by
  unfold hsScopeEnter at run
  split at run
  · cases run
  rename_i framed
  split at run
  · cases run
  · cases run
    exact ⟨framed, rfl⟩

theorem hsScopeExit_eq_ok (run : hsScopeExit state = .ok after) :
    state.currentFrame.val ≠ 0 ∧ state.scope ≠ 0 ∧
      after.allocs = (state.sweep fun allocation =>
        allocation.Stacked ∧ allocation.frame = state.currentFrame.val ∧
          allocation.scope = state.scope).allocs ∧
      after.currentFrame = state.currentFrame ∧
      after.frameScopes = update state.frameScopes state.currentFrame (state.scope - 1) := by
  unfold hsScopeExit at run
  split at run
  · cases run
  · rename_i inner
    rw [not_or] at inner
    cases run
    exact ⟨inner.1, inner.2, rfl, rfl, rfl⟩

end

end HitSimple.Registry

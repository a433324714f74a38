import HitSimple.Registry.Runs

namespace HitSimple.Registry
open Slots Function

/-- The host allocator and the stack hand out ranges that meet no live object, except the object
that the call itself registers again or replaces. -/
def Honest (life : Lifetimes) : Call → Prop
  | .alloc size answer => ∀ object, life.Live object → object.region.Separate ⟨answer, size⟩
  | .calloc count size answer =>
      ∀ object, life.Live object → object.region.Separate ⟨answer, count * size⟩
  | .realloc ptr size answer =>
      ∀ object, life.Live object → ¬(object.owner = .heap ∧ object.region.base = ptr) →
        object.region.Separate ⟨answer, size⟩
  | .registerLocal ptr size =>
      ∀ frame scope, life.Innermost frame scope → ∀ object, life.Live object →
        object ≠ ⟨.scope frame scope .local, ⟨ptr, size⟩⟩ → object.region.Separate ⟨ptr, size⟩
  | .registerTemporary ptr size registrationId =>
      ∀ frame scope, life.Innermost frame scope → ∀ object, life.Live object →
        object.owner ≠ .scope frame scope (.temporary registrationId) →
          object.region.Separate ⟨ptr, size⟩
  | .registerStatic ptr size =>
      ∀ object, life.Live object → object ≠ ⟨.static, ⟨ptr, size⟩⟩ →
        object.region.Separate ⟨ptr, size⟩
  | _ => True

namespace State

/-- The slot that the call changes in place, with its new range. -/
def inPlace (state : State) : Call → Option (Fin maxObjects × Region)
  | .realloc ptr size answer =>
      if ptr = 0 ∨ size = 0 then none
      else (hsFind state ptr).map fun slot => (slot, ⟨answer, size⟩)
  | .registerTemporary ptr size registrationId =>
      if size = 0 then none
      else (hsFindTemporary state state.currentFrame.val state.scope registrationId).map
        fun slot => (slot, ⟨ptr, size⟩)
  | _ => none

/-- A range changed in place meets no freed entry of an earlier slot. -/
def Unobstructed (state : State) (call : Call) : Prop :=
  ∀ slot region, state.inPlace call = some (slot, region) →
    ∀ earlier < slot, (state.allocs earlier).ptr ≠ 0 → (state.allocs earlier).freed = true →
      (state.allocs earlier).region.Separate region

/-- Every live object passes the checks of its ranges and can be freed and reallocated. -/
def Complete (state : State) (life : Lifetimes) : Prop :=
  ∀ object, life.Live object →
    (∀ ptr size, object.region.base ≤ ptr →
      ptr + size ≤ object.region.base + object.region.length →
      hsCheckLoad state ptr size = .ok () ∧ hsCheckStore state ptr size = .ok ()) ∧
    (object.owner = .heap →
      (∃ after, hsFree state object.region.base = .ok after) ∧
      ∀ size answer, answer ≠ 0 →
        ∃ after, hsRealloc state object.region.base size answer = .ok after)

/-- No range of an earlier slot meets the range of a live one. -/
def Covered (state : State) : Prop :=
  ∀ slot, (state.allocs slot).Live → ∀ earlier < slot, (state.allocs earlier).ptr ≠ 0 →
    (state.allocs earlier).region.Separate (state.allocs slot).region

def Apart (state : State) : Prop :=
  ∀ left right, left ≠ right → (state.allocs left).Live → (state.allocs right).Live →
    (state.allocs left).region.Separate (state.allocs right).region

/-- The range meets no live slot other than the given one. -/
def Free (state : State) (slot : Fin maxObjects) (region : Region) : Prop :=
  ∀ other, other ≠ slot → (state.allocs other).Live →
    (state.allocs other).region.Separate region

end State

/-- What a call does to the table, with the slot it changes in place. -/
inductive Change (state : State) : Option (Fin maxObjects × Region) → State → Prop where
  | thin {after : State}
      (kept : ∀ slot, after.allocs slot = state.allocs slot ∨ (after.allocs slot).ptr = 0) :
      Change state none after
  | place {slot : Fin maxObjects} {entry : HsAlloc} (vacant : state.FirstVacant slot)
      (live : entry.Live) (free : state.Free slot entry.region) :
      Change state none (state.put slot entry)
  | move {slot : Fin maxObjects} {entry : HsAlloc} (present : (state.allocs slot).Live)
      (live : entry.Live) (free : state.Free slot entry.region) :
      Change state (some (slot, entry.region)) (state.put slot entry)
  | release {slot : Fin maxObjects} (present : (state.allocs slot).Live) :
      Change state none (state.put slot { state.allocs slot with freed := true })

namespace Change
variable {state after : State} {target : Option (Fin maxObjects × Region)}

theorem apart (change : Change state target after) (apart : state.Apart) : after.Apart := by
  have put : ∀ {slot : Fin maxObjects} {entry : HsAlloc},
      (entry.Live → state.Free slot entry.region) → (state.put slot entry).Apart := by
    intro slot entry free left right different leftLive rightLive
    by_cases leftHere : left = slot <;> by_cases rightHere : right = slot
    · exact absurd (leftHere.trans rightHere.symm) different
    · subst leftHere
      rw [State.put_same] at leftLive ⊢
      rw [State.put_other entry rightHere] at rightLive ⊢
      exact (free leftLive right rightHere rightLive).symm
    · subst rightHere
      rw [State.put_same] at rightLive ⊢
      rw [State.put_other entry leftHere] at leftLive ⊢
      exact free rightLive left leftHere leftLive
    · rw [State.put_other entry leftHere] at leftLive ⊢
      rw [State.put_other entry rightHere] at rightLive ⊢
      exact apart left right different leftLive rightLive
  cases change with
  | thin kept =>
      intro left right different leftLive rightLive
      rcases kept left with leftKept | leftNull
      · rcases kept right with rightKept | rightNull
        · rw [leftKept] at leftLive ⊢
          rw [rightKept] at rightLive ⊢
          exact apart left right different leftLive rightLive
        · exact absurd rightNull rightLive.1
      · exact absurd leftNull leftLive.1
  | place vacant live free => exact put fun _ => free
  | move present live free => exact put fun _ => free
  | release present =>
      apply put
      rintro ⟨_, freed⟩
      cases freed

theorem covered_put {slot : Fin maxObjects} {entry : HsAlloc} (covered : state.Covered)
    (earlier : entry.Live → ∀ other < slot, (state.allocs other).ptr ≠ 0 →
      (state.allocs other).region.Separate entry.region)
    (later : ∀ other, slot < other → (state.allocs other).Live →
      entry.region.Separate (state.allocs other).region) : (state.put slot entry).Covered := by
  intro here live before low nonnull
  by_cases same : here = slot
  · subst same
    rw [State.put_same] at live ⊢
    rw [State.put_other entry low.ne] at nonnull ⊢
    exact earlier live before low nonnull
  · rw [State.put_other entry same] at live ⊢
    by_cases first : before = slot
    · subst first
      rw [State.put_same]
      exact later here low live
    · rw [State.put_other entry first] at nonnull ⊢
      exact covered here live before low nonnull

/-- A change keeps live objects in front of the entries that meet them just when the range it
changes in place meets no freed entry of an earlier slot. -/
theorem covered_iff (change : Change state target after) (covered : state.Covered) :
    after.Covered ↔ ∀ slot region, target = some (slot, region) →
      ∀ earlier < slot, (state.allocs earlier).ptr ≠ 0 → (state.allocs earlier).freed = true →
        (state.allocs earlier).region.Separate region := by
  cases change with
  | thin kept =>
      refine iff_of_true ?_ nofun
      intro slot live earlier before nonnull
      rcases kept slot with same | null
      · rcases kept earlier with sameEarlier | nullEarlier
        · rw [same] at live ⊢
          rw [sameEarlier] at nonnull ⊢
          exact covered slot live earlier before nonnull
        · exact absurd nullEarlier nonnull
      · exact absurd null live.1
  | place vacant live free =>
      refine iff_of_true (covered_put covered ?_ ?_) nofun
      · exact fun _ other before _ => free other before.ne (vacant.2 other before)
      · exact fun other after' otherLive => (free other after'.ne' otherLive).symm
  | @move slot entry present live free =>
      constructor
      · rintro stays _ _ ⟨rfl, rfl⟩ earlier before nonnull _
        have separate := stays slot (by rwa [State.put_same]) earlier before
        rw [State.put_same, State.put_other entry before.ne] at separate
        exact separate nonnull
      · intro unobstructed
        apply covered_put covered
        · intro _ other before nonnull
          by_cases freed : (state.allocs other).freed = true
          · exact unobstructed slot _ rfl other before nonnull freed
          · exact free other before.ne ⟨nonnull, Bool.eq_false_iff.mpr freed⟩
        · exact fun other after' otherLive => (free other after'.ne' otherLive).symm
  | @release slot present =>
      refine iff_of_true (covered_put covered ?_ ?_) nofun
      · rintro ⟨_, freed⟩
        cases freed
      · exact fun other after' otherLive => covered other otherLive slot after' present.1

end Change

namespace Consistent
variable {state after : State} {life : Lifetimes} (consistent : Consistent state life)
include consistent

theorem change_register {ptr size : Nat} {kind : HsObjectKind} {frame scope : Nat}
    (lasting : kind ≠ .temporary)
    (grounded : kind = .heap ∨ kind = .static → frame = 0 ∧ scope = 0)
    (separate : ∀ object, life.Live object →
      object ≠ (⟨ptr, size, frame, scope, 0, kind, false⟩ : HsAlloc).object →
        object.region.Separate ⟨ptr, size⟩)
    (run : hsRegister state ptr size kind frame scope = .ok after) : Change state none after := by
  obtain ⟨nonnull, _, ⟨rfl, _⟩ | ⟨missing, slot, vacant, rfl⟩⟩ := hsRegister_eq_ok run
  · exact .thin fun _ => .inl rfl
  · refine .place vacant ⟨nonnull, rfl⟩ fun other _ live => ?_
    apply separate (state.allocs other).object ((consistent.mirrors.objects _).mpr ⟨other, live, rfl⟩)
    intro same
    apply missing other
    have base : (state.allocs other).ptr = ptr := congrArg (fun object => object.region.base) same
    have owner := congrArg Object.owner same
    have sameKind : (state.allocs other).kind = kind := by
      cases otherKind : (state.allocs other).kind <;> cases kind <;>
        simp_all [HsAlloc.object, HsAlloc.owner]
    have sameKey : (state.allocs other).key =
        (⟨ptr, size, frame, scope, 0, kind, false⟩ : HsAlloc).key := by
      rw [HsAlloc.key, HsAlloc.key, base, sameKind]
      exact congrArg (·, _) owner
    exact HsAlloc.isExact_of_key live sameKey lasting
      (consistent.disciplined.grounded other live) grounded

theorem change_alloc {size answer result : Nat}
    (separate : ∀ object, life.Live object → object.region.Separate ⟨answer, size⟩)
    (run : hsAlloc state size answer = .ok (after, result)) : Change state none after := by
  unfold hsAlloc at run
  split at run
  · cases run
    exact .thin fun _ => .inl rfl
  split at run
  · cases run
  cases registered : hsRegister state answer size .heap 0 0 with
  | error message =>
      rw [registered] at run
      cases run
  | ok next =>
      rw [registered] at run
      cases run
      exact consistent.change_register (by decide) (fun _ => ⟨rfl, rfl⟩)
        (fun object live _ => separate object live) registered

theorem change_calloc {count size answer result : Nat}
    (separate : ∀ object, life.Live object → object.region.Separate ⟨answer, count * size⟩)
    (run : hsCalloc state count size answer = .ok (after, result)) : Change state none after := by
  unfold hsCalloc at run
  split at run
  · cases run
  split at run
  · cases run
    exact .thin fun _ => .inl rfl
  split at run
  · cases run
  cases registered : hsRegister state answer (count * size) .heap 0 0 with
  | error message =>
      rw [registered] at run
      cases run
  | ok next =>
      rw [registered] at run
      cases run
      exact consistent.change_register (by decide) (fun _ => ⟨rfl, rfl⟩)
        (fun object live _ => separate object live) registered

omit consistent in
theorem change_free {ptr : Nat} (run : hsFree state ptr = .ok after) :
    Change state none after := by
  rcases hsFree_eq_ok run with ⟨_, rfl⟩ | ⟨slot, _, live, _, _, rfl⟩
  · exact .thin fun _ => .inl rfl
  · exact .release live

theorem change_realloc {ptr size answer result : Nat}
    (separate : ∀ object, life.Live object → ¬(object.owner = .heap ∧ object.region.base = ptr) →
      object.region.Separate ⟨answer, size⟩)
    (run : hsRealloc state ptr size answer = .ok (after, result)) :
    Change state (state.inPlace (.realloc ptr size answer)) after := by
  by_cases null : ptr = 0
  · subst null
    apply consistent.change_alloc _ (show hsAlloc state size answer = .ok (after, result) from run)
    intro object live
    apply separate object live
    rintro ⟨_, base⟩
    obtain ⟨slot, present, rfl⟩ := (consistent.mirrors.objects object).mp live
    exact present.1 base
  by_cases empty : size = 0
  · unfold hsRealloc at run
    rw [if_neg null, if_pos empty] at run
    rw [State.inPlace, if_pos (.inr empty)]
    cases released : hsFree state ptr with
    | error message =>
        rw [released] at run
        cases run
    | ok next =>
        rw [released] at run
        cases run
        exact change_free released
  obtain ⟨answered, slot, found, live, kind, rfl, rfl⟩ := hsRealloc_eq_ok null empty run
  have target : state.inPlace (.realloc (state.allocs slot).ptr size answer) =
      some (slot, ⟨answer, size⟩) := by
    rw [State.inPlace, if_neg (not_or.mpr ⟨null, empty⟩), found]
    rfl
  rw [target]
  refine @Change.move state slot
    { state.allocs slot with ptr := answer, size, frame := 0, kind := .heap, freed := false }
    live ⟨answered, rfl⟩ fun other different otherLive => ?_
  apply separate (state.allocs other).object
    ((consistent.mirrors.objects _).mpr ⟨other, otherLive, rfl⟩)
  intro gone
  exact different (consistent.disciplined.unique other slot otherLive live
    ((heap_gone_iff kind).mp gone))

theorem change_registerTemporary {ptr size registrationId : Nat}
    (separate : ∀ object, life.Live object →
      object.owner ≠ .scope state.currentFrame.val state.scope (.temporary registrationId) →
        object.region.Separate ⟨ptr, size⟩)
    (run : hsRegisterTemporary state ptr size registrationId = .ok after) :
    Change state (state.inPlace (.registerTemporary ptr size registrationId)) after := by
  have mirrored : ∀ slot, (state.allocs slot).Live → life.Live (state.allocs slot).object :=
    fun slot live => (consistent.mirrors.objects _).mpr ⟨slot, live, rfl⟩
  obtain ⟨framed, ⟨empty, change⟩ | ⟨sized, nonnull, change⟩⟩ := hsRegisterTemporary_eq_ok run
  · rw [State.inPlace, if_pos empty]
    rcases change with ⟨rfl, _⟩ | ⟨slot, _, rfl⟩
    · exact .thin fun _ => .inl rfl
    · refine .thin fun other => ?_
      by_cases here : other = slot
      · subst here
        rw [State.put_same]
        exact .inr rfl
      · exact .inl (State.put_other _ here)
  · rw [State.inPlace, if_neg (Nat.ne_of_gt sized)]
    rcases change with ⟨missing, slot, vacant, rfl⟩ | ⟨slot, found, rfl⟩
    · rw [hsFindTemporary_eq_none_iff.mpr missing]
      refine .place vacant ⟨nonnull, rfl⟩ fun other _ live => separate _ (mirrored other live) ?_
      exact owner_ne_of_missing missing ⟨other, live, rfl⟩
    · have temporary := isTemporary_of_hsFindTemporary found
      have present := (HsAlloc.isTemporary_iff.mp temporary).1
      rw [found]
      refine @Change.move state slot { state.allocs slot with ptr, size } present
        ⟨nonnull, present.2⟩ fun other different live =>
          separate _ (mirrored other live) fun same => different ?_
      exact consistent.disciplined.unique other slot live present
        ((temporary_gone_iff temporary).mp same)

omit consistent in
theorem change_exitScopes {targetScope : Nat} (fuel : Nat) {state after : State}
    (run : Registry.exitScopes targetScope fuel state = .ok after) (slot : Fin maxObjects) :
    after.allocs slot = state.allocs slot ∨ (after.allocs slot).ptr = 0 := by
  induction fuel generalizing state with
  | zero =>
      cases run
      exact .inl rfl
  | succ fuel ih =>
      rw [Registry.exitScopes] at run
      split at run
      · cases exited : hsScopeExit state with
        | error message =>
            rw [exited] at run
            cases run
        | ok next =>
            rw [exited] at run
            rcases ih run with same | null
            · rw [same]
              rcases State.swept_or (hsScopeExit_eq_ok exited).2.2.1 slot with
                ⟨_, cleared⟩ | ⟨_, kept⟩
              · exact .inr (congrArg HsAlloc.ptr cleared)
              · exact .inl kept
            · exact .inr null
      · cases run
        exact .inl rfl

/-- The effect on the table of a call whose ranges the host hands out honestly. -/
theorem change {call : Call} (honest : Honest life call) (run : state.run call = .ok after) :
    Change state (state.inPlace call) after := by
  cases call with
  | alloc size answer =>
      obtain ⟨result, run⟩ := Result.map_fst_eq_ok run
      exact consistent.change_alloc honest run
  | calloc count size answer =>
      obtain ⟨result, run⟩ := Result.map_fst_eq_ok run
      exact consistent.change_calloc honest run
  | realloc ptr size answer =>
      obtain ⟨result, run⟩ := Result.map_fst_eq_ok run
      exact consistent.change_realloc honest run
  | free ptr =>
      have released : hsFree state ptr = .ok after := run
      exact change_free released
  | frameEnter =>
      have entered : hsFrameEnter state = .ok after := run
      have allocs := (hsFrameEnter_eq_ok entered).1
      exact .thin fun slot => .inl (congrFun allocs slot)
  | frameExit =>
      refine .thin fun slot => ?_
      rcases State.swept_or (hsFrameExit_eq_ok run).2.1 slot with ⟨_, cleared⟩ | ⟨_, kept⟩
      · exact .inr (congrArg HsAlloc.ptr cleared)
      · exact .inl kept
  | scopeEnter =>
      have entered : hsScopeEnter state = .ok after := run
      have allocs := congrArg State.allocs (hsScopeEnter_eq_ok entered).2
      exact .thin fun slot => .inl (congrFun allocs slot)
  | scopeExit =>
      refine .thin fun slot => ?_
      rcases State.swept_or (hsScopeExit_eq_ok run).2.2.1 slot with ⟨_, cleared⟩ | ⟨_, kept⟩
      · exact .inr (congrArg HsAlloc.ptr cleared)
      · exact .inl kept
  | scopeExitTo targetScope =>
      unfold State.run hsScopeExitTo at run
      dsimp only at run
      split at run
      · cases run
      · exact .thin (change_exitScopes _ run)
  | registerLocal ptr size =>
      unfold State.run hsRegisterLocal at run
      dsimp only at run
      split at run
      · cases run
      rename_i framed
      refine consistent.change_register ?_ ?_ ?_ run
      · decide
      · simp
      · exact honest _ _ (consistent.mirrors.innermost framed)
  | registerTemporary ptr size registrationId =>
      have registered : hsRegisterTemporary state ptr size registrationId = .ok after := run
      have framed := (hsRegisterTemporary_eq_ok registered).1
      exact consistent.change_registerTemporary
        (honest _ _ (consistent.mirrors.innermost framed)) registered
  | registerStatic ptr size =>
      have registered : hsRegister state ptr size .static 0 0 = .ok after := run
      refine consistent.change_register ?_ (fun _ => ⟨rfl, rfl⟩) ?_ registered
      · decide
      · exact honest

end Consistent

namespace HsAlloc

/-- The addresses that `hs_find` finds in the slot. -/
def range (allocation : HsAlloc) : Region :=
  if allocation.ptr = 0 then ⟨0, 0⟩ else allocation.region

theorem covers_iff {allocation : HsAlloc} {address : Nat} :
    allocation.Covers address ↔ allocation.range.Contains address := by
  unfold Covers range
  split
  · rename_i null
    simp [null, Region.Contains]
  · rename_i nonnull
    exact and_iff_right nonnull

theorem range_of_nonnull {allocation : HsAlloc} (nonnull : allocation.ptr ≠ 0) :
    allocation.range = allocation.region :=
  if_neg nonnull

theorem range_separate_iff {allocation : HsAlloc} {region : Region} :
    allocation.range.Separate region ↔
      (allocation.ptr ≠ 0 → allocation.region.Separate region) := by
  unfold range
  split
  · rename_i null
    exact iff_of_true (Region.separate_iff.mpr (.inl rfl)) fun nonnull => absurd null nonnull
  · rename_i nonnull
    exact ⟨fun separate _ => separate, fun separate => separate nonnull⟩

end HsAlloc

theorem hsFind_eq_firstCovering (state : State) (ptr : Nat) :
    hsFind state ptr = firstCovering (fun slot => (state.allocs slot).range) ptr := by
  unfold hsFind firstCovering
  simp only [HsAlloc.covers_iff]

/-- No earlier entry shadows a live one just when every address of a live one leads to it. -/
theorem State.covered_iff_reaches {state : State} :
    state.Covered ↔ ∀ slot, (state.allocs slot).Live → ∀ address,
      (state.allocs slot).region.Contains address → hsFind state address = some slot := by
  apply forall_congr'
  intro slot
  apply imp_congr_right
  intro live
  have reaches := @firstCovering_reaches_iff _ (fun slot => (state.allocs slot).range) slot
  simp only [HsAlloc.range_of_nonnull live.1, HsAlloc.range_separate_iff] at reaches
  simp only [hsFind_eq_firstCovering]
  exact reaches.symm

theorem hsCheck_of_find {state : State} {slot : Fin maxObjects} {ptr size : Nat}
    (message : String) (found : hsFind state ptr = some slot) (live : (state.allocs slot).Live)
    (inside : ptr + size ≤ (state.allocs slot).ptr + (state.allocs slot).size) :
    hsCheck state ptr size message = .ok () := by
  obtain ⟨nonnull, low, high⟩ := (hsFind_eq_some_iff.mp found).1
  unfold hsCheck
  split
  · rfl
  rw [if_neg (by omega), found]
  dsimp only
  rw [live.2, if_neg (by decide), if_neg (by omega)]

namespace Consistent
variable {state : State} {life : Lifetimes} (consistent : Consistent state life)
include consistent

theorem complete_of_covered (covered : state.Covered) : state.Complete life := by
  have reaches := State.covered_iff_reaches.mp covered
  intro object alive
  obtain ⟨slot, live, rfl⟩ := (consistent.mirrors.objects object).mp alive
  refine ⟨fun ptr size low high => ?_, fun heap => ?_⟩
  · by_cases empty : size = 0
    · subst empty
      exact ⟨rfl, rfl⟩
    · dsimp only [HsAlloc.object, HsAlloc.region] at low high
      have found := reaches slot live ptr (Region.contains_iff.mpr
        ⟨low, Nat.lt_of_lt_of_le (Nat.lt_add_of_pos_right (Nat.pos_of_ne_zero empty)) high⟩)
      exact ⟨hsCheck_of_find _ found live high, hsCheck_of_find _ found live high⟩
  · have kind := HsAlloc.owner_heap_iff.mp heap
    have sized := consistent.disciplined.sized slot live
    have found : hsFind state (state.allocs slot).ptr = some slot :=
      reaches slot live _ (Region.contains_base.mpr sized)
    have freed : ∃ after, hsFree state (state.allocs slot).ptr = .ok after := by
      refine ⟨state.put slot { state.allocs slot with freed := true }, ?_⟩
      unfold hsFree
      rw [if_neg live.1, found]
      dsimp only
      rw [if_neg (by simp [kind]), live.2, if_neg (by decide)]
    refine ⟨freed, fun size answer answered => ?_⟩
    change ∃ after, hsRealloc state (state.allocs slot).ptr size answer = .ok after
    unfold hsRealloc
    rw [if_neg live.1]
    split
    · obtain ⟨after, released⟩ := freed
      rw [released]
      exact ⟨_, rfl⟩
    · rw [found]
      dsimp only
      rw [live.2]
      simp [kind]

/-- Where every live object passes its checks, no entry shadows a live one. -/
theorem covered_of_complete (apart : state.Apart) (complete : state.Complete life) :
    state.Covered := by
  rw [State.covered_iff_reaches]
  intro slot live address inside
  have alive := (consistent.mirrors.objects _).mpr ⟨slot, live, rfl⟩
  have bounds := Region.contains_iff.mp inside
  obtain ⟨loaded, _⟩ := (complete _ alive).1 address 1 bounds.1 bounds.2
  obtain ⟨found, reached, foundLive, covers⟩ := hsCheck_eq_ok Nat.one_ne_zero loaded
  have within := covers address le_rfl (Nat.lt_succ_self address)
  by_cases same : found = slot
  · subst same
    exact reached
  · exact absurd inside (apart found slot same foundLive live address within)

/-- What honest calls keep apart from shadowing. -/
theorem distinct_of_honest {call : Call} (honest : Honest life call) : Distinct life call := by
  cases call with
  | realloc ptr size answer =>
      intro sized object live owner base
      by_contra other
      obtain ⟨slot, present, rfl⟩ := (consistent.mirrors.objects object).mp live
      have separate := honest _ live fun gone => other gone.2
      exact separate.base_ne (consistent.disciplined.sized slot present)
        (Nat.pos_of_ne_zero sized) base
  | _ => trivial

end Consistent

namespace Run
variable {calls : List Call} {state : State} {life : Lifetimes}

theorem invariant (run : Run Honest calls state life) :
    Consistent state life ∧ state.Apart := by
  induction run with
  | start => exact ⟨consistent_initial, fun _ _ _ live => absurd rfl live.1⟩
  | call earlier admitted step ih =>
      have change := ih.1.change admitted step
      exact ⟨ih.1.step (ih.1.distinct_of_honest admitted) step, change.apart ih.2⟩

theorem complete_iff (run : Run Honest calls state life) :
    state.Complete life ↔ state.Covered :=
  ⟨run.invariant.1.covered_of_complete run.invariant.2, run.invariant.1.complete_of_covered⟩

/-- The same calls lead to the same state. -/
theorem unique {state' : State} {life' : Lifetimes} (run : Run Honest calls state life)
    (other : Run Honest calls state' life') : state = state' ∧ life = life' := by
  induction run generalizing state' life' with
  | start =>
      generalize listed : ([] : List Call) = calls at other
      cases other with
      | start => exact ⟨rfl, rfl⟩
      | call => simp at listed
  | @call calls state after life call earlier admitted step ih =>
      generalize listed : calls ++ [call] = calls' at other
      cases other with
      | start => simp at listed
      | call earlier' admitted' step' =>
          obtain ⟨rfl, same⟩ := List.append_inj' listed rfl
          cases same
          obtain ⟨rfl, rfl⟩ := ih earlier'
          rw [step] at step'
          cases step'
          exact ⟨rfl, rfl⟩

/-- Along a run whose ranges are handed out honestly, every live object passes the checks of its
ranges and can be freed and reallocated in every state just when no call moves an object in place
onto a freed entry of an earlier slot. -/
theorem always_complete_iff (run : Run Honest calls state life) :
    (∀ prior state life, prior <+: calls → Run Honest prior state life →
      state.Complete life) ↔
    ∀ prior call state life, prior ++ [call] <+: calls → Run Honest prior state life →
      state.Unobstructed call := by
  have covers : (∀ prior state life, prior <+: calls → Run Honest prior state life →
      state.Complete life) ↔
      ∀ prior state life, prior <+: calls → Run Honest prior state life → state.Covered :=
    forall₃_congr fun prior state life => imp_congr_right fun _ =>
      forall_congr' fun prefixRun => prefixRun.complete_iff
  rw [covers]
  clear covers
  induction run with
  | start =>
      refine iff_of_true ?_ ?_
      · intro prior state life within prefixRun
        obtain rfl := List.prefix_nil.mp within
        obtain ⟨rfl, rfl⟩ := prefixRun.unique .start
        exact fun _ live => absurd rfl live.1
      · intro prior call _ _ within
        simp at within
  | @call calls state after life call earlier admitted step ih =>
      have whole := earlier.call admitted step
      have change := earlier.invariant.1.change admitted step
      constructor
      · intro covered prior next state' life' within prefixRun
        rcases List.prefix_concat_iff.mp within with last | within
        · obtain ⟨rfl, same⟩ := List.append_inj' last rfl
          cases same
          obtain ⟨rfl, rfl⟩ := prefixRun.unique earlier
          have before := covered _ _ _ (List.prefix_append _ _) earlier
          exact (change.covered_iff before).mp (covered _ _ _ (List.prefix_refl _) whole)
        · refine ih.mp ?_ prior next state' life' within prefixRun
          exact fun prior _ _ within =>
            covered prior _ _ (within.trans (List.prefix_append _ _))
      · intro unobstructed
        have before := ih.mpr fun prior next _ _ within =>
          unobstructed prior next _ _ (within.trans (List.prefix_append _ _))
        intro prior state' life' within prefixRun
        rcases List.prefix_concat_iff.mp within with rfl | within
        · obtain ⟨rfl, rfl⟩ := prefixRun.unique whole
          exact (change.covered_iff (before _ _ _ (List.prefix_refl _) earlier)).mpr
            (unobstructed _ _ _ _ (List.prefix_refl _) earlier)
        · exact before prior state' life' within prefixRun

end Run

theorem Lifetimes.not_live_initial (object : Object) : ¬Lifetimes.initial.Live object := by
  rw [consistent_initial.mirrors.objects]
  rintro ⟨slot, present, _⟩
  exact present.1 rfl

theorem eq_error_of_message {α : Type} {result : Result α} {message : String}
    (failed : (match result with | .error text => decide (text = message) | .ok _ => false) = true) :
    result = .error message := by
  cases result with
  | error text => rw [of_decide_eq_true failed]
  | ok value => cases failed

set_option maxRecDepth 20000 in
theorem run_two_allocations :
    ∃ state, Run Honest [.alloc 16 4096, .alloc 16 8192, .free 4096] state
        (((Lifetimes.initial.allocate ⟨4096, 16⟩).allocate ⟨8192, 16⟩).release 4096) ∧
      (∃ after, state.run (.realloc 8192 16 4096) = .ok after ∧
        hsCheckLoad after 4096 1 = .error "invalid checked load" ∧
        hsFree after 4096 = .error "double free") := by
  have first : Run Honest [.alloc 16 4096] _ _ :=
    .call .start (fun object live => absurd live (Lifetimes.not_live_initial object))
      (eq_ok_of_isOk (by decide +kernel))
  have honest : Honest (Lifetimes.initial.allocate ⟨4096, 16⟩) (.alloc 16 8192) := by
    intro object live
    rcases Lifetimes.live_allocate.mp live with rfl | live
    · decide
    · exact absurd live (Lifetimes.not_live_initial object)
  have second : Run Honest [.alloc 16 4096, .alloc 16 8192] _ _ :=
    first.call honest (eq_ok_of_isOk (by decide +kernel))
  have third : Run Honest [.alloc 16 4096, .alloc 16 8192, .free 4096] _ _ :=
    second.call trivial (eq_ok_of_isOk (by decide +kernel))
  exact ⟨_, third, _, eq_ok_of_isOk (by decide +kernel), eq_error_of_message (by decide +kernel),
    eq_error_of_message (by decide +kernel)⟩

theorem always_complete_at_two_allocations :
    ∃ state life, Run Honest [.alloc 16 4096, .alloc 16 8192, .free 4096] state life ∧
      state.Complete life := by
  obtain ⟨state, run, _⟩ := run_two_allocations
  refine ⟨state, _, run, run.always_complete_iff.mpr ?_ _ _ _ (List.prefix_refl _) run⟩
  intro prior call _ _ within _ slot region target
  have member : call ∈ [Call.alloc 16 4096, .alloc 16 8192, .free 4096] :=
    within.subset (List.mem_append_right _ (List.mem_singleton_self _))
  simp only [List.mem_cons, List.not_mem_nil, or_false] at member
  rcases member with rfl | rfl | rfl <;> cases target

/-- A reallocation in place onto a range freed before leaves the live object shadowed by the
freed entry. -/
theorem realloc_shadowed :
    ∃ calls state life, Run Honest calls state life ∧ life.Live ⟨.heap, ⟨4096, 16⟩⟩ ∧
      hsCheckLoad state 4096 1 = .error "invalid checked load" ∧
      hsFree state 4096 = .error "double free" := by
  obtain ⟨state, run, after, step, loaded, freed⟩ := run_two_allocations
  have honest : Honest
      (((Lifetimes.initial.allocate ⟨4096, 16⟩).allocate ⟨8192, 16⟩).release 4096)
      (.realloc 8192 16 4096) := by
    intro object live other
    obtain ⟨live, kept⟩ := Lifetimes.live_release.mp live
    rcases Lifetimes.live_allocate.mp live with rfl | live
    · exact absurd ⟨rfl, rfl⟩ other
    rcases Lifetimes.live_allocate.mp live with rfl | live
    · exact absurd ⟨rfl, rfl⟩ kept
    · exact absurd live (Lifetimes.not_live_initial object)
  exact ⟨_, after, _, run.call honest step, Lifetimes.live_allocate.mpr (.inl rfl), loaded, freed⟩

end HitSimple.Registry

import HitSimple.Registry.Operations

namespace HitSimple.Registry
open Slots Function

/-- The numbers of open frames and of open scopes in each. -/
def Lifetimes.shape (life : Lifetimes) : Nat × (Nat → Option Nat) :=
  (life.frames.length, fun frame => (level life.frames frame).map List.length)

theorem Lifetimes.shape_inScope (life : Lifetimes) (change : Set Binding → Set Binding) :
    (life.inScope change).shape = life.shape := by
  unfold shape inScope
  rw [List.length_modifyHead]
  congr 1
  funext frame
  rw [level_modifyHead]
  split
  · rw [Option.map_map]
    congr 1
    funext scopes
    exact List.length_modifyHead
  · rfl

/-- The table holds what the calls have left alive. -/
structure Mirrors (state : State) (life : Lifetimes) : Prop where
  height : life.frames.length = state.currentFrame.val
  depth : ∀ frame : Fin maxFrames, 1 ≤ frame.val → frame.val ≤ state.currentFrame.val →
    (level life.frames frame.val).map List.length = some (state.frameScopes frame + 1)
  objects : ∀ object, life.Live object ↔ state.Live object

structure Consistent (state : State) (life : Lifetimes) : Prop where
  disciplined : Disciplined state
  mirrors : Mirrors state life

theorem consistent_initial : Consistent State.initial Lifetimes.initial where
  disciplined := disciplined_initial
  mirrors := {
    height := rfl
    depth frame low high := by
      have : (0 : Nat) < 0 := Nat.lt_of_lt_of_le low high
      omega
    objects object := by
      constructor
      · intro live
        obtain ⟨owner, region⟩ := object
        cases owner with
        | heap => exact absurd live (Set.notMem_empty _)
        | static => exact absurd live (Set.notMem_empty _)
        | scope frame scope role =>
            obtain ⟨_, opened, _⟩ := live
            cases opened
      · rintro ⟨slot, live, _⟩
        exact absurd rfl live.1 }

/-- The host's answer to a reallocation is not the base of another live heap object. -/
def Distinct (life : Lifetimes) : Call → Prop
  | .realloc ptr size answer =>
      size ≠ 0 → ∀ object, life.Live object → object.owner = .heap →
        object.region.base = answer → object.region.base = ptr
  | _ => True

theorem Mirrors.innermost {state : State} {life : Lifetimes} (mirrors : Mirrors state life)
    (framed : state.currentFrame.val ≠ 0) :
    life.Innermost state.currentFrame.val state.scope := by
  refine ⟨mirrors.height.symm, ?_⟩
  have depth := mirrors.depth state.currentFrame (Nat.pos_of_ne_zero framed) le_rfl
  exact Option.map_eq_some_iff.mp depth

namespace Consistent
variable {state after : State} {life life' : Lifetimes} (consistent : Consistent state life)
include consistent

/-- A change of the table that keeps the frames and scopes. -/
theorem retable (disciplined : Disciplined after)
    (currentFrame : after.currentFrame = state.currentFrame)
    (frameScopes : after.frameScopes = state.frameScopes) (shape : life'.shape = life.shape)
    (objects : ∀ object, life'.Live object ↔ after.Live object) : Consistent after life' where
  disciplined := disciplined
  mirrors := {
    height := by
      rw [currentFrame, ← consistent.mirrors.height]
      exact congrArg Prod.fst shape
    depth frame low high := by
      rw [currentFrame] at high
      rw [frameScopes, ← consistent.mirrors.depth frame low high]
      exact congrFun (congrArg Prod.snd shape) frame.val
    objects }

omit consistent in
theorem encloses_current (framed : state.currentFrame.val ≠ 0) {entry : HsAlloc}
    (kept : entry.freed = false) (frame : entry.frame = state.currentFrame.val)
    (scope : entry.scope = state.scope) : state.Encloses entry := by
  refine ⟨kept, ?_, le_of_eq frame, state.currentFrame, frame.symm, le_of_eq scope⟩
  rw [frame]
  exact Nat.pos_of_ne_zero framed

theorem place {slot : Fin maxObjects} {entry : HsAlloc} (vacant : state.FirstVacant slot)
    (live : entry.Live) (sized : 0 < entry.size) (grounded : entry.Grounded)
    (fresh : ∀ other, (state.allocs other).Live → (state.allocs other).key ≠ entry.key)
    (stacked : entry.Stacked → state.Encloses entry) (shape : life'.shape = life.shape)
    (objects : ∀ object, life'.Live object ↔ object = entry.object ∨ life.Live object) :
    Consistent (state.put slot entry) life' := by
  refine consistent.retable ?_ rfl rfl shape ?_
  · exact consistent.disciplined.put (fun _ other _ => fresh other) (fun _ => sized)
      (fun _ => grounded) stacked
  · intro object
    rw [objects, State.live_put_vacant vacant.1 live, consistent.mirrors.objects]

theorem register {ptr size : Nat} {kind : HsObjectKind} {frame scope : Nat}
    (lasting : kind ≠ .temporary)
    (grounded : kind = .heap ∨ kind = .static → frame = 0 ∧ scope = 0)
    (enclosed : kind = .local → state.currentFrame.val ≠ 0 ∧ frame = state.currentFrame.val ∧
      scope = state.scope)
    (run : hsRegister state ptr size kind frame scope = .ok after)
    (shape : life'.shape = life.shape)
    (objects : ∀ object, life'.Live object ↔
      object = (⟨ptr, size, frame, scope, 0, kind, false⟩ : HsAlloc).object ∨ life.Live object) :
    Consistent after life' := by
  obtain ⟨nonnull, sized, ⟨rfl, slot, found, sameSize⟩ | ⟨missing, slot, vacant, rfl⟩⟩ :=
    hsRegister_eq_ok run
  · refine consistent.retable consistent.disciplined rfl rfl shape ?_
    intro object
    rw [objects, consistent.mirrors.objects, or_iff_right_iff_imp]
    rintro rfl
    refine ⟨slot, ⟨by rwa [found.1], found.2.2.2.2⟩, ?_⟩
    have sameKey := HsAlloc.key_of_isExact ⟨ptr, size, frame, scope, 0, kind, false⟩ lasting found
    rw [HsAlloc.object, HsAlloc.object, HsAlloc.region, HsAlloc.region, found.1, sameSize]
    congr 1
    exact congrArg Prod.fst sameKey
  · refine consistent.place vacant ⟨nonnull, rfl⟩ sized grounded ?_ ?_ shape objects
    · intro other live same
      apply missing other
      exact HsAlloc.isExact_of_key live same lasting (consistent.disciplined.grounded other live)
        grounded
    · rintro ⟨_, isLocal | isTemporary⟩
      · obtain ⟨framed, rfl, rfl⟩ := enclosed isLocal
        exact encloses_current framed rfl rfl rfl
      · exact absurd isTemporary lasting

theorem alloc {size answer result : Nat} (run : hsAlloc state size answer = .ok (after, result)) :
    Consistent after (if size = 0 then life else life.allocate ⟨answer, size⟩) := by
  unfold hsAlloc at run
  split at run
  · rename_i empty
    cases run
    rwa [if_pos empty]
  rename_i sized
  rw [if_neg sized]
  split at run
  · cases run
  cases registered : hsRegister state answer size .heap 0 0 with
  | error message =>
      rw [registered] at run
      cases run
  | ok next =>
      rw [registered] at run
      cases run
      exact consistent.register (by decide) (fun _ => ⟨rfl, rfl⟩)
        (fun impossible => absurd impossible (by decide)) registered rfl
        fun _ => Lifetimes.live_allocate

theorem calloc {count size answer result : Nat}
    (run : hsCalloc state count size answer = .ok (after, result)) :
    Consistent after
      (if count * size = 0 then life else life.allocate ⟨answer, count * size⟩) := by
  unfold hsCalloc at run
  split at run
  · cases run
  split at run
  · rename_i empty
    cases run
    rwa [if_pos empty]
  rename_i sized
  rw [if_neg sized]
  split at run
  · cases run
  cases registered : hsRegister state answer (count * size) .heap 0 0 with
  | error message =>
      rw [registered] at run
      cases run
  | ok next =>
      rw [registered] at run
      cases run
      exact consistent.register (by decide) (fun _ => ⟨rfl, rfl⟩)
        (fun impossible => absurd impossible (by decide)) registered rfl
        fun _ => Lifetimes.live_allocate

omit consistent in
theorem heap_gone_iff {slot other : Fin maxObjects} (kind : (state.allocs slot).kind = .heap) :
    ((state.allocs other).object.owner = .heap ∧
        (state.allocs other).object.region.base = (state.allocs slot).ptr) ↔
      (state.allocs other).key = (state.allocs slot).key := by
  have owner : (state.allocs slot).owner = .heap := HsAlloc.owner_heap_iff.mpr kind
  simp only [HsAlloc.object, HsAlloc.region, HsAlloc.key, owner, kind, Prod.mk.injEq]
  constructor
  · rintro ⟨heap, base⟩
    have otherKind := HsAlloc.owner_heap_iff.mp heap
    simp [heap, otherKind, base]
  · rintro ⟨heap, base⟩
    have otherKind := HsAlloc.owner_heap_iff.mp heap
    simpa [otherKind, heap] using base

/-- Nothing live starts at the null address. -/
theorem release_zero {object : Object} : (life.release 0).Live object ↔ life.Live object := by
  rw [Lifetimes.live_release, and_iff_left_iff_imp]
  rintro live ⟨_, null⟩
  obtain ⟨slot, present, rfl⟩ := (consistent.mirrors.objects object).mp live
  exact present.1 null

theorem free {ptr : Nat} (run : hsFree state ptr = .ok after) :
    Consistent after (life.release ptr) := by
  rcases hsFree_eq_ok run with ⟨rfl, rfl⟩ | ⟨slot, _, live, kind, rfl, rfl⟩
  · refine consistent.retable consistent.disciplined rfl rfl rfl ?_
    intro object
    rw [consistent.release_zero, consistent.mirrors.objects]
  · refine consistent.retable ?_ rfl rfl rfl ?_
    · apply consistent.disciplined.put
      · rintro ⟨_, freed⟩
        cases freed
      · rintro ⟨_, freed⟩
        cases freed
      · rintro ⟨_, freed⟩
        cases freed
      · rintro ⟨_, stacked⟩
        simp [kind] at stacked
    · intro object
      rw [Lifetimes.live_release, consistent.mirrors.objects,
        consistent.disciplined.live_put_replaced
          (fun object => object.owner = .heap ∧ object.region.base = (state.allocs slot).ptr) live
          fun other _ => heap_gone_iff kind]
      simp [HsAlloc.Live]

theorem realloc {ptr size answer result : Nat}
    (distinct : Distinct life (.realloc ptr size answer))
    (run : hsRealloc state ptr size answer = .ok (after, result)) :
    Consistent after (life.after (.realloc ptr size answer)) := by
  by_cases null : ptr = 0
  · subst null
    have allocated := consistent.alloc (show hsAlloc state size answer = .ok (after, result) from run)
    by_cases empty : size = 0
    · rw [if_pos empty] at allocated
      rw [Lifetimes.after, if_pos empty]
      refine allocated.retable allocated.disciplined rfl rfl rfl fun object => ?_
      rw [consistent.release_zero, allocated.mirrors.objects]
    · rw [if_neg empty] at allocated
      rw [Lifetimes.after, if_neg empty]
      refine allocated.retable allocated.disciplined rfl rfl rfl fun object => ?_
      rw [← allocated.mirrors.objects, Lifetimes.live_allocate, Lifetimes.live_allocate,
        consistent.release_zero]
  by_cases empty : size = 0
  · rw [Lifetimes.after, if_pos empty]
    unfold hsRealloc at run
    rw [if_neg null, if_pos empty] at run
    cases released : hsFree state ptr with
    | error message =>
        rw [released] at run
        cases run
    | ok next =>
        rw [released] at run
        cases run
        exact consistent.free released
  rw [Lifetimes.after, if_neg empty]
  obtain ⟨answered, slot, _, live, kind, rfl, rfl⟩ := hsRealloc_eq_ok null empty run
  have owner : (state.allocs slot).owner = .heap := HsAlloc.owner_heap_iff.mpr kind
  refine consistent.retable ?_ rfl rfl rfl ?_
  · apply consistent.disciplined.put
    · intro _ other different otherLive same
      have sameKey := Prod.mk.inj same
      have otherKind := HsAlloc.owner_heap_iff.mp sameKey.1
      have base : (state.allocs other).ptr = answer := by simpa [otherKind] using sameKey.2
      have otherObject : life.Live (state.allocs other).object :=
        (consistent.mirrors.objects _).mpr ⟨other, otherLive, rfl⟩
      have sameBase := distinct empty _ otherObject sameKey.1 base
      exact different (consistent.disciplined.unique other slot otherLive live
        ((heap_gone_iff kind).mp ⟨sameKey.1, sameBase⟩))
    · exact fun _ => Nat.pos_of_ne_zero empty
    · exact fun _ _ => ⟨rfl, (consistent.disciplined.grounded slot live (.inl kind)).2⟩
    · rintro ⟨_, stacked⟩
      simp at stacked
  · intro object
    rw [Lifetimes.live_allocate, Lifetimes.live_release, consistent.mirrors.objects,
      consistent.disciplined.live_put_replaced
          (fun object => object.owner = .heap ∧ object.region.base = (state.allocs slot).ptr) live
          fun other _ => heap_gone_iff kind]
    simp [HsAlloc.Live, HsAlloc.object, HsAlloc.owner, HsAlloc.region, answered, eq_comm]

theorem registerStatic {ptr size : Nat} (run : hsRegisterStatic state ptr size = .ok after) :
    Consistent after (life.after (.registerStatic ptr size)) :=
  consistent.register (by decide) (fun _ => ⟨rfl, rfl⟩)
    (fun impossible => absurd impossible (by decide)) run rfl fun _ => Lifetimes.live_static

theorem registerLocal {ptr size : Nat} (run : hsRegisterLocal state ptr size = .ok after) :
    Consistent after (life.after (.registerLocal ptr size)) := by
  unfold hsRegisterLocal at run
  split at run
  · cases run
  rename_i framed
  apply consistent.register (by decide) _ (fun _ => ⟨framed, rfl, rfl⟩) run
    (Lifetimes.shape_inScope _ _) fun _ => Lifetimes.live_bindLocal (consistent.mirrors.innermost framed)
  simp

omit consistent in
theorem temporary_gone_iff {slot other : Fin maxObjects} {frame scope registrationId : Nat}
    (found : (state.allocs slot).IsTemporary frame scope registrationId) :
    (state.allocs other).object.owner = .scope frame scope (.temporary registrationId) ↔
      (state.allocs other).key = (state.allocs slot).key := by
  have owner := (HsAlloc.isTemporary_iff.mp found).2
  simp only [HsAlloc.object, HsAlloc.key, owner, found.2.1, Prod.mk.injEq]
  constructor
  · intro same
    have temporary : (state.allocs other).kind = .temporary := by
      cases kind : (state.allocs other).kind <;> simp [HsAlloc.owner, kind] at same
      rfl
    simp [same, temporary]
  · exact And.left

omit consistent in
theorem owner_ne_of_missing {frame scope registrationId : Nat}
    (missing : ∀ slot, ¬(state.allocs slot).IsTemporary frame scope registrationId)
    {object : Object} (live : state.Live object) :
    object.owner ≠ .scope frame scope (.temporary registrationId) := by
  obtain ⟨slot, present, rfl⟩ := live
  exact fun same => missing slot (HsAlloc.isTemporary_iff.mpr ⟨present, same⟩)

theorem registerTemporary {ptr size registrationId : Nat}
    (run : hsRegisterTemporary state ptr size registrationId = .ok after) :
    Consistent after (life.bindTemporary registrationId ⟨ptr, size⟩) := by
  obtain ⟨framed, change⟩ := hsRegisterTemporary_eq_ok run
  have inner := consistent.mirrors.innermost framed
  have shape : (life.bindTemporary registrationId ⟨ptr, size⟩).shape = life.shape :=
    Lifetimes.shape_inScope _ _
  have objects : ∀ object, (life.bindTemporary registrationId ⟨ptr, size⟩).Live object ↔
      (size ≠ 0 ∧ object = ⟨.scope state.currentFrame.val state.scope
          (.temporary registrationId), ⟨ptr, size⟩⟩) ∨
        (life.Live object ∧ object.owner ≠
          .scope state.currentFrame.val state.scope (.temporary registrationId)) :=
    fun _ => Lifetimes.live_bindTemporary inner
  rcases change with ⟨empty, ⟨rfl, missing⟩ | ⟨slot, found, rfl⟩⟩ |
    ⟨sized, nonnull, ⟨missing, slot, vacant, rfl⟩ | ⟨slot, found, rfl⟩⟩
  · refine consistent.retable consistent.disciplined rfl rfl shape fun object => ?_
    rw [objects, consistent.mirrors.objects]
    constructor
    · rintro (⟨impossible, _⟩ | ⟨live, _⟩)
      · exact absurd empty impossible
      · exact live
    · exact fun live => .inr ⟨live, owner_ne_of_missing missing live⟩
  · have live := (HsAlloc.isTemporary_iff.mp found).1
    refine consistent.retable ?_ rfl rfl shape fun object => ?_
    · apply consistent.disciplined.put
      · exact fun cleared => absurd cleared (HsAlloc.not_live_clear _)
      · exact fun cleared => absurd cleared (HsAlloc.not_live_clear _)
      · exact fun cleared => absurd cleared (HsAlloc.not_live_clear _)
      · exact fun cleared => absurd cleared (HsAlloc.not_stacked_clear _)
    · rw [objects, consistent.mirrors.objects, consistent.disciplined.live_put_replaced
        (fun object => object.owner =
          .scope state.currentFrame.val state.scope (.temporary registrationId)) live
        fun other _ => temporary_gone_iff found]
      simp [empty, HsAlloc.not_live_clear]
  · refine consistent.place vacant ⟨nonnull, rfl⟩ sized ?_ ?_ ?_ shape fun object => ?_
    · simp [HsAlloc.Grounded]
    · intro other live same
      exact missing other (HsAlloc.isTemporary_iff.mpr ⟨live, congrArg Prod.fst same⟩)
    · exact fun _ => encloses_current framed rfl rfl rfl
    · rw [objects]
      constructor
      · rintro (⟨_, rfl⟩ | ⟨live, _⟩)
        · exact .inl rfl
        · exact .inr live
      · rintro (rfl | live)
        · exact .inl ⟨Nat.ne_of_gt sized, rfl⟩
        · exact .inr ⟨live, owner_ne_of_missing missing
            ((consistent.mirrors.objects object).mp live)⟩
  · have temporary := isTemporary_of_hsFindTemporary found
    obtain ⟨live, owner⟩ := HsAlloc.isTemporary_iff.mp temporary
    obtain ⟨_, kind, frame, scope, id, kept⟩ := temporary
    refine consistent.retable ?_ rfl rfl shape fun object => ?_
    · apply consistent.disciplined.put
      · intro _ other different otherLive same
        refine different (consistent.disciplined.unique other slot otherLive live ?_)
        rw [same]
        simp [HsAlloc.key, HsAlloc.owner, kind]
      · exact fun _ => sized
      · intro _
        simp [HsAlloc.Grounded, kind]
      · exact fun _ => encloses_current framed kept frame scope
    · rw [objects, consistent.mirrors.objects, consistent.disciplined.live_put_replaced
        (fun object => object.owner =
          .scope state.currentFrame.val state.scope (.temporary registrationId)) live
        fun other _ => temporary_gone_iff (isTemporary_of_hsFindTemporary found)]
      simp [HsAlloc.Live, HsAlloc.object, HsAlloc.owner, HsAlloc.region, kind, frame, scope, id,
        kept, nonnull, Nat.ne_of_gt sized, eq_comm]

theorem frameEnter (run : hsFrameEnter state = .ok after) : Consistent after life.enterFrame := by
  obtain ⟨allocs, height, frameScopes⟩ := hsFrameEnter_eq_ok run
  have older : ∀ frame : Fin maxFrames, frame.val ≤ state.currentFrame.val →
      after.frameScopes frame = state.frameScopes frame := by
    intro frame low
    rw [frameScopes, update_of_ne]
    rintro rfl
    omega
  refine ⟨?_, ?_, ?_, ?_⟩
  · refine ⟨?_, ?_, ?_, ?_⟩
    · rw [allocs]
      exact consistent.disciplined.unique
    · rw [allocs]
      exact consistent.disciplined.sized
    · rw [allocs]
      exact consistent.disciplined.grounded
    · rw [allocs]
      intro slot stacked
      obtain ⟨kept, low, high, frame, same, deep⟩ := consistent.disciplined.stacked slot stacked
      exact ⟨kept, low, by omega, frame, same, by rwa [older frame (by omega)]⟩
  · rw [height, ← consistent.mirrors.height]
    rfl
  · intro frame low high
    rw [Lifetimes.enterFrame, level_push, consistent.mirrors.height]
    split
    · rename_i top
      have here : frame = after.currentFrame := Fin.ext (top.trans height.symm)
      rw [frameScopes, here, update_self]
      rfl
    · rw [older frame (by omega)]
      exact consistent.mirrors.depth frame low (by omega)
  · intro object
    rw [Lifetimes.live_enterFrame, consistent.mirrors.objects]
    unfold State.Live
    rw [allocs]

theorem frameExit (run : hsFrameExit state = .ok after) : Consistent after life.exitFrame := by
  obtain ⟨framed, swept, height, frameScopes⟩ := hsFrameExit_eq_ok run
  have older : ∀ frame : Fin maxFrames, frame.val ≤ after.currentFrame.val →
      after.frameScopes frame = state.frameScopes frame := by
    intro frame low
    rw [frameScopes, update_of_ne]
    rintro rfl
    omega
  refine ⟨?_, ?_, ?_, ?_⟩
  · apply consistent.disciplined.sweep swept
    intro slot stacked kept
    obtain ⟨alive, low, high, frame, same, deep⟩ := consistent.disciplined.stacked slot stacked
    have outer : (state.allocs slot).frame ≠ state.currentFrame.val :=
      fun inner => kept ⟨stacked, inner⟩
    exact ⟨alive, low, by omega, frame, same, by rwa [older frame (by omega)]⟩
  · rw [Lifetimes.exitFrame, List.length_tail, consistent.mirrors.height, ← height]
    rfl
  · intro frame low high
    rw [Lifetimes.exitFrame, level_tail, consistent.mirrors.height, if_neg (by omega),
      older frame high]
    exact consistent.mirrors.depth frame low (by omega)
  · intro object
    rw [Lifetimes.live_exitFrame, consistent.mirrors.objects, State.live_sweep swept,
      consistent.mirrors.height]
    constructor
    · rintro ⟨⟨slot, live, rfl⟩, outside⟩
      refine ⟨slot, ?_, live, rfl⟩
      rintro ⟨stacked, inner⟩
      obtain ⟨role, owner⟩ := HsAlloc.stacked_owner stacked
      rw [inner] at owner
      exact outside _ role owner
    · rintro ⟨slot, kept, live, rfl⟩
      refine ⟨⟨slot, live, rfl⟩, fun scope role owner => kept ?_⟩
      obtain ⟨kind, frame, _⟩ := HsAlloc.owner_scope owner
      exact ⟨⟨live.1, kind⟩, frame⟩

/-- The depths after the current frame alone has changed its own. -/
theorem depth_modifyHead {change : List (Set Binding) → List (Set Binding)} {scope : Nat}
    (framed : state.currentFrame.val ≠ 0) (currentFrame : after.currentFrame = state.currentFrame)
    (frameScopes : after.frameScopes = update state.frameScopes state.currentFrame scope)
    (changed : ∀ scopes, scopes.length = state.scope + 1 → (change scopes).length = scope + 1)
    (frame : Fin maxFrames) (low : 1 ≤ frame.val) (high : frame.val ≤ after.currentFrame.val) :
    (level (life.frames.modifyHead change) frame.val).map List.length =
      some (after.frameScopes frame + 1) := by
  rw [currentFrame] at high
  rw [level_modifyHead, consistent.mirrors.height, frameScopes]
  split
  · rename_i top
    obtain rfl : frame = state.currentFrame := Fin.ext top
    obtain ⟨_, scopes, found, count⟩ := consistent.mirrors.innermost framed
    simp [found, changed scopes count]
  · rename_i outer
    rw [update_of_ne fun same => outer (congrArg Fin.val same)]
    exact consistent.mirrors.depth frame low high

theorem scopeEnter (run : hsScopeEnter state = .ok after) : Consistent after life.enterScope := by
  obtain ⟨framed, rfl⟩ := hsScopeEnter_eq_ok run
  refine ⟨?_, ?_, ?_, ?_⟩
  · refine ⟨consistent.disciplined.unique, consistent.disciplined.sized,
      consistent.disciplined.grounded, fun slot stacked => ?_⟩
    obtain ⟨kept, low, high, frame, same, deep⟩ := consistent.disciplined.stacked slot stacked
    refine ⟨kept, low, high, frame, same, ?_⟩
    change (state.allocs slot).scope ≤ update state.frameScopes state.currentFrame _ frame
    by_cases here : frame = state.currentFrame
    · subst here
      rw [update_self]
      exact Nat.le_succ_of_le deep
    · rwa [update_of_ne here]
  · exact (List.length_modifyHead).trans consistent.mirrors.height
  · refine consistent.depth_modifyHead framed rfl rfl fun scopes count => ?_
    rw [List.length_cons, count]
  · intro object
    rw [Lifetimes.live_enterScope, consistent.mirrors.objects]
    rfl

theorem scopeExit (run : hsScopeExit state = .ok after) : Consistent after life.exitScope := by
  obtain ⟨framed, deep, swept, currentFrame, frameScopes⟩ := hsScopeExit_eq_ok run
  refine ⟨?_, ?_, ?_, ?_⟩
  · apply consistent.disciplined.sweep swept
    intro slot stacked kept
    obtain ⟨alive, low, high, frame, same, inside⟩ := consistent.disciplined.stacked slot stacked
    refine ⟨alive, low, by rwa [currentFrame], frame, same, ?_⟩
    rw [frameScopes]
    by_cases here : frame = state.currentFrame
    · subst here
      have outer : (state.allocs slot).scope ≠ state.scope :=
        fun inner => kept ⟨stacked, same.symm, inner⟩
      rw [update_self]
      unfold State.scope at outer ⊢
      omega
    · rwa [update_of_ne here]
  · rw [currentFrame]
    exact (List.length_modifyHead).trans consistent.mirrors.height
  · apply consistent.depth_modifyHead framed currentFrame frameScopes
    intro scopes count
    rw [List.length_tail, count]
    omega
  · intro object
    rw [Lifetimes.live_exitScope (consistent.mirrors.innermost framed),
      consistent.mirrors.objects, State.live_sweep swept]
    constructor
    · rintro ⟨⟨slot, live, rfl⟩, outside⟩
      refine ⟨slot, ?_, live, rfl⟩
      rintro ⟨stacked, frame, scope⟩
      obtain ⟨role, owner⟩ := HsAlloc.stacked_owner stacked
      rw [frame, scope] at owner
      exact outside role owner
    · rintro ⟨slot, kept, live, rfl⟩
      refine ⟨⟨slot, live, rfl⟩, fun role owner => kept ?_⟩
      obtain ⟨kind, frame, scope⟩ := HsAlloc.owner_scope owner
      exact ⟨⟨live.1, kind⟩, frame, scope⟩

end Consistent

theorem Consistent.exitScopes {targetScope : Nat} (fuel : Nat) {state after : State}
    {life : Lifetimes} (consistent : Consistent state life) (framed : state.currentFrame.val ≠ 0)
    (enough : state.scope ≤ targetScope + fuel)
    (run : Registry.exitScopes targetScope fuel state = .ok after) :
    Consistent after (life.exitScopeTo targetScope) := by
  have inner := consistent.mirrors.innermost framed
  induction fuel generalizing state life with
  | zero =>
      cases run
      rwa [Lifetimes.exitScopeTo_of_le inner (by omega)]
  | succ fuel ih =>
      rw [Registry.exitScopes] at run
      split at run
      · rename_i deep
        cases exited : hsScopeExit state with
        | error message =>
            rw [exited] at run
            cases run
        | ok next =>
            rw [exited] at run
            obtain ⟨_, _, _, currentFrame, frameScopes⟩ := hsScopeExit_eq_ok exited
            have nextFramed : next.currentFrame.val ≠ 0 := by rwa [currentFrame]
            have nextScope : next.scope = state.scope - 1 := by
              rw [State.scope, currentFrame, frameScopes, update_self]
            have nextConsistent := consistent.scopeExit exited
            rw [← Lifetimes.exitScopeTo_exitScope inner deep]
            exact ih nextConsistent nextFramed (by omega) run
              (nextConsistent.mirrors.innermost nextFramed)
      · cases run
        rwa [Lifetimes.exitScopeTo_of_le inner (by omega)]

theorem Consistent.scopeExitTo {state after : State} {life : Lifetimes}
    (consistent : Consistent state life) {targetScope : Nat}
    (run : hsScopeExitTo state targetScope = .ok after) :
    Consistent after (life.exitScopeTo targetScope) := by
  unfold hsScopeExitTo at run
  split at run
  · cases run
  · rename_i valid
    rw [not_or] at valid
    exact consistent.exitScopes _ valid.1 (Nat.le_add_left _ _) run

theorem Result.map_fst_eq_ok {α β : Type} {result : Result (α × β)} {value : α}
    (run : result.map Prod.fst = .ok value) : ∃ other, result = .ok (value, other) := by
  cases result with
  | error message => cases run
  | ok pair =>
      cases run
      exact ⟨pair.2, rfl⟩

/-- A call that does not fail keeps the registry consistent with what is alive. -/
theorem Consistent.step {state after : State} {life : Lifetimes}
    (consistent : Consistent state life) {call : Call} (distinct : Distinct life call)
    (run : state.run call = .ok after) : Consistent after (life.after call) := by
  cases call with
  | alloc size answer =>
      obtain ⟨result, run⟩ := Result.map_fst_eq_ok run
      exact consistent.alloc run
  | calloc count size answer =>
      obtain ⟨result, run⟩ := Result.map_fst_eq_ok run
      exact consistent.calloc run
  | realloc ptr size answer =>
      obtain ⟨result, run⟩ := Result.map_fst_eq_ok run
      exact consistent.realloc distinct run
  | free ptr => exact consistent.free run
  | frameEnter => exact consistent.frameEnter run
  | frameExit => exact consistent.frameExit run
  | scopeEnter => exact consistent.scopeEnter run
  | scopeExit => exact consistent.scopeExit run
  | scopeExitTo targetScope => exact consistent.scopeExitTo run
  | registerLocal ptr size => exact consistent.registerLocal run
  | registerTemporary ptr size registrationId => exact consistent.registerTemporary run
  | registerStatic ptr size => exact consistent.registerStatic run

end HitSimple.Registry

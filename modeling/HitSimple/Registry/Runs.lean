import HitSimple.Registry.Refinement

namespace HitSimple.Registry
open Slots Function

/-- The states that calls without a failure lead to, with what they leave alive. -/
inductive Run (admits : Lifetimes → Call → Prop) : List Call → State → Lifetimes → Prop where
  | start : Run admits [] State.initial Lifetimes.initial
  | call {calls : List Call} {state after : State} {life : Lifetimes} {call : Call}
      (earlier : Run admits calls state life) (admitted : admits life call)
      (run : state.run call = .ok after) : Run admits (calls ++ [call]) after (life.after call)

theorem Run.consistent {calls : List Call} {state : State} {life : Lifetimes}
    (run : Run Distinct calls state life) : Consistent state life := by
  induction run with
  | start => exact consistent_initial
  | call earlier admitted step ih => exact ih.step admitted step

namespace Call

/-- The calls that leave scopes. -/
def Leaves : Call → Prop
  | .frameExit | .scopeExit | .scopeExitTo _ => True
  | _ => False

end Call

namespace State

/-- Slots outside the frames are as they were. -/
def KeepsUnstacked (state after : State) : Prop :=
  ∀ slot, ¬(state.allocs slot).Stacked → after.allocs slot = state.allocs slot

theorem KeepsUnstacked.of_sweep {state after : State} {ends : HsAlloc → Prop}
    [DecidablePred ends] (swept : after.allocs = (state.sweep ends).allocs)
    (stacked : ∀ allocation, ends allocation → allocation.Stacked) :
    state.KeepsUnstacked after := by
  intro slot unstacked
  rcases swept_or swept slot with ⟨ended, _⟩ | ⟨_, kept⟩
  · exact absurd (stacked _ ended) unstacked
  · exact kept

theorem KeepsUnstacked.trans {state next after : State} (first : state.KeepsUnstacked next)
    (second : next.KeepsUnstacked after) : state.KeepsUnstacked after := by
  intro slot unstacked
  have kept := first slot unstacked
  rw [← kept] at unstacked ⊢
  exact second slot unstacked

end State

theorem hsFrameExit_keeps {state after : State} (run : hsFrameExit state = .ok after) :
    state.KeepsUnstacked after :=
  State.KeepsUnstacked.of_sweep (hsFrameExit_eq_ok run).2.1 fun _ ended => ended.1

theorem hsScopeExit_keeps {state after : State} (run : hsScopeExit state = .ok after) :
    state.KeepsUnstacked after :=
  State.KeepsUnstacked.of_sweep (hsScopeExit_eq_ok run).2.2.1 fun _ ended => ended.1

theorem exitScopes_keeps {targetScope : Nat} (fuel : Nat) {state after : State}
    (run : exitScopes targetScope fuel state = .ok after) : state.KeepsUnstacked after := by
  induction fuel generalizing state with
  | zero =>
      cases run
      exact fun _ _ => rfl
  | succ fuel ih =>
      rw [exitScopes] at run
      split at run
      · cases exited : hsScopeExit state with
        | error message =>
            rw [exited] at run
            cases run
        | ok next =>
            rw [exited] at run
            exact (hsScopeExit_keeps exited).trans (ih run)
      · cases run
        exact fun _ _ => rfl

theorem Call.Leaves.keeps {call : Call} (leaves : call.Leaves) {state after : State}
    (run : state.run call = .ok after) : state.KeepsUnstacked after := by
  cases call with
  | frameExit => exact hsFrameExit_keeps run
  | scopeExit => exact hsScopeExit_keeps run
  | scopeExitTo targetScope =>
      unfold State.run hsScopeExitTo at run
      dsimp only at run
      split at run
      · cases run
      · exact exitScopes_keeps _ run
  | _ => exact absurd leaves id

/-- A check that reads some bytes succeeds through a live slot only. -/
theorem hsCheck_eq_ok {state : State} {ptr size : Nat} {message : String} (sized : size ≠ 0)
    (run : hsCheck state ptr size message = .ok ()) :
    ∃ slot, hsFind state ptr = some slot ∧ (state.allocs slot).Live ∧
      ∀ address, ptr ≤ address → address < ptr + size →
        (state.allocs slot).region.Contains address := by
  unfold hsCheck at run
  rw [if_neg sized] at run
  split at run
  · cases run
  split at run
  · cases run
  rename_i slot found
  dsimp only at run
  split at run
  · cases run
  rename_i kept
  split at run
  · cases run
  rename_i inside
  obtain ⟨nonnull, low, high⟩ := (hsFind_eq_some_iff.mp found).1
  refine ⟨slot, found, ⟨nonnull, Bool.eq_false_iff.mpr kept⟩, fun address from' to' => ?_⟩
  rw [Region.contains_iff]
  dsimp only [HsAlloc.region]
  omega

/-- Objects of a frame lie in open scopes, each object has one slot, and leaving scopes keeps the
other objects and lets no check succeed through an object of a scope that was left. -/
theorem Run.lifetimes_disciplined {calls : List Call} {state : State} {life : Lifetimes}
    (run : Run Distinct calls state life) :
    (∀ slot, (state.allocs slot).Stacked →
      1 ≤ (state.allocs slot).frame ∧ (state.allocs slot).frame ≤ state.currentFrame.val ∧
        ∃ frame : Fin maxFrames, frame.val = (state.allocs slot).frame ∧
          (state.allocs slot).scope ≤ state.frameScopes frame) ∧
    (∀ left right, (state.allocs left).Live → (state.allocs right).Live →
      (state.allocs left).kind = (state.allocs right).kind →
      (state.allocs left).frame = (state.allocs right).frame →
      (state.allocs left).scope = (state.allocs right).scope →
      (if (state.allocs left).kind = .temporary then
        (state.allocs left).registrationId = (state.allocs right).registrationId
      else (state.allocs left).ptr = (state.allocs right).ptr) → left = right) ∧
    ∀ call after, call.Leaves → state.run call = .ok after →
      (∀ slot, (state.allocs slot).kind = .heap ∨ (state.allocs slot).kind = .static →
        after.allocs slot = state.allocs slot) ∧
      ∀ ptr size message, size ≠ 0 → hsCheck after ptr size message = .ok () →
        ∃ slot, hsFind after ptr = some slot ∧
          (life.after call).Live (after.allocs slot).object := by
  have consistent := run.consistent
  refine ⟨?_, ?_, ?_⟩
  · exact fun slot stacked => (consistent.disciplined.stacked slot stacked).2
  · intro left right leftLive rightLive kind frame scope own
    apply consistent.disciplined.unique left right leftLive rightLive
    cases leftKind : (state.allocs left).kind <;>
      simp [HsAlloc.key, HsAlloc.owner, leftKind, ← kind, ← frame, ← scope] at own ⊢ <;>
      exact own
  · intro call after leaves step
    refine ⟨?_, ?_⟩
    · intro slot lasting
      apply leaves.keeps step
      rintro ⟨_, stacked⟩
      rcases lasting with kind | kind <;> simp [kind] at stacked
    · intro ptr size message sized checked
      obtain ⟨slot, found, live, _⟩ := hsCheck_eq_ok sized checked
      have distinct : Distinct life call := by
        cases call <;> first | exact absurd leaves id | trivial
      have next := consistent.step distinct step
      exact ⟨slot, found, (next.mirrors.objects _).mpr ⟨slot, live, rfl⟩⟩

theorem eq_ok_of_isOk {result : Result State} (ok : result.isOk = true) :
    result = .ok (result.toOption.getD State.initial) := by
  cases result with
  | error message => cases ok
  | ok state => rfl

theorem lifetimes_disciplined_at_frameExit :
    ∃ state life, Run Distinct [.alloc 16 4096, .frameEnter, .registerLocal 8192 8] state life ∧
      ∀ after, state.run .frameExit = .ok after →
        (∀ slot, (state.allocs slot).kind = .heap ∨ (state.allocs slot).kind = .static →
          after.allocs slot = state.allocs slot) ∧
        ∀ ptr size message, size ≠ 0 → hsCheck after ptr size message = .ok () →
          ∃ slot, hsFind after ptr = some slot ∧ life.exitFrame.Live (after.allocs slot).object := by
  have allocated : Run Distinct [.alloc 16 4096] _ _ :=
    .call .start trivial (eq_ok_of_isOk (by decide +kernel))
  have entered : Run Distinct [.alloc 16 4096, .frameEnter] _ _ :=
    allocated.call trivial (eq_ok_of_isOk (by decide +kernel))
  have registered : Run Distinct [.alloc 16 4096, .frameEnter, .registerLocal 8192 8] _ _ :=
    entered.call trivial (eq_ok_of_isOk (by decide +kernel))
  exact ⟨_, _, registered, fun after step =>
    registered.lifetimes_disciplined.2.2 .frameExit after trivial step⟩

end HitSimple.Registry

import HitSimple.Registry.Objects
import HitSimple.Slots.Memory
import Mathlib.Data.Set.Insert

namespace HitSimple.Registry
open Slots

inductive Role where
  | local
  | temporary (registrationId : Nat)
  deriving DecidableEq

/-- A registration in a scope. -/
structure Binding where
  role : Role
  region : Region
  deriving DecidableEq

inductive Owner where
  | heap
  | static
  | scope (frame scope : Nat) (role : Role)
  deriving DecidableEq

structure Object where
  owner : Owner
  region : Region
  deriving DecidableEq

/-- What the calls so far have left alive. The innermost frame and the innermost scope of a frame
come first, and leaving a scope drops everything that was bound in it. -/
structure Lifetimes where
  heap : Set Region
  static : Set Region
  frames : List (List (Set Binding))

namespace Lifetimes

def initial : Lifetimes where
  heap := ∅
  static := ∅
  frames := []

def openScope (life : Lifetimes) (frame scope : Nat) : Option (Set Binding) :=
  (level life.frames frame).bind fun scopes => level scopes (scope + 1)

def Live (life : Lifetimes) (object : Object) : Prop :=
  match object.owner with
  | .heap => object.region ∈ life.heap
  | .static => object.region ∈ life.static
  | .scope frame scope role =>
      ∃ bindings, life.openScope frame scope = some bindings ∧ ⟨role, object.region⟩ ∈ bindings

def allocate (life : Lifetimes) (region : Region) : Lifetimes :=
  { life with heap := insert region life.heap }

def release (life : Lifetimes) (ptr : Nat) : Lifetimes :=
  { life with heap := {region ∈ life.heap | region.base ≠ ptr} }

def inScope (life : Lifetimes) (change : Set Binding → Set Binding) : Lifetimes :=
  { life with frames := life.frames.modifyHead (List.modifyHead change) }

def bindLocal (life : Lifetimes) (region : Region) : Lifetimes :=
  life.inScope fun bindings => insert ⟨.local, region⟩ bindings

/-- A temporary registered again replaces what it held before. -/
def bindTemporary (life : Lifetimes) (registrationId : Nat) (region : Region) : Lifetimes :=
  life.inScope fun bindings =>
    let others := {binding ∈ bindings | binding.role ≠ .temporary registrationId}
    if region.length = 0 then others else insert ⟨.temporary registrationId, region⟩ others

def enterFrame (life : Lifetimes) : Lifetimes :=
  { life with frames := [∅] :: life.frames }

def exitFrame (life : Lifetimes) : Lifetimes :=
  { life with frames := life.frames.tail }

def enterScope (life : Lifetimes) : Lifetimes :=
  { life with frames := life.frames.modifyHead (List.cons ∅) }

def exitScope (life : Lifetimes) : Lifetimes :=
  { life with frames := life.frames.modifyHead List.tail }

def exitScopeTo (life : Lifetimes) (targetScope : Nat) : Lifetimes :=
  { life with
    frames := life.frames.modifyHead fun scopes => scopes.drop (scopes.length - (targetScope + 1)) }

def after (life : Lifetimes) : Call → Lifetimes
  | .alloc size answer => if size = 0 then life else life.allocate ⟨answer, size⟩
  | .calloc count size answer =>
      if count * size = 0 then life else life.allocate ⟨answer, count * size⟩
  | .realloc ptr size answer =>
      if size = 0 then life.release ptr else (life.release ptr).allocate ⟨answer, size⟩
  | .free ptr => life.release ptr
  | .frameEnter => life.enterFrame
  | .frameExit => life.exitFrame
  | .scopeEnter => life.enterScope
  | .scopeExit => life.exitScope
  | .scopeExitTo targetScope => life.exitScopeTo targetScope
  | .registerLocal ptr size => life.bindLocal ⟨ptr, size⟩
  | .registerTemporary ptr size registrationId => life.bindTemporary registrationId ⟨ptr, size⟩
  | .registerStatic ptr size => { life with static := insert ⟨ptr, size⟩ life.static }

/-- The position is the innermost scope. -/
def Innermost (life : Lifetimes) (frame scope : Nat) : Prop :=
  frame = life.frames.length ∧ ∃ scopes, level life.frames frame = some scopes ∧
    scopes.length = scope + 1

theorem Innermost.unique {life : Lifetimes} {frame scope frame' scope' : Nat}
    (left : life.Innermost frame scope) (right : life.Innermost frame' scope') :
    frame = frame' ∧ scope = scope' := by
  obtain ⟨top, scopes, found, count⟩ := left
  obtain ⟨top', scopes', found', count'⟩ := right
  rw [top, ← top', found'] at found
  cases found
  exact ⟨top.trans top'.symm, by omega⟩

theorem Innermost.isOpen {life : Lifetimes} {frame scope : Nat}
    (inner : life.Innermost frame scope) :
    ∃ bindings, life.openScope frame scope = some bindings := by
  obtain ⟨_, scopes, found, count⟩ := inner
  cases scopes with
  | nil => cases count
  | cons bindings outer =>
      refine ⟨bindings, ?_⟩
      simp [openScope, found, ← count]

/-- The frame on top holds the innermost scope. -/
theorem Innermost.frames_eq {life : Lifetimes} {frame scope : Nat}
    (inner : life.Innermost frame scope) :
    ∃ innermost outer, life.frames = innermost :: outer ∧ innermost.length = scope + 1 := by
  obtain ⟨top, scopes, found, count⟩ := inner
  cases present : life.frames with
  | nil => rw [present] at found; cases found
  | cons innermost outer =>
      rw [top, present, List.length_cons, level_top] at found
      exact ⟨innermost, outer, rfl, Option.some.inj found ▸ count⟩

theorem exitScopeTo_of_le {life : Lifetimes} {frame scope targetScope : Nat}
    (inner : life.Innermost frame scope) (low : scope ≤ targetScope) :
    life.exitScopeTo targetScope = life := by
  obtain ⟨innermost, outer, present, count⟩ := inner.frames_eq
  obtain ⟨heap, static, frames⟩ := life
  obtain rfl : frames = innermost :: outer := present
  simp [exitScopeTo, show innermost.length - (targetScope + 1) = 0 by omega]

theorem exitScopeTo_exitScope {life : Lifetimes} {frame scope targetScope : Nat}
    (inner : life.Innermost frame scope) (high : targetScope < scope) :
    life.exitScope.exitScopeTo targetScope = life.exitScopeTo targetScope := by
  obtain ⟨innermost, outer, present, count⟩ := inner.frames_eq
  obtain ⟨heap, static, frames⟩ := life
  obtain rfl : frames = innermost :: outer := present
  cases innermost with
  | nil => cases count
  | cons bindings rest =>
      rw [List.length_cons] at count
      have step : rest.length + 1 - (targetScope + 1) = rest.length - (targetScope + 1) + 1 := by
        omega
      simp only [exitScope, exitScopeTo, List.modifyHead_cons, List.tail_cons,
        List.length_cons, step, List.drop_succ_cons]

theorem innermost_iff {life : Lifetimes} {frame scope : Nat} {scopes : List (Set Binding)}
    (top : frame = life.frames.length) (found : level life.frames frame = some scopes) :
    life.Innermost frame scope ↔ scope + 1 = scopes.length := by
  simp [Innermost, found, top.symm, eq_comm]

theorem openScope_inScope (life : Lifetimes) (change : Set Binding → Set Binding)
    (frame scope : Nat) [Decidable (life.Innermost frame scope)] :
    (life.inScope change).openScope frame scope =
      if life.Innermost frame scope then (life.openScope frame scope).map change
      else life.openScope frame scope := by
  unfold openScope inScope
  rw [level_modifyHead]
  by_cases top : frame = life.frames.length
  · rw [if_pos top]
    cases found : level life.frames frame with
    | none => simp
    | some scopes =>
        have here : life.Innermost frame scope ↔ _ := innermost_iff top found
        simp [level_modifyHead, here]
  · rw [if_neg top, if_neg fun inner => top inner.1]

theorem openScope_exitScope (life : Lifetimes) (frame scope : Nat)
    [Decidable (life.Innermost frame scope)] :
    life.exitScope.openScope frame scope =
      if life.Innermost frame scope then none else life.openScope frame scope := by
  unfold openScope exitScope
  rw [level_modifyHead]
  by_cases top : frame = life.frames.length
  · rw [if_pos top]
    cases found : level life.frames frame with
    | none => simp
    | some scopes =>
        have here : life.Innermost frame scope ↔ _ := innermost_iff top found
        simp [level_tail, here]
  · rw [if_neg top, if_neg fun inner => top inner.1]

theorem openScope_enterScope_empty {life : Lifetimes} {frame scope : Nat} {bindings : Set Binding}
    (found : life.enterScope.openScope frame scope = some bindings) :
    bindings = ∅ ∨ life.openScope frame scope = some bindings := by
  unfold openScope enterScope at found
  rw [level_modifyHead] at found
  split at found
  · cases present : level life.frames frame with
    | none => simp [present] at found
    | some scopes =>
        simp only [present, Option.map_some, Option.bind_some, level_push] at found
        split at found
        · left
          exact (Option.some.inj found).symm
        · right
          simpa [openScope, present] using found
  · right
    exact found

theorem openScope_enterScope {life : Lifetimes} {frame scope : Nat} {bindings : Set Binding}
    (found : life.openScope frame scope = some bindings) :
    life.enterScope.openScope frame scope = some bindings := by
  unfold openScope at found
  unfold openScope enterScope
  rw [level_modifyHead]
  cases present : level life.frames frame with
  | none => simp [present] at found
  | some scopes =>
      simp only [present, Option.bind_some] at found
      split
      · have := level_bound found
        simpa [level_below (show scope + 1 ≠ scopes.length + 1 by omega)] using found
      · simpa using found

theorem openScope_enterFrame_empty {life : Lifetimes} {frame scope : Nat} {bindings : Set Binding}
    (found : life.enterFrame.openScope frame scope = some bindings) :
    bindings = ∅ ∨ life.openScope frame scope = some bindings := by
  unfold openScope enterFrame at found
  rw [level_push] at found
  split at found
  · left
    simp only [Option.bind_some, level_push, level_nil] at found
    split at found
    · exact (Option.some.inj found).symm
    · cases found
  · right
    exact found

theorem openScope_enterFrame {life : Lifetimes} {frame scope : Nat} {bindings : Set Binding}
    (found : life.openScope frame scope = some bindings) :
    life.enterFrame.openScope frame scope = some bindings := by
  unfold openScope at found
  unfold openScope enterFrame
  cases present : level life.frames frame with
  | none => simp [present] at found
  | some scopes =>
      have := level_bound present
      rw [level_below (by omega), present]
      simpa [present] using found

theorem openScope_exitFrame (life : Lifetimes) (frame scope : Nat) :
    life.exitFrame.openScope frame scope =
      if frame = life.frames.length then none else life.openScope frame scope := by
  unfold openScope exitFrame
  rw [level_tail]
  split <;> rfl

section
variable {life : Lifetimes} {object : Object}

theorem live_allocate {region : Region} :
    (life.allocate region).Live object ↔ object = ⟨.heap, region⟩ ∨ life.Live object := by
  obtain ⟨owner, held⟩ := object
  cases owner <;> simp [Live, allocate, openScope]

theorem live_release {ptr : Nat} :
    (life.release ptr).Live object ↔
      life.Live object ∧ ¬(object.owner = .heap ∧ object.region.base = ptr) := by
  obtain ⟨owner, held⟩ := object
  cases owner <;> simp [Live, release, openScope]

theorem live_static {region : Region} :
    Live { life with static := insert region life.static } object ↔
      object = ⟨.static, region⟩ ∨ life.Live object := by
  obtain ⟨owner, held⟩ := object
  cases owner <;> simp [Live, openScope]

theorem live_enterFrame : life.enterFrame.Live object ↔ life.Live object := by
  obtain ⟨owner, held⟩ := object
  cases owner with
  | heap => rfl
  | static => rfl
  | scope frame scope role =>
      constructor
      · rintro ⟨bindings, found, member⟩
        rcases openScope_enterFrame_empty found with rfl | before
        · exact absurd member (Set.notMem_empty _)
        · exact ⟨bindings, before, member⟩
      · rintro ⟨bindings, found, member⟩
        exact ⟨bindings, openScope_enterFrame found, member⟩

theorem live_enterScope : life.enterScope.Live object ↔ life.Live object := by
  obtain ⟨owner, held⟩ := object
  cases owner with
  | heap => rfl
  | static => rfl
  | scope frame scope role =>
      constructor
      · rintro ⟨bindings, found, member⟩
        rcases openScope_enterScope_empty found with rfl | before
        · exact absurd member (Set.notMem_empty _)
        · exact ⟨bindings, before, member⟩
      · rintro ⟨bindings, found, member⟩
        exact ⟨bindings, openScope_enterScope found, member⟩

theorem live_exitFrame :
    life.exitFrame.Live object ↔
      life.Live object ∧ ∀ scope role, object.owner ≠ .scope life.frames.length scope role := by
  obtain ⟨owner, held⟩ := object
  cases owner with
  | heap => simp [Live, exitFrame]
  | static => simp [Live, exitFrame]
  | scope frame scope role =>
      simp only [Live, openScope_exitFrame]
      by_cases top : frame = life.frames.length
      · simp [top]
      · simp [top]

theorem live_exitScope {frame scope : Nat} (inner : life.Innermost frame scope) :
    life.exitScope.Live object ↔
      life.Live object ∧ ∀ role, object.owner ≠ .scope frame scope role := by
  classical
  obtain ⟨owner, held⟩ := object
  cases owner with
  | heap => simp [Live, exitScope]
  | static => simp [Live, exitScope]
  | scope level depth role =>
      simp only [Live, openScope_exitScope]
      by_cases here : level = frame ∧ depth = scope
      · obtain ⟨rfl, rfl⟩ := here
        simp [inner]
      · rw [if_neg fun other => here (other.unique inner)]
        constructor
        · intro live
          refine ⟨live, ?_⟩
          rintro other same
          cases same
          exact here ⟨rfl, rfl⟩
        · exact And.left

theorem live_inScope {frame scope : Nat} (inner : life.Innermost frame scope)
    (change : Set Binding → Set Binding) :
    (life.inScope change).Live object ↔
      (∃ role bindings, object.owner = .scope frame scope role ∧
        life.openScope frame scope = some bindings ∧ ⟨role, object.region⟩ ∈ change bindings) ∨
      (life.Live object ∧ ∀ role, object.owner ≠ .scope frame scope role) := by
  classical
  obtain ⟨owner, held⟩ := object
  cases owner with
  | heap => simp [Live, inScope]
  | static => simp [Live, inScope]
  | scope level depth role =>
      simp only [Live, openScope_inScope]
      by_cases here : level = frame ∧ depth = scope
      · obtain ⟨rfl, rfl⟩ := here
        simp only [if_pos inner, Option.map_eq_some_iff]
        constructor
        · rintro ⟨_, ⟨bindings, found, rfl⟩, member⟩
          exact .inl ⟨role, bindings, rfl, found, member⟩
        · rintro (⟨_, bindings, same, found, member⟩ | ⟨_, other⟩)
          · cases same
            exact ⟨_, ⟨bindings, found, rfl⟩, member⟩
          · exact absurd rfl (other role)
      · rw [if_neg fun other => here (other.unique inner)]
        constructor
        · intro live
          refine .inr ⟨live, ?_⟩
          rintro other same
          cases same
          exact here ⟨rfl, rfl⟩
        · rintro (⟨_, _, same, _⟩ | ⟨live, _⟩)
          · cases same
            exact absurd ⟨rfl, rfl⟩ here
          · exact live

theorem live_bindLocal {frame scope : Nat} (inner : life.Innermost frame scope)
    {region : Region} :
    (life.bindLocal region).Live object ↔
      object = ⟨.scope frame scope .local, region⟩ ∨ life.Live object := by
  obtain ⟨owner, held⟩ := object
  obtain ⟨bindings, opened⟩ := inner.isOpen
  rw [bindLocal, live_inScope inner]
  constructor
  · rintro (⟨role, others, rfl, found, member⟩ | ⟨live, _⟩)
    · rcases Set.mem_insert_iff.mp member with new | old
      · cases new
        exact .inl rfl
      · exact .inr ⟨others, found, old⟩
    · exact .inr live
  · rintro (new | live)
    · cases new
      exact .inl ⟨.local, bindings, rfl, opened, Set.mem_insert _ _⟩
    · by_cases inside : ∃ role, owner = .scope frame scope role
      · obtain ⟨role, rfl⟩ := inside
        obtain ⟨others, found, member⟩ := live
        exact .inl ⟨role, others, rfl, found, Set.mem_insert_of_mem _ member⟩
      · exact .inr ⟨live, fun role same => inside ⟨role, same⟩⟩

theorem live_bindTemporary {frame scope : Nat} (inner : life.Innermost frame scope)
    {registrationId : Nat} {region : Region} :
    (life.bindTemporary registrationId region).Live object ↔
      (region.length ≠ 0 ∧ object = ⟨.scope frame scope (.temporary registrationId), region⟩) ∨
      (life.Live object ∧ object.owner ≠ .scope frame scope (.temporary registrationId)) := by
  obtain ⟨owner, held⟩ := object
  obtain ⟨bindings, opened⟩ := inner.isOpen
  rw [bindTemporary, live_inScope inner]
  by_cases inside : ∃ role, owner = .scope frame scope role
  · obtain ⟨role, rfl⟩ := inside
    by_cases empty : region.length = 0
    · simp [empty, Live, opened]
    · simp [empty, Live, opened]
  · simp only [not_exists] at inside
    simp [inside]

end

end Lifetimes

end HitSimple.Registry

import HitSimple.Codegen.ControlFlow
import Mathlib.Data.Set.Insert
import Mathlib.Data.List.Nodup
import Mathlib.Algebra.Group.Nat.Defs

namespace HitSimple.ControlFlow

section Runtime

/-- The scope counter of a frame, `none` where the runtime fails. -/
def hsScopeEnter (counter : Nat) : Option Nat :=
  if counter = 2 ^ 64 - 1 then none else some (counter + 1)

def hsScopeExit : Nat → Option Nat
  | 0 => none
  | counter + 1 => some counter

/-- The loop of `hs_scope_exit_to`. -/
def exitScopes (targetScope : Nat) : Nat → Option Nat
  | 0 => some 0
  | counter + 1 =>
      if counter + 1 > targetScope then exitScopes targetScope counter else some (counter + 1)

def hsScopeExitTo (targetScope counter : Nat) : Option Nat :=
  if targetScope > counter then none else exitScopes targetScope counter

theorem exitScopes_eq {targetScope counter : Nat} (bound : targetScope ≤ counter) :
    exitScopes targetScope counter = some targetScope := by
  induction counter with
  | zero => rw [exitScopes, Nat.le_zero.mp bound]
  | succ counter ih =>
    rw [exitScopes]
    split
    · rename_i above
      exact ih (Nat.le_of_lt_succ above)
    · rename_i below
      rw [Nat.le_antisymm bound (Nat.le_of_not_lt below)]

theorem hsScopeExitTo_eq {targetScope counter : Nat} (bound : targetScope ≤ counter) :
    hsScopeExitTo targetScope counter = some targetScope := by
  rw [hsScopeExitTo, if_neg (Nat.not_lt.mpr bound), exitScopes_eq bound]

end Runtime

section Depths

/-- The counter at the start of each block that exists. -/
abbrev Depths := Nat → Option Nat

/-- The counter after an instruction, which is `none` after a terminator. -/
def Instr.effect : Instr → Nat → Option Nat
  | .statement _, counter | .other, counter => some counter
  | .scopeEnter, counter => some (counter + 1)
  | .scopeExit, counter => some (counter - 1)
  | .scopeExitTo targetDepth, _ => some targetDepth
  | .br _, _ | .condBr _ _, _ | .ret, _ => none

/-- The instruction may be reached with the counter. -/
def Instr.IsTyped (depths : Depths) : Instr → Nat → Prop
  | .statement depth, counter => counter = depth
  | .scopeExit, counter => 0 < counter
  | .scopeExitTo targetDepth, counter => targetDepth ≤ counter
  | .br target, counter => depths target = some counter
  | .condBr ifTrue ifFalse, counter =>
      depths ifTrue = some counter ∧ depths ifFalse = some counter
  | .other, _ | .scopeEnter, _ | .ret, _ => True

def depthAfter (counter : Nat) (code : List Instr) : Option Nat :=
  code.foldlM (fun counter instr => instr.effect counter) counter

def IsTyped (depths : Depths) (counter : Nat) (code : List Instr) : Prop :=
  ∀ offset instr before, code[offset]? = some instr →
    depthAfter counter (code.take offset) = some before → instr.IsTyped depths before

def Extends (earlier later : Depths) : Prop :=
  ∀ block depth, earlier block = some depth → later block = some depth

theorem Extends.refl (depths : Depths) : Extends depths depths := fun _ _ known => known

theorem Extends.trans {first second third : Depths} (left : Extends first second)
    (right : Extends second third) : Extends first third :=
  fun block depth known => right block depth (left block depth known)

theorem Instr.IsTyped.extend {earlier later : Depths} (more : Extends earlier later)
    {instr : Instr} {counter : Nat} (typed : instr.IsTyped earlier counter) :
    instr.IsTyped later counter := by
  cases instr with
  | br target => exact more _ _ typed
  | condBr ifTrue ifFalse => exact ⟨more _ _ typed.1, more _ _ typed.2⟩
  | _ => exact typed

theorem depthAfter_append (counter : Nat) (code : List Instr) (instr : Instr) :
    depthAfter counter (code ++ [instr]) = (depthAfter counter code).bind instr.effect := by
  simp [depthAfter, List.foldlM_append]

theorem isTyped_nil (depths : Depths) (counter : Nat) : IsTyped depths counter [] := by
  intro offset instr before at_offset
  simp at at_offset

theorem IsTyped.append {depths : Depths} {counter : Nat} {code : List Instr}
    (typed : IsTyped depths counter code) {instr : Instr}
    (last : ∀ before, depthAfter counter code = some before → instr.IsTyped depths before) :
    IsTyped depths counter (code ++ [instr]) := by
  intro offset found before at_offset reached
  rcases Nat.lt_trichotomy offset code.length with inside | rfl | outside
  · rw [List.getElem?_append_left inside] at at_offset
    rw [List.take_append_of_le_length inside.le] at reached
    exact typed offset found before at_offset reached
  · rw [List.getElem?_concat_length] at at_offset
    rw [List.take_left] at reached
    exact Option.some.inj at_offset ▸ last before reached
  · have beyond : (code ++ [instr]).length ≤ offset := by
      rw [List.length_append]
      exact outside
    rw [List.getElem?_eq_none beyond] at at_offset
    cases at_offset

/-- Nothing follows a terminator. -/
theorem depthAfter_of_terminator {counter : Nat} {code : List Instr} {instr : Instr}
    (member : instr ∈ code) (terminator : instr.isTerminator = true) :
    depthAfter counter code = none := by
  induction code generalizing counter with
  | nil => cases member
  | cons first code ih =>
    have step : depthAfter counter (first :: code) =
        (first.effect counter).bind fun next => depthAfter next code := rfl
    rw [step]
    cases member with
    | head =>
      cases instr with
      | br _ | condBr _ _ | ret => rfl
      | _ => cases terminator
    | tail _ member =>
      cases first.effect counter with
      | none => rfl
      | some next => exact ih member

theorem depthAfter_of_getTerminator {emitter : Emitter} (terminated : emitter.getTerminator = true)
    (counter : Nat) : depthAfter counter (emitter.code emitter.insertBlock) = none := by
  rw [Emitter.getTerminator, Option.any_eq_true] at terminated
  obtain ⟨instr, last, terminator⟩ := terminated
  exact depthAfter_of_terminator (List.mem_filter.mp (List.mem_of_getLast? last)).1 terminator

end Depths

section Invariant

/-- Every block is entered with the counter that `depths` gives it, and the code at the insertion
point, where it can be reached, leaves the counter at the static depth.  The reserved blocks are
still to be filled. -/
structure Invariant (emitter : Emitter) (depths : Depths) (reserved : Set Nat) : Prop where
  typed : ∀ block depth, depths block = some depth → IsTyped depths depth (emitter.code block)
  unused : ∀ block, emitter.nextBlock ≤ block → depths block = none
  empty : ∀ block, depths block = none → emitter.code block = []
  current : ∃ depth, depths emitter.insertBlock = some depth ∧ ∀ counter,
    depthAfter depth (emitter.code emitter.insertBlock) = some counter →
      counter = emitter.runtimeScopeDepth
  reserved : ∀ block ∈ reserved,
    depths block ≠ none ∧ emitter.code block = [] ∧ block ≠ emitter.insertBlock
  labels : ∀ label block depth, emitter.labelBlocks label = some (block, depth) →
    depths block = some depth
  apart : ∀ label label' block depth depth', emitter.labelBlocks label = some (block, depth) →
    emitter.labelBlocks label' = some (block, depth') → label = label'

variable {emitter : Emitter} {depths : Depths} {reserved : Set Nat}

theorem Invariant.mono (invariant : Invariant emitter depths reserved) {fewer : Set Nat}
    (subset : fewer ⊆ reserved) : Invariant emitter depths fewer :=
  { invariant with reserved := fun block member => invariant.reserved block (subset member) }

theorem Invariant.lt_nextBlock (invariant : Invariant emitter depths reserved) {block : Nat}
    (member : block ∈ reserved) : block < emitter.nextBlock := by
  by_contra beyond
  exact (invariant.reserved block member).1 (invariant.unused block (Nat.le_of_not_lt beyond))

/-- An instruction at the insertion point that takes the counter to another static depth. -/
theorem Invariant.append (invariant : Invariant emitter depths reserved) {instr : Instr}
    (next : Nat) (typed : instr.IsTyped depths emitter.runtimeScopeDepth)
    (effect : ∀ counter, instr.effect emitter.runtimeScopeDepth = some counter → counter = next) :
    Invariant { emitter.append instr with runtimeScopeDepth := next } depths reserved := by
  obtain ⟨depth, known, current⟩ := invariant.current
  have elsewhere {block : Nat} (other : block ≠ emitter.insertBlock) :
      (emitter.append instr).code block = emitter.code block := Function.update_of_ne other _ _
  have here : (emitter.append instr).code emitter.insertBlock =
      emitter.code emitter.insertBlock ++ [instr] := Function.update_self _ _ _
  constructor
  · intro block start known'
    by_cases same : block = emitter.insertBlock
    · subst same
      obtain rfl : depth = start := Option.some.inj (known.symm.trans known')
      show IsTyped depths depth ((emitter.append instr).code emitter.insertBlock)
      rw [here]
      apply (invariant.typed _ _ known).append
      intro before reached
      rwa [current before reached]
    · show IsTyped depths start ((emitter.append instr).code block)
      rw [elsewhere same]
      exact invariant.typed block start known'
  · exact invariant.unused
  · intro block unknown
    show (emitter.append instr).code block = []
    rw [elsewhere]
    · exact invariant.empty block unknown
    · rintro rfl
      rw [known] at unknown
      cases unknown
  · refine ⟨depth, known, fun counter reached => ?_⟩
    change depthAfter depth ((emitter.append instr).code emitter.insertBlock) = some counter
      at reached
    rw [here, depthAfter_append, Option.bind_eq_some_iff] at reached
    obtain ⟨before, reached, after⟩ := reached
    rw [current before reached] at after
    exact effect counter after
  · intro block member
    obtain ⟨exists_depth, unfilled, other⟩ := invariant.reserved block member
    exact ⟨exists_depth, (elsewhere other).trans unfilled, other⟩
  · exact invariant.labels
  · exact invariant.apart

theorem Invariant.statement (invariant : Invariant emitter depths reserved) :
    Invariant (emitter.append (.statement emitter.runtimeScopeDepth)) depths reserved :=
  invariant.append emitter.runtimeScopeDepth rfl fun _ same => (Option.some.inj same).symm

theorem Invariant.other (invariant : Invariant emitter depths reserved) :
    Invariant (emitter.append .other) depths reserved :=
  invariant.append emitter.runtimeScopeDepth trivial fun _ same => (Option.some.inj same).symm

theorem Invariant.ret (invariant : Invariant emitter depths reserved) :
    Invariant (emitter.append .ret) depths reserved :=
  invariant.append emitter.runtimeScopeDepth trivial nofun

theorem Invariant.br (invariant : Invariant emitter depths reserved) {target : Nat}
    (known : depths target = some emitter.runtimeScopeDepth) :
    Invariant (emitter.append (.br target)) depths reserved :=
  invariant.append emitter.runtimeScopeDepth known nofun

theorem Invariant.condBr (invariant : Invariant emitter depths reserved) {ifTrue ifFalse : Nat}
    (known_true : depths ifTrue = some emitter.runtimeScopeDepth)
    (known_false : depths ifFalse = some emitter.runtimeScopeDepth) :
    Invariant (emitter.append (.condBr ifTrue ifFalse)) depths reserved :=
  invariant.append emitter.runtimeScopeDepth ⟨known_true, known_false⟩ nofun

theorem Invariant.brUnlessTerminated (invariant : Invariant emitter depths reserved)
    {target : Nat} (known : depths target = some emitter.runtimeScopeDepth) :
    Invariant (emitter.brUnlessTerminated target) depths reserved := by
  unfold Emitter.brUnlessTerminated
  split
  · exact invariant
  · exact invariant.br known

theorem Invariant.enterScope (invariant : Invariant emitter depths reserved) :
    Invariant emitter.enterScope depths reserved :=
  invariant.append (emitter.runtimeScopeDepth + 1) trivial
    fun _ same => (Option.some.inj same).symm

theorem Invariant.exitScope (invariant : Invariant emitter depths reserved)
    (inside : 0 < emitter.runtimeScopeDepth) :
    Invariant emitter.emitRuntimeScopeExit.leaveScope depths reserved :=
  invariant.append (emitter.runtimeScopeDepth - 1) inside
    fun _ same => (Option.some.inj same).symm

/-- Behind a terminator the static depth does not matter. -/
theorem Invariant.ofTerminated {depth : Nat}
    (invariant : Invariant { emitter with runtimeScopeDepth := depth } depths reserved)
    (terminated : ∀ start, depthAfter start (emitter.code emitter.insertBlock) = none) :
    Invariant emitter depths reserved := by
  obtain ⟨start, known, -⟩ := invariant.current
  refine { invariant with current := ⟨start, known, fun counter reached => ?_⟩ }
  rw [terminated] at reached
  cases reached

theorem Invariant.leaveScope (invariant : Invariant emitter depths reserved)
    (terminated : emitter.getTerminator = true) :
    Invariant emitter.leaveScope depths reserved :=
  Invariant.ofTerminated invariant (depthAfter_of_getTerminator terminated)

theorem depthAfter_terminated (emitter : Emitter) {instr : Instr}
    (terminator : ∀ counter, instr.effect counter = none) (start : Nat) :
    depthAfter start ((emitter.append instr).code (emitter.append instr).insertBlock) = none := by
  have here : (emitter.append instr).code (emitter.append instr).insertBlock =
      emitter.code emitter.insertBlock ++ [instr] := Function.update_self _ _ _
  rw [here, depthAfter_append]
  cases depthAfter start (emitter.code emitter.insertBlock) with
  | none => rfl
  | some counter => exact terminator counter

/-- A jump to a block of an outer scope, or of the same. -/
theorem Invariant.jump (invariant : Invariant emitter depths reserved) {target depth : Nat}
    (outer : depth ≤ emitter.runtimeScopeDepth) (known : depths target = some depth) :
    Invariant ((emitter.emitRuntimeScopeExitTo depth).append (.br target)) depths reserved := by
  unfold Emitter.emitRuntimeScopeExitTo
  split
  · have left : Invariant { emitter.append (.scopeExitTo depth) with runtimeScopeDepth := depth }
        depths reserved :=
      invariant.append depth outer fun _ same => (Option.some.inj same).symm
    exact Invariant.ofTerminated (left.br known) (depthAfter_terminated _ fun _ => rfl)
  · rename_i same
    obtain rfl : depth = emitter.runtimeScopeDepth := Nat.le_antisymm outer (Nat.le_of_not_lt same)
    exact invariant.br known

/-- Leaving the function. -/
theorem Invariant.emitExit (invariant : Invariant emitter depths reserved) :
    Invariant emitter.emitExit depths reserved := by
  unfold Emitter.emitExit Emitter.emitRuntimeScopeExitTo
  split
  · have left : Invariant { emitter.append (.scopeExitTo 0) with runtimeScopeDepth := 0 }
        depths reserved :=
      invariant.append 0 (Nat.zero_le _) fun _ same => (Option.some.inj same).symm
    exact Invariant.ofTerminated left.other.ret (depthAfter_terminated _ fun _ => rfl)
  · exact invariant.other.ret

/-- A new block, whose entry depth may be chosen. -/
theorem Invariant.createBlock (invariant : Invariant emitter depths reserved) (depth : Nat) :
    Invariant emitter.createBlock (Function.update depths emitter.nextBlock (some depth))
        (insert emitter.nextBlock reserved) ∧
      Extends depths (Function.update depths emitter.nextBlock (some depth)) := by
  have unused := invariant.unused emitter.nextBlock (Nat.le_refl _)
  have old {block start : Nat} (known : depths block = some start) :
      block ≠ emitter.nextBlock := by
    rintro rfl
    rw [unused] at known
    cases known
  have more : Extends depths (Function.update depths emitter.nextBlock (some depth)) :=
    fun block start known => (Function.update_of_ne (old known) _ _).trans known
  refine ⟨?_, more⟩
  constructor
  · intro block start known
    by_cases new : block = emitter.nextBlock
    · subst new
      show IsTyped _ start (emitter.code emitter.nextBlock)
      rw [invariant.empty _ unused]
      exact isTyped_nil _ _
    · rw [Function.update_of_ne new] at known
      intro offset instr before at_offset reached
      exact (invariant.typed block start known offset instr before at_offset reached).extend more
  · intro block beyond
    have later : emitter.nextBlock < block := beyond
    rw [Function.update_of_ne later.ne']
    exact invariant.unused block later.le
  · intro block unknown
    by_cases new : block = emitter.nextBlock
    · subst new
      exact invariant.empty _ unused
    · rw [Function.update_of_ne new] at unknown
      exact invariant.empty block unknown
  · obtain ⟨start, known, current⟩ := invariant.current
    exact ⟨start, more _ _ known, current⟩
  · rintro block (rfl | member)
    · refine ⟨by simp, invariant.empty _ unused, ?_⟩
      obtain ⟨start, known, -⟩ := invariant.current
      exact fun same => old known same.symm
    · obtain ⟨known, unfilled, elsewhere⟩ := invariant.reserved block member
      obtain ⟨start, known⟩ := Option.ne_none_iff_exists'.mp known
      exact ⟨by rw [more _ _ known]; simp, unfilled, elsewhere⟩
  · exact fun label block start found => more _ _ (invariant.labels label block start found)
  · exact invariant.apart

/-- Emission goes on in a reserved block of the present depth. -/
theorem Invariant.setInsertPoint (invariant : Invariant emitter depths reserved) {block : Nat}
    (member : block ∈ reserved) (known : depths block = some emitter.runtimeScopeDepth) :
    Invariant (emitter.setInsertPoint block) depths (reserved \ {block}) := by
  constructor
  · exact invariant.typed
  · exact invariant.unused
  · exact invariant.empty
  · refine ⟨emitter.runtimeScopeDepth, known, fun counter reached => ?_⟩
    change depthAfter _ (emitter.code block) = some counter at reached
    rw [(invariant.reserved block member).2.1] at reached
    exact (Option.some.inj reached).symm
  · rintro other ⟨inside, apart⟩
    obtain ⟨known, unfilled, -⟩ := invariant.reserved other inside
    exact ⟨known, unfilled, apart⟩
  · exact invariant.labels
  · exact invariant.apart

end Invariant

end HitSimple.ControlFlow

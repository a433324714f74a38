import HitSimple.Codegen.ScopeBalance

namespace HitSimple.ControlFlow

section Function
variable {emitter : Emitter} {depths : Depths} {reserved : Set Nat}

/-- A new label gets a new block of its depth. -/
theorem Invariant.addLabel (invariant : Invariant emitter depths reserved) (label : String)
    (depth : Nat) (free : emitter.labelBlocks label = none) :
    ∃ depths', Extends depths depths' ∧
      Invariant (emitter.addLabel (label, depth)) depths' (insert emitter.nextBlock reserved) ∧
      (emitter.addLabel (label, depth)).labelBlocks =
        Function.update emitter.labelBlocks label (some (emitter.nextBlock, depth)) := by
  obtain ⟨created, more⟩ := invariant.createBlock depth
  have added : emitter.addLabel (label, depth) =
      { emitter.createBlock with
        labelBlocks := Function.update emitter.labelBlocks label
          (some (emitter.nextBlock, depth)) } := by
    simp [Emitter.addLabel, free]
  have unused := invariant.unused emitter.nextBlock (Nat.le_refl _)
  have old {other : String} {block start : Nat}
      (found : emitter.labelBlocks other = some (block, start)) : block ≠ emitter.nextBlock := by
    rintro rfl
    have known := invariant.labels other _ start found
    rw [unused] at known
    cases known
  rw [added]
  refine ⟨_, more, { created with labels := ?_, apart := ?_ }, rfl⟩
  · intro other block start found
    change Function.update emitter.labelBlocks label (some (emitter.nextBlock, depth)) other = _
      at found
    by_cases same : other = label
    · subst same
      rw [Function.update_self] at found
      obtain ⟨rfl, rfl⟩ := Prod.mk.inj (Option.some.inj found)
      exact Function.update_self _ _ _
    · rw [Function.update_of_ne same] at found
      exact more _ _ (invariant.labels other block start found)
  · intro first second block start start' found found'
    change Function.update emitter.labelBlocks label (some (emitter.nextBlock, depth)) first = _
      at found
    change Function.update emitter.labelBlocks label (some (emitter.nextBlock, depth)) second = _
      at found'
    by_cases same : first = label
    · by_cases same' : second = label
      · rw [same, same']
      · subst same
        rw [Function.update_self] at found
        rw [Function.update_of_ne same'] at found'
        obtain ⟨rfl, rfl⟩ := Prod.mk.inj (Option.some.inj found)
        exact absurd rfl (old found')
    · rw [Function.update_of_ne same] at found
      by_cases same' : second = label
      · subst same'
        rw [Function.update_self] at found'
        obtain ⟨rfl, rfl⟩ := Prod.mk.inj (Option.some.inj found')
        exact absurd rfl (old found)
      · rw [Function.update_of_ne same'] at found'
        exact invariant.apart first second block start start' found found'

/-- What the pass over the labels of a function leaves. -/
structure LabelsAdded (before after : Emitter) (depths depths' : Depths) (reserved : Set Nat)
    (labels : List (String × Nat)) : Prop where
  more : Extends depths depths'
  invariant : Invariant after depths' (reserved ∪ blocksOf after.labelBlocks labels)
  collected : Collected after.labelBlocks labels
  earlier : ∀ label entry, before.labelBlocks label = some entry →
    after.labelBlocks label = some entry
  runtimeScopeDepth : after.runtimeScopeDepth = before.runtimeScopeDepth
  loopTargets : after.loopTargets = before.loopTargets
  catchTargets : after.catchTargets = before.catchTargets

theorem addLabel_surroundings (emitter : Emitter) (label : String × Nat) :
    (emitter.addLabel label).runtimeScopeDepth = emitter.runtimeScopeDepth ∧
      (emitter.addLabel label).loopTargets = emitter.loopTargets ∧
      (emitter.addLabel label).catchTargets = emitter.catchTargets := by
  unfold Emitter.addLabel
  split <;> exact ⟨rfl, rfl, rfl⟩

theorem Invariant.addLabels (invariant : Invariant emitter depths reserved)
    (labels : List (String × Nat)) (distinct : (labels.map Prod.fst).Nodup)
    (free : ∀ label ∈ labels, emitter.labelBlocks label.1 = none) :
    ∃ depths', LabelsAdded emitter (labels.foldl Emitter.addLabel emitter) depths depths' reserved
      labels := by
  induction labels generalizing emitter depths reserved with
  | nil =>
    refine ⟨depths, Extends.refl depths, invariant.mono ?_, ⟨nofun, List.nodup_nil⟩,
      fun _ _ found => found, rfl, rfl, rfl⟩
    rintro block (old | ⟨label, member, -⟩)
    · exact old
    · cases member
  | cons label labels ih =>
    obtain ⟨name, depth⟩ := label
    obtain ⟨new, distinct⟩ := List.nodup_cons.mp distinct
    obtain ⟨_, more, added, table⟩ :=
      invariant.addLabel name depth (free _ List.mem_cons_self)
    obtain ⟨depths', rest⟩ := ih added distinct (by
      intro other member
      have apart : other.1 ≠ name := by
        intro same
        exact new (List.mem_map.mpr ⟨other, member, same⟩)
      rw [table, Function.update_of_ne apart]
      exact free other (List.mem_cons_of_mem _ member))
    have found : (labels.foldl Emitter.addLabel (emitter.addLabel (name, depth))).labelBlocks name =
        some (emitter.nextBlock, depth) := by
      apply rest.earlier
      rw [table, Function.update_self]
    obtain ⟨same_depth, same_loops, same_catches⟩ := addLabel_surroundings emitter (name, depth)
    refine ⟨depths', more.trans rest.more, rest.invariant.mono ?_,
      ⟨?_, List.nodup_cons.mpr ⟨new, distinct⟩⟩, ?_, rest.runtimeScopeDepth.trans same_depth, rest.loopTargets.trans same_loops,
      rest.catchTargets.trans same_catches⟩
    · rintro block (old | ⟨other, member, start, found'⟩)
      · exact .inl (.inr old)
      · cases member with
        | head =>
          obtain ⟨rfl, rfl⟩ := Prod.mk.inj (Option.some.inj (found.symm.trans found'))
          exact .inl (.inl rfl)
        | tail _ member => exact .inr ⟨other, member, start, found'⟩
    · intro other member
      cases member with
      | head => exact ⟨emitter.nextBlock, found⟩
      | tail _ member => exact rest.collected.known other member
    · intro other entry known
      apply rest.earlier
      have apart : other ≠ name := by
        rintro rfl
        rw [free _ List.mem_cons_self] at known
        cases known
      rw [table, Function.update_of_ne apart]
      exact known

theorem invariant_functionEntry :
    Invariant functionEntry (Function.update (fun _ => none) 0 (some 0)) ∅ := by
  constructor
  · intro block depth _
    exact isTyped_nil _ _
  · intro block beyond
    have later : block ≠ 0 := Nat.ne_of_gt beyond
    exact Function.update_of_ne later _ _
  · exact fun _ _ => rfl
  · exact ⟨0, rfl, fun counter reached => (Option.some.inj reached).symm⟩
  · exact fun block member => absurd member (Set.notMem_empty block)
  · exact nofun
  · exact nofun

/-- The emitted function with the depths at which its blocks are entered. -/
theorem Function.emit_invariant (function : Function) {emitter : Emitter}
    (emitted : function.emit = .ok emitter) :
    ∃ depths, depths 0 = some 0 ∧ Invariant emitter depths ∅ := by
  obtain ⟨inner, done, last⟩ := bind_ok emitted
  obtain rfl := (Except.ok.inj last).symm
  obtain ⟨start, added⟩ :=
    invariant_functionEntry.addLabels (function.body.collectLabels 1) function.distinct
      fun _ _ => rfl
  have depth := added.runtimeScopeDepth
  obtain ⟨depths, more, after, -⟩ := function.body.emits.inScope _ _ _ _ added.invariant
    ⟨by rw [added.loopTargets]; exact nofun, by rw [added.catchTargets]; exact nofun⟩
    (by rw [depth]; exact added.collected)
    (by rw [depth]; exact Set.subset_union_right) done
  have entry : depths 0 = some 0 := more _ _ (added.more _ _ (Function.update_self _ _ _))
  have after := after.mono (Set.empty_subset _)
  refine ⟨depths, entry, ?_⟩
  split
  · exact after
  · exact after.emitExit

end Function

section Execution

/-- A point of the emitted function and the scope counter of its frame. -/
structure Config where
  block : Nat
  offset : Nat
  counter : Nat

/-- The counter that the runtime leaves; there is none where the runtime fails. -/
def Instr.run : Instr → Nat → Option Nat
  | .statement _, counter | .other, counter => some counter
  | .scopeEnter, counter => hsScopeEnter counter
  | .scopeExit, counter => hsScopeExit counter
  | .scopeExitTo targetDepth, counter => hsScopeExitTo targetDepth counter
  | .br _, _ | .condBr _ _, _ | .ret, _ => none

def Instr.targets : Instr → List Nat
  | .br target => [target]
  | .condBr ifTrue ifFalse => [ifTrue, ifFalse]
  | _ => []

def Config.instr? (code : Nat → List Instr) (config : Config) : Option Instr :=
  (code config.block)[config.offset]?

/-- Either branch may be taken. -/
inductive Step (code : Nat → List Instr) : Config → Config → Prop where
  | next {config : Config} {instr : Instr} {counter : Nat}
      (here : config.instr? code = some instr) (done : instr.run config.counter = some counter) :
      Step code config { config with offset := config.offset + 1, counter := counter }
  | jump {config : Config} {instr : Instr} {target : Nat}
      (here : config.instr? code = some instr) (member : target ∈ instr.targets) :
      Step code config { block := target, offset := 0, counter := config.counter }

/-- The function is called with no scope open in its frame. -/
def Reachable (code : Nat → List Instr) : Config → Prop :=
  Relation.ReflTransGen (Step code) { block := 0, offset := 0, counter := 0 }

/-- The counter is the one of the straight path from the start of the block. -/
def Config.Agrees (code : Nat → List Instr) (depths : Depths) (config : Config) : Prop :=
  ∃ start, depths config.block = some start ∧
    depthAfter start ((code config.block).take config.offset) = some config.counter

variable {emitter : Emitter} {depths : Depths} {reserved : Set Nat} {config : Config}

theorem Invariant.isTyped (invariant : Invariant emitter depths reserved)
    (agrees : config.Agrees emitter.code depths) {instr : Instr}
    (here : config.instr? emitter.code = some instr) : instr.IsTyped depths config.counter := by
  obtain ⟨start, known, reached⟩ := agrees
  exact invariant.typed config.block start known config.offset instr config.counter here reached

/-- The runtime does what the depths say. -/
theorem Instr.IsTyped.effect_of_run {instr : Instr} {counter next : Nat}
    (typed : instr.IsTyped depths counter) (done : instr.run counter = some next) :
    instr.effect counter = some next := by
  cases instr with
  | statement depth => exact done
  | other => exact done
  | scopeEnter =>
    rw [Instr.run, hsScopeEnter] at done
    split at done
    · cases done
    · exact done
  | scopeExit =>
    cases counter with
    | zero => cases done
    | succ counter => exact done
  | scopeExitTo targetDepth =>
    rw [Instr.run, hsScopeExitTo_eq typed] at done
    exact done
  | br target => cases done
  | condBr ifTrue ifFalse => cases done
  | ret => cases done

theorem Instr.IsTyped.entry {instr : Instr} {counter target : Nat}
    (typed : instr.IsTyped depths counter) (member : target ∈ instr.targets) :
    depths target = some counter := by
  cases instr with
  | br next =>
    obtain rfl := List.mem_singleton.mp member
    exact typed
  | condBr ifTrue ifFalse =>
    rcases List.mem_cons.mp member with rfl | member
    · exact typed.1
    · obtain rfl := List.mem_singleton.mp member
      exact typed.2
  | _ => cases member

theorem Invariant.agrees_step (invariant : Invariant emitter depths reserved) {config' : Config}
    (agrees : config.Agrees emitter.code depths) (step : Step emitter.code config config') :
    config'.Agrees emitter.code depths := by
  cases step with
  | next here done =>
    have effect := (invariant.isTyped agrees here).effect_of_run done
    obtain ⟨start, known, reached⟩ := agrees
    refine ⟨start, known, ?_⟩
    rw [List.take_add_one, show (emitter.code config.block)[config.offset]? = _ from here]
    rw [Option.toList_some, depthAfter_append, reached]
    exact effect
  | jump here member => exact ⟨_, (invariant.isTyped agrees here).entry member, rfl⟩

theorem Invariant.agrees_of_reachable (invariant : Invariant emitter depths reserved)
    (entry : depths 0 = some 0) (reachable : Reachable emitter.code config) :
    config.Agrees emitter.code depths := by
  induction reachable with
  | refl => exact ⟨0, entry, rfl⟩
  | tail _ step ih => exact invariant.agrees_step ih step

/-- What the counter is at a point of the function. -/
structure Config.IsBalanced (code : Nat → List Instr) (config : Config) : Prop where
  statement : ∀ depth, config.instr? code = some (.statement depth) → config.counter = depth
  scopeExit : config.instr? code = some .scopeExit → hsScopeExit config.counter ≠ none
  scopeExitTo : ∀ targetDepth, config.instr? code = some (.scopeExitTo targetDepth) →
    targetDepth ≤ config.counter ∧ hsScopeExitTo targetDepth config.counter = some targetDepth

theorem Invariant.isBalanced (invariant : Invariant emitter depths reserved)
    (agrees : config.Agrees emitter.code depths) : config.IsBalanced emitter.code := by
  constructor
  · intro depth here
    exact invariant.isTyped agrees here
  · intro here
    have inside : 0 < config.counter := invariant.isTyped agrees here
    obtain ⟨counter, same⟩ := Nat.exists_eq_succ_of_ne_zero inside.ne'
    rw [same]
    exact Option.some_ne_none counter
  · intro targetDepth here
    have bound : targetDepth ≤ config.counter := invariant.isTyped agrees here
    exact ⟨bound, hsScopeExitTo_eq bound⟩

/-- On every path the counter is the static depth, and a block is always entered at one depth. -/
theorem Function.reachable_isBalanced (function : Function) {emitter : Emitter}
    (emitted : function.emit = .ok emitter) :
    (∀ config, Reachable emitter.code config → config.IsBalanced emitter.code) ∧
      ∃ entryDepth : Nat → Nat, ∀ block counter,
        Reachable emitter.code { block := block, offset := 0, counter := counter } →
          counter = entryDepth block := by
  obtain ⟨depths, entry, invariant⟩ := function.emit_invariant emitted
  constructor
  · intro config reachable
    exact invariant.isBalanced (invariant.agrees_of_reachable entry reachable)
  · refine ⟨fun block => (depths block).getD 0, fun block counter reachable => ?_⟩
    obtain ⟨start, known, reached⟩ := invariant.agrees_of_reachable entry reachable
    have known : depths block = some start := known
    have same : start = counter := Option.some.inj reached
    show counter = (depths block).getD 0
    rw [known, ← same]
    rfl

/-- A loop whose body leaves two scopes by a jump back, by a break and by a throw. -/
def retryLoop : Function where
  body := .cons
    (.labelStmt "again" (.forStmt (.simple true) true (.cons (.simple true) .nil)
      (.cons (.tryCatch
        (.cons (.ifThen (.cons .throwStmt .nil)) (.cons (.gotoStmt "again") .nil))
        (.cons .breakStmt .nil)) .nil))) .nil
  distinct := by decide

theorem retryLoop_isBalanced : ∃ emitter, retryLoop.emit = .ok emitter ∧
    (∀ config, Reachable emitter.code config → config.IsBalanced emitter.code) ∧
      ∃ entryDepth : Nat → Nat, ∀ block counter,
        Reachable emitter.code { block := block, offset := 0, counter := counter } →
          counter = entryDepth block := by
  have emits : retryLoop.emit.isOk = true := by decide
  cases emitted : retryLoop.emit with
  | error message =>
    rw [emitted] at emits
    cases emits
  | ok emitter => exact ⟨emitter, rfl, retryLoop.reachable_isBalanced emitted⟩

end Execution

end HitSimple.ControlFlow

import HitSimple.Codegen.ScopeInvariant
import Mathlib.Logic.Function.Iterate
import Mathlib.Data.Set.Lattice

namespace HitSimple.ControlFlow

section Surroundings

/-- What the emission of a whole statement leaves as it was. -/
structure Keeps (before after : Emitter) : Prop where
  runtimeScopeDepth : after.runtimeScopeDepth = before.runtimeScopeDepth
  loopTargets : after.loopTargets = before.loopTargets
  catchTargets : after.catchTargets = before.catchTargets
  labelBlocks : after.labelBlocks = before.labelBlocks

theorem Keeps.refl (emitter : Emitter) : Keeps emitter emitter := ⟨rfl, rfl, rfl, rfl⟩

theorem Keeps.trans {first second third : Emitter} (left : Keeps first second)
    (right : Keeps second third) : Keeps first third :=
  ⟨right.1.trans left.1, right.2.trans left.2, right.3.trans left.3, right.4.trans left.4⟩

theorem keeps_append (emitter : Emitter) (instr : Instr) : Keeps emitter (emitter.append instr) :=
  ⟨rfl, rfl, rfl, rfl⟩

theorem keeps_brUnlessTerminated (emitter : Emitter) (target : Nat) :
    Keeps emitter (emitter.brUnlessTerminated target) := by
  unfold Emitter.brUnlessTerminated
  split
  · exact Keeps.refl _
  · exact keeps_append _ _

theorem keeps_emitRuntimeScopeExitTo (emitter : Emitter) (targetDepth : Nat) :
    Keeps emitter (emitter.emitRuntimeScopeExitTo targetDepth) := by
  unfold Emitter.emitRuntimeScopeExitTo
  split
  · exact keeps_append _ _
  · exact Keeps.refl _

/-- The targets of jumps out of the present scopes are entered at the depths recorded for them. -/
structure Targets (emitter : Emitter) (depths : Depths) : Prop where
  loops : ∀ targets ∈ emitter.loopTargets,
    depths targets.breakBlock = some targets.breakScopeDepth ∧
      depths targets.continueBlock = some targets.continueScopeDepth ∧
      targets.breakScopeDepth ≤ emitter.runtimeScopeDepth ∧
      targets.continueScopeDepth ≤ emitter.runtimeScopeDepth
  catches : ∀ target ∈ emitter.catchTargets,
    depths target.catchBlock = some target.scopeDepth ∧
      target.scopeDepth ≤ emitter.runtimeScopeDepth

theorem Targets.of_keeps {before after : Emitter} {depths depths' : Depths}
    (targets : Targets before depths) (keeps : Keeps before after)
    (more : Extends depths depths') : Targets after depths' := by
  constructor
  · intro loop member
    rw [keeps.loopTargets] at member
    obtain ⟨known, known', bound, bound'⟩ := targets.loops loop member
    rw [keeps.runtimeScopeDepth]
    exact ⟨more _ _ known, more _ _ known', bound, bound'⟩
  · intro target member
    rw [keeps.catchTargets] at member
    rw [keeps.runtimeScopeDepth]
    exact ⟨more _ _ (targets.catches target member).1, (targets.catches target member).2⟩

theorem Targets.enterScope {emitter : Emitter} {depths : Depths}
    (targets : Targets emitter depths) : Targets emitter.enterScope depths := by
  constructor
  · intro loop member
    obtain ⟨known, known', bound, bound'⟩ := targets.loops loop member
    exact ⟨known, known', Nat.le_succ_of_le bound, Nat.le_succ_of_le bound'⟩
  · intro target member
    exact ⟨(targets.catches target member).1,
      Nat.le_succ_of_le (targets.catches target member).2⟩

abbrev LabelBlocks := String → Option (Nat × Nat)

/-- The blocks of the labels. -/
def blocksOf (labelBlocks : LabelBlocks) (labels : List (String × Nat)) : Set Nat :=
  {block | ∃ label ∈ labels, ∃ depth, labelBlocks label.1 = some (block, depth)}

/-- The table has the depths of the labels, which are distinct. -/
structure Collected (labelBlocks : LabelBlocks) (labels : List (String × Nat)) : Prop where
  known : ∀ label ∈ labels, ∃ block, labelBlocks label.1 = some (block, label.2)
  distinct : (labels.map Prod.fst).Nodup

theorem blocksOf_append (labelBlocks : LabelBlocks) (left right : List (String × Nat)) :
    blocksOf labelBlocks (left ++ right) = blocksOf labelBlocks left ∪ blocksOf labelBlocks right := by
  ext block
  simp [blocksOf, or_and_right, exists_or]

theorem Collected.left {labelBlocks : LabelBlocks} {left right : List (String × Nat)}
    (collected : Collected labelBlocks (left ++ right)) : Collected labelBlocks left := by
  refine ⟨fun label member => collected.known label (List.mem_append_left _ member), ?_⟩
  have distinct := collected.distinct
  rw [List.map_append] at distinct
  exact (List.nodup_append.mp distinct).1

theorem Collected.right {labelBlocks : LabelBlocks} {left right : List (String × Nat)}
    (collected : Collected labelBlocks (left ++ right)) : Collected labelBlocks right := by
  refine ⟨fun label member => collected.known label (List.mem_append_right _ member), ?_⟩
  have distinct := collected.distinct
  rw [List.map_append] at distinct
  exact (List.nodup_append.mp distinct).2.1

/-- Different labels have different blocks. -/
theorem Collected.disjoint {emitter : Emitter} {depths : Depths} {reserved : Set Nat}
    (invariant : Invariant emitter depths reserved) {left right : List (String × Nat)}
    (collected : Collected emitter.labelBlocks (left ++ right)) {block : Nat}
    (first : block ∈ blocksOf emitter.labelBlocks left) :
    block ∉ blocksOf emitter.labelBlocks right := by
  rintro ⟨label, member, depth, found⟩
  obtain ⟨label', member', depth', found'⟩ := first
  have distinct := collected.distinct
  rw [List.map_append, List.nodup_append] at distinct
  exact distinct.2.2 _ (List.mem_map_of_mem member') _ (List.mem_map_of_mem member)
    (invariant.apart _ _ _ _ _ found' found)

end Surroundings

section Emission
attribute [local simp] Stmt.emit

/-- The emission keeps the invariant and fills exactly the blocks of its labels. -/
def Emits (emit : Emitter → Emission) (labels : Nat → List (String × Nat)) : Prop :=
  ∀ (emitter : Emitter) (depths : Depths) (reserved : Set Nat) (result : Emitter),
    Invariant emitter depths reserved → Targets emitter depths →
    Collected emitter.labelBlocks (labels emitter.runtimeScopeDepth) →
    blocksOf emitter.labelBlocks (labels emitter.runtimeScopeDepth) ⊆ reserved →
    emit emitter = .ok result →
    ∃ depths', Extends depths depths' ∧
      Invariant result depths'
        (reserved \ blocksOf emitter.labelBlocks (labels emitter.runtimeScopeDepth)) ∧
      Keeps emitter result

theorem bind_ok {first : Emission} {next : Emitter → Emission} {result : Emitter}
    (done : first.bind next = .ok result) :
    ∃ middle, first = .ok middle ∧ next middle = .ok result := by
  cases first with
  | error message => cases done
  | ok middle => exact ⟨middle, rfl, done⟩

/-- Emission that has no labels and changes only the code at the insertion point. -/
theorem emits_of_step {emit : Emitter → Emission}
    (step : ∀ {emitter : Emitter} {depths : Depths} {reserved : Set Nat} {result : Emitter},
      Invariant emitter depths reserved → Targets emitter depths → emit emitter = .ok result →
      Invariant result depths reserved ∧ Keeps emitter result) :
    Emits emit fun _ => [] := by
  intro emitter depths reserved result invariant targets _ _ emitted
  obtain ⟨after, keeps⟩ := step invariant targets emitted
  exact ⟨depths, Extends.refl depths, after.mono Set.sdiff_subset, keeps⟩

theorem Emits.andThen {first second : Emitter → Emission}
    {labels labels' : Nat → List (String × Nat)} (emits_first : Emits first labels)
    (emits_second : Emits second labels') :
    Emits (fun emitter => (first emitter).bind second)
      fun scopeDepth => labels scopeDepth ++ labels' scopeDepth := by
  intro emitter depths reserved result invariant targets collected subset emitted
  obtain ⟨middle, done, rest⟩ := bind_ok emitted
  rw [blocksOf_append, Set.union_subset_iff] at subset
  obtain ⟨depths', more, invariant', keeps⟩ :=
    emits_first _ _ _ _ invariant targets collected.left subset.1 done
  have later : blocksOf middle.labelBlocks (labels' middle.runtimeScopeDepth) =
      blocksOf emitter.labelBlocks (labels' emitter.runtimeScopeDepth) := by
    rw [keeps.labelBlocks, keeps.runtimeScopeDepth]
  obtain ⟨depths'', more', invariant'', keeps'⟩ := emits_second _ _ _ _ invariant'
    (targets.of_keeps keeps more)
    (by rw [keeps.labelBlocks, keeps.runtimeScopeDepth]; exact collected.right)
    (by
      rw [later]
      exact fun block member => ⟨subset.2 member,
        fun earlier => collected.disjoint invariant earlier member⟩) rest
  refine ⟨depths'', more.trans more', ?_, keeps.trans keeps'⟩
  rw [later] at invariant''
  rw [blocksOf_append, ← Set.sdiff_sdiff]
  exact invariant''

/-- A block opens a scope and closes it again. -/
theorem Emits.inScope {statements : Emitter → Emission} {labels : Nat → List (String × Nat)}
    (emits : Emits statements labels) :
    Emits (emitScoped statements) fun scopeDepth => labels (scopeDepth + 1) := by
  intro emitter depths reserved result invariant targets collected subset emitted
  obtain ⟨middle, done, last⟩ := bind_ok emitted
  obtain ⟨depths', more, invariant', keeps⟩ :=
    emits _ _ _ _ invariant.enterScope targets.enterScope collected subset done
  obtain rfl := (Except.ok.inj last).symm
  refine ⟨depths', more, ?_, ?_⟩
  · split
    · rename_i terminated
      exact invariant'.leaveScope terminated
    · apply invariant'.exitScope
      rw [keeps.runtimeScopeDepth]
      exact Nat.succ_pos _
  · have depth : middle.runtimeScopeDepth - 1 = emitter.runtimeScopeDepth := by
      rw [keeps.runtimeScopeDepth]
      exact Nat.add_sub_cancel _ _
    split <;> exact ⟨depth, keeps.loopTargets, keeps.catchTargets, keeps.labelBlocks⟩

theorem emits_simple (emitsCode : Bool) : Emits (Stmt.simple emitsCode).emit fun _ => [] := by
  apply emits_of_step
  intro emitter depths reserved result invariant _ emitted
  obtain rfl := (Except.ok.inj emitted).symm
  cases emitsCode with
  | false => exact ⟨invariant.statement, keeps_append _ _⟩
  | true => exact ⟨invariant.statement.other, (keeps_append _ _).trans (keeps_append _ _)⟩

theorem keeps_emitExit (emitter : Emitter) : Keeps emitter emitter.emitExit :=
  ((keeps_emitRuntimeScopeExitTo _ _).trans (keeps_append _ _)).trans (keeps_append _ _)

theorem keeps_jump (emitter : Emitter) (depth target : Nat) :
    Keeps emitter ((emitter.emitRuntimeScopeExitTo depth).append (.br target)) :=
  (keeps_emitRuntimeScopeExitTo _ _).trans (keeps_append _ _)

theorem emits_return : Emits Stmt.returnStmt.emit fun _ => [] := by
  apply emits_of_step
  intro emitter depths reserved result invariant _ emitted
  obtain rfl := (Except.ok.inj emitted).symm
  exact ⟨invariant.statement.emitExit, (keeps_append _ _).trans (keeps_emitExit _)⟩

theorem emits_break : Emits Stmt.breakStmt.emit fun _ => [] := by
  apply emits_of_step
  intro emitter depths reserved result invariant targets emitted
  cases loops : emitter.loopTargets with
  | nil => simp [Emitter.emitBreak, Emitter.append, loops] at emitted
  | cons loop outer =>
    obtain ⟨known, -, bound, -⟩ := targets.loops loop (by simp [loops])
    have emitted : (((emitter.append (.statement emitter.runtimeScopeDepth)).emitRuntimeScopeExitTo
        loop.breakScopeDepth).append (.br loop.breakBlock)) = result := by
      simpa [Emitter.emitBreak, Emitter.append, loops] using emitted
    subst emitted
    exact ⟨invariant.statement.jump bound known, (keeps_append _ _).trans (keeps_jump _ _ _)⟩

theorem emits_continue : Emits Stmt.continueStmt.emit fun _ => [] := by
  apply emits_of_step
  intro emitter depths reserved result invariant targets emitted
  cases loops : emitter.loopTargets with
  | nil => simp [Emitter.emitContinue, Emitter.append, loops] at emitted
  | cons loop outer =>
    obtain ⟨-, known, -, bound⟩ := targets.loops loop (by simp [loops])
    have emitted : (((emitter.append (.statement emitter.runtimeScopeDepth)).emitRuntimeScopeExitTo
        loop.continueScopeDepth).append (.br loop.continueBlock)) = result := by
      simpa [Emitter.emitContinue, Emitter.append, loops] using emitted
    subst emitted
    exact ⟨invariant.statement.jump bound known, (keeps_append _ _).trans (keeps_jump _ _ _)⟩

theorem emits_throw : Emits Stmt.throwStmt.emit fun _ => [] := by
  apply emits_of_step
  intro emitter depths reserved result invariant targets emitted
  have emitted := Except.ok.inj emitted
  subst emitted
  unfold Emitter.emitThrow
  split
  · exact ⟨invariant.statement.emitExit, (keeps_append _ _).trans (keeps_emitExit _)⟩
  · rename_i target outer catches
    obtain ⟨known, bound⟩ := targets.catches target (by
      have catches : emitter.catchTargets = target :: outer := catches
      simp [catches])
    exact ⟨invariant.statement.other.jump bound known,
      ((keeps_append _ _).trans (keeps_append _ _)).trans (keeps_jump _ _ _)⟩

/-- A goto passes the depth check of the emitter or is diagnosed. -/
theorem emits_goto (label : String) : Emits (Stmt.gotoStmt label).emit fun _ => [] := by
  apply emits_of_step
  intro emitter depths reserved result invariant _ emitted
  rw [Stmt.emit, Emitter.emitGoto] at emitted
  split at emitted
  · cases emitted
  · rename_i block depth found
    split at emitted
    · cases emitted
    · rename_i inside
      have emitted := Except.ok.inj emitted
      subst emitted
      have known := invariant.labels label block depth found
      exact ⟨invariant.statement.jump (Nat.le_of_not_lt inside) known,
        (keeps_append _ _).trans (keeps_jump _ _ _)⟩

end Emission

section Blocks

theorem createBlock_nextBlock (emitter : Emitter) (count : Nat) :
    (Emitter.createBlock^[count] emitter).nextBlock = emitter.nextBlock + count := by
  induction count with
  | zero => rfl
  | succ count ih =>
    rw [Function.iterate_succ_apply']
    exact congrArg Nat.succ ih

theorem Invariant.createBlocks {emitter : Emitter} {depths : Depths} {reserved : Set Nat}
    (invariant : Invariant emitter depths reserved) (count depth : Nat) :
    ∃ depths', Extends depths depths' ∧
      (∀ offset < count, depths' (emitter.nextBlock + offset) = some depth) ∧
      Invariant (Emitter.createBlock^[count] emitter) depths'
        {block | block ∈ reserved ∨
          emitter.nextBlock ≤ block ∧ block < emitter.nextBlock + count} := by
  induction count with
  | zero =>
    refine ⟨depths, Extends.refl depths, nofun, invariant.mono ?_⟩
    rintro block (old | ⟨low, high⟩)
    · exact old
    · exact absurd high (Nat.not_lt.mpr low)
  | succ count ih =>
    obtain ⟨depths', more, known, created⟩ := ih
    obtain ⟨next, more'⟩ := created.createBlock depth
    rw [createBlock_nextBlock] at next more'
    refine ⟨_, more.trans more', ?_, ?_⟩
    · intro offset bound
      rcases Nat.lt_succ_iff_lt_or_eq.mp bound with inside | rfl
      · exact more' _ _ (known offset inside)
      · exact Function.update_self _ _ _
    · rw [Function.iterate_succ_apply']
      apply next.mono
      rintro block (old | ⟨low, high⟩)
      · exact .inr (.inl old)
      · rcases Nat.lt_succ_iff_lt_or_eq.mp high with inside | rfl
        · exact .inr (.inr ⟨low, inside⟩)
        · exact .inl rfl

end Blocks

section Stages
variable {origin current result : Emitter} {start depths : Depths} {reserved : Set Nat}

/-- The emission of a statement on its way: `origin` and `start` are what it began with. -/
structure Stage (origin : Emitter) (start : Depths) (current : Emitter) (depths : Depths)
    (reserved : Set Nat) : Prop where
  invariant : Invariant current depths reserved
  keeps : Keeps origin current
  more : Extends start depths

theorem Stage.joinTo (stage : Stage origin start current depths reserved) {target : Nat}
    (known : start target = some origin.runtimeScopeDepth) :
    Stage origin start (current.brUnlessTerminated target) depths reserved := by
  refine ⟨stage.invariant.brUnlessTerminated ?_,
    stage.keeps.trans (keeps_brUnlessTerminated _ _), stage.more⟩
  rw [stage.keeps.runtimeScopeDepth]
  exact stage.more _ _ known

/-- Emission goes on in a reserved block. -/
theorem Stage.goOn (stage : Stage origin start current depths reserved) {block : Nat}
    (member : block ∈ reserved) (known : start block = some origin.runtimeScopeDepth) :
    Stage origin start (current.setInsertPoint block) depths (reserved \ {block}) := by
  refine ⟨stage.invariant.setInsertPoint member ?_,
    ⟨stage.keeps.1, stage.keeps.2, stage.keeps.3, stage.keeps.4⟩, stage.more⟩
  rw [stage.keeps.runtimeScopeDepth]
  exact stage.more _ _ known

theorem Stage.emits (stage : Stage origin start current depths reserved)
    {emit : Emitter → Emission} {labels : Nat → List (String × Nat)} (emits : Emits emit labels)
    (targets : Targets origin start)
    (collected : Collected origin.labelBlocks (labels origin.runtimeScopeDepth))
    (subset : blocksOf origin.labelBlocks (labels origin.runtimeScopeDepth) ⊆ reserved)
    (emitted : emit current = .ok result) :
    ∃ depths', Stage origin start result depths'
      (reserved \ blocksOf origin.labelBlocks (labels origin.runtimeScopeDepth)) := by
  have depth := stage.keeps.runtimeScopeDepth
  have table := stage.keeps.labelBlocks
  rw [← depth, ← table] at collected subset ⊢
  obtain ⟨depths', more, after, keeps⟩ := emits _ _ _ _ stage.invariant
    (targets.of_keeps stage.keeps stage.more) collected subset emitted
  exact ⟨depths', after, stage.keeps.trans keeps, stage.more.trans more⟩

/-- The blocks of a statement: the reserved ones together with new ones. -/
def withNew (reserved : Set Nat) (first count : Nat) : Set Nat :=
  {block | block ∈ reserved ∨ first ≤ block ∧ block < first + count}

theorem mem_withNew (reserved : Set Nat) (first : Nat) {offset count : Nat}
    (bound : offset < count) : first + offset ∈ withNew reserved first count :=
  .inr ⟨Nat.le_add_right _ _, Nat.add_lt_add_left bound first⟩

theorem Invariant.new_notMem (invariant : Invariant current depths reserved) {blocks : Set Nat}
    (subset : blocks ⊆ reserved) (offset : Nat) : current.nextBlock + offset ∉ blocks :=
  fun member => Nat.not_lt.mpr (Nat.le_add_right _ offset)
    (invariant.lt_nextBlock (subset member))

theorem Invariant.apart_new (invariant : Invariant current depths reserved) {block : Nat}
    (member : block ∈ reserved) (offset : Nat) :
    block ∉ ({current.nextBlock + offset} : Set Nat) := by
  rintro rfl
  exact invariant.new_notMem (Set.Subset.refl _) offset member

theorem apart_of_ne (first : Nat) {offset offset' : Nat} (apart : offset ≠ offset') :
    first + offset ∉ ({first + offset'} : Set Nat) :=
  fun same => apart (Nat.add_left_cancel same)

/-- The blocks of a statement are created with one depth. -/
theorem Invariant.createNew (invariant : Invariant current depths reserved) (count depth : Nat)
    {first : Nat} (first_eq : current.nextBlock = first) :
    ∃ start, Extends depths start ∧ (∀ offset < count, start (first + offset) = some depth) ∧
      Invariant (Emitter.createBlock^[count] current) start (withNew reserved first count) := by
  subst first_eq
  exact invariant.createBlocks count depth

theorem Stage.other (stage : Stage origin start current depths reserved) :
    Stage origin start (current.append .other) depths reserved :=
  ⟨stage.invariant.other, stage.keeps.trans (keeps_append _ _), stage.more⟩

theorem Stage.br (stage : Stage origin start current depths reserved) {target : Nat}
    (known : start target = some origin.runtimeScopeDepth) :
    Stage origin start (current.append (.br target)) depths reserved := by
  refine ⟨stage.invariant.br ?_, stage.keeps.trans (keeps_append _ _), stage.more⟩
  rw [stage.keeps.runtimeScopeDepth]
  exact stage.more _ _ known

theorem Stage.condBr (stage : Stage origin start current depths reserved) {ifTrue ifFalse : Nat}
    (known_true : start ifTrue = some origin.runtimeScopeDepth)
    (known_false : start ifFalse = some origin.runtimeScopeDepth) :
    Stage origin start (current.append (.condBr ifTrue ifFalse)) depths reserved := by
  refine ⟨stage.invariant.condBr ?_ ?_, stage.keeps.trans (keeps_append _ _), stage.more⟩
  · rw [stage.keeps.runtimeScopeDepth]
    exact stage.more _ _ known_true
  · rw [stage.keeps.runtimeScopeDepth]
    exact stage.more _ _ known_false

theorem Invariant.of_same {before after : Emitter} (invariant : Invariant before depths reserved)
    (code : after.code = before.code) (next : after.nextBlock = before.nextBlock)
    (insert : after.insertBlock = before.insertBlock)
    (depth : after.runtimeScopeDepth = before.runtimeScopeDepth)
    (table : after.labelBlocks = before.labelBlocks) : Invariant after depths reserved := by
  obtain ⟨typed, unused, empty, current, unfilled, labels, apart⟩ := invariant
  rw [← code] at typed empty current unfilled
  rw [← next] at unused
  rw [← insert] at current unfilled
  rw [← depth] at current
  rw [← table] at labels apart
  exact ⟨typed, unused, empty, current, unfilled, labels, apart⟩

theorem Stage.pushLoop (stage : Stage origin start current depths reserved)
    (loop : LoopTargets) :
    Stage (origin.pushLoop loop) start (current.pushLoop loop) depths reserved :=
  ⟨stage.invariant.of_same rfl rfl rfl rfl rfl, ⟨stage.keeps.1,
    congrArg (List.cons loop) stage.keeps.2, stage.keeps.3, stage.keeps.4⟩, stage.more⟩

theorem Stage.popLoop {loop : LoopTargets}
    (stage : Stage (origin.pushLoop loop) start current depths reserved) :
    Stage origin start current.popLoop depths reserved :=
  ⟨stage.invariant.of_same rfl rfl rfl rfl rfl, ⟨stage.keeps.1,
    congrArg List.tail stage.keeps.2, stage.keeps.3, stage.keeps.4⟩, stage.more⟩

theorem Stage.pushCatch (stage : Stage origin start current depths reserved)
    (target : CatchTarget) :
    Stage (origin.pushCatch target) start (current.pushCatch target) depths reserved :=
  ⟨stage.invariant.of_same rfl rfl rfl rfl rfl, ⟨stage.keeps.1, stage.keeps.2,
    congrArg (List.cons target) stage.keeps.3, stage.keeps.4⟩, stage.more⟩

theorem Stage.popCatch {target : CatchTarget}
    (stage : Stage (origin.pushCatch target) start current depths reserved) :
    Stage origin start current.popCatch depths reserved :=
  ⟨stage.invariant.of_same rfl rfl rfl rfl rfl, ⟨stage.keeps.1, stage.keeps.2,
    congrArg List.tail stage.keeps.3, stage.keeps.4⟩, stage.more⟩

theorem Stage.setStaticInitialization (stage : Stage origin start current depths reserved)
    (active : Bool) :
    Stage origin start (current.setStaticInitialization active) depths reserved :=
  ⟨stage.invariant.of_same rfl rfl rfl rfl rfl,
    ⟨stage.keeps.1, stage.keeps.2, stage.keeps.3, stage.keeps.4⟩, stage.more⟩

theorem Targets.pushLoop (targets : Targets origin start) {loop : LoopTargets}
    (known : start loop.breakBlock = some loop.breakScopeDepth ∧
      start loop.continueBlock = some loop.continueScopeDepth)
    (bound : loop.breakScopeDepth ≤ origin.runtimeScopeDepth ∧
      loop.continueScopeDepth ≤ origin.runtimeScopeDepth) :
    Targets (origin.pushLoop loop) start := by
  refine ⟨?_, targets.catches⟩
  rintro other (_ | ⟨_, member⟩)
  · exact ⟨known.1, known.2, bound.1, bound.2⟩
  · exact targets.loops other member

theorem Targets.pushCatch (targets : Targets origin start) {target : CatchTarget}
    (known : start target.catchBlock = some target.scopeDepth)
    (bound : target.scopeDepth ≤ origin.runtimeScopeDepth) :
    Targets (origin.pushCatch target) start := by
  refine ⟨targets.loops, ?_⟩
  rintro other (_ | ⟨_, member⟩)
  · exact ⟨known, bound⟩
  · exact targets.catches other member

end Stages

section Compound
attribute [local simp] Stmt.collectLabels Block.collectLabels Block.emitStatements Block.emitList
  Block.emitPost

theorem emits_ifThen {thenBlock : Block}
    (emits : Emits thenBlock.emitStatements thenBlock.collectLabels) :
    Emits (Stmt.ifThen thenBlock).emit (Stmt.ifThen thenBlock).collectLabels := by
  intro emitter depths reserved result invariant targets collected subset emitted
  simp only [Stmt.collectLabels] at collected subset ⊢
  rw [Stmt.emit] at emitted
  obtain ⟨filled, inner, last⟩ := bind_ok emitted
  obtain rfl := (Except.ok.inj last).symm
  obtain ⟨start, more, known, created⟩ :=
    invariant.statement.other.createNew 3 emitter.runtimeScopeDepth rfl
  have labels_old := invariant.new_notMem subset
  have branched : Stage emitter start _ start _ :=
    ⟨created.condBr (known 0 (by decide)) (known 1 (by decide)), ⟨rfl, rfl, rfl, rfl⟩,
      Extends.refl start⟩
  have thenStart := branched.goOn (mem_withNew _ _ (by decide)) (known 0 (by decide))
  have filling : blocksOf emitter.labelBlocks
      (thenBlock.collectLabels (emitter.runtimeScopeDepth + 1)) ⊆
        withNew reserved emitter.nextBlock 3 \ {emitter.nextBlock + 0} :=
    fun block member => ⟨.inl (subset member), invariant.apart_new (subset member) 0⟩
  obtain ⟨depths', thenEnd⟩ := thenStart.emits emits.inScope
    (targets.of_keeps (Keeps.refl emitter) more) collected filling inner
  have elseStart := (thenEnd.joinTo (known 2 (by decide))).goOn
    ⟨⟨mem_withNew _ _ (by decide), apart_of_ne _ (by decide)⟩, labels_old 1⟩ (known 1 (by decide))
  have merged := (elseStart.joinTo (known 2 (by decide))).goOn
    ⟨⟨⟨mem_withNew _ _ (by decide), apart_of_ne _ (by decide)⟩, labels_old 2⟩,
      apart_of_ne _ (by decide)⟩ (known 2 (by decide))
  refine ⟨depths', more.trans merged.more, merged.invariant.mono ?_, merged.keeps⟩
  rintro block ⟨inside, unlabelled⟩
  exact ⟨⟨⟨⟨.inl inside, invariant.apart_new inside 0⟩, unlabelled⟩,
    invariant.apart_new inside 1⟩, invariant.apart_new inside 2⟩

theorem emits_ifElse {thenBlock elseBlock : Block}
    (emits_then : Emits thenBlock.emitStatements thenBlock.collectLabels)
    (emits_else : Emits elseBlock.emitStatements elseBlock.collectLabels) :
    Emits (Stmt.ifElse thenBlock elseBlock).emit (Stmt.ifElse thenBlock elseBlock).collectLabels := by
  intro emitter depths reserved result invariant targets collected subset emitted
  simp only [Stmt.collectLabels] at collected subset ⊢
  rw [Stmt.emit] at emitted
  obtain ⟨filled, inner, rest⟩ := bind_ok emitted
  obtain ⟨filled', inner', last⟩ := bind_ok rest
  obtain rfl := (Except.ok.inj last).symm
  obtain ⟨start, more, known, created⟩ :=
    invariant.statement.other.createNew 3 emitter.runtimeScopeDepth rfl
  rw [blocksOf_append] at subset ⊢
  obtain ⟨then_subset, else_subset⟩ := Set.union_subset_iff.mp subset
  have then_old := invariant.new_notMem then_subset
  have else_old := invariant.new_notMem else_subset
  have surroundings := targets.of_keeps (Keeps.refl emitter) more
  have branched : Stage emitter start _ start _ :=
    ⟨created.condBr (known 0 (by decide)) (known 1 (by decide)), ⟨rfl, rfl, rfl, rfl⟩,
      Extends.refl start⟩
  have thenStart := branched.goOn (mem_withNew _ _ (by decide)) (known 0 (by decide))
  obtain ⟨depths', thenEnd⟩ := thenStart.emits emits_then.inScope surroundings collected.left
    (fun block member => ⟨.inl (then_subset member),
      invariant.apart_new (then_subset member) 0⟩) inner
  have elseStart := (thenEnd.joinTo (known 2 (by decide))).goOn
    ⟨⟨mem_withNew _ _ (by decide), apart_of_ne _ (by decide)⟩, then_old 1⟩ (known 1 (by decide))
  obtain ⟨depths'', elseEnd⟩ := elseStart.emits emits_else.inScope surroundings collected.right
    (fun block member => ⟨⟨⟨.inl (else_subset member),
      invariant.apart_new (else_subset member) 0⟩,
      fun earlier => collected.disjoint invariant earlier member⟩,
      invariant.apart_new (else_subset member) 1⟩) inner'
  have merged := (elseEnd.joinTo (known 2 (by decide))).goOn
    ⟨⟨⟨⟨mem_withNew _ _ (by decide), apart_of_ne _ (by decide)⟩, then_old 2⟩,
      apart_of_ne _ (by decide)⟩, else_old 2⟩ (known 2 (by decide))
  refine ⟨depths'', more.trans merged.more, merged.invariant.mono ?_, merged.keeps⟩
  rintro block ⟨inside, unlabelled⟩
  rw [Set.mem_union, not_or] at unlabelled
  exact ⟨⟨⟨⟨⟨.inl inside, invariant.apart_new inside 0⟩, unlabelled.1⟩,
    invariant.apart_new inside 1⟩, unlabelled.2⟩, invariant.apart_new inside 2⟩

theorem emits_while {body : Block} (emits : Emits body.emitStatements body.collectLabels) :
    Emits (Stmt.whileStmt body).emit (Stmt.whileStmt body).collectLabels := by
  intro emitter depths reserved result invariant targets collected subset emitted
  simp only [Stmt.collectLabels] at collected subset ⊢
  rw [Stmt.emit] at emitted
  obtain ⟨filled, inner, last⟩ := bind_ok emitted
  obtain rfl := (Except.ok.inj last).symm
  obtain ⟨start, more, known, created⟩ :=
    invariant.statement.createNew 3 emitter.runtimeScopeDepth rfl
  have labels_old := invariant.new_notMem subset
  have entered : Stage emitter start _ start _ :=
    ⟨created.br (known 0 (by decide)), ⟨rfl, rfl, rfl, rfl⟩, Extends.refl start⟩
  have condition := (entered.goOn (mem_withNew _ _ (by decide)) (known 0 (by decide))).other.condBr
    (known 1 (by decide)) (known 2 (by decide))
  have bodyStart := (condition.pushLoop {
    breakBlock := emitter.nextBlock + 2, continueBlock := emitter.nextBlock
    breakScopeDepth := emitter.runtimeScopeDepth
    continueScopeDepth := emitter.runtimeScopeDepth }).goOn
    ⟨mem_withNew _ _ (by decide), apart_of_ne _ (by decide)⟩ (known 1 (by decide))
  obtain ⟨depths', bodyEnd⟩ := bodyStart.emits emits.inScope
    ((targets.of_keeps (Keeps.refl emitter) more).pushLoop
      ⟨known 2 (by decide), known 0 (by decide)⟩ ⟨Nat.le_refl _, Nat.le_refl _⟩)
    collected
    (fun block member => ⟨⟨.inl (subset member), invariant.apart_new (subset member) 0⟩,
      invariant.apart_new (subset member) 1⟩) inner
  have after := (bodyEnd.joinTo (known 0 (by decide))).popLoop.goOn
    ⟨⟨⟨mem_withNew _ _ (by decide), apart_of_ne _ (by decide)⟩, apart_of_ne _ (by decide)⟩,
      labels_old 2⟩ (known 2 (by decide))
  refine ⟨depths', more.trans after.more, after.invariant.mono ?_, after.keeps⟩
  rintro block ⟨inside, unlabelled⟩
  exact ⟨⟨⟨⟨.inl inside, invariant.apart_new inside 0⟩, invariant.apart_new inside 1⟩,
    unlabelled⟩, invariant.apart_new inside 2⟩

theorem emits_tryCatch {tryBlock catchBlock : Block}
    (emits_try : Emits tryBlock.emitStatements tryBlock.collectLabels)
    (emits_catch : Emits catchBlock.emitStatements catchBlock.collectLabels) :
    Emits (Stmt.tryCatch tryBlock catchBlock).emit
      (Stmt.tryCatch tryBlock catchBlock).collectLabels := by
  intro emitter depths reserved result invariant targets collected subset emitted
  simp only [Stmt.collectLabels] at collected subset ⊢
  rw [Stmt.emit] at emitted
  obtain ⟨filled, inner, rest⟩ := bind_ok emitted
  obtain ⟨filled', inner', last⟩ := bind_ok rest
  obtain rfl := (Except.ok.inj last).symm
  obtain ⟨start, more, known, created⟩ :=
    invariant.statement.other.createNew 3 emitter.runtimeScopeDepth rfl
  rw [blocksOf_append] at subset ⊢
  obtain ⟨try_subset, catch_subset⟩ := Set.union_subset_iff.mp subset
  have try_old := invariant.new_notMem try_subset
  have catch_old := invariant.new_notMem catch_subset
  have surroundings := targets.of_keeps (Keeps.refl emitter) more
  have entered : Stage emitter start _ start _ :=
    ⟨created.br (known 0 (by decide)), ⟨rfl, rfl, rfl, rfl⟩, Extends.refl start⟩
  have tryStart := (entered.pushCatch {
    catchBlock := emitter.nextBlock + 1, scopeDepth := emitter.runtimeScopeDepth }).goOn
    (mem_withNew _ _ (by decide)) (known 0 (by decide))
  obtain ⟨depths', tryEnd⟩ := tryStart.emits emits_try.inScope
    (surroundings.pushCatch (known 1 (by decide)) (Nat.le_refl _)) collected.left
    (fun block member => ⟨.inl (try_subset member),
      invariant.apart_new (try_subset member) 0⟩) inner
  have catchStart := (tryEnd.popCatch.joinTo (known 2 (by decide))).goOn
    ⟨⟨mem_withNew _ _ (by decide), apart_of_ne _ (by decide)⟩, try_old 1⟩ (known 1 (by decide))
  obtain ⟨depths'', catchEnd⟩ := catchStart.emits emits_catch.inScope surroundings collected.right
    (fun block member => ⟨⟨⟨.inl (catch_subset member),
      invariant.apart_new (catch_subset member) 0⟩,
      fun earlier => collected.disjoint invariant earlier member⟩,
      invariant.apart_new (catch_subset member) 1⟩) inner'
  have after := (catchEnd.joinTo (known 2 (by decide))).goOn
    ⟨⟨⟨⟨mem_withNew _ _ (by decide), apart_of_ne _ (by decide)⟩, try_old 2⟩,
      apart_of_ne _ (by decide)⟩, catch_old 2⟩ (known 2 (by decide))
  refine ⟨depths'', more.trans after.more, after.invariant.mono ?_, after.keeps⟩
  rintro block ⟨inside, unlabelled⟩
  rw [Set.mem_union, not_or] at unlabelled
  exact ⟨⟨⟨⟨⟨.inl inside, invariant.apart_new inside 0⟩, unlabelled.1⟩,
    invariant.apart_new inside 1⟩, unlabelled.2⟩, invariant.apart_new inside 2⟩

/-- The code of a `for` condition, where there is one. -/
theorem Stage.forCondition {origin current : Emitter} {start depths : Depths} {reserved : Set Nat}
    (stage : Stage origin start current depths reserved) (hasCondition : Bool)
    {bodyBlock afterBlock : Nat} (known_body : start bodyBlock = some origin.runtimeScopeDepth)
    (known_after : start afterBlock = some origin.runtimeScopeDepth) :
    Stage origin start
      (if hasCondition then (current.append .other).append (.condBr bodyBlock afterBlock)
        else current.append (.br bodyBlock)) depths reserved := by
  split
  · exact stage.other.condBr known_body known_after
  · exact stage.br known_body

theorem emits_for {init : Stmt} {post body : Block} (hasCondition : Bool)
    (emits_init : Emits init.emit init.collectLabels)
    (emits_post : Emits post.emitPost post.collectLabels)
    (emits_body : Emits body.emitStatements body.collectLabels) :
    Emits (Stmt.forStmt init hasCondition post body).emit
      (Stmt.forStmt init hasCondition post body).collectLabels := by
  intro emitter depths reserved result invariant targets collected subset emitted
  simp only [Stmt.collectLabels] at collected subset ⊢
  rw [Stmt.emit] at emitted
  obtain ⟨initialized, first, rest⟩ := bind_ok emitted
  obtain ⟨filled, inner, rest'⟩ := bind_ok rest
  obtain ⟨stepped, later, last⟩ := bind_ok rest'
  obtain rfl := (Except.ok.inj last).symm
  obtain ⟨start, more, known, created⟩ :=
    invariant.statement.createNew 4 (emitter.runtimeScopeDepth + 1) rfl
  rw [blocksOf_append, blocksOf_append] at subset ⊢
  obtain ⟨header_subset, body_subset⟩ := Set.union_subset_iff.mp subset
  obtain ⟨init_subset, post_subset⟩ := Set.union_subset_iff.mp header_subset
  have init_old := invariant.new_notMem init_subset
  have post_old := invariant.new_notMem post_subset
  have body_old := invariant.new_notMem body_subset
  have body_apart {block : Nat}
      (member : block ∈ blocksOf emitter.labelBlocks
        (body.collectLabels (emitter.runtimeScopeDepth + 1 + 1))) :
      block ∉ blocksOf emitter.labelBlocks (init.collectLabels (emitter.runtimeScopeDepth + 1)) :=
    fun earlier => collected.disjoint invariant
      (by rw [blocksOf_append]; exact .inl earlier) member
  have post_apart {block : Nat}
      (member : block ∈ blocksOf emitter.labelBlocks
        (post.collectLabels (emitter.runtimeScopeDepth + 1))) :
      block ∉ blocksOf emitter.labelBlocks
        (body.collectLabels (emitter.runtimeScopeDepth + 1 + 1)) :=
    collected.disjoint invariant (by rw [blocksOf_append]; exact .inr member)
  have surroundings : Targets emitter.enterScope start :=
    (targets.of_keeps (Keeps.refl emitter) more).enterScope
  have entered : Stage emitter.enterScope start _ start _ :=
    ⟨created.enterScope, ⟨rfl, rfl, rfl, rfl⟩, Extends.refl start⟩
  obtain ⟨depths₁, initEnd⟩ := entered.emits emits_init surroundings collected.left.left
    (fun block member => .inl (init_subset member)) first
  have condition := ((initEnd.joinTo (known 0 (by decide))).goOn
    ⟨mem_withNew _ _ (by decide), init_old 0⟩ (known 0 (by decide))).forCondition hasCondition
    (known 1 (by decide)) (known 3 (by decide))
  have bodyStart := (condition.pushLoop {
    breakBlock := emitter.nextBlock + 3, continueBlock := emitter.nextBlock + 2
    breakScopeDepth := emitter.runtimeScopeDepth + 1
    continueScopeDepth := emitter.runtimeScopeDepth + 1 }).goOn
    ⟨⟨mem_withNew _ _ (by decide), init_old 1⟩, apart_of_ne _ (by decide)⟩ (known 1 (by decide))
  have inLoop : Targets (emitter.enterScope.pushLoop {
      breakBlock := emitter.nextBlock + 3, continueBlock := emitter.nextBlock + 2
      breakScopeDepth := emitter.runtimeScopeDepth + 1
      continueScopeDepth := emitter.runtimeScopeDepth + 1 }) start :=
    surroundings.pushLoop ⟨known 3 (by decide), known 2 (by decide)⟩
      ⟨Nat.le_refl _, Nat.le_refl _⟩
  obtain ⟨depths₂, bodyEnd⟩ := bodyStart.emits emits_body.inScope inLoop collected.right
    (fun block member => ⟨⟨⟨.inl (body_subset member), body_apart member⟩,
      invariant.apart_new (body_subset member) 0⟩,
      invariant.apart_new (body_subset member) 1⟩) inner
  have postStart := (bodyEnd.joinTo (known 2 (by decide))).goOn
    ⟨⟨⟨⟨mem_withNew _ _ (by decide), init_old 2⟩, apart_of_ne _ (by decide)⟩,
      apart_of_ne _ (by decide)⟩, body_old 2⟩ (known 2 (by decide))
  obtain ⟨depths₃, postEnd⟩ := postStart.emits emits_post inLoop collected.left.right
    (fun block member => ⟨⟨⟨⟨⟨.inl (post_subset member),
      fun earlier => collected.left.disjoint invariant earlier member⟩,
      invariant.apart_new (post_subset member) 0⟩, invariant.apart_new (post_subset member) 1⟩,
      post_apart member⟩, invariant.apart_new (post_subset member) 2⟩) later
  have after := (postEnd.joinTo (known 0 (by decide))).popLoop.goOn
    ⟨⟨⟨⟨⟨⟨mem_withNew _ _ (by decide), init_old 3⟩, apart_of_ne _ (by decide)⟩,
      apart_of_ne _ (by decide)⟩, body_old 3⟩, apart_of_ne _ (by decide)⟩, post_old 3⟩
    (known 3 (by decide))
  have depth : (((stepped.brUnlessTerminated emitter.nextBlock).popLoop.setInsertPoint
      (emitter.nextBlock + 3))).runtimeScopeDepth = emitter.runtimeScopeDepth + 1 :=
    after.keeps.runtimeScopeDepth
  refine ⟨depths₃, more.trans after.more, (after.invariant.exitScope ?_).mono ?_,
    ⟨?_, after.keeps.2, after.keeps.3, after.keeps.4⟩⟩
  · exact Nat.lt_of_lt_of_eq (Nat.succ_pos _) depth.symm
  · rintro block ⟨inside, unlabelled⟩
    rw [Set.mem_union, Set.mem_union, not_or, not_or] at unlabelled
    exact ⟨⟨⟨⟨⟨⟨⟨.inl inside, unlabelled.1.1⟩, invariant.apart_new inside 0⟩,
      invariant.apart_new inside 1⟩, unlabelled.2⟩, invariant.apart_new inside 2⟩,
      unlabelled.1.2⟩, invariant.apart_new inside 3⟩
  · exact congrArg (· - 1) depth

theorem emits_staticInitialization {statement : Stmt}
    (emits : Emits statement.emit statement.collectLabels) :
    Emits (Stmt.staticInitialization statement).emit
      (Stmt.staticInitialization statement).collectLabels := by
  intro emitter depths reserved result invariant targets collected subset emitted
  simp only [Stmt.collectLabels] at collected subset ⊢
  rw [Stmt.emit] at emitted
  split at emitted
  · exact emits _ _ _ _ invariant targets collected subset emitted
  · obtain ⟨initialized, inner, last⟩ := bind_ok emitted
    obtain rfl := (Except.ok.inj last).symm
    obtain ⟨start, more, known, created⟩ :=
      invariant.statement.other.createNew 2 emitter.runtimeScopeDepth rfl
    have labels_old := invariant.new_notMem subset
    have guarded : Stage emitter start _ start _ :=
      ⟨created.condBr (known 1 (by decide)) (known 0 (by decide)), ⟨rfl, rfl, rfl, rfl⟩,
        Extends.refl start⟩
    have guardStart := (guarded.goOn (mem_withNew _ _ (by decide))
      (known 0 (by decide))).setStaticInitialization true
    obtain ⟨depths', initialized⟩ := guardStart.emits emits
      (targets.of_keeps (Keeps.refl emitter) more) collected
      (fun block member => ⟨.inl (subset member), invariant.apart_new (subset member) 0⟩) inner
    have after := ((initialized.setStaticInitialization false).joinTo (known 1 (by decide))).goOn
      ⟨⟨mem_withNew _ _ (by decide), apart_of_ne _ (by decide)⟩, labels_old 1⟩
      (known 1 (by decide))
    refine ⟨depths', more.trans after.more, after.invariant.mono ?_, after.keeps⟩
    rintro block ⟨inside, unlabelled⟩
    exact ⟨⟨⟨.inl inside, invariant.apart_new inside 0⟩, unlabelled⟩,
      invariant.apart_new inside 1⟩

/-- The code of a label starts in the block that `collectLabels` made for it. -/
theorem emits_label (label : String) {statement : Stmt}
    (emits : Emits statement.emit statement.collectLabels) :
    Emits (Stmt.labelStmt label statement).emit (Stmt.labelStmt label statement).collectLabels := by
  intro emitter depths reserved result invariant targets collected subset emitted
  simp only [Stmt.collectLabels] at collected subset ⊢
  obtain ⟨block, found⟩ := collected.known _ List.mem_cons_self
  rw [Stmt.emit, found] at emitted
  have rest : Collected emitter.labelBlocks ([(label, emitter.runtimeScopeDepth)] ++
      statement.collectLabels emitter.runtimeScopeDepth) := collected
  have blocks : blocksOf emitter.labelBlocks
      ((label, emitter.runtimeScopeDepth) :: statement.collectLabels emitter.runtimeScopeDepth) =
        {block} ∪ blocksOf emitter.labelBlocks
          (statement.collectLabels emitter.runtimeScopeDepth) := by
    rw [← List.singleton_append, blocksOf_append]
    congr 1
    ext other
    simp [blocksOf, found, eq_comm]
  rw [blocks] at subset ⊢
  obtain ⟨block_subset, inner_subset⟩ := Set.union_subset_iff.mp subset
  have known := invariant.labels label block _ found
  have started : Stage emitter depths emitter depths reserved :=
    ⟨invariant, Keeps.refl emitter, Extends.refl depths⟩
  have inside := (started.joinTo known).goOn (block_subset rfl) known
  obtain ⟨depths', after⟩ := inside.emits emits targets rest.right (by
    intro other member
    refine ⟨inner_subset member, fun same => ?_⟩
    rw [Set.mem_singleton_iff] at same
    subst same
    exact rest.disjoint invariant
      ⟨_, List.mem_singleton.mpr rfl, emitter.runtimeScopeDepth, found⟩ member) emitted
  refine ⟨depths', after.more, ?_, after.keeps⟩
  rw [← Set.sdiff_sdiff]
  exact after.invariant

/-- Statements that are left out leave the blocks of their labels unfilled. -/
theorem Emits.skip {emit : Emitter → Emission} {labels labels' : Nat → List (String × Nat)}
    (emits : Emits emit labels') :
    Emits emit fun scopeDepth => labels scopeDepth ++ labels' scopeDepth := by
  intro emitter depths reserved result invariant targets collected subset emitted
  rw [blocksOf_append] at subset ⊢
  obtain ⟨depths', more, after, keeps⟩ := emits _ _ _ _ invariant targets collected.right
    (Set.union_subset_iff.mp subset).2 emitted
  exact ⟨depths', more, after.mono (Set.sdiff_subset_sdiff_right Set.subset_union_right), keeps⟩

theorem emits_nil : Emits (fun emitter => .ok emitter) fun _ => [] := by
  apply emits_of_step
  intro emitter depths reserved result invariant _ emitted
  obtain rfl := Except.ok.inj emitted
  exact ⟨invariant, Keeps.refl _⟩

theorem emits_statements_cons {statement : Stmt} {rest : Block}
    (emits : Emits statement.emit statement.collectLabels)
    (emits_rest : Emits rest.emitStatements rest.collectLabels) :
    Emits (Block.cons statement rest).emitStatements (Block.cons statement rest).collectLabels := by
  intro emitter depths reserved result invariant targets collected subset emitted
  simp only [Block.collectLabels] at collected subset ⊢
  rw [Block.emitStatements] at emitted
  split at emitted
  · exact emits_rest.skip _ _ _ _ invariant targets collected subset emitted
  · exact emits.andThen emits_rest _ _ _ _ invariant targets collected subset emitted

theorem emits_list_cons {statement : Stmt} {rest : Block}
    (emits : Emits statement.emit statement.collectLabels)
    (emits_rest : Emits rest.emitList rest.collectLabels) :
    Emits (Block.cons statement rest).emitList (Block.cons statement rest).collectLabels := by
  intro emitter depths reserved result invariant targets collected subset emitted
  simp only [Block.collectLabels] at collected subset ⊢
  rw [Block.emitList] at emitted
  exact emits.andThen emits_rest _ _ _ _ invariant targets collected subset emitted

theorem emits_post_cons {statement : Stmt} {rest : Block}
    (emits : Emits statement.emit statement.collectLabels)
    (emits_rest : Emits rest.emitPost rest.collectLabels) :
    Emits (Block.cons statement rest).emitPost (Block.cons statement rest).collectLabels := by
  intro emitter depths reserved result invariant targets collected subset emitted
  simp only [Block.collectLabels] at collected subset ⊢
  rw [Block.emitPost] at emitted
  have either : Emits (fun emitter => if emitter.getTerminator then .ok emitter
      else rest.emitPost emitter) rest.collectLabels := by
    intro emitter depths reserved result invariant targets collected subset emitted
    dsimp only at emitted
    split at emitted
    · obtain rfl := Except.ok.inj emitted
      exact ⟨depths, Extends.refl depths, invariant.mono Set.sdiff_subset, Keeps.refl _⟩
    · exact emits_rest _ _ _ _ invariant targets collected subset emitted
  exact emits.andThen either _ _ _ _ invariant targets collected subset emitted

mutual

theorem Stmt.emits : (statement : Stmt) → Emits statement.emit statement.collectLabels
  | .simple emitsCode => emits_simple emitsCode
  | .statementList statements => statements.emits_list
  | .staticInitialization statement => emits_staticInitialization statement.emits
  | .returnStmt => emits_return
  | .ifThen thenBlock => emits_ifThen thenBlock.emits
  | .ifElse thenBlock elseBlock => emits_ifElse thenBlock.emits elseBlock.emits
  | .whileStmt body => emits_while body.emits
  | .forStmt init hasCondition post body =>
      emits_for hasCondition init.emits post.emits_post body.emits
  | .breakStmt => emits_break
  | .continueStmt => emits_continue
  | .gotoStmt label => emits_goto label
  | .labelStmt label statement => emits_label label statement.emits
  | .throwStmt => emits_throw
  | .tryCatch tryBlock catchBlock => emits_tryCatch tryBlock.emits catchBlock.emits

theorem Block.emits : (block : Block) → Emits block.emitStatements block.collectLabels
  | .nil => emits_nil
  | .cons statement rest => emits_statements_cons statement.emits rest.emits

theorem Block.emits_list : (block : Block) → Emits block.emitList block.collectLabels
  | .nil => emits_nil
  | .cons statement rest => emits_list_cons statement.emits rest.emits_list

theorem Block.emits_post : (block : Block) → Emits block.emitPost block.collectLabels
  | .nil => emits_nil
  | .cons statement rest => emits_post_cons statement.emits rest.emits_post

end

end Compound

end HitSimple.ControlFlow

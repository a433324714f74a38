import HitSimple.Codegen.FlowCompound

namespace HitSimple.ControlFlow

section Surroundings
variable {emitter current : Emitter} {blocks : Nat → Prop} {flow : Flow}

/-- The jumps of a loop's body that the loop does not catch. -/
def Flow.outOfLoop (flow : Flow) : Flow :=
  { Flow.through False with throws := flow.throws, gotos := flow.gotos }

theorem exits_inLoop {targets : LoopTargets} {outer : List LoopTargets}
    (loops : current.loopTargets = targets :: outer)
    (catches : current.catchTargets = emitter.catchTargets)
    (table : current.labelBlocks = emitter.labelBlocks) :
    Exits blocks current flow ↔ (flow.breaks → blocks targets.breakBlock) ∧
      (flow.continues → blocks targets.continueBlock) ∧ Exits blocks emitter flow.outOfLoop := by
  constructor
  · rintro ⟨breaks, continues, throws, gotos⟩
    rw [loops] at breaks continues
    rw [catches] at throws
    rw [table] at gotos
    exact ⟨fun leaves => breaks leaves _ rfl, fun leaves => continues leaves _ rfl,
      nofun, nofun, throws, gotos⟩
  · rintro ⟨breaks, continues, -, -, throws, gotos⟩
    refine ⟨?_, ?_, ?_, ?_⟩
    · intro leaves innermost member
      rw [loops] at member
      cases member
      exact breaks leaves
    · intro leaves innermost member
      rw [loops] at member
      cases member
      exact continues leaves
    · rw [catches]
      exact throws
    · rw [table]
      exact gotos

theorem WellFormed.pushLoop (wellFormed : WellFormed emitter) (targets : LoopTargets)
    (breakBlock : targets.breakBlock < emitter.nextBlock)
    (continueBlock : targets.continueBlock < emitter.nextBlock) :
    WellFormed (emitter.pushLoop targets) where
  inside := wellFormed.inside
  fresh := wellFormed.fresh
  edges := wellFormed.edges
  loops := by
    rintro other (_ | ⟨_, member⟩)
    · exact ⟨breakBlock, continueBlock⟩
    · exact wellFormed.loops other member
  catches := wellFormed.catches
  labels := wellFormed.labels
  apart := wellFormed.apart

theorem WellFormed.popLoop (wellFormed : WellFormed emitter) : WellFormed emitter.popLoop where
  inside := wellFormed.inside
  fresh := wellFormed.fresh
  edges := wellFormed.edges
  loops := fun targets member => wellFormed.loops targets (List.mem_of_mem_tail member)
  catches := wellFormed.catches
  labels := wellFormed.labels
  apart := wellFormed.apart

theorem Grown.pushLoop {before after : Emitter} {touched : Set Nat}
    (grown : Grown before after touched) (targets : LoopTargets) :
    Grown before (after.pushLoop targets) touched :=
  ⟨grown.1, grown.2, grown.3⟩

/-- The head of a loop, where control goes into the body or, past a condition, behind the loop. -/
def loopHead (emitter : Emitter) (head : Nat) (hasCondition : Bool) (bodyBlock afterBlock : Nat) :
    Emitter :=
  if hasCondition then
    ((emitter.setInsertPoint head).append .other).append (.condBr bodyBlock afterBlock)
  else (emitter.setInsertPoint head).append (.br bodyBlock)

variable {head bodyBlock afterBlock : Nat} {hasCondition : Bool}

/-- What the emission of a loop's head does. -/
structure Headed (before after : Emitter) (head bodyBlock : Nat) (hasCondition : Bool)
    (afterBlock : Nat) : Prop where
  wellFormed : WellFormed after
  same : Same before after
  grown : Grown before after {head}
  next : after.nextBlock = before.nextBlock
  sound : ∀ marks : Nat → Prop, Closed marks before.code → (marks head → marks bodyBlock) →
    (marks head → hasCondition = true → marks afterBlock) → Closed marks after.code
  complete : ∀ blocks : Nat → Prop, Closed blocks after.code → blocks head →
    blocks bodyBlock ∧ (hasCondition = true → blocks afterBlock)

theorem headed_loopHead (wellFormed : WellFormed emitter) (head bodyBlock afterBlock : Nat)
    (hasCondition : Bool) (exists_head : head < emitter.nextBlock)
    (exists_body : bodyBlock < emitter.nextBlock) (exists_after : afterBlock < emitter.nextBlock)
    (empty : emitter.code head = []) :
    Headed emitter (loopHead emitter head hasCondition bodyBlock afterBlock) head bodyBlock
      hasCondition afterBlock := by
  have started := wellFormed.setInsertPoint exists_head
  have grown := grown_setInsertPoint emitter head
  cases hasCondition with
  | true =>
      have tested := started.append (targetsExist_of_plain (show Instr.isTerminator .other = false from rfl) _)
      refine ⟨tested.append (targetsExist_condBr exists_body exists_after), ⟨rfl, rfl, rfl, rfl⟩,
        ?_, rfl, ?_, ?_⟩
      · refine ((grown.trans (grown_append _ .other)).trans (grown_append _ _)).restrict ?_
        rintro block ((rfl | rfl) | rfl) _ <;> rfl
      · intro marks closed body behind
        refine (((closed.marked head id).plain .other rfl).jump rfl
          (fun reached target member => ?_) False).closed
        rcases List.mem_cons.mp member with rfl | member
        · exact body reached
        · rw [List.mem_singleton.mp member]
          exact behind reached rfl
      · intro blocks closed reached
        have isOpen := isOpen_append.mpr ⟨isOpen_of_nil empty, (rfl : Instr.other.isTerminator = _)⟩
        exact ⟨closed head bodyBlock (edge_of_append isOpen rfl (by simp [Instr.targets])) reached,
          fun _ => closed head afterBlock
            (edge_of_append isOpen rfl (by simp [Instr.targets])) reached⟩
  | false =>
      refine ⟨started.append (targetsExist_br exists_body), ⟨rfl, rfl, rfl, rfl⟩, ?_, rfl, ?_, ?_⟩
      · refine (grown.trans (grown_append _ _)).restrict ?_
        rintro block (rfl | rfl) _ <;> rfl
      · intro marks closed body _
        refine ((closed.marked head id).jump rfl (fun reached target member => ?_) False).closed
        rw [List.mem_singleton.mp member]
        exact body reached
      · intro blocks closed reached
        exact ⟨closed head bodyBlock (edge_of_append (isOpen_of_nil empty) rfl
          (List.mem_singleton.mpr rfl)) reached, fun isTrue => absurd isTrue Bool.false_ne_true⟩

theorem Headed.empty_of_ne {before after : Emitter}
    (headed : Headed before after head bodyBlock hasCondition afterBlock) {block : Nat}
    (bound : block < before.nextBlock) (apart : block ≠ head) (empty : before.code block = []) :
    after.code block = [] :=
  (headed.grown.elsewhere block bound apart).1.trans empty

end Surroundings

section While
variable {emitter current₀ current result : Emitter} {targets : LoopTargets}
  {labels : List (String × Nat)} {flow : Set String → Prop → Flow}

/-- What a `while` loop comes to, from its head and its body. -/
theorem Entered.whileLoop
    (entered : Entered emitter current₀ 3 [emitter.nextBlock])
    (wellFormed : WellFormed emitter)
    (headed : Headed current₀ current emitter.nextBlock (emitter.nextBlock + 1) true
      (emitter.nextBlock + 2))
    (breakBlock : targets.breakBlock = emitter.nextBlock + 2)
    (continueBlock : targets.continueBlock = emitter.nextBlock)
    (part : Part (current.pushLoop targets) result (emitter.nextBlock + 1) emitter.nextBlock labels
      flow) :
    Emitted emitter (result.popLoop.setInsertPoint (emitter.nextBlock + 2)) labels
      (fun reached live =>
        let entry := loopEntry live fun entry =>
          (flow reached entry).falls ∨ (flow reached entry).continues
        { falls := entry ∨ (flow reached entry).breaks
          breaks := False
          continues := False
          throws := (flow reached entry).throws
          gotos := (flow reached entry).gotos }) false := by
  have same := entered.same.trans headed.same
  have next := entered.next
  have nextHead := headed.next
  have nextBody : (current.pushLoop targets).nextBlock ≤ result.nextBlock := part.grown.next
  have nextPush : (current.pushLoop targets).nextBlock = current.nextBlock := rfl
  have inLoop {blocks : Nat → Prop} {flow : Flow} :
      Exits blocks (current.pushLoop targets) flow ↔ (flow.breaks → blocks targets.breakBlock) ∧
        (flow.continues → blocks targets.continueBlock) ∧ Exits blocks emitter flow.outOfLoop :=
    exits_inLoop (show (current.pushLoop targets).loopTargets = targets :: current.loopTargets from
      rfl) same.catchTargets same.labelBlocks
  have empty : result.code (emitter.nextBlock + 2) = [] := by
    refine part.empty_of_ne wellFormed same.labelBlocks (Nat.le_add_right _ _) (by omega)
      (by omega) ?_
    exact headed.empty_of_ne (by omega) (by omega) (entered.empty _ (Nat.le_add_right _ _))
  refine ⟨part.wellFormed.popLoop.setInsertPoint (by show _ < result.nextBlock; omega), ?_, ?_,
    getTerminator_of_nil empty, ?_, ?_⟩
  · obtain ⟨loops, catches, table, active⟩ := part.same
    refine ⟨?_, catches.trans same.catchTargets, table.trans same.labelBlocks,
      active.trans same.active⟩
    exact (congrArg List.tail loops).trans same.loopTargets
  · have pushed := headed.grown.pushLoop targets
    have behind := grown_setInsertPoint result (emitter.nextBlock + 2)
    have popped : Grown result (result.popLoop.setInsertPoint (emitter.nextBlock + 2))
        {emitter.nextBlock + 2} := ⟨behind.1, behind.2, behind.3⟩
    have whole := ((entered.grown.trans pushed).trans part.grown).trans popped
    refine whole.restrict fun block touched old => ?_
    rcases touched with ((here | rfl) | rfl | inside) | rfl
    · exact .inl here
    · omega
    · omega
    · refine .inr ?_
      rw [← same.labelBlocks]
      exact inside
    · omega
  · intro marks reached live marked within exits
    let back (entry : Prop) : Prop := (flow reached entry).falls ∨ (flow reached entry).continues
    let entry := loopEntry live back
    have old := agree_assign marks emitter.nextBlock
      [entry, entry, entry ∨ (flow reached entry).breaks]
    have closed := entered.sound marks live [entry, entry, entry ∨ (flow reached entry).breaks]
      marked (fun alive target member => by
        rw [List.mem_singleton.mp member, assign_first]
        exact .inl alive)
    have closed := headed.sound _ closed (by simp) (by simpa using Or.inl)
    have leaves : Exits marks emitter (flow reached entry).outOfLoop :=
      exits.mono False.elim False.elim id subset_rfl
    obtain ⟨marks', agree, closed'⟩ := part.sound _ reached entry closed (by simp)
      (within.carry wellFormed same.labelBlocks old)
      (inLoop.mpr ⟨by rw [breakBlock]; simpa using Or.inr, fun again => by
          rw [continueBlock, assign_first]
          exact @loopEntry_closed live back (.inr again), leaves.agree wellFormed old⟩)
      (fun again => by
        rw [assign_first]
        exact @loopEntry_closed live back (.inl again))
    refine ⟨marks', old.trans agree (by omega), ?_⟩
    have behind : Marked (result.setInsertPoint (emitter.nextBlock + 2)) marks'
        (entry ∨ (flow reached entry).breaks) := by
      refine closed'.marked _ ?_
      rw [agree _ (by omega)]
      simp
    exact ⟨behind.1, behind.2⟩
  · intro blocks reached live closed here into
    have closedBody : Closed blocks result.code := closed
    have closedHead : Closed blocks current.code := closedBody.of_persists part.grown.persists
    have enters (alive : live) : blocks emitter.nextBlock :=
      entered.complete blocks live (closedHead.of_persists headed.grown.persists) here alive _
        (List.mem_singleton.mpr rfl)
    have onward := headed.complete blocks closedHead
    have body (entry : Prop) (starts : entry → blocks emitter.nextBlock) :=
      part.complete blocks reached entry closedBody (fun entered => (onward (starts entered)).1)
        (into.carry same.labelBlocks)
    have starts := @loopEntry_least _ (blocks emitter.nextBlock)
      (fun entry => (flow reached entry).falls ∨ (flow reached entry).continues) enters
      (fun entry starts again => again.elim (body entry starts).1 fun again => by
        rw [← continueBlock]
        exact (inLoop.mp (body entry starts).2).2.1 again)
    obtain ⟨breaks, -, leaves⟩ := inLoop.mp (body _ starts).2
    rw [breakBlock] at breaks
    refine ⟨fun ends => ⟨ends.elim (fun entered => (onward (starts entered)).2 rfl) breaks,
      isOpen_of_nil empty⟩, nofun, nofun, leaves.throws, leaves.gotos⟩

theorem entered_while (wellFormed : WellFormed emitter) :
    Entered emitter
      ((emitter.append (.statement emitter.runtimeScopeDepth)).createBlock.createBlock.createBlock.append
        (.br emitter.nextBlock)) 3 [emitter.nextBlock] :=
  (entered_jump (emitted_marker wellFormed).wellFormed (.br emitter.nextBlock) rfl 3
    (targetsExist_br (Nat.lt_add_of_pos_right (by decide)))).afterPlain rfl

theorem flows_while {body : Block} (flows : body.Flows) : (Stmt.whileStmt body).Flows := by
  intro emitter result depth wellFormed awaits done
  simp only [Stmt.collectLabels, Stmt.terminates, Stmt.flow] at awaits ⊢
  rw [Stmt.emit] at done
  obtain ⟨filled, inner, last⟩ := bind_ok done
  cases last
  have entered := entered_while wellFormed
  have next := entered.next
  have headed := headed_loopHead entered.wellFormed emitter.nextBlock (emitter.nextBlock + 1)
    (emitter.nextBlock + 2) true (by omega) (by omega) (by omega) (entered.empty _ (Nat.le_refl _))
  have nextHead := headed.next
  have same := entered.same.trans headed.same
  have grown := entered.grown.trans headed.grown
  have pushed := headed.wellFormed.pushLoop
    { breakBlock := emitter.nextBlock + 2, continueBlock := emitter.nextBlock
      breakScopeDepth := emitter.runtimeScopeDepth
      continueScopeDepth := emitter.runtimeScopeDepth }
    (by show emitter.nextBlock + 2 < _; omega) (by show emitter.nextBlock < _; omega)
  have inside := Nat.lt_of_lt_of_eq (show emitter.nextBlock + 1 < emitter.nextBlock + 3 by omega)
    (headed.next.trans entered.next).symm
  have emitted := flows.scoped pushed inside
    (awaits.startAt wellFormed same.labelBlocks (grown.pushLoop _) (Nat.le_add_right _ _)
      (by
        rintro block member (here | rfl)
        · exact entered.apart awaits block member here
        · exact Nat.le_refl _)) same.active inner
  have part := emitted.part emitter.nextBlock
    (headed.empty_of_ne (by omega) (by omega) (entered.empty _ (Nat.le_add_right _ _)))
    (Nat.lt_of_succ_lt inside)
  exact entered.whileLoop wellFormed headed rfl rfl part

end While

section For
variable {emitter base middle joined current₀ current result : Emitter} {targets : LoopTargets}
  {labels labels' labels'' : List (String × Nat)} {count head : Nat} {terminated hasCondition : Bool}
  {flow flow' flow'' : Set String → Prop → Flow}

/-- A statement with `count` blocks of its own before it emits anything but straight code. -/
structure Opened (emitter base : Emitter) (count : Nat) : Prop where
  wellFormed : WellFormed base
  same : Same emitter base
  grown : Grown emitter base {emitter.insertBlock}
  insertBlock : base.insertBlock = emitter.insertBlock
  next : base.nextBlock = emitter.nextBlock + count
  empty : ∀ block, emitter.nextBlock ≤ block → base.code block = []
  marked : ∀ (marks : Nat → Prop) (live : Prop) (new : List Prop), Marked emitter marks live →
    Marked base (assign marks emitter.nextBlock new) live
  isOpen : emitter.IsOpen → base.IsOpen

/-- A part that runs before a loop, which begins in the first new block. -/
structure Prelude (emitter joined : Emitter) (count : Nat) (labels : List (String × Nat))
    (flow : Set String → Prop → Flow) : Prop where
  wellFormed : WellFormed joined
  same : Same emitter joined
  grown : Grown emitter joined ({emitter.insertBlock} ∪ blocksOf emitter.labelBlocks labels)
  next : emitter.nextBlock + count ≤ joined.nextBlock
  empty : ∀ offset, offset < count → joined.code (emitter.nextBlock + offset) = []
  sound : ∀ (marks : Nat → Prop) (reached : Set String) (live : Prop) (new : List Prop),
    Marked emitter marks live → LabelsWithin marks emitter reached →
    Exits marks emitter (flow reached live) →
    ((flow reached live).falls → assign marks emitter.nextBlock new emitter.nextBlock) →
    ∃ marks', Agree (emitter.nextBlock + count) (assign marks emitter.nextBlock new) marks' ∧
      Closed marks' joined.code
  complete : ∀ (blocks : Nat → Prop) (reached : Set String) (live : Prop),
    Closed blocks joined.code → (live → blocks emitter.insertBlock ∧ emitter.IsOpen) →
    LabelsInto blocks emitter reached →
    ((flow reached live).falls → blocks emitter.nextBlock) ∧ Exits blocks emitter (flow reached live)

theorem Opened.prelude (opened : Opened emitter base count) (wellFormed : WellFormed emitter)
    (positive : 0 < count) (emitted : Emitted base middle labels flow terminated) :
    Prelude emitter (middle.brUnlessTerminated emitter.nextBlock) count labels flow where
  wellFormed := emitted.wellFormed.brUnlessTerminated
    (Nat.lt_of_lt_of_le (opened.next ▸ Nat.lt_add_of_pos_right positive) emitted.grown.next)
  same := (opened.same.trans emitted.same).trans (same_brUnlessTerminated _ _)
  grown := by
    refine (opened.grown.trans (emitted.grown.trans (grown_brUnlessTerminated _ _))).restrict
      fun block touched old => ?_
    rw [opened.same.labelBlocks, opened.insertBlock] at touched
    rcases touched with here | touched | rfl
    · exact .inl here
    · exact touched
    · by_contra untouched
      refine (emitted.grown.elsewhere _ (Nat.lt_of_lt_of_le old opened.grown.next) ?_).2 rfl
      rw [opened.same.labelBlocks, opened.insertBlock]
      exact untouched
  next := by
    rw [← opened.next]
    exact emitted.grown.next.trans (grown_brUnlessTerminated _ _).next
  empty := by
    intro offset small
    have old : emitter.nextBlock + offset < base.nextBlock :=
      opened.next ▸ Nat.add_lt_add_left small _
    have untouched : emitter.nextBlock + offset ∉
        ({base.insertBlock} ∪ blocksOf base.labelBlocks labels : Set Nat) := by
      rintro (here | inside)
      · have here : emitter.nextBlock + offset = base.insertBlock := here
        have := wellFormed.inside
        rw [opened.insertBlock] at here
        omega
      · rw [opened.same.labelBlocks] at inside
        exact Nat.not_lt.mpr (Nat.le_add_right _ _) (mem_blocksOf_lt wellFormed inside)
    obtain ⟨code, insert⟩ := emitted.grown.elsewhere _ old untouched
    rw [((grown_brUnlessTerminated middle _).elsewhere _
      (Nat.lt_of_lt_of_le old emitted.grown.next) fun here => insert here.symm).1, code]
    exact opened.empty _ (Nat.le_add_right _ _)
  sound := by
    intro marks reached live new marked within exits joins
    have old := agree_assign marks emitter.nextBlock new
    obtain ⟨marks', agree, marked'⟩ := emitted.sound _ reached live (opened.marked marks live new marked)
      (within.carry wellFormed opened.same.labelBlocks old) (exits.carry wellFormed opened.same old)
    rw [opened.next] at agree
    refine ⟨marks', agree, marked'.join fun falls => ?_⟩
    rw [agree _ (Nat.lt_add_of_pos_right positive)]
    exact joins falls
  complete := by
    intro blocks reached live closed here into
    obtain ⟨falls, exits⟩ := emitted.complete blocks reached live
      (closed.of_persists (persists_brUnlessTerminated _ _))
      (fun alive => ⟨opened.insertBlock ▸ (here alive).1, opened.isOpen (here alive).2⟩)
      (into.carry opened.same.labelBlocks)
    exact ⟨closed.join falls, (Exits.of_same opened.same).mp exits⟩

/-- What a `for` loop comes to, from what runs before it, its head, its body and what runs behind
each of its rounds. -/
theorem Prelude.forLoop (before : Prelude emitter joined 4 labels flow)
    (wellFormed : WellFormed emitter)
    (headed : Headed joined current emitter.nextBlock (emitter.nextBlock + 1) hasCondition
      (emitter.nextBlock + 3))
    (breakBlock : targets.breakBlock = emitter.nextBlock + 3)
    (continueBlock : targets.continueBlock = emitter.nextBlock + 2)
    (body : Part (current.pushLoop targets) middle (emitter.nextBlock + 1) (emitter.nextBlock + 2)
      labels'' flow'')
    (post : Part middle result (emitter.nextBlock + 2) emitter.nextBlock labels' flow') :
    Emitted emitter (result.popLoop.setInsertPoint (emitter.nextBlock + 3))
      (labels ++ labels' ++ labels'') (fun reached live =>
        let postEntry (entry : Prop) := loopEntry
          ((flow'' reached entry).falls ∨ (flow'' reached entry).continues)
          fun again => (flow' reached again).continues
        let entry := loopEntry (flow reached live).falls fun entry =>
          (flow' reached (postEntry entry)).falls
        let bodyFlow := flow'' reached entry
        let postFlow := flow' reached (postEntry entry)
        { falls := hasCondition = true ∧ entry ∨ bodyFlow.breaks ∨ postFlow.breaks
          breaks := (flow reached live).breaks
          continues := (flow reached live).continues
          throws := (flow reached live).throws ∨ bodyFlow.throws ∨ postFlow.throws
          gotos := (flow reached live).gotos ∪ bodyFlow.gotos ∪ postFlow.gotos }) false := by
  have same := before.same.trans headed.same
  have samePost : Same (current.pushLoop targets) middle := body.same
  have next := before.next
  have nextHead := headed.next
  have nextPush : (current.pushLoop targets).nextBlock = current.nextBlock := rfl
  have nextBody := body.grown.next
  have nextPost := post.grown.next
  have inLoop {blocks : Nat → Prop} {flow : Flow} :
      Exits blocks (current.pushLoop targets) flow ↔ (flow.breaks → blocks targets.breakBlock) ∧
        (flow.continues → blocks targets.continueBlock) ∧ Exits blocks emitter flow.outOfLoop :=
    exits_inLoop (show (current.pushLoop targets).loopTargets = targets :: current.loopTargets from
      rfl) same.catchTargets same.labelBlocks
  have table : (current.pushLoop targets).labelBlocks = emitter.labelBlocks := same.labelBlocks
  have empty : result.code (emitter.nextBlock + 3) = [] := by
    refine post.empty_of_ne wellFormed (samePost.labelBlocks.trans table) (Nat.le_add_right _ _)
      (by omega) (by omega) ?_
    refine body.empty_of_ne wellFormed table (Nat.le_add_right _ _) (by omega) (by omega) ?_
    exact headed.empty_of_ne (by omega) (by omega) (before.empty 3 (by decide))
  refine ⟨post.wellFormed.popLoop.setInsertPoint (by show _ < result.nextBlock; omega), ?_, ?_,
    getTerminator_of_nil empty, ?_, ?_⟩
  · obtain ⟨loops, catches, labelBlocks, active⟩ := samePost.trans post.same
    refine ⟨?_, catches.trans same.catchTargets, labelBlocks.trans table, active.trans same.active⟩
    exact (congrArg List.tail loops).trans same.loopTargets
  · have pushed := headed.grown.pushLoop targets
    have behind := grown_setInsertPoint result (emitter.nextBlock + 3)
    have popped : Grown result (result.popLoop.setInsertPoint (emitter.nextBlock + 3))
        {emitter.nextBlock + 3} := ⟨behind.1, behind.2, behind.3⟩
    have whole := (((before.grown.trans pushed).trans body.grown).trans post.grown).trans popped
    refine whole.restrict fun block touched old => ?_
    rw [samePost.labelBlocks, table] at touched
    rw [blocksOf_append, blocksOf_append]
    rcases touched with ((((here | inside) | rfl) | rfl | inside) | rfl | inside) | rfl
    · exact .inl here
    · exact .inr (.inl (.inl inside))
    · omega
    · omega
    · exact .inr (.inr inside)
    · omega
    · exact .inr (.inl (.inr inside))
    · omega
  · intro marks reached live marked within exits
    let postBack (again : Prop) : Prop := (flow' reached again).continues
    let postEntry (entry : Prop) : Prop := loopEntry
      ((flow'' reached entry).falls ∨ (flow'' reached entry).continues) postBack
    let back (entry : Prop) : Prop := (flow' reached (postEntry entry)).falls
    let entry := loopEntry (flow reached live).falls back
    let behind : Prop := hasCondition = true ∧ entry ∨ (flow'' reached entry).breaks ∨
      (flow' reached (postEntry entry)).breaks
    let new : List Prop := [entry, entry, postEntry entry, behind]
    have old := agree_assign marks emitter.nextBlock new
    have start : Exits marks emitter (flow reached live) :=
      exits.mono id id .inl (Set.subset_union_left.trans Set.subset_union_left)
    have leaves : Exits marks emitter (flow'' reached entry).outOfLoop :=
      exits.mono False.elim False.elim (fun leaves => .inr (.inl leaves))
        (Set.subset_union_right.trans Set.subset_union_left)
    have leaves' : Exits marks emitter (flow' reached (postEntry entry)).outOfLoop :=
      exits.mono False.elim False.elim (fun leaves => .inr (.inr leaves)) Set.subset_union_right
    obtain ⟨marks₀, agree₀, closed⟩ := before.sound marks reached live new marked within start
      (fun falls => by
        rw [assign_first]
        exact .inl falls)
    have old₀ := old.trans agree₀ (by omega)
    have mark (offset : Nat) (small : offset < 4) :
        marks₀ (emitter.nextBlock + offset) = new.getD offset False := by
      rw [agree₀ _ (Nat.add_lt_add_left small _), assign_new]
    have closed := headed.sound marks₀ closed
      (fun reached => (mark 1 (by decide)).mpr ((mark 0 (by decide)).mp reached))
      (fun reached condition => by
        rw [mark 3 (by decide)]
        exact .inl ⟨condition, (mark 0 (by decide)).mp reached⟩)
    obtain ⟨marks₁, agree₁, closed₁⟩ := body.sound marks₀ reached entry closed
      (by rw [mark 1 (by decide)]; exact id) (within.carry wellFormed table old₀)
      (inLoop.mpr ⟨fun breaks => by
          rw [breakBlock, mark 3 (by decide)]
          exact .inr (.inl breaks), fun again => by
          rw [continueBlock, mark 2 (by decide)]
          exact .inl (.inr again), leaves.agree wellFormed old₀⟩)
      (fun falls => by
        rw [mark 2 (by decide)]
        exact .inl (.inl falls))
    have old₁ := old₀.trans agree₁ (by omega)
    have mark₁ (offset : Nat) (small : offset < 4) :
        marks₁ (emitter.nextBlock + offset) = new.getD offset False := by
      rw [agree₁ _ (by omega), mark offset small]
    obtain ⟨marks₂, agree₂, closed₂⟩ := post.sound marks₁ reached (postEntry entry) closed₁
      (by rw [mark₁ 2 (by decide)]; exact id)
      (within.carry wellFormed (samePost.labelBlocks.trans table) old₁)
      ((Exits.of_same samePost).mpr (inLoop.mpr ⟨fun breaks => by
          rw [breakBlock, mark₁ 3 (by decide)]
          exact .inr (.inr breaks), fun again => by
          rw [continueBlock, mark₁ 2 (by decide)]
          exact @loopEntry_closed _ postBack again, leaves'.agree wellFormed old₁⟩))
      (fun falls => (mark₁ 0 (by decide)).mpr (@loopEntry_closed _ back falls))
    refine ⟨marks₂, old₁.trans agree₂ (by omega), ?_⟩
    have ending : Marked (result.setInsertPoint (emitter.nextBlock + 3)) marks₂ behind := by
      refine closed₂.marked _ ?_
      rw [agree₂ _ (by omega), mark₁ 3 (by decide)]
      exact id
    exact ⟨ending.1, ending.2⟩
  · intro blocks reached live closed here into
    have closed₂ : Closed blocks result.code := closed
    have closed₁ := closed₂.of_persists post.grown.persists
    have closedHead : Closed blocks current.code := closed₁.of_persists body.grown.persists
    obtain ⟨enters, exits⟩ := before.complete blocks reached live
      (closedHead.of_persists headed.grown.persists) here into
    have onward := headed.complete blocks closedHead
    have inBody (entry : Prop) (starts : entry → blocks emitter.nextBlock) :=
      body.complete blocks reached entry closed₁ (fun entered => (onward (starts entered)).1)
        (into.carry table)
    have inPost (again : Prop) (starts : again → blocks (emitter.nextBlock + 2)) :=
      post.complete blocks reached again closed₂ starts
        (into.carry (samePost.labelBlocks.trans table))
    have leavePost (again : Prop) (starts : again → blocks (emitter.nextBlock + 2)) :=
      inLoop.mp ((Exits.of_same samePost).mp (inPost again starts).2)
    have ends (entry : Prop) (starts : entry → blocks emitter.nextBlock) := @loopEntry_least
      ((flow'' reached entry).falls ∨ (flow'' reached entry).continues)
      (blocks (emitter.nextBlock + 2)) (fun again => (flow' reached again).continues)
      (fun ends => ends.elim (inBody entry starts).1 fun again => by
        rw [← continueBlock]
        exact (inLoop.mp (inBody entry starts).2).2.1 again)
      (fun again starts continues => by
        rw [← continueBlock]
        exact (leavePost again starts).2.1 continues)
    have starts := @loopEntry_least _ (blocks emitter.nextBlock)
      (fun entry => (flow' reached (loopEntry
        ((flow'' reached entry).falls ∨ (flow'' reached entry).continues)
          fun again => (flow' reached again).continues)).falls) enters
      (fun entry starts falls => (inPost _ (ends entry starts)).1 falls)
    obtain ⟨breaks, -, leaves⟩ := inLoop.mp (inBody _ starts).2
    obtain ⟨breaks', -, leaves'⟩ := leavePost _ (ends _ starts)
    rw [breakBlock] at breaks breaks'
    refine ⟨fun ending => ⟨?_, isOpen_of_nil empty⟩, exits.breaks, exits.continues, ?_, ?_⟩
    · rcases ending with ⟨condition, entered⟩ | ending | ending
      · exact (onward (starts entered)).2 condition
      · exact breaks ending
      · exact breaks' ending
    · exact fun throws => throws.elim exits.throws fun throws =>
        throws.elim leaves.throws leaves'.throws
    · rintro label ((member | member) | member)
      · exact exits.gotos label member
      · exact leaves.gotos label member
      · exact leaves'.gotos label member

theorem opened_for (wellFormed : WellFormed emitter) :
    Opened emitter
      (emitter.append
        (.statement emitter.runtimeScopeDepth)).createBlock.createBlock.createBlock.createBlock.enterScope
      4 where
  wellFormed := ((emitted_plain ((emitted_marker wellFormed).wellFormed.createBlocks 4)
    .scopeEnter rfl).withDepth (emitter.runtimeScopeDepth + 1)).wellFormed
  same := ⟨rfl, rfl, rfl, rfl⟩
  grown := by
    have marker := grown_append emitter (.statement emitter.runtimeScopeDepth)
    have opened := (marker.trans (grown_createBlocks _ 4)).trans (grown_append _ .scopeEnter)
    have whole : Grown _ _ {emitter.insertBlock} := opened.restrict fun block touched _ =>
      touched.elim (fun earlier => earlier.elim id id) id
    exact ⟨whole.1, whole.2, whole.3⟩
  insertBlock := rfl
  next := rfl
  empty := by
    intro block beyond
    have apart : block ≠ emitter.insertBlock := by
      rintro rfl
      exact Nat.not_lt.mpr beyond wellFormed.inside
    have opened : ((emitter.append (.statement emitter.runtimeScopeDepth)).append
        .scopeEnter).code block = _ := append_code_of_ne .scopeEnter apart
    exact opened.trans ((append_code_of_ne _ apart).trans (wellFormed.fresh block beyond))
  marked := by
    intro marks live new marked
    have started := (marked.assign wellFormed new).plain
      (.statement emitter.runtimeScopeDepth) rfl
    have created : Marked { emitter.append (.statement emitter.runtimeScopeDepth) with
        nextBlock := emitter.nextBlock + 4 } (assign marks emitter.nextBlock new) live :=
      ⟨started.1, started.2⟩
    have opened := created.plain .scopeEnter rfl
    exact ⟨opened.1, opened.2⟩
  isOpen := by
    intro isOpen
    have started : (emitter.append (.statement emitter.runtimeScopeDepth)).IsOpen :=
      isOpen_append.mpr ⟨isOpen, rfl⟩
    have created : ({ emitter.append (.statement emitter.runtimeScopeDepth) with
        nextBlock := emitter.nextBlock + 4 } : Emitter).IsOpen := started
    have opened : (Emitter.append _ .scopeEnter).IsOpen := isOpen_append.mpr ⟨created, rfl⟩
    exact opened

theorem flows_for {init : Stmt} {post body : Block} (flows_init : init.Flows)
    (flows_post : post.PostFlows) (flows_body : body.Flows) (hasCondition : Bool) :
    (Stmt.forStmt init hasCondition post body).Flows := by
  intro emitter result depth wellFormed awaits done
  simp only [Stmt.collectLabels, Stmt.terminates, Stmt.flow] at awaits ⊢
  rw [Stmt.emit] at done
  obtain ⟨initialized, first, rest⟩ := bind_ok done
  obtain ⟨filled, second, rest⟩ := bind_ok rest
  obtain ⟨posted, third, last⟩ := bind_ok rest
  cases last
  have opened := opened_for wellFormed
  have initAwaits := awaits.left.left.of_grown wellFormed opened.same.labelBlocks opened.grown (by
    rintro block member rfl
    exact (awaits.left.left.empty _ member).2 rfl)
  have before := opened.prelude wellFormed (by decide)
    (flows_init _ _ _ opened.wellFormed initAwaits first)
  have next := before.next
  have headed := headed_loopHead before.wellFormed emitter.nextBlock (emitter.nextBlock + 1)
    (emitter.nextBlock + 3) hasCondition (by omega) (by omega) (by omega)
    (before.empty 0 (by decide))
  have nextHead := headed.next
  have same := before.same.trans headed.same
  have grown := before.grown.trans headed.grown
  have pushed := headed.wellFormed.pushLoop
    { breakBlock := emitter.nextBlock + 3, continueBlock := emitter.nextBlock + 2
      breakScopeDepth := emitter.runtimeScopeDepth + 1
      continueScopeDepth := emitter.runtimeScopeDepth + 1 }
    (by show emitter.nextBlock + 3 < _; omega) (by show emitter.nextBlock + 2 < _; omega)
  have inside (offset : Nat) (small : offset < 4) := Nat.lt_of_lt_of_le
    (Nat.add_lt_add_left small emitter.nextBlock) (before.next.trans_eq headed.next.symm)
  have bodyEmitted := flows_body.scoped pushed (inside 1 (by decide))
    (awaits.right.startAt wellFormed same.labelBlocks (grown.pushLoop _)
      (Nat.le_add_right _ _) (by
        rintro block member ((rfl | earlier) | rfl)
        · exact absurd rfl (awaits.right.empty _ member).2
        · rw [List.append_assoc] at awaits
          exact absurd (blocksOf_append _ _ _ ▸ .inr member) (awaits.disjoint wellFormed earlier)
        · exact Nat.le_refl _)) same.active second
  have bodyPart := bodyEmitted.part (emitter.nextBlock + 2)
    (headed.empty_of_ne (by omega) (by omega) (before.empty 1 (by decide)))
    (inside 2 (by decide))
  have table := bodyPart.same.labelBlocks.trans same.labelBlocks
  have bound := Nat.lt_of_lt_of_le (inside 2 (by decide)) bodyPart.grown.next
  have bodyEmpty : (filled.brUnlessTerminated (emitter.nextBlock + 2)).code
      (emitter.nextBlock + 2) = [] :=
    bodyPart.empty_of_ne wellFormed same.labelBlocks (Nat.le_add_right _ _) (inside 2 (by decide)) (by omega)
      (headed.empty_of_ne (by omega) (by omega) (before.empty 2 (by decide)))
  have postEmitted := flows_post _ _ _ (bodyPart.wellFormed.setInsertPoint bound)
    (awaits.left.right.startAt wellFormed table ((grown.pushLoop _).trans bodyPart.grown)
      (Nat.le_add_right _ _) (by
        rintro block member (((rfl | earlier) | rfl) | rfl | inside)
        · exact absurd rfl (awaits.left.right.empty _ member).2
        · exact absurd member (awaits.left.disjoint wellFormed earlier)
        · exact Nat.le_refl _
        · exact Nat.le_add_right _ _
        · exact absurd (same.labelBlocks ▸ inside)
            (awaits.disjoint wellFormed (blocksOf_append _ _ _ ▸ .inr member))))
    (getTerminator_of_nil bodyEmpty) third
  have active : ((filled.brUnlessTerminated (emitter.nextBlock + 2)).setInsertPoint
      (emitter.nextBlock + 2)).staticInitializationEmissionActive =
        emitter.staticInitializationEmissionActive := bodyPart.same.active.trans same.active
  rw [active] at postEmitted
  have postPart := postEmitted.part emitter.nextBlock bodyEmpty
    (Nat.lt_of_le_of_lt (Nat.le_add_right _ _) bound)
  have looped := before.forLoop wellFormed headed rfl rfl bodyPart postPart
  have ended := looped.thenPlain wellFormed .scopeExit rfl
  rw [getTerminator_append] at ended
  exact ended.withDepth _

end For

end HitSimple.ControlFlow

import HitSimple.Codegen.FlowEmission

namespace HitSimple.ControlFlow

section Parts
variable {emitter base current middle after result : Emitter} {labels labels' : List (String × Nat)}
  {flow flow' : Set String → Prop → Flow} {terminated : Bool} {start target : Nat}

/-- A part of a statement that begins in a block of its own and goes on in another one. -/
structure Part (current after : Emitter) (start target : Nat) (labels : List (String × Nat))
    (flow : Set String → Prop → Flow) : Prop where
  wellFormed : WellFormed after
  same : Same current after
  grown : Grown current after ({start} ∪ blocksOf current.labelBlocks labels)
  sound : ∀ (marks : Nat → Prop) (reached : Set String) (live : Prop),
    Closed marks current.code → (marks start → live) →
    LabelsWithin marks current reached →
    Exits marks current (flow reached live) → ((flow reached live).falls → marks target) →
    ∃ marks', Agree current.nextBlock marks marks' ∧ Closed marks' after.code
  complete : ∀ (blocks : Nat → Prop) (reached : Set String) (live : Prop),
    Closed blocks after.code → (live → blocks start) →
    LabelsInto blocks current reached →
    ((flow reached live).falls → blocks target) ∧ Exits blocks current (flow reached live)

theorem Emitted.part (emitted : Emitted (current.setInsertPoint start) middle labels flow terminated)
    (target : Nat) (empty : current.code start = []) (bound : target < current.nextBlock) :
    Part current (middle.brUnlessTerminated target) start target labels flow where
  wellFormed := emitted.wellFormed.brUnlessTerminated (Nat.lt_of_lt_of_le bound emitted.grown.next)
  same := ((same_setInsertPoint current start).trans emitted.same).trans
    (same_brUnlessTerminated middle target)
  grown := by
    have whole := (grown_setInsertPoint current start).trans
      (emitted.grown.trans (grown_brUnlessTerminated middle target))
    refine whole.restrict fun block touched old => ?_
    rcases touched with here | inside | rfl
    · exact .inl here
    · exact inside
    · by_contra untouched
      exact (emitted.grown.elsewhere _ old untouched).2 rfl
  sound := by
    intro marks reached live closed starts allowed exits joins
    obtain ⟨marks', agree, marked⟩ := emitted.sound marks reached live (closed.marked start starts)
      allowed ((Exits.of_same (same_setInsertPoint current start)).mpr exits)
    refine ⟨marks', agree, marked.join fun falls => ?_⟩
    rw [agree target bound]
    exact joins falls
  complete := by
    intro blocks reached live closed starts known
    obtain ⟨falls, exits⟩ := emitted.complete blocks reached live
      (closed.of_persists (persists_brUnlessTerminated middle target))
      (fun alive => ⟨starts alive, isOpen_of_nil empty⟩) known
    exact ⟨closed.join falls, (Exits.of_same (same_setInsertPoint current start)).mp exits⟩

/-- A block of the statement that a part leaves alone. -/
theorem Part.empty_of_ne (part : Part current after start target labels flow)
    (wellFormed : WellFormed emitter) (table : current.labelBlocks = emitter.labelBlocks)
    {block : Nat} (new : emitter.nextBlock ≤ block) (bound : block < current.nextBlock)
    (apart : block ≠ start) (empty : current.code block = []) : after.code block = [] := by
  refine (part.grown.elsewhere block bound ?_).1.trans empty
  rintro (here | ⟨label, -, depth, found⟩)
  · exact apart here
  · rw [table] at found
    exact absurd (wellFormed.labels label.1 block depth found) (Nat.not_lt.mpr new)

/-- The beginning of a statement with `count` blocks of its own, some of which it jumps to. -/
structure Entered (emitter current : Emitter) (count : Nat) (targets : List Nat) : Prop where
  wellFormed : WellFormed current
  same : Same emitter current
  grown : Grown emitter current {emitter.insertBlock}
  next : current.nextBlock = emitter.nextBlock + count
  empty : ∀ block, emitter.nextBlock ≤ block → current.code block = []
  sound : ∀ (marks : Nat → Prop) (live : Prop) (new : List Prop), Marked emitter marks live →
    (live → ∀ target ∈ targets, assign marks emitter.nextBlock new target) →
    Closed (assign marks emitter.nextBlock new) current.code
  complete : ∀ (blocks : Nat → Prop) (live : Prop), Closed blocks current.code →
    (live → blocks emitter.insertBlock ∧ emitter.IsOpen) → live →
    ∀ target ∈ targets, blocks target

theorem entered_jump (wellFormed : WellFormed emitter) (instr : Instr)
    (terminator : instr.isTerminator = true) (count : Nat)
    (exist : instr.TargetsExist (emitter.nextBlock + count)) :
    Entered emitter
      (({ emitter with nextBlock := emitter.nextBlock + count } : Emitter).append instr)
      count instr.targets where
  wellFormed := (wellFormed.createBlocks count).append exist
  same := ⟨rfl, rfl, rfl, rfl⟩
  grown := ((grown_createBlocks emitter count).trans (grown_append _ instr)).restrict
    fun _ touched _ => touched.elim id id
  next := rfl
  empty := by
    intro block beyond
    rw [append_code_of_ne]
    · exact wellFormed.fresh block beyond
    · rintro rfl
      exact Nat.not_lt.mpr beyond wellFormed.inside
  sound := by
    intro marks live new marked targets
    have assigned := marked.assign wellFormed new
    have created : Marked { emitter with nextBlock := emitter.nextBlock + count }
        (assign marks emitter.nextBlock new) live := ⟨assigned.1, assigned.2⟩
    exact (created.jump terminator targets False).closed
  complete := by
    intro blocks live closed here alive target member
    obtain ⟨reached, isOpen⟩ := here alive
    have created : ({ emitter with nextBlock := emitter.nextBlock + count } : Emitter).IsOpen :=
      isOpen
    exact closed _ _ (edge_of_append created terminator member) reached

/-- The same behind an instruction that control runs through. -/
theorem Entered.afterPlain {instr : Instr} {count : Nat} {targets : List Nat}
    (entered : Entered (emitter.append instr) current count targets)
    (plain : instr.isTerminator = false) : Entered emitter current count targets where
  wellFormed := entered.wellFormed
  same := ⟨entered.same.1, entered.same.2, entered.same.3, entered.same.4⟩
  grown := ((grown_append emitter instr).trans entered.grown).restrict
    fun _ touched _ => touched.elim id id
  next := entered.next
  empty := entered.empty
  sound := fun marks live new marked => entered.sound marks live new (marked.plain instr plain)
  complete := fun blocks live closed here => entered.complete blocks live closed fun alive =>
    ⟨(here alive).1, isOpen_append.mpr ⟨(here alive).2, plain⟩⟩

/-- Two parts that meet behind the statement. -/
theorem Entered.branches {current₁ current₂ : Emitter}
    (entered : Entered emitter current 3 [emitter.nextBlock, emitter.nextBlock + 1])
    (wellFormed : WellFormed emitter)
    (first : Part current current₁ emitter.nextBlock (emitter.nextBlock + 2) labels flow)
    (second : Part current₁ current₂ (emitter.nextBlock + 1) (emitter.nextBlock + 2) labels'
      flow') :
    Emitted emitter (current₂.setInsertPoint (emitter.nextBlock + 2)) (labels ++ labels')
      (fun reached live => ((flow reached live).followedBy (flow' reached live)).endingIn
        ((flow reached live).falls ∨ (flow' reached live).falls)) false := by
  have same₁ := entered.same.trans first.same
  have next := entered.next
  have next₁ := first.grown.next
  have next₂ := second.grown.next
  have merged : current₂.code (emitter.nextBlock + 2) = [] := by
    refine second.empty_of_ne wellFormed same₁.labelBlocks (Nat.le_add_right _ _) (by omega)
      (by omega) ?_
    exact first.empty_of_ne wellFormed entered.same.labelBlocks (Nat.le_add_right _ _) (by omega)
      (by omega) (entered.empty _ (Nat.le_add_right _ _))
  refine ⟨second.wellFormed.setInsertPoint (by omega),
    (same₁.trans second.same).trans (same_setInsertPoint _ _), ?_, getTerminator_of_nil merged,
    ?_, ?_⟩
  · have whole := ((entered.grown.trans first.grown).trans second.grown).trans
      (grown_setInsertPoint current₂ (emitter.nextBlock + 2))
    refine whole.restrict fun block touched old => ?_
    rw [entered.same.labelBlocks, same₁.labelBlocks] at touched
    rw [blocksOf_append]
    rcases touched with ((here | rfl | inside) | rfl | inside) | rfl
    · exact .inl here
    · omega
    · exact .inr (.inl inside)
    · omega
    · exact .inr (.inr inside)
    · omega
  · intro marks reached live marked within exits
    obtain ⟨exits, exits'⟩ := exits_followedBy.mp (exits_endingIn.mp exits)
    have closed := entered.sound marks live
      [live, live, (flow reached live).falls ∨ (flow' reached live).falls] marked (by simp)
    have old := agree_assign marks emitter.nextBlock
      [live, live, (flow reached live).falls ∨ (flow' reached live).falls]
    obtain ⟨marks₁, agree₁, closed₁⟩ := first.sound _ reached live closed (by simp)
      (within.carry wellFormed entered.same.labelBlocks old) (exits.carry wellFormed entered.same old)
      (by simpa using Or.inl)
    have old₁ := old.trans agree₁ (by omega)
    obtain ⟨marks₂, agree₂, closed₂⟩ := second.sound marks₁ reached live closed₁
      (by rw [agree₁ _ (by omega)]; simp) (within.carry wellFormed same₁.labelBlocks old₁)
      (exits'.carry wellFormed same₁ old₁) (by rw [agree₁ _ (by omega)]; simpa using Or.inr)
    refine ⟨marks₂, old₁.trans agree₂ (by omega), closed₂.marked _ ?_⟩
    rw [agree₂ _ (by omega), agree₁ _ (by omega)]
    simp [Flow.endingIn]
  · intro blocks reached live closed here into
    have closed₁ : Closed blocks current₁.code := closed.of_persists second.grown.persists
    have enters := entered.complete blocks live (closed₁.of_persists first.grown.persists) here
    obtain ⟨falls, exits⟩ := first.complete blocks reached live closed₁
      (fun alive => enters alive _ (by simp)) (into.carry entered.same.labelBlocks)
    obtain ⟨falls', exits'⟩ := second.complete blocks reached live closed
      (fun alive => enters alive _ (by simp)) (into.carry same₁.labelBlocks)
    refine ⟨fun ends => ⟨ends.elim falls falls', isOpen_of_nil merged⟩, ?_⟩
    exact exits_endingIn.mpr (exits_followedBy.mpr ⟨(Exits.of_same entered.same).mp exits,
      (Exits.of_same same₁).mp exits'⟩)

/-- The labels of a part that begins in a new block. -/
theorem Awaits.startAt {touched : Set Nat} (awaits : Awaits emitter labels)
    (wellFormed : WellFormed emitter) (table : current.labelBlocks = emitter.labelBlocks)
    (grown : Grown emitter current touched) (new : emitter.nextBlock ≤ start)
    (apart : ∀ block ∈ blocksOf emitter.labelBlocks labels, block ∈ touched →
      emitter.nextBlock ≤ block) :
    Awaits (current.setInsertPoint start) labels := by
  refine awaits.of_grown wellFormed table
    (grown.trans (grown_setInsertPoint current start)) ?_
  rintro block member (earlier | rfl)
  · exact Nat.not_lt.mpr (apart block member earlier) (mem_blocksOf_lt wellFormed member)
  · exact Nat.not_lt.mpr new (mem_blocksOf_lt wellFormed member)

/-- Nothing that a statement's beginning touches holds a label. -/
theorem Entered.apart {count : Nat} {targets : List Nat}
    (_ : Entered emitter current count targets) (awaits : Awaits emitter labels) :
    ∀ block ∈ blocksOf emitter.labelBlocks labels, block ∈ ({emitter.insertBlock} : Set Nat) →
      emitter.nextBlock ≤ block := by
  rintro block member rfl
  exact absurd rfl (awaits.empty _ member).2

end Parts

/-- A block of statements in a block of code of its own. -/
theorem Block.Flows.scoped {block : Block} (flows : block.Flows) {emitter current result : Emitter}
    {start depth : Nat} (wellFormed : WellFormed current) (bound : start < current.nextBlock)
    (awaits : Awaits (current.setInsertPoint start) (block.collectLabels depth))
    (active : current.staticInitializationEmissionActive =
      emitter.staticInitializationEmissionActive)
    (done : emitScoped block.emitStatements (current.setInsertPoint start) = .ok result) :
    Emitted (current.setInsertPoint start) result (block.collectLabels depth)
      (fun reached => block.flow reached emitter.staticInitializationEmissionActive false)
      (block.terminates emitter.staticInitializationEmissionActive false) := by
  have emitted := flows.inScope _ result depth (wellFormed.setInsertPoint bound) awaits done
  rw [← active]
  exact emitted

section Conditionals
variable {thenBlock elseBlock : Block}

theorem entered_if {emitter : Emitter} (wellFormed : WellFormed emitter) :
    Entered emitter
      (((emitter.append (.statement emitter.runtimeScopeDepth)).append
        .other).createBlock.createBlock.createBlock.append
          (.condBr emitter.nextBlock (emitter.nextBlock + 1))) 3
      [emitter.nextBlock, emitter.nextBlock + 1] := by
  have header := (emitted_marker wellFormed).thenPlain wellFormed .other rfl
  exact ((entered_jump header.wellFormed (.condBr emitter.nextBlock
    (emitter.nextBlock + 1)) rfl 3 (targetsExist_condBr (Nat.lt_add_of_pos_right (by decide))
      (Nat.add_lt_add_left (by decide) _))).afterPlain rfl).afterPlain rfl

theorem flows_ifElse (flows_then : thenBlock.Flows) (flows_else : elseBlock.Flows) :
    (Stmt.ifElse thenBlock elseBlock).Flows := by
  intro emitter result depth wellFormed awaits done
  simp only [Stmt.collectLabels, Stmt.terminates, Stmt.flow] at awaits ⊢
  rw [Stmt.emit] at done
  obtain ⟨filled, inner, rest⟩ := bind_ok done
  obtain ⟨filled', inner', last⟩ := bind_ok rest
  cases last
  have entered := entered_if wellFormed
  have next := entered.next
  have thenEmitted := flows_then.scoped entered.wellFormed (by omega)
    (awaits.left.startAt wellFormed entered.same.labelBlocks entered.grown (Nat.le_refl _)
      (entered.apart awaits.left)) entered.same.active inner
  have first := thenEmitted.part (emitter.nextBlock + 2)
    (entered.empty _ (Nat.le_refl _)) (by omega)
  have next₁ := first.grown.next
  have elseEmitted := flows_else.scoped first.wellFormed (by omega)
    (awaits.right.startAt wellFormed (entered.same.trans first.same).labelBlocks
      (entered.grown.trans first.grown) (Nat.le_add_right _ _) (by
        rw [entered.same.labelBlocks]
        rintro block member (here | rfl | earlier)
        · exact entered.apart awaits.right block member here
        · exact Nat.le_refl _
        · exact absurd member (awaits.disjoint wellFormed earlier)))
    (entered.same.trans first.same).active inner'
  have second := elseEmitted.part (emitter.nextBlock + 2)
    (first.empty_of_ne wellFormed entered.same.labelBlocks (Nat.le_add_right _ _) (by omega)
      (by omega) (entered.empty _ (Nat.le_add_right _ _))) (by omega)
  exact entered.branches wellFormed first second

theorem endingIn_followedBy_through (flow : Flow) (live falls : Prop) :
    (flow.followedBy (.through live)).endingIn falls = flow.endingIn falls := by
  simp [Flow.followedBy, Flow.through, Flow.endingIn]

theorem flows_ifThen (flows_then : thenBlock.Flows) : (Stmt.ifThen thenBlock).Flows := by
  intro emitter result depth wellFormed awaits done
  simp only [Stmt.collectLabels, Stmt.terminates, Stmt.flow] at awaits ⊢
  rw [Stmt.emit] at done
  obtain ⟨filled, inner, last⟩ := bind_ok done
  cases last
  have entered := entered_if wellFormed
  have next := entered.next
  have thenEmitted := flows_then.scoped entered.wellFormed (by omega)
    (awaits.startAt wellFormed entered.same.labelBlocks entered.grown (Nat.le_refl _)
      (entered.apart awaits)) entered.same.active inner
  have first := thenEmitted.part (emitter.nextBlock + 2)
    (entered.empty _ (Nat.le_refl _)) (by omega)
  have next₁ := first.grown.next
  have second := (emitted_refl (first.wellFormed.setInsertPoint
    (show emitter.nextBlock + 1 < _ by omega))).part (emitter.nextBlock + 2)
    (first.empty_of_ne wellFormed entered.same.labelBlocks (Nat.le_add_right _ _) (by omega)
      (by omega) (entered.empty _ (Nat.le_add_right _ _))) (by omega)
  have emitted := entered.branches wellFormed first second
  simp only [List.append_nil, endingIn_followedBy_through] at emitted
  exact emitted

end Conditionals

section Handlers
variable {emitter current middle result : Emitter} {target : CatchTarget}
  {labels labels' : List (String × Nat)} {flow flow' : Set String → Prop → Flow}

/-- The jumps of a `try` block that the statement does not catch. -/
def Flow.outOfTry (flow : Flow) : Flow :=
  { flow with throws := False }

theorem exits_inTry {blocks : Nat → Prop} {flow : Flow} :
    Exits blocks (emitter.pushCatch target) flow ↔
      (flow.throws → blocks target.catchBlock) ∧ Exits blocks emitter flow.outOfTry := by
  constructor
  · rintro ⟨breaks, continues, throws, gotos⟩
    exact ⟨fun leaves => throws leaves _ rfl, breaks, continues, nofun, gotos⟩
  · rintro ⟨throws, breaks, continues, -, gotos⟩
    refine ⟨breaks, continues, ?_, gotos⟩
    intro leaves innermost member
    cases member
    exact throws leaves

theorem WellFormed.pushCatch (wellFormed : WellFormed emitter) (target : CatchTarget)
    (bound : target.catchBlock < emitter.nextBlock) : WellFormed (emitter.pushCatch target) where
  inside := wellFormed.inside
  fresh := wellFormed.fresh
  edges := wellFormed.edges
  loops := wellFormed.loops
  catches := by
    rintro other (_ | ⟨_, member⟩)
    · exact bound
    · exact wellFormed.catches other member
  labels := wellFormed.labels
  apart := wellFormed.apart

theorem WellFormed.popCatch (wellFormed : WellFormed emitter) : WellFormed emitter.popCatch where
  inside := wellFormed.inside
  fresh := wellFormed.fresh
  edges := wellFormed.edges
  loops := wellFormed.loops
  catches := fun target member => wellFormed.catches target (List.mem_of_mem_tail member)
  labels := wellFormed.labels
  apart := wellFormed.apart

theorem popCatch_brUnlessTerminated (emitter : Emitter) (block : Nat) :
    emitter.popCatch.brUnlessTerminated block = (emitter.brUnlessTerminated block).popCatch := by
  unfold Emitter.brUnlessTerminated
  show (if emitter.getTerminator then _ else _) = _
  split <;> rfl

theorem Grown.pushCatch {before after : Emitter} {touched : Set Nat}
    (grown : Grown before after touched) (target : CatchTarget) :
    Grown before (after.pushCatch target) touched :=
  ⟨grown.1, grown.2, grown.3⟩

theorem Grown.popCatch {before after : Emitter} {touched : Set Nat}
    (grown : Grown before after touched) : Grown before after.popCatch touched :=
  ⟨grown.1, grown.2, grown.3⟩

/-- Behind a `try` block, its surroundings are back. -/
theorem Part.popCatch {start next : Nat}
    (part : Part (current.pushCatch target) middle start next labels flow) :
    Same current middle.popCatch := by
  obtain ⟨loops, catches, table, active⟩ := part.same
  exact ⟨loops, congrArg List.tail catches, table, active⟩

/-- What a `try` statement comes to, from its two blocks. -/
theorem Entered.tryCatch (entered : Entered emitter current 3 [emitter.nextBlock])
    (wellFormed : WellFormed emitter) (catchBlock : target.catchBlock = emitter.nextBlock + 1)
    (first : Part (current.pushCatch target) middle emitter.nextBlock (emitter.nextBlock + 2) labels
      flow)
    (second : Part middle.popCatch result (emitter.nextBlock + 1) (emitter.nextBlock + 2) labels'
      flow') :
    Emitted emitter (result.setInsertPoint (emitter.nextBlock + 2)) (labels ++ labels')
      (fun reached live =>
        let tryFlow := flow reached live
        let catchFlow := flow' reached tryFlow.throws
        { tryFlow.followedBy catchFlow with
          falls := tryFlow.falls ∨ catchFlow.falls
          throws := catchFlow.throws }) false := by
  have same := entered.same
  have samePopped := same.trans first.popCatch
  have next := entered.next
  have nextPush : (current.pushCatch target).nextBlock = current.nextBlock := rfl
  have nextPop : middle.popCatch.nextBlock = middle.nextBlock := rfl
  have next₁ := first.grown.next
  have next₂ := second.grown.next
  have empty : result.code (emitter.nextBlock + 2) = [] := by
    refine second.empty_of_ne wellFormed samePopped.labelBlocks (Nat.le_add_right _ _) (by omega)
      (by omega) ?_
    exact first.empty_of_ne wellFormed same.labelBlocks (Nat.le_add_right _ _) (by omega)
      (by omega) (entered.empty _ (Nat.le_add_right _ _))
  refine ⟨second.wellFormed.setInsertPoint (by omega),
    (samePopped.trans second.same).trans (same_setInsertPoint _ _), ?_, getTerminator_of_nil empty,
    ?_, ?_⟩
  · have whole := ((((entered.grown.pushCatch target).trans first.grown).popCatch.trans
      second.grown).trans (grown_setInsertPoint result (emitter.nextBlock + 2)))
    refine whole.restrict fun block touched old => ?_
    rw [samePopped.labelBlocks] at touched
    rw [blocksOf_append]
    rcases touched with ((here | rfl | inside) | rfl | inside) | rfl
    · exact .inl here
    · omega
    · rw [← same.labelBlocks]
      exact .inr (.inl inside)
    · omega
    · exact .inr (.inr inside)
    · omega
  · intro marks reached live marked within exits
    let tryFlow := flow reached live
    let catchFlow := flow' reached tryFlow.throws
    have old := agree_assign marks emitter.nextBlock
      [live, tryFlow.throws, tryFlow.falls ∨ catchFlow.falls]
    have closed := entered.sound marks live [live, tryFlow.throws, tryFlow.falls ∨ catchFlow.falls]
      marked (by simp)
    have leaves : Exits marks emitter tryFlow.outOfTry :=
      exits.mono .inl .inl False.elim Set.subset_union_left
    have leaves' : Exits marks emitter catchFlow :=
      exits.mono .inr .inr id Set.subset_union_right
    obtain ⟨marks₁, agree₁, closed₁⟩ := first.sound _ reached live closed (by simp)
      (within.carry wellFormed same.labelBlocks old)
      (exits_inTry.mpr ⟨fun throws => by
          rw [catchBlock, assign_new]
          exact throws, leaves.carry wellFormed same old⟩)
      (by simpa using Or.inl)
    have old₁ := old.trans agree₁ (by omega)
    obtain ⟨marks₂, agree₂, closed₂⟩ := second.sound marks₁ reached tryFlow.throws closed₁
      (by rw [agree₁ _ (by omega)]; simp) (within.carry wellFormed samePopped.labelBlocks old₁)
      (leaves'.carry wellFormed samePopped old₁) (by rw [agree₁ _ (by omega)]; simpa using Or.inr)
    refine ⟨marks₂, old₁.trans agree₂ (by omega), closed₂.marked _ ?_⟩
    rw [agree₂ _ (by omega), agree₁ _ (by omega)]
    simp [tryFlow, catchFlow]
  · intro blocks reached live closed here into
    have closed₁ : Closed blocks middle.code := closed.of_persists second.grown.persists
    have enters := entered.complete blocks live (closed₁.of_persists first.grown.persists) here
    obtain ⟨falls, exits⟩ := first.complete blocks reached live closed₁
      (fun alive => enters alive _ (by simp)) (into.carry same.labelBlocks)
    obtain ⟨throws, leaves⟩ := exits_inTry.mp exits
    have leaves := (Exits.of_same same).mp leaves
    obtain ⟨falls', exits'⟩ := second.complete blocks reached _ closed
      (fun thrown => catchBlock ▸ throws thrown) (into.carry samePopped.labelBlocks)
    have leaves' := (Exits.of_same samePopped).mp exits'
    exact ⟨fun ends => ⟨ends.elim falls falls', isOpen_of_nil empty⟩,
      fun breaks => breaks.elim leaves.breaks leaves'.breaks,
      fun continues => continues.elim leaves.continues leaves'.continues, leaves'.throws,
      fun label member => member.elim (leaves.gotos label) (leaves'.gotos label)⟩

theorem flows_tryCatch {tryBlock catchBlock : Block} (flows : tryBlock.Flows)
    (flows' : catchBlock.Flows) : (Stmt.tryCatch tryBlock catchBlock).Flows := by
  intro emitter result depth wellFormed awaits done
  simp only [Stmt.collectLabels, Stmt.terminates, Stmt.flow] at awaits ⊢
  rw [Stmt.emit] at done
  obtain ⟨filled, inner, rest⟩ := bind_ok done
  obtain ⟨filled', inner', last⟩ := bind_ok rest
  cases last
  have header := (emitted_marker wellFormed).thenPlain wellFormed .other rfl
  have entered := ((entered_jump header.wellFormed (.br emitter.nextBlock) rfl 3
    (targetsExist_br (Nat.lt_add_of_pos_right (by decide)))).afterPlain rfl).afterPlain rfl
  have pushed := entered.wellFormed.pushCatch
    { catchBlock := emitter.nextBlock + 1, scopeDepth := emitter.runtimeScopeDepth }
    (Nat.lt_of_lt_of_eq (Nat.add_lt_add_left (by decide) _) entered.next.symm)
  have tryEmitted := flows.scoped pushed
    (Nat.lt_of_lt_of_eq (Nat.lt_add_of_pos_right (by decide)) entered.next.symm)
    (awaits.left.startAt wellFormed entered.same.labelBlocks (entered.grown.pushCatch _)
      (Nat.le_refl _) (entered.apart awaits.left)) entered.same.active inner
  have inside := Nat.lt_of_lt_of_eq (show emitter.nextBlock + 2 < emitter.nextBlock + 3 by omega)
    entered.next.symm
  have first := tryEmitted.part (emitter.nextBlock + 2) (entered.empty _ (Nat.le_refl _))
    inside
  have same := entered.same.trans first.popCatch
  rw [popCatch_brUnlessTerminated] at inner'
  have bound := Nat.lt_of_lt_of_le inside first.grown.next
  have catchEmitted := flows'.scoped first.wellFormed.popCatch (Nat.lt_of_succ_lt bound)
    (awaits.right.startAt wellFormed same.labelBlocks
      ((entered.grown.pushCatch _).trans first.grown).popCatch (Nat.le_add_right _ _) (by
        rintro block member (here | rfl | earlier)
        · exact entered.apart awaits.right block member here
        · exact Nat.le_refl _
        · exact absurd member
            (awaits.disjoint wellFormed (entered.same.labelBlocks ▸ earlier)))) same.active inner'
  have second := catchEmitted.part (emitter.nextBlock + 2)
    (first.empty_of_ne wellFormed entered.same.labelBlocks (Nat.le_add_right _ _)
      (Nat.lt_of_succ_lt inside) (Nat.succ_ne_self _) (entered.empty _ (Nat.le_add_right _ _)))
    bound
  exact entered.tryCatch wellFormed rfl first second

end Handlers

section StaticInitialization
variable {emitter current middle : Emitter} {labels : List (String × Nat)}
  {flow : Set String → Prop → Flow}

theorem exits_setStaticInitialization {blocks : Nat → Prop} {active : Bool} {flow : Flow} :
    Exits blocks (emitter.setStaticInitialization active) flow ↔ Exits blocks emitter flow :=
  ⟨fun exits => ⟨exits.1, exits.2, exits.3, exits.4⟩,
    fun exits => ⟨exits.1, exits.2, exits.3, exits.4⟩⟩

theorem WellFormed.setStaticInitialization (wellFormed : WellFormed emitter) (active : Bool) :
    WellFormed (emitter.setStaticInitialization active) :=
  ⟨wellFormed.1, wellFormed.2, wellFormed.3, wellFormed.4, wellFormed.5, wellFormed.6,
    wellFormed.7⟩

theorem Grown.setStaticInitialization {before after : Emitter} {touched : Set Nat}
    (grown : Grown before after touched) (active : Bool) :
    Grown before (after.setStaticInitialization active) touched :=
  ⟨grown.1, grown.2, grown.3⟩

theorem setStaticInitialization_brUnlessTerminated (emitter : Emitter) (active : Bool)
    (block : Nat) : (emitter.setStaticInitialization active).brUnlessTerminated block =
      (emitter.brUnlessTerminated block).setStaticInitialization active := by
  unfold Emitter.brUnlessTerminated
  show (if emitter.getTerminator then _ else _) = _
  split <;> rfl

/-- What an initialisation comes to that runs the first time control comes to it. -/
theorem Entered.staticInitialization
    (entered : Entered emitter current 2 [emitter.nextBlock + 1, emitter.nextBlock])
    (wellFormed : WellFormed emitter)
    (inactive : emitter.staticInitializationEmissionActive = false)
    (part : Part (current.setStaticInitialization true) middle emitter.nextBlock
      (emitter.nextBlock + 1) labels flow) :
    Emitted emitter
      ((middle.setStaticInitialization false).setInsertPoint (emitter.nextBlock + 1)) labels
      (fun reached live => (flow reached live).endingIn (live ∨ (flow reached live).falls))
      false := by
  have same := entered.same
  have next := entered.next
  have nextSet : (current.setStaticInitialization true).nextBlock = current.nextBlock := rfl
  have nextPart := part.grown.next
  have empty : middle.code (emitter.nextBlock + 1) = [] := by
    exact part.empty_of_ne wellFormed same.labelBlocks (Nat.le_add_right _ _) (by omega)
      (by omega) (entered.empty _ (Nat.le_add_right _ _))
  refine ⟨(part.wellFormed.setStaticInitialization false).setInsertPoint
    (by show _ < middle.nextBlock; omega), ?_, ?_, getTerminator_of_nil empty, ?_, ?_⟩
  · obtain ⟨loops, catches, table, -⟩ := part.same
    exact ⟨loops.trans same.loopTargets, catches.trans same.catchTargets,
      table.trans same.labelBlocks, inactive.symm⟩
  · have whole := (((entered.grown.setStaticInitialization true).trans
      part.grown).setStaticInitialization false).trans (grown_setInsertPoint _ (emitter.nextBlock + 1))
    refine whole.restrict fun block touched old => ?_
    rcases touched with (here | rfl | inside) | rfl
    · exact .inl here
    · omega
    · rw [← same.labelBlocks]
      exact .inr inside
    · omega
  · intro marks reached live marked within exits
    have old := agree_assign marks emitter.nextBlock [live, live ∨ (flow reached live).falls]
    have closed := entered.sound marks live [live, live ∨ (flow reached live).falls] marked
      (fun alive target member => by
        rcases List.mem_cons.mp member with rfl | member
        · rw [assign_new]
          exact .inl alive
        · rw [List.mem_singleton.mp member, assign_first]
          exact alive)
    obtain ⟨marks', agree, closed'⟩ := part.sound _ reached live closed (by simp)
      (within.carry wellFormed same.labelBlocks old)
      (exits_setStaticInitialization.mpr ((exits_endingIn.mp exits).carry wellFormed same old))
      (by simpa using Or.inr)
    refine ⟨marks', old.trans agree (by omega), ?_⟩
    have closed'' : Closed marks' (middle.setStaticInitialization false).code := closed'
    refine closed''.marked (emitter.nextBlock + 1) ?_
    rw [agree _ (by omega), assign_new]
    exact id
  · intro blocks reached live closed here into
    have closed' : Closed blocks middle.code := closed
    have enters := entered.complete blocks live (closed'.of_persists part.grown.persists) here
    obtain ⟨falls, exits⟩ := part.complete blocks reached live closed'
      (fun alive => enters alive _ (by simp)) (into.carry same.labelBlocks)
    refine ⟨fun ends => ⟨ends.elim (fun alive => enters alive _ List.mem_cons_self) falls,
      isOpen_of_nil empty⟩, exits_endingIn.mpr ?_⟩
    exact (Exits.of_same same).mp (exits_setStaticInitialization.mp exits)

theorem flows_staticInitialization {statement : Stmt} (flows : statement.Flows) :
    (Stmt.staticInitialization statement).Flows := by
  intro emitter result depth wellFormed awaits done
  simp only [Stmt.collectLabels, Stmt.terminates, Stmt.flow] at awaits ⊢
  rw [Stmt.emit] at done
  split at done
  · next active =>
      have emitted := flows emitter result depth wellFormed awaits done
      simpa only [active, if_true] using emitted
  · next inactive =>
      obtain ⟨middle, inner, last⟩ := bind_ok done
      cases last
      have header := (emitted_marker wellFormed).thenPlain wellFormed .other rfl
      have entered := ((entered_jump header.wellFormed
        (.condBr (emitter.nextBlock + 1) emitter.nextBlock) rfl 2
        (targetsExist_condBr (Nat.add_lt_add_left (by decide) _)
          (Nat.lt_add_of_pos_right (by decide)))).afterPlain rfl).afterPlain rfl
      have inside := Nat.lt_of_lt_of_eq
        (show emitter.nextBlock + 1 < emitter.nextBlock + 2 by omega) entered.next.symm
      have emitted := flows _ _ depth
        ((entered.wellFormed.setStaticInitialization true).setInsertPoint (Nat.lt_of_succ_lt inside))
        (awaits.startAt wellFormed entered.same.labelBlocks
          (entered.grown.setStaticInitialization true) (Nat.le_refl _) (entered.apart awaits)) inner
      have part := emitted.part (emitter.nextBlock + 1) (entered.empty _ (Nat.le_refl _))
        inside
      rw [Bool.not_eq_true] at inactive
      simp only [inactive]
      rw [setStaticInitialization_brUnlessTerminated]
      exact entered.staticInitialization wellFormed inactive part

end StaticInitialization

end HitSimple.ControlFlow

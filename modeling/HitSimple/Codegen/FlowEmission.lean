import HitSimple.Codegen.FlowGraph

namespace HitSimple.ControlFlow

section Emitted
variable {emitter middle result : Emitter} {labels labels' : List (String × Nat)}
  {flow flow' : Set String → Prop → Flow} {terminated terminated' : Bool}

/-- The blocks of the labels are known, different and still empty. -/
structure Awaits (emitter : Emitter) (labels : List (String × Nat)) : Prop where
  distinct : (labels.map Prod.fst).Nodup
  known : ∀ label ∈ labels, ∃ block depth, emitter.labelBlocks label.1 = some (block, depth)
  empty : ∀ block ∈ blocksOf emitter.labelBlocks labels,
    emitter.code block = [] ∧ emitter.insertBlock ≠ block

/-- What the emission of a part of a function does.  Every set of blocks that no edge left is
extended to one over the new blocks, with the end of the part reached where the flow says so; and
conversely, whatever set no edge leaves, the flow leads into it. -/
structure Emitted (emitter result : Emitter) (labels : List (String × Nat))
    (flow : Set String → Prop → Flow) (terminated : Bool) : Prop where
  wellFormed : WellFormed result
  same : Same emitter result
  grown : Grown emitter result ({emitter.insertBlock} ∪ blocksOf emitter.labelBlocks labels)
  terminated : result.getTerminator = terminated
  sound : ∀ (marks : Nat → Prop) (reached : Set String) (live : Prop), Marked emitter marks live →
    LabelsWithin marks emitter reached → Exits marks emitter (flow reached live) →
    ∃ marks', Agree emitter.nextBlock marks marks' ∧ Marked result marks' (flow reached live).falls
  complete : ∀ (blocks : Nat → Prop) (reached : Set String) (live : Prop),
    Closed blocks result.code → (live → blocks emitter.insertBlock ∧ emitter.IsOpen) →
    LabelsInto blocks emitter reached →
    ((flow reached live).falls → blocks result.insertBlock ∧ result.IsOpen) ∧
      Exits blocks emitter (flow reached live)

theorem mem_blocksOf_lt (wellFormed : WellFormed emitter) {block : Nat}
    (member : block ∈ blocksOf emitter.labelBlocks labels) : block < emitter.nextBlock := by
  obtain ⟨label, -, depth, found⟩ := member
  exact wellFormed.labels label.1 block depth found

/-- Emission elsewhere leaves the blocks of the labels empty. -/
theorem Awaits.of_grown {touched : Set Nat} (awaits : Awaits emitter labels)
    (wellFormed : WellFormed emitter) (table : middle.labelBlocks = emitter.labelBlocks)
    (grown : Grown emitter middle touched)
    (apart : ∀ block ∈ blocksOf emitter.labelBlocks labels, block ∉ touched) :
    Awaits middle labels where
  distinct := awaits.distinct
  known := by
    rw [table]
    exact awaits.known
  empty := by
    rw [table]
    intro block member
    obtain ⟨code, insert⟩ :=
      grown.elsewhere block (mem_blocksOf_lt wellFormed member) (apart block member)
    exact ⟨code.trans (awaits.empty block member).1, insert⟩

theorem Awaits.left (awaits : Awaits emitter (labels ++ labels')) : Awaits emitter labels where
  distinct := by
    have distinct := awaits.distinct
    rw [List.map_append] at distinct
    exact (List.nodup_append.mp distinct).1
  known := fun label member => awaits.known label (List.mem_append_left _ member)
  empty := fun block member => awaits.empty block (blocksOf_append _ _ _ ▸ .inl member)

theorem Awaits.right (awaits : Awaits emitter (labels ++ labels')) : Awaits emitter labels' where
  distinct := by
    have distinct := awaits.distinct
    rw [List.map_append] at distinct
    exact (List.nodup_append.mp distinct).2.1
  known := fun label member => awaits.known label (List.mem_append_right _ member)
  empty := fun block member => awaits.empty block (blocksOf_append _ _ _ ▸ .inr member)

theorem Awaits.disjoint (awaits : Awaits emitter (labels ++ labels'))
    (wellFormed : WellFormed emitter) {block : Nat}
    (first : block ∈ blocksOf emitter.labelBlocks labels) :
    block ∉ blocksOf emitter.labelBlocks labels' := by
  rintro ⟨label, member, depth, found⟩
  obtain ⟨label', member', depth', found'⟩ := first
  have distinct := awaits.distinct
  rw [List.map_append, List.nodup_append] at distinct
  exact distinct.2.2 _ (List.mem_map_of_mem member') _ (List.mem_map_of_mem member)
    (wellFormed.apart _ _ _ _ _ found' found)

/-- The labels of the second of two parts, after the first one. -/
theorem Awaits.after (awaits : Awaits emitter (labels ++ labels'))
    (wellFormed : WellFormed emitter) (emitted : Emitted emitter middle labels flow terminated) :
    Awaits middle labels' := by
  refine awaits.right.of_grown wellFormed emitted.same.labelBlocks emitted.grown fun block member touched => ?_
  rcases touched with rfl | earlier
  · exact (awaits.right.empty _ member).2 rfl
  · exact awaits.disjoint wellFormed earlier member

/-- One part behind another. -/
theorem Emitted.followedBy (first : Emitted emitter middle labels flow terminated)
    (wellFormed : WellFormed emitter)
    (second : Emitted middle result labels' flow' terminated') :
    Emitted emitter result (labels ++ labels')
      (fun reached live => (flow reached live).followedBy (flow' reached (flow reached live).falls))
      terminated' where
  wellFormed := second.wellFormed
  same := first.same.trans second.same
  grown := by
    refine (first.grown.trans second.grown).restrict fun block touched old => ?_
    rw [blocksOf_append, first.same.labelBlocks] at *
    rcases touched with (start | label) | (here | label)
    · exact .inl start
    · exact .inr (.inl label)
    · by_contra untouched
      refine (first.grown.elsewhere block old fun touched => untouched ?_).2 here.symm
      exact touched.elim .inl fun label => .inr (.inl label)
    · exact .inr (.inr label)
  terminated := second.terminated
  sound := by
    intro marks reached live marked allowed exits
    obtain ⟨exits, exits'⟩ := exits_followedBy.mp exits
    obtain ⟨marks', agree, marked'⟩ := first.sound marks reached live marked allowed exits
    obtain ⟨marks'', agree', marked''⟩ := second.sound marks' reached _ marked'
      (allowed.carry wellFormed first.same.labelBlocks agree) (exits'.carry wellFormed first.same agree)
    exact ⟨marks'', agree.trans agree' first.grown.next, marked''⟩
  complete := by
    intro blocks reached live closed starts known
    obtain ⟨falls, exits⟩ := first.complete blocks reached live
      (closed.of_persists second.grown.persists) starts known
    obtain ⟨falls', exits'⟩ := second.complete blocks reached _ closed falls
      (known.carry first.same.labelBlocks)
    exact ⟨falls', exits_followedBy.mpr ⟨exits, (Exits.of_same first.same).mp exits'⟩⟩

end Emitted

section Steps
variable {emitter middle result : Emitter} {instr : Instr} {labels : List (String × Nat)}
  {flow : Set String → Prop → Flow} {terminated : Bool}

theorem getTerminator_append (emitter : Emitter) (instr : Instr) :
    (emitter.append instr).getTerminator =
      if instr.isMarker then emitter.getTerminator else instr.isTerminator := by
  show (((emitter.append instr).code emitter.insertBlock).filter _).getLast?.any _ = _
  rw [append_code_self, List.filter_append]
  cases marker : instr.isMarker with
  | true => simp [marker, Emitter.getTerminator]
  | false => simp [marker]

theorem getTerminator_of_nil {block : Nat} (empty : emitter.code block = []) :
    (emitter.setInsertPoint block).getTerminator = false := by
  show ((emitter.code block).filter _).getLast?.any _ = false
  rw [empty]
  rfl

@[simp] theorem through_followedBy (live : Prop) (second : Flow) :
    (Flow.through live).followedBy second = second := by
  simp [Flow.followedBy, Flow.through]

@[simp] theorem followedBy_through (first : Flow) :
    first.followedBy (.through first.falls) = first := by
  simp [Flow.followedBy, Flow.through]

theorem emitted_refl (wellFormed : WellFormed emitter) :
    Emitted emitter emitter [] (fun _ live => .through live) emitter.getTerminator where
  wellFormed := wellFormed
  same := ⟨rfl, rfl, rfl, rfl⟩
  grown := ⟨Nat.le_refl _, Persists.refl _, fun _ _ untouched =>
    ⟨rfl, fun same => untouched (.inl same.symm)⟩⟩
  terminated := rfl
  sound := fun marks _ _ marked _ _ => ⟨marks, fun _ _ => rfl, marked⟩
  complete := fun blocks _ live _ starts _ => ⟨starts, exits_through blocks emitter live⟩

/-- An instruction that control runs through. -/
theorem emitted_plain (wellFormed : WellFormed emitter) (instr : Instr)
    (plain : instr.isTerminator = false) :
    Emitted emitter (emitter.append instr) [] (fun _ live => .through live)
      (emitter.append instr).getTerminator where
  wellFormed := wellFormed.append (targetsExist_of_plain plain _)
  same := ⟨rfl, rfl, rfl, rfl⟩
  grown := (grown_append emitter instr).restrict fun _ touched _ => .inl touched
  terminated := rfl
  sound := fun marks _ _ marked _ _ => ⟨marks, fun _ _ => rfl, marked.plain instr plain⟩
  complete := fun blocks _ live _ starts _ =>
    ⟨fun alive => ⟨(starts alive).1, isOpen_append.mpr ⟨(starts alive).2, plain⟩⟩,
      exits_through blocks emitter live⟩

theorem Emitted.thenPlain (emitted : Emitted emitter middle labels flow terminated)
    (wellFormed : WellFormed emitter) (instr : Instr) (plain : instr.isTerminator = false) :
    Emitted emitter (middle.append instr) labels flow (middle.append instr).getTerminator := by
  have both := emitted.followedBy wellFormed (emitted_plain emitted.wellFormed instr plain)
  simpa only [List.append_nil, followedBy_through] using both

/-- The scope depth does not matter here. -/
theorem Emitted.withDepth (emitted : Emitted emitter result labels flow terminated) (depth : Nat) :
    Emitted emitter { result with runtimeScopeDepth := depth } labels flow terminated where
  wellFormed := ⟨emitted.1.1, emitted.1.2, emitted.1.3, emitted.1.4, emitted.1.5, emitted.1.6,
    emitted.1.7⟩
  same := ⟨emitted.same.1, emitted.same.2, emitted.same.3, emitted.same.4⟩
  grown := ⟨emitted.grown.1, emitted.grown.2, emitted.grown.3⟩
  terminated := emitted.terminated
  sound := by
    intro marks reached live marked allowed exits
    obtain ⟨marks', agree, marked'⟩ := emitted.sound marks reached live marked allowed exits
    exact ⟨marks', agree, marked'.1, marked'.2⟩
  complete := emitted.complete

theorem Emitted.scopeExitTo (emitted : Emitted emitter middle labels flow terminated)
    (wellFormed : WellFormed emitter) (depth : Nat) :
    ∃ terminated', Emitted emitter (middle.emitRuntimeScopeExitTo depth) labels flow terminated' := by
  unfold Emitter.emitRuntimeScopeExitTo
  split
  · exact ⟨_, emitted.thenPlain wellFormed _ rfl⟩
  · exact ⟨_, emitted⟩

/-- A jump behind code that control runs through. -/
theorem Emitted.jump
    (emitted : Emitted emitter middle [] (fun _ live => .through live) terminated)
    (wellFormed : WellFormed emitter) (instr : Instr) (flow : Prop → Flow)
    (terminator : instr.isTerminator = true) (marker : instr.isMarker = false)
    (exist : instr.TargetsExist middle.nextBlock) (noFall : ∀ live, ¬(flow live).falls)
    (exits : ∀ blocks live, Exits blocks emitter (flow live) ↔
      (live → ∀ target ∈ instr.targets, blocks target)) :
    Emitted emitter (middle.append instr) [] (fun _ live => flow live) true where
  wellFormed := emitted.wellFormed.append exist
  same := emitted.same.trans ⟨rfl, rfl, rfl, rfl⟩
  grown := by
    refine (emitted.grown.trans (grown_append middle instr)).restrict fun block touched old => ?_
    rcases touched with earlier | here
    · exact earlier
    · by_contra untouched
      exact (emitted.grown.elsewhere block old untouched).2 here.symm
  terminated := by rw [getTerminator_append, marker, terminator]; rfl
  sound := by
    intro marks reached live marked allowed leaves
    obtain ⟨marks', agree, marked'⟩ := emitted.sound marks reached live marked allowed
      (exits_through marks emitter live)
    exact ⟨marks', agree, marked'.jump terminator
      ((exits marks' live).mp (leaves.agree wellFormed agree)) _⟩
  complete := by
    intro blocks reached live closed starts known
    have inner := (emitted.complete blocks reached live
      (closed.of_persists (persists_append middle instr)) starts known).1
    refine ⟨fun falls => absurd falls (noFall live), (exits blocks live).mpr ?_⟩
    intro alive target member
    obtain ⟨here, isOpen⟩ := inner alive
    exact closed _ _ (edge_of_append isOpen terminator member) here

end Steps

section Statements

/-- The emission of a part of a function, whatever it starts from. -/
def Flows (emit : Emitter → Emission) (labels : Nat → List (String × Nat))
    (terminates : (active terminated : Bool) → Bool)
    (flow : Set String → (active terminated : Bool) → Prop → Flow) : Prop :=
  ∀ (emitter result : Emitter) (depth : Nat), WellFormed emitter → Awaits emitter (labels depth) →
    emit emitter = .ok result →
    Emitted emitter result (labels depth)
      (fun reached =>
        flow reached emitter.staticInitializationEmissionActive emitter.getTerminator)
      (terminates emitter.staticInitializationEmissionActive emitter.getTerminator)

/-- The same of a statement. -/
abbrev Stmt.Flows (statement : Stmt) : Prop :=
  ControlFlow.Flows statement.emit statement.collectLabels statement.terminates
    fun reached active _ => statement.flow reached active

variable {emitter result : Emitter}

theorem emitted_marker (wellFormed : WellFormed emitter) :
    Emitted emitter (emitter.append (.statement emitter.runtimeScopeDepth)) []
      (fun _ live => .through live) emitter.getTerminator := by
  have emitted := emitted_plain wellFormed (.statement emitter.runtimeScopeDepth) rfl
  rwa [getTerminator_append] at emitted

theorem flows_simple (emitsCode : Bool) : (Stmt.simple emitsCode).Flows := by
  intro emitter result depth wellFormed _ done
  cases done
  cases emitsCode with
  | false =>
      have emitted := emitted_marker wellFormed
      simpa [Stmt.terminates, Stmt.flow, Stmt.collectLabels] using emitted
  | true =>
      have emitted := (emitted_marker wellFormed).thenPlain wellFormed .other rfl
      rw [getTerminator_append] at emitted
      simpa [Stmt.terminates, Stmt.flow, Stmt.collectLabels, Instr.isMarker,
        Instr.isTerminator] using emitted

/-- Control does not come back from a return. -/
theorem flows_return : Stmt.returnStmt.Flows := by
  intro emitter result depth wellFormed _ done
  cases done
  obtain ⟨_, left⟩ := (emitted_marker wellFormed).scopeExitTo wellFormed 0
  have emitted := (left.thenPlain wellFormed .other rfl).jump wellFormed .ret
    (fun _ => .through False) rfl rfl nofun (fun _ => id)
    (fun blocks live => iff_of_true (exits_through _ _ _) nofun)
  exact emitted

theorem exits_breaks {blocks : Nat → Prop} {live : Prop} {targets : LoopTargets}
    {outer : List LoopTargets} (loops : emitter.loopTargets = targets :: outer) :
    Exits blocks emitter { Flow.through False with breaks := live } ↔
      (live → ∀ target ∈ (Instr.br targets.breakBlock).targets, blocks target) := by
  have inLoop : (∀ innermost ∈ emitter.loopTargets.head?, blocks innermost.breakBlock) ↔
      ∀ target ∈ (Instr.br targets.breakBlock).targets, blocks target := by
    simp [loops, Instr.targets]
  rw [← inLoop]
  exact ⟨fun exits => exits.breaks, fun leaves => ⟨leaves, nofun, nofun, nofun⟩⟩

theorem exits_continues {blocks : Nat → Prop} {live : Prop} {targets : LoopTargets}
    {outer : List LoopTargets} (loops : emitter.loopTargets = targets :: outer) :
    Exits blocks emitter { Flow.through False with continues := live } ↔
      (live → ∀ target ∈ (Instr.br targets.continueBlock).targets, blocks target) := by
  have inLoop : (∀ innermost ∈ emitter.loopTargets.head?, blocks innermost.continueBlock) ↔
      ∀ target ∈ (Instr.br targets.continueBlock).targets, blocks target := by
    simp [loops, Instr.targets]
  rw [← inLoop]
  exact ⟨fun exits => exits.continues, fun leaves => ⟨nofun, leaves, nofun, nofun⟩⟩

theorem exits_throws {blocks : Nat → Prop} {live : Prop} {target : CatchTarget}
    {outer : List CatchTarget} (catches : emitter.catchTargets = target :: outer) :
    Exits blocks emitter { Flow.through False with throws := live } ↔
      (live → ∀ block ∈ (Instr.br target.catchBlock).targets, blocks block) := by
  have inTry : (∀ innermost ∈ emitter.catchTargets.head?, blocks innermost.catchBlock) ↔
      ∀ block ∈ (Instr.br target.catchBlock).targets, blocks block := by
    simp [catches, Instr.targets]
  rw [← inTry]
  exact ⟨fun exits => exits.throws, fun leaves => ⟨nofun, nofun, leaves, nofun⟩⟩

theorem exits_gotos {blocks : Nat → Prop} {live : Prop} {label : String} {block depth : Nat}
    (found : emitter.labelBlocks label = some (block, depth)) :
    Exits blocks emitter (.jumpTo label live) ↔
      (live → ∀ target ∈ (Instr.br block).targets, blocks target) := by
  constructor
  · intro exits alive target member
    rw [List.mem_singleton.mp member]
    exact exits.gotos label ⟨alive, rfl⟩ block depth found
  · intro leaves
    refine ⟨nofun, nofun, nofun, ?_⟩
    rintro other ⟨alive, rfl⟩ block' depth' found'
    obtain ⟨rfl, rfl⟩ := Prod.mk.inj (Option.some.inj (found.symm.trans found'))
    exact leaves alive block (List.mem_singleton.mpr rfl)

theorem flows_break : Stmt.breakStmt.Flows := by
  intro emitter result depth wellFormed _ done
  rw [Stmt.emit, Emitter.emitBreak] at done
  split at done
  · cases done
  · next targets outer loops =>
      cases done
      obtain ⟨_, left⟩ :=
        (emitted_marker wellFormed).scopeExitTo wellFormed targets.breakScopeDepth
      have bound := (wellFormed.loops targets (by
        have loops : emitter.loopTargets = targets :: outer := loops
        simp [loops])).1
      exact left.jump wellFormed _ _ rfl rfl
        (targetsExist_br (Nat.lt_of_lt_of_le bound left.grown.next)) (fun _ => id)
        (fun blocks live => exits_breaks loops)

theorem flows_continue : Stmt.continueStmt.Flows := by
  intro emitter result depth wellFormed _ done
  rw [Stmt.emit, Emitter.emitContinue] at done
  split at done
  · cases done
  · next targets outer loops =>
      cases done
      obtain ⟨_, left⟩ :=
        (emitted_marker wellFormed).scopeExitTo wellFormed targets.continueScopeDepth
      have bound := (wellFormed.loops targets (by
        have loops : emitter.loopTargets = targets :: outer := loops
        simp [loops])).2
      exact left.jump wellFormed _ _ rfl rfl
        (targetsExist_br (Nat.lt_of_lt_of_le bound left.grown.next)) (fun _ => id)
        (fun blocks live => exits_continues loops)

theorem flows_throw : Stmt.throwStmt.Flows := by
  intro emitter result depth wellFormed _ done
  cases done
  unfold Emitter.emitThrow
  split
  · next none =>
      have catches : emitter.catchTargets = [] := none
      obtain ⟨_, left⟩ := (emitted_marker wellFormed).scopeExitTo wellFormed 0
      refine (left.thenPlain wellFormed .other rfl).jump wellFormed .ret
        (fun live => { Flow.through False with throws := live }) rfl rfl nofun
        (fun _ => id) fun blocks live => iff_of_true ⟨nofun, nofun, fun _ => ?_, nofun⟩ nofun
      rw [catches]
      exact nofun
  · next target outer some =>
      have catches : emitter.catchTargets = target :: outer := some
      obtain ⟨_, left⟩ := ((emitted_marker wellFormed).thenPlain wellFormed .other
        rfl).scopeExitTo wellFormed target.scopeDepth
      have bound := wellFormed.catches target (by simp [catches])
      exact left.jump wellFormed _ _ rfl rfl
        (targetsExist_br (Nat.lt_of_lt_of_le bound left.grown.next)) (fun _ => id)
        (fun blocks live => exits_throws catches)

theorem flows_goto (label : String) : (Stmt.gotoStmt label).Flows := by
  intro emitter result depth wellFormed _ done
  rw [Stmt.emit, Emitter.emitGoto] at done
  split at done
  · cases done
  · next block labelDepth found =>
      split at done
      · cases done
      · cases done
        have found : emitter.labelBlocks label = some (block, labelDepth) := found
        obtain ⟨_, left⟩ := (emitted_marker wellFormed).scopeExitTo wellFormed labelDepth
        have bound := wellFormed.labels label block labelDepth found
        exact left.jump wellFormed _ _ rfl rfl
          (targetsExist_br (Nat.lt_of_lt_of_le bound left.grown.next)) (fun _ => id)
          (fun blocks live => exits_gotos found)

/-- A block opens a scope and closes it again. -/
theorem Flows.inScope {statements : Emitter → Emission} {labels : Nat → List (String × Nat)}
    {terminates : (active terminated : Bool) → Bool}
    {flow : Set String → (active terminated : Bool) → Prop → Flow}
    (flows : Flows statements labels terminates flow) :
    Flows (emitScoped statements) labels (fun active _ => terminates active false)
      fun reached active _ => flow reached active false := by
  intro emitter result depth wellFormed awaits done
  obtain ⟨middle, inner, last⟩ := bind_ok done
  cases last
  have entered := (emitted_plain wellFormed .scopeEnter rfl).withDepth
    (emitter.runtimeScopeDepth + 1)
  have opened : emitter.enterScope.getTerminator = false := getTerminator_append emitter .scopeEnter
  have body := flows emitter.enterScope middle depth entered.wellFormed
    ((show Awaits emitter ([] ++ labels depth) from awaits).after wellFormed entered) inner
  rw [opened] at body
  have whole := entered.followedBy wellFormed body
  simp only [List.nil_append, through_followedBy] at whole
  split
  · exact whole.withDepth _
  · next going =>
      have left := (whole.thenPlain wellFormed .scopeExit rfl).withDepth
        (middle.runtimeScopeDepth - 1)
      rw [getTerminator_append] at left
      rw [Bool.not_eq_true, body.terminated] at going
      have same : terminates emitter.staticInitializationEmissionActive false = false := going
      show Emitted _ _ _ _ (terminates emitter.staticInitializationEmissionActive false)
      rw [same]
      exact left

abbrev Block.Flows (block : Block) : Prop :=
  ControlFlow.Flows block.emitStatements block.collectLabels block.terminates block.flow

abbrev Block.ListFlows (block : Block) : Prop :=
  ControlFlow.Flows block.emitList block.collectLabels block.listTerminates
    fun reached active _ => block.listFlow reached active

/-- The statements behind a loop's body, which begin in a block of their own. -/
def Block.PostFlows (block : Block) : Prop :=
  ∀ (emitter result : Emitter) (depth : Nat), WellFormed emitter →
    Awaits emitter (block.collectLabels depth) → emitter.getTerminator = false →
    block.emitPost emitter = .ok result →
    Emitted emitter result (block.collectLabels depth)
      (fun reached => block.postFlow reached emitter.staticInitializationEmissionActive)
      (block.postTerminates emitter.staticInitializationEmissionActive false)

theorem flows_nil : Block.nil.Flows := by
  intro emitter result depth wellFormed _ done
  cases done
  exact emitted_refl wellFormed

theorem listFlows_nil : Block.nil.ListFlows := by
  intro emitter result depth wellFormed _ done
  cases done
  exact emitted_refl wellFormed

theorem postFlows_nil : Block.nil.PostFlows := by
  intro emitter result depth wellFormed _ opened done
  cases done
  have emitted := emitted_refl wellFormed
  rwa [opened] at emitted

/-- Emission may leave out labels. -/
theorem Emitted.moreLabels {labels labels' : List (String × Nat)}
    {flow : Set String → Prop → Flow} {terminated : Bool}
    (emitted : Emitted emitter result labels flow terminated)
    (subset : blocksOf emitter.labelBlocks labels ⊆ blocksOf emitter.labelBlocks labels') :
    Emitted emitter result labels' flow terminated :=
  { emitted with
    grown := emitted.grown.restrict fun _ touched _ => touched.imp id fun label => subset label }

theorem flows_cons {statement : Stmt} {rest : Block} (flows : statement.Flows)
    (flows_rest : rest.Flows) : (Block.cons statement rest).Flows := by
  intro emitter result depth wellFormed awaits done
  simp only [Block.collectLabels, Block.terminates, Block.flow] at awaits ⊢
  rw [Block.emitStatements] at done
  split at done
  · next skipped =>
      simp only [skipped, if_true]
      refine (flows_rest emitter result depth wellFormed awaits.right done).moreLabels ?_
      rw [blocksOf_append]
      exact Set.subset_union_right
  · next kept =>
      simp only [kept]
      obtain ⟨middle, first, second⟩ := bind_ok done
      have emitted := flows emitter middle depth wellFormed awaits.left first
      have later := flows_rest middle result depth emitted.wellFormed
        (awaits.after wellFormed emitted) second
      rw [emitted.same.active, emitted.terminated] at later
      exact emitted.followedBy wellFormed later

theorem listFlows_cons {statement : Stmt} {rest : Block} (flows : statement.Flows)
    (flows_rest : rest.ListFlows) : (Block.cons statement rest).ListFlows := by
  intro emitter result depth wellFormed awaits done
  simp only [Block.collectLabels, Block.listTerminates, Block.listFlow] at awaits ⊢
  rw [Block.emitList] at done
  obtain ⟨middle, first, second⟩ := bind_ok done
  have emitted := flows emitter middle depth wellFormed awaits.left first
  have later := flows_rest middle result depth emitted.wellFormed
    (awaits.after wellFormed emitted) second
  rw [emitted.same.active, emitted.terminated] at later
  exact emitted.followedBy wellFormed later

theorem postFlows_cons {statement : Stmt} {rest : Block} (flows : statement.Flows)
    (flows_rest : rest.PostFlows) : (Block.cons statement rest).PostFlows := by
  intro emitter result depth wellFormed awaits opened done
  simp only [Block.collectLabels, Block.postTerminates, Block.postFlow] at awaits ⊢
  rw [Block.emitPost] at done
  obtain ⟨middle, first, second⟩ := bind_ok done
  have emitted := flows emitter middle depth wellFormed awaits.left first
  rw [opened] at emitted
  have terminated := emitted.terminated
  split at second
  · next ended =>
      cases second
      rw [ended] at terminated
      rw [← terminated] at emitted
      simp only [← terminated, if_true]
      refine emitted.moreLabels ?_
      rw [blocksOf_append]
      exact Set.subset_union_left
  · next going =>
      rw [Bool.not_eq_true] at going
      rw [going] at terminated
      simp only [← terminated]
      have later := flows_rest middle result depth emitted.wellFormed
        (awaits.after wellFormed emitted) going second
      rw [emitted.same.active] at later
      exact emitted.followedBy wellFormed later

/-- The code of a label starts in its own block, which is joined from before. -/
theorem flows_label (label : String) {statement : Stmt} (flows : statement.Flows) :
    (Stmt.labelStmt label statement).Flows := by
  intro emitter result depth wellFormed awaits done
  simp only [Stmt.collectLabels, Stmt.terminates, Stmt.flow] at awaits ⊢
  rw [Stmt.emit] at done
  split at done
  · cases done
  · next block labelDepth found =>
      have bound := wellFormed.labels label block labelDepth found
      have mine : block ∈ blocksOf emitter.labelBlocks [(label, depth)] :=
        ⟨_, List.mem_singleton.mpr rfl, labelDepth, found⟩
      have both : Awaits emitter ([(label, depth)] ++ statement.collectLabels depth) := awaits
      obtain ⟨empty, elsewhere⟩ := both.left.empty block mine
      have joined := grown_brUnlessTerminated emitter block
      have start := joined.trans (grown_setInsertPoint (emitter.brUnlessTerminated block) block)
      have code : (emitter.brUnlessTerminated block).code block = [] :=
        (joined.elsewhere block bound fun same => elsewhere same.symm).1.trans empty
      have same : Same emitter ((emitter.brUnlessTerminated block).setInsertPoint block) :=
        (same_brUnlessTerminated emitter block).trans ⟨rfl, rfl, rfl, rfl⟩
      have inner := flows _ result depth
        ((wellFormed.brUnlessTerminated bound).setInsertPoint
          (Nat.lt_of_lt_of_le bound joined.next))
        (both.right.of_grown wellFormed same.labelBlocks start (by
          rintro other member (rfl | rfl)
          · exact (both.right.empty _ member).2 rfl
          · exact both.disjoint wellFormed mine member)) done
      rw [getTerminator_of_nil code, same.active] at inner
      have blocks : blocksOf emitter.labelBlocks ((label, depth) :: statement.collectLabels depth) =
          blocksOf emitter.labelBlocks [(label, depth)] ∪
            blocksOf emitter.labelBlocks (statement.collectLabels depth) :=
        blocksOf_append _ [(label, depth)] _
      refine ⟨inner.wellFormed, same.trans inner.same, ?_, inner.terminated, ?_, ?_⟩
      · refine (start.trans inner.grown).restrict fun other touched _ => ?_
        rw [same.labelBlocks] at touched
        rw [blocks]
        rcases touched with (here | rfl) | (rfl | inside)
        · exact .inl here
        · exact .inr (.inl mine)
        · exact .inr (.inl mine)
        · exact .inr (.inr inside)
      · intro marks reached live marked allowed exits
        obtain ⟨jumps, exits⟩ := exits_followedBy.mp exits
        have closed := marked.join fun alive =>
          (exits_gotos found).mp jumps alive block (List.mem_singleton.mpr rfl)
        obtain ⟨marks', agree, marked'⟩ := inner.sound marks reached (label ∈ reached)
          (closed.marked block (allowed label block labelDepth found))
          (allowed.carry wellFormed same.labelBlocks fun _ _ => rfl) ((Exits.of_same same).mpr exits)
        exact ⟨marks', agree.mono start.next, marked'⟩
      · intro blocks reached live closed starts known
        obtain ⟨falls, exits⟩ := inner.complete blocks reached (label ∈ reached) closed
          (fun member => ⟨known label member block labelDepth found, isOpen_of_nil code⟩)
          (known.carry same.labelBlocks)
        have before : Closed blocks (emitter.brUnlessTerminated block).code :=
          closed.of_persists inner.grown.persists
        refine ⟨falls, exits_followedBy.mpr
          ⟨(exits_gotos found).mpr ?_, (Exits.of_same same).mp exits⟩⟩
        intro alive target member
        rw [List.mem_singleton.mp member]
        exact before.join starts alive

end Statements

end HitSimple.ControlFlow

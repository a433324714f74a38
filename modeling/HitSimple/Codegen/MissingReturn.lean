import HitSimple.Codegen.FlowLoops

namespace HitSimple.ControlFlow

section Bodies

theorem flows_statementList {statements : Block} (flows : statements.ListFlows) :
    (Stmt.statementList statements).Flows := by
  intro emitter result depth wellFormed awaits done
  exact flows emitter result depth wellFormed awaits done

mutual

/-- The flow of a statement says where the code emitted for it leads. -/
theorem Stmt.flows : (statement : Stmt) → statement.Flows
  | .simple emitsCode => flows_simple emitsCode
  | .statementList statements => flows_statementList statements.listFlows
  | .staticInitialization statement => flows_staticInitialization statement.flows
  | .returnStmt => flows_return
  | .ifThen thenBlock => flows_ifThen thenBlock.flows
  | .ifElse thenBlock elseBlock => flows_ifElse thenBlock.flows elseBlock.flows
  | .whileStmt body => flows_while body.flows
  | .forStmt init hasCondition post body =>
      flows_for init.flows post.postFlows body.flows hasCondition
  | .breakStmt => flows_break
  | .continueStmt => flows_continue
  | .gotoStmt label => flows_goto label
  | .labelStmt label statement => flows_label label statement.flows
  | .throwStmt => flows_throw
  | .tryCatch tryBlock catchBlock => flows_tryCatch tryBlock.flows catchBlock.flows

theorem Block.flows : (block : Block) → block.Flows
  | .nil => flows_nil
  | .cons statement rest => flows_cons statement.flows rest.flows

theorem Block.listFlows : (block : Block) → block.ListFlows
  | .nil => listFlows_nil
  | .cons statement rest => listFlows_cons statement.flows rest.listFlows

theorem Block.postFlows : (block : Block) → block.PostFlows
  | .nil => postFlows_nil
  | .cons statement rest => postFlows_cons statement.flows rest.postFlows

end

end Bodies

section Entry
variable {emitter : Emitter}

/-- A function before its body is emitted: there is no code, and the entry belongs to no label. -/
structure Entry (emitter : Emitter) : Prop where
  wellFormed : WellFormed emitter
  code : ∀ block, emitter.code block = []
  insertBlock : emitter.insertBlock = 0
  loopTargets : emitter.loopTargets = []
  catchTargets : emitter.catchTargets = []
  inactive : emitter.staticInitializationEmissionActive = false
  positive : ∀ label block depth, emitter.labelBlocks label = some (block, depth) → block ≠ 0

theorem not_edge_nil {code : Nat → List Instr} {block target : Nat} (empty : code block = []) :
    ¬Edge code block target := by
  rintro ⟨instr, ends, -⟩
  rw [empty] at ends
  cases ends

theorem entry_functionEntry : Entry functionEntry where
  wellFormed := {
    inside := Nat.zero_lt_one
    fresh := fun _ _ => rfl
    edges := fun _ _ edge => absurd edge (not_edge_nil rfl)
    loops := nofun
    catches := nofun
    labels := nofun
    apart := nofun }
  code := fun _ => rfl
  insertBlock := rfl
  loopTargets := rfl
  catchTargets := rfl
  inactive := rfl
  positive := nofun

/-- What `addLabel` does to the table of labels. -/
theorem addLabel_cases (emitter : Emitter) (label : String × Nat) :
    (emitter.addLabel label = emitter ∧ (emitter.labelBlocks label.1).isSome) ∨
      emitter.addLabel label = { emitter.createBlock with
        labelBlocks := Function.update emitter.labelBlocks label.1
          (some (emitter.nextBlock, label.2)) } := by
  unfold Emitter.addLabel
  split
  · next known => exact .inl ⟨rfl, known⟩
  · exact .inr rfl

theorem addLabel_self (emitter : Emitter) (label : String × Nat) :
    ((emitter.addLabel label).labelBlocks label.1).isSome := by
  rcases addLabel_cases emitter label with ⟨same, known⟩ | added
  · rwa [same]
  · simp [added]

theorem addLabel_of_known (emitter : Emitter) (label : String × Nat) {name : String}
    (known : (emitter.labelBlocks name).isSome) :
    ((emitter.addLabel label).labelBlocks name).isSome := by
  rcases addLabel_cases emitter label with ⟨same, -⟩ | added
  · rwa [same]
  · rw [added]
    by_cases here : name = label.1
    · simp [here]
    · simpa [Function.update_of_ne here] using known

/-- A new label gets a new block. -/
theorem found_update {name label : String} {block depth next depth' : Nat}
    (found : Function.update emitter.labelBlocks name (some (next, depth')) label =
      some (block, depth)) :
    (label = name ∧ block = next) ∨ emitter.labelBlocks label = some (block, depth) := by
  by_cases here : label = name
  · subst here
    rw [Function.update_self] at found
    cases found
    exact .inl ⟨rfl, rfl⟩
  · rw [Function.update_of_ne here] at found
    exact .inr found

theorem Entry.addLabel (entry : Entry emitter) (label : String × Nat) :
    Entry (emitter.addLabel label) := by
  rcases addLabel_cases emitter label with ⟨same, -⟩ | added
  · rwa [same]
  · have wellFormed := entry.wellFormed
    rw [added]
    refine {
      wellFormed := {
        inside := Nat.lt_succ_of_lt wellFormed.inside
        fresh := fun block _ => entry.code block
        edges := fun block _ edge => absurd edge (not_edge_nil (entry.code block))
        loops := by
          intro targets member
          have member : targets ∈ emitter.loopTargets := member
          rw [entry.loopTargets] at member
          cases member
        catches := by
          intro target member
          have member : target ∈ emitter.catchTargets := member
          rw [entry.catchTargets] at member
          cases member
        labels := ?_
        apart := ?_ }
      code := entry.code
      insertBlock := entry.insertBlock
      loopTargets := entry.loopTargets
      catchTargets := entry.catchTargets
      inactive := entry.inactive
      positive := ?_ }
    · intro name block depth found
      rcases found_update found with ⟨-, rfl⟩ | old
      · exact Nat.lt_succ_self _
      · exact Nat.lt_succ_of_lt (wellFormed.labels name block depth old)
    · intro name name' block depth depth' found found'
      rcases found_update found with ⟨rfl, new⟩ | old <;>
        rcases found_update found' with ⟨same, new'⟩ | old'
      · exact same.symm
      · have := wellFormed.labels name' block depth' old'
        omega
      · have := wellFormed.labels name block depth old
        omega
      · exact wellFormed.apart name name' block depth depth' old old'
    · intro name block depth found
      rcases found_update found with ⟨-, rfl⟩ | old
      · exact Nat.ne_of_gt (Nat.lt_of_le_of_lt (Nat.zero_le _) wellFormed.inside)
      · exact entry.positive name block depth old

theorem addLabels_of_known (labels : List (String × Nat)) {name : String}
    (known : (emitter.labelBlocks name).isSome) :
    ((labels.foldl Emitter.addLabel emitter).labelBlocks name).isSome := by
  induction labels generalizing emitter with
  | nil => exact known
  | cons label rest inductive_hypothesis =>
      exact inductive_hypothesis (addLabel_of_known emitter label known)

/-- With its labels, a function can take its body. -/
theorem Entry.addLabels (entry : Entry emitter) (labels : List (String × Nat)) :
    Entry (labels.foldl Emitter.addLabel emitter) ∧ ∀ label ∈ labels,
      ((labels.foldl Emitter.addLabel emitter).labelBlocks label.1).isSome := by
  induction labels generalizing emitter with
  | nil => exact ⟨entry, nofun⟩
  | cons label rest inductive_hypothesis =>
      obtain ⟨whole, known⟩ := inductive_hypothesis (entry.addLabel label)
      refine ⟨whole, ?_⟩
      intro other member
      rcases List.mem_cons.mp member with rfl | member
      · exact addLabels_of_known rest (addLabel_self emitter other)
      · exact known other member

theorem Entry.awaits (entry : Entry emitter) {labels : List (String × Nat)}
    (distinct : (labels.map Prod.fst).Nodup)
    (known : ∀ label ∈ labels, (emitter.labelBlocks label.1).isSome) : Awaits emitter labels where
  distinct := distinct
  known := by
    intro label member
    obtain ⟨⟨block, depth⟩, found⟩ := Option.isSome_iff_exists.mp (known label member)
    exact ⟨block, depth, found⟩
  empty := by
    rintro block ⟨label, -, depth, found⟩
    refine ⟨entry.code block, ?_⟩
    rw [entry.insertBlock]
    exact (entry.positive label.1 block depth found).symm

end Entry

/-- The code of a function before its end is looked at. -/
def Function.emitBody (function : Function) : Emission :=
  emitScoped function.body.emitStatements
    ((function.body.collectLabels 1).foldl Emitter.addLabel functionEntry)

/-- What the end of a function depends on. -/
structure Signature where
  name : String
  isViewAbi : Bool
  viewResultByteLength : Nat
  returnByteLengths : List Nat
  returnsI32 : Bool

namespace Signature

def missingReturn (signature : Signature) : String :=
  if signature.isViewAbi then
    "missing return in internal View ABI function '" ++ signature.name ++ "'"
  else "missing return in function '" ++ signature.name ++ "'"

/-- The function has values to return. -/
def HasResult (signature : Signature) : Prop :=
  if signature.isViewAbi then signature.viewResultByteLength ≠ 0
  else signature.returnByteLengths ≠ []

/-- The end of `main` returns zero. -/
def EndsMain (signature : Signature) : Prop :=
  signature.isViewAbi = false ∧ signature.name = "main" ∧ signature.returnsI32 = true

instance (signature : Signature) : Decidable signature.EndsMain :=
  inferInstanceAs (Decidable (_ ∧ _ ∧ _))

end Signature

/-- `emit(const hir::Function &)` from the body on. -/
def Function.emitWithEnd (function : Function) (signature : Signature) : Emission := do
  let emitter ← function.emitBody
  if emitter.getTerminator then return emitter
  else if signature.isViewAbi then
    if signature.viewResultByteLength = 0 then return (emitter.append .other).append .ret
    else .error signature.missingReturn
  else
    let emitter := emitter.append .other
    if signature.name = "main" ∧ signature.returnsI32 = true then return emitter.append .ret
    else if signature.returnByteLengths.isEmpty then return emitter.append .ret
    else .error signature.missingReturn

section Reports
variable {function : Function} {signature : Signature} {emitter : Emitter}

/-- Control comes to the place where the emitter stands: to its block, and through the code before
that place. -/
def Emitter.StandsReachable (emitter : Emitter) : Prop :=
  Relation.ReflTransGen (Edge emitter.code) 0 emitter.insertBlock ∧ emitter.IsOpen

theorem Closed.reaches {blocks : Nat → Prop} {code : Nat → List Instr} {start target : Nat}
    (closed : Closed blocks code) (entered : blocks start)
    (path : Relation.ReflTransGen (Edge code) start target) : blocks target := by
  induction path with
  | refl => exact entered
  | tail _ edge inductive_hypothesis => exact closed _ _ edge inductive_hypothesis

theorem Function.emitted (function : Function) (done : function.emitBody = .ok emitter) :
    ∃ entry, Entry entry ∧ Emitted entry emitter (function.body.collectLabels 1)
      (fun reached => function.body.flow reached false false)
      (function.body.terminates false false) := by
  obtain ⟨entry, known⟩ := entry_functionEntry.addLabels (function.body.collectLabels 1)
  have emitted := function.body.flows.inScope _ emitter 1 entry.wellFormed
    (entry.awaits function.distinct known) done
  rw [entry.inactive] at emitted
  exact ⟨_, entry, emitted⟩

/-- The code emitted for a body leads to its end where the body does. -/
theorem Function.standsReachable_iff (done : function.emitBody = .ok emitter) :
    emitter.StandsReachable ↔ function.body.EndReached := by
  obtain ⟨start, entry, emitted⟩ := function.emitted done
  have opened : start.IsOpen := by
    show exit? (start.code start.insertBlock) = none
    rw [entry.code]
    rfl
  constructor
  · rintro ⟨path, isOpen⟩ reached closed
    -- the entry and the labels that are reached, closed under the jumps of the body
    let marks (block : Nat) : Prop :=
      block = 0 ∨ ∃ label ∈ reached, ∃ depth, start.labelBlocks label = some (block, depth)
    have marked : Marked start marks True :=
      ⟨fun block target edge => absurd edge (not_edge_nil (entry.code block)), fun _ _ => trivial⟩
    have within : LabelsWithin marks start reached := by
      rintro label block depth found (rfl | ⟨other, member, depth', found'⟩)
      · exact absurd rfl (entry.positive label 0 depth found)
      · rwa [entry.wellFormed.apart label other block depth depth' found found']
    have exits : Exits marks start (function.body.flow reached false false True) := by
      refine ⟨?_, ?_, ?_, ?_⟩
      · rw [entry.loopTargets]
        exact nofun
      · rw [entry.loopTargets]
        exact nofun
      · rw [entry.catchTargets]
        exact nofun
      · exact fun label member block depth found => .inr ⟨label, closed member, depth, found⟩
    obtain ⟨marks', agree, marked'⟩ := emitted.sound marks reached True marked within exits
    have entered : marks' 0 := by
      rw [agree 0 (Nat.lt_of_le_of_lt (Nat.zero_le _) entry.wellFormed.inside)]
      exact .inl rfl
    exact marked'.current (marked'.closed.reaches entered path) isOpen
  · intro ends
    let blocks : Nat → Prop := Relation.ReflTransGen (Edge emitter.code) 0
    let reached : Set String :=
      {label | ∀ block depth, start.labelBlocks label = some (block, depth) → blocks block}
    obtain ⟨falls, exits⟩ := emitted.complete blocks reached True
      (fun _ _ edge path => path.tail edge)
      (fun _ => ⟨entry.insertBlock ▸ .refl, opened⟩) (fun _ member => member)
    exact falls (ends reached fun label member => exits.gotos label member)

theorem Function.getTerminator_emitBody (done : function.emitBody = .ok emitter) :
    emitter.getTerminator = true ↔ function.body.EndsInJump := by
  obtain ⟨_, _, emitted⟩ := function.emitted done
  rw [emitted.terminated]
  rfl

/-- What is reported is that the code does not end in a jump. -/
theorem Function.emitWithEnd_missingReturn (done : function.emitBody = .ok emitter)
    (result : signature.HasResult) :
    function.emitWithEnd signature = .error signature.missingReturn ↔
      emitter.getTerminator = false ∧ ¬signature.EndsMain := by
  rw [Function.emitWithEnd, done]
  show (if emitter.getTerminator then _ else _) = _ ↔ _
  cases terminated : emitter.getTerminator with
  | true => exact iff_of_false nofun nofun
  | false =>
      cases abi : signature.isViewAbi with
      | true =>
          have result : signature.viewResultByteLength ≠ 0 := by
            simpa [Signature.HasResult, abi] using result
          simp [abi, result, Signature.EndsMain]
      | false =>
          have result : signature.returnByteLengths ≠ [] := by
            simpa [Signature.HasResult, abi] using result
          by_cases isMain : signature.name = "main" ∧ signature.returnsI32 = true
          · simp [abi, isMain, Signature.EndsMain, pure, Except.pure]
          · simp [abi, isMain, Signature.EndsMain, List.isEmpty_iff, result]

/-- A function that returns on both sides of a condition. -/
def bothReturn : Function where
  body := .cons (.ifElse (.cons .returnStmt .nil) (.cons .returnStmt .nil)) .nil
  distinct := List.nodup_nil

def fourByteResult (name : String) : Signature where
  name := name
  isViewAbi := false
  viewResultByteLength := 0
  returnByteLengths := [4]
  returnsI32 := true

end Reports

end HitSimple.ControlFlow

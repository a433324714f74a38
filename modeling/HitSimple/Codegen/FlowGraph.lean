import HitSimple.Codegen.SourceFlow
import HitSimple.Codegen.ScopeExecution

namespace HitSimple.ControlFlow

section Graph

/-- The instruction that ends the straight path through a block. -/
def exit? (code : List Instr) : Option Instr :=
  code.find? Instr.isTerminator

/-- An edge of the control-flow graph. -/
def Edge (code : Nat → List Instr) (block target : Nat) : Prop :=
  ∃ instr, exit? (code block) = some instr ∧ target ∈ instr.targets

/-- A set of blocks that no edge leaves. -/
def Closed (blocks : Nat → Prop) (code : Nat → List Instr) : Prop :=
  ∀ block target, Edge code block target → blocks block → blocks target

theorem exit?_append (code : List Instr) (instr : Instr) :
    exit? (code ++ [instr]) =
      (exit? code).or (if instr.isTerminator then some instr else none) := by
  rw [exit?, List.find?_append, List.find?_singleton]
  rfl

variable {emitter before after final : Emitter} {instr : Instr} {block target : Nat}

theorem append_code_self (emitter : Emitter) (instr : Instr) :
    (emitter.append instr).code emitter.insertBlock =
      emitter.code emitter.insertBlock ++ [instr] :=
  Function.update_self _ _ _

theorem append_code_of_ne (instr : Instr) (other : block ≠ emitter.insertBlock) :
    (emitter.append instr).code block = emitter.code block :=
  Function.update_of_ne other _ _

/-- What ends a block goes on ending it. -/
def Persists (before after : Emitter) : Prop :=
  ∀ block instr, exit? (before.code block) = some instr → exit? (after.code block) = some instr

theorem Persists.refl (emitter : Emitter) : Persists emitter emitter := fun _ _ found => found

theorem Persists.trans {first second third : Emitter} (left : Persists first second)
    (right : Persists second third) : Persists first third :=
  fun block instr found => right block instr (left block instr found)

theorem persists_append (emitter : Emitter) (instr : Instr) :
    Persists emitter (emitter.append instr) := by
  intro block found ends
  by_cases same : block = emitter.insertBlock
  · rw [same] at ends ⊢
    rw [append_code_self, exit?_append, ends]
    rfl
  · rwa [append_code_of_ne instr same]

theorem persists_brUnlessTerminated (emitter : Emitter) (target : Nat) :
    Persists emitter (emitter.brUnlessTerminated target) := by
  unfold Emitter.brUnlessTerminated
  split
  · exact Persists.refl _
  · exact persists_append _ _

theorem Closed.of_persists {blocks : Nat → Prop} (closed : Closed blocks after.code)
    (persists : Persists before after) : Closed blocks before.code :=
  fun block target ⟨instr, ends, member⟩ =>
    closed block target ⟨instr, persists block instr ends, member⟩

/-- An edge after an instruction was emitted. -/
theorem edge_append (edge : Edge (emitter.append instr).code block target) :
    Edge emitter.code block target ∨
      block = emitter.insertBlock ∧ exit? (emitter.code emitter.insertBlock) = none ∧
        instr.isTerminator = true ∧ target ∈ instr.targets := by
  obtain ⟨found, ends, member⟩ := edge
  by_cases same : block = emitter.insertBlock
  · subst same
    rw [append_code_self, exit?_append] at ends
    cases former : exit? (emitter.code emitter.insertBlock) with
    | some ending =>
        rw [former] at ends
        exact .inl ⟨found, ends ▸ former, member⟩
    | none =>
        rw [former, Option.none_or] at ends
        split at ends
        · next terminator =>
            cases ends
            exact .inr ⟨rfl, rfl, terminator, member⟩
        · cases ends
  · rw [append_code_of_ne instr same] at ends
    exact .inl ⟨found, ends, member⟩

/-- The insertion point is behind code that control can run through. -/
def Emitter.IsOpen (emitter : Emitter) : Prop :=
  exit? (emitter.code emitter.insertBlock) = none

theorem isOpen_append : (emitter.append instr).IsOpen ↔
    emitter.IsOpen ∧ instr.isTerminator = false := by
  show exit? ((emitter.append instr).code emitter.insertBlock) = none ↔ _
  rw [append_code_self, exit?_append, Option.or_eq_none_iff]
  exact and_congr Iff.rfl (by simp)

theorem isOpen_of_nil (empty : emitter.code block = []) : (emitter.setInsertPoint block).IsOpen := by
  show exit? (emitter.code block) = none
  rw [empty]
  rfl

theorem not_isOpen_of_getTerminator (terminated : emitter.getTerminator = true) :
    ¬emitter.IsOpen := by
  intro isOpen
  rw [Emitter.getTerminator, Option.any_eq_true] at terminated
  obtain ⟨instr, last, terminator⟩ := terminated
  have member := (List.mem_filter.mp (List.mem_of_getLast? last)).1
  exact List.find?_eq_none.mp isOpen instr member terminator

theorem edge_of_append (isOpen : emitter.IsOpen) (terminator : instr.isTerminator = true)
    (member : target ∈ instr.targets) :
    Edge (emitter.append instr).code emitter.insertBlock target := by
  refine ⟨instr, ?_, member⟩
  rw [append_code_self, exit?_append, isOpen, terminator]
  rfl

/-- Where control comes to the insertion point, it comes to what is joined. -/
theorem Closed.join {blocks : Nat → Prop} {live : Prop}
    (closed : Closed blocks (emitter.brUnlessTerminated target).code)
    (here : live → blocks emitter.insertBlock ∧ emitter.IsOpen) (alive : live) : blocks target := by
  obtain ⟨reached, isOpen⟩ := here alive
  rw [Emitter.brUnlessTerminated, if_neg fun ended => not_isOpen_of_getTerminator ended isOpen]
    at closed
  exact closed _ _ (edge_of_append isOpen rfl (List.mem_singleton.mpr rfl)) reached

end Graph

section Emitters
variable {emitter origin current result : Emitter} {instr : Instr} {block target : Nat}

/-- What holds of every function under construction: blocks that do not exist have no code and are
not jumped to, and different labels have different blocks. -/
structure WellFormed (emitter : Emitter) : Prop where
  inside : emitter.insertBlock < emitter.nextBlock
  fresh : ∀ block, emitter.nextBlock ≤ block → emitter.code block = []
  edges : ∀ block target, Edge emitter.code block target → target < emitter.nextBlock
  loops : ∀ targets ∈ emitter.loopTargets,
    targets.breakBlock < emitter.nextBlock ∧ targets.continueBlock < emitter.nextBlock
  catches : ∀ target ∈ emitter.catchTargets, target.catchBlock < emitter.nextBlock
  labels : ∀ label block depth, emitter.labelBlocks label = some (block, depth) →
    block < emitter.nextBlock
  apart : ∀ label label' block depth depth', emitter.labelBlocks label = some (block, depth) →
    emitter.labelBlocks label' = some (block, depth') → label = label'

/-- What the emission of a whole statement leaves as it was. -/
structure Same (before after : Emitter) : Prop where
  loopTargets : after.loopTargets = before.loopTargets
  catchTargets : after.catchTargets = before.catchTargets
  labelBlocks : after.labelBlocks = before.labelBlocks
  active : after.staticInitializationEmissionActive = before.staticInitializationEmissionActive

theorem Same.trans {first second third : Emitter} (left : Same first second)
    (right : Same second third) : Same first third :=
  ⟨right.1.trans left.1, right.2.trans left.2, right.3.trans left.3, right.4.trans left.4⟩

theorem same_setInsertPoint (emitter : Emitter) (block : Nat) :
    Same emitter (emitter.setInsertPoint block) := ⟨rfl, rfl, rfl, rfl⟩

theorem same_brUnlessTerminated (emitter : Emitter) (target : Nat) :
    Same emitter (emitter.brUnlessTerminated target) := by
  unfold Emitter.brUnlessTerminated
  split <;> exact ⟨rfl, rfl, rfl, rfl⟩

/-- Emission that writes to some of the blocks there were, and to new ones. -/
structure Grown (before after : Emitter) (touched : Set Nat) : Prop where
  next : before.nextBlock ≤ after.nextBlock
  persists : Persists before after
  elsewhere : ∀ block, block < before.nextBlock → block ∉ touched →
    after.code block = before.code block ∧ after.insertBlock ≠ block

theorem Grown.trans {first second third : Emitter} {touched touched' : Set Nat}
    (left : Grown first second touched) (right : Grown second third touched') :
    Grown first third (touched ∪ touched') where
  next := left.next.trans right.next
  persists := left.persists.trans right.persists
  elsewhere := by
    intro block old untouched
    rw [Set.mem_union, not_or] at untouched
    have earlier := left.elsewhere block old untouched.1
    have later := right.elsewhere block (Nat.lt_of_lt_of_le old left.next) untouched.2
    exact ⟨later.1.trans earlier.1, later.2⟩

/-- Only the blocks that existed count. -/
theorem Grown.restrict {before after : Emitter} {touched touched' : Set Nat}
    (grown : Grown before after touched)
    (subset : ∀ block ∈ touched, block < before.nextBlock → block ∈ touched') :
    Grown before after touched' :=
  ⟨grown.next, grown.persists, fun block old untouched =>
    grown.elsewhere block old fun member => untouched (subset block member old)⟩

theorem grown_append (emitter : Emitter) (instr : Instr) :
    Grown emitter (emitter.append instr) {emitter.insertBlock} where
  next := Nat.le_refl _
  persists := persists_append emitter instr
  elsewhere := fun _ _ other => ⟨append_code_of_ne instr other, fun same => other same.symm⟩

theorem grown_brUnlessTerminated (emitter : Emitter) (target : Nat) :
    Grown emitter (emitter.brUnlessTerminated target) {emitter.insertBlock} := by
  unfold Emitter.brUnlessTerminated
  split
  · exact ⟨Nat.le_refl _, Persists.refl _, fun _ _ other => ⟨rfl, fun same => other same.symm⟩⟩
  · exact grown_append _ _

theorem grown_createBlocks (emitter : Emitter) (count : Nat) :
    Grown emitter { emitter with nextBlock := emitter.nextBlock + count } {emitter.insertBlock} where
  next := Nat.le_add_right _ _
  persists := Persists.refl _
  elsewhere := fun _ _ other => ⟨rfl, fun same => other same.symm⟩

theorem grown_setInsertPoint (emitter : Emitter) (block : Nat) :
    Grown emitter (emitter.setInsertPoint block) {block} where
  next := Nat.le_refl _
  persists := Persists.refl _
  elsewhere := fun _ _ apart => ⟨rfl, fun same => apart same.symm⟩

/-- The targets of an instruction exist. -/
def Instr.TargetsExist (instr : Instr) (nextBlock : Nat) : Prop :=
  ∀ target ∈ instr.targets, target < nextBlock

theorem targetsExist_of_plain (plain : instr.isTerminator = false) (nextBlock : Nat) :
    instr.TargetsExist nextBlock := by
  intro target member
  cases instr <;> first | cases plain; done | cases member

theorem targetsExist_br {nextBlock : Nat} (bound : target < nextBlock) :
    (Instr.br target).TargetsExist nextBlock := by
  intro other member
  rwa [List.mem_singleton.mp member]

theorem targetsExist_condBr {nextBlock ifTrue ifFalse : Nat} (bound : ifTrue < nextBlock)
    (bound' : ifFalse < nextBlock) : (Instr.condBr ifTrue ifFalse).TargetsExist nextBlock := by
  intro other member
  rcases List.mem_cons.mp member with rfl | member
  · exact bound
  · rwa [List.mem_singleton.mp member]

theorem WellFormed.append (wellFormed : WellFormed emitter)
    (exist : instr.TargetsExist emitter.nextBlock) : WellFormed (emitter.append instr) :=
  { wellFormed with
    fresh := by
      intro block beyond
      rw [append_code_of_ne]
      · exact wellFormed.fresh block beyond
      · rintro rfl
        exact Nat.not_lt.mpr beyond wellFormed.inside
    edges := by
      intro block target edge
      rcases edge_append edge with old | ⟨-, -, -, member⟩
      · exact wellFormed.edges block target old
      · exact exist target member }

theorem WellFormed.brUnlessTerminated (wellFormed : WellFormed emitter)
    (bound : target < emitter.nextBlock) : WellFormed (emitter.brUnlessTerminated target) := by
  unfold Emitter.brUnlessTerminated
  split
  · exact wellFormed
  · exact wellFormed.append (targetsExist_br bound)

theorem WellFormed.setInsertPoint (wellFormed : WellFormed emitter)
    (bound : block < emitter.nextBlock) : WellFormed (emitter.setInsertPoint block) :=
  { wellFormed with inside := bound }

theorem WellFormed.createBlocks (wellFormed : WellFormed emitter) (count : Nat) :
    WellFormed { emitter with nextBlock := emitter.nextBlock + count } where
  inside := Nat.lt_add_right count wellFormed.inside
  fresh := fun block beyond => wellFormed.fresh block (Nat.le_of_add_right_le beyond)
  edges := fun block target edge => Nat.lt_add_right count (wellFormed.edges block target edge)
  loops := fun targets member =>
    ⟨Nat.lt_add_right count (wellFormed.loops targets member).1,
      Nat.lt_add_right count (wellFormed.loops targets member).2⟩
  catches := fun target member => Nat.lt_add_right count (wellFormed.catches target member)
  labels := fun label block depth found =>
    Nat.lt_add_right count (wellFormed.labels label block depth found)
  apart := wellFormed.apart

end Emitters

section Marks
variable {emitter current result : Emitter} {instr : Instr} {marks marks' : Nat → Prop} {live : Prop}
  {block target : Nat}

/-- A set of blocks that no edge leaves, with the insertion point reached only where `live` says
so. -/
structure Marked (emitter : Emitter) (marks : Nat → Prop) (live : Prop) : Prop where
  closed : Closed marks emitter.code
  current : marks emitter.insertBlock → emitter.IsOpen → live

theorem Marked.plain (marked : Marked emitter marks live) (instr : Instr)
    (plain : instr.isTerminator = false) :
    Marked (emitter.append instr) marks live where
  closed := by
    intro block target edge
    rcases edge_append edge with old | ⟨-, -, terminator, -⟩
    · exact marked.closed block target old
    · rw [plain] at terminator
      cases terminator
  current := by
    intro reached isOpen
    exact marked.current reached (isOpen_append.mp isOpen).1

/-- A jump closes the insertion point, and what it jumps to has to be marked. -/
theorem Marked.jump (marked : Marked emitter marks live) (terminator : instr.isTerminator = true)
    (targets : live → ∀ target ∈ instr.targets, marks target) (dead : Prop) :
    Marked (emitter.append instr) marks dead where
  closed := by
    intro block target edge reached
    rcases edge_append edge with old | ⟨rfl, isOpen, -, member⟩
    · exact marked.closed block target old reached
    · exact targets (marked.current reached isOpen) target member
  current := by
    intro _ isOpen
    rw [isOpen_append, terminator] at isOpen
    cases isOpen.2

theorem Marked.join (marked : Marked emitter marks live) (joins : live → marks target) :
    Closed marks (emitter.brUnlessTerminated target).code := by
  unfold Emitter.brUnlessTerminated
  split
  · exact marked.closed
  · refine (marked.jump rfl (fun alive other member => ?_) False).closed
    rw [List.mem_singleton.mp member]
    exact joins alive

theorem Closed.marked (closed : Closed marks emitter.code) (block : Nat)
    (starts : marks block → live) : Marked (emitter.setInsertPoint block) marks live :=
  ⟨closed, fun reached _ => starts reached⟩

/-- The marks of the blocks from `first` on, in order; the blocks before keep theirs. -/
def assign (marks : Nat → Prop) (first : Nat) (new : List Prop) (block : Nat) : Prop :=
  if block < first then marks block else new.getD (block - first) False

theorem assign_old (marks : Nat → Prop) (new : List Prop) {first : Nat} (old : block < first) :
    assign marks first new block = marks block :=
  if_pos old

@[simp] theorem assign_first (marks : Nat → Prop) (head : Prop) (new : List Prop) (first : Nat) :
    assign marks first (head :: new) first = head := by
  rw [assign, if_neg (Nat.lt_irrefl _), Nat.sub_self]
  rfl

@[simp] theorem assign_new (marks : Nat → Prop) (new : List Prop) (first offset : Nat) :
    assign marks first new (first + offset) = new.getD offset False := by
  rw [assign, if_neg (Nat.not_lt.mpr (Nat.le_add_right _ _)), Nat.add_sub_cancel_left]

theorem Marked.assign (marked : Marked emitter marks live) (wellFormed : WellFormed emitter)
    (new : List Prop) : Marked emitter (assign marks emitter.nextBlock new) live where
  closed := by
    intro block target edge reached
    have exists_target := wellFormed.edges block target edge
    have exists_block : block < emitter.nextBlock := by
      by_contra beyond
      obtain ⟨instr, ends, -⟩ := edge
      rw [wellFormed.fresh block (Nat.le_of_not_lt beyond)] at ends
      cases ends
    rw [assign_old marks new exists_block] at reached
    rw [assign_old marks new exists_target]
    exact marked.closed block target edge reached
  current := by
    rw [assign_old marks new wellFormed.inside]
    exact marked.current

/-- The targets of the jumps out of a part of a function are in a set of blocks. -/
structure Exits (blocks : Nat → Prop) (emitter : Emitter) (flow : Flow) : Prop where
  breaks : flow.breaks → ∀ targets ∈ emitter.loopTargets.head?, blocks targets.breakBlock
  continues : flow.continues → ∀ targets ∈ emitter.loopTargets.head?, blocks targets.continueBlock
  throws : flow.throws → ∀ target ∈ emitter.catchTargets.head?, blocks target.catchBlock
  gotos : ∀ label ∈ flow.gotos, ∀ block depth,
    emitter.labelBlocks label = some (block, depth) → blocks block

theorem exits_through (blocks : Nat → Prop) (emitter : Emitter) (live : Prop) :
    Exits blocks emitter (.through live) := ⟨nofun, nofun, nofun, nofun⟩

/-- Blocks that existed before are marked as before. -/
def Agree (bound : Nat) (marks marks' : Nat → Prop) : Prop :=
  ∀ block, block < bound → marks' block = marks block

theorem Agree.trans {bound bound' : Nat} {third : Nat → Prop} (first : Agree bound marks marks')
    (second : Agree bound' marks' third) (wider : bound ≤ bound') : Agree bound marks third :=
  fun block old => (second block (Nat.lt_of_lt_of_le old wider)).trans (first block old)

theorem Agree.mono {bound bound' : Nat} (agree : Agree bound marks marks')
    (narrower : bound' ≤ bound) : Agree bound' marks marks' :=
  fun block old => agree block (Nat.lt_of_lt_of_le old narrower)

theorem agree_assign (marks : Nat → Prop) (first : Nat) (new : List Prop) :
    Agree first marks (assign marks first new) :=
  fun _ old => assign_old marks new old

theorem Exits.of_same {blocks : Nat → Prop} {flow : Flow} (same : Same emitter current) :
    Exits blocks current flow ↔ Exits blocks emitter flow := by
  obtain ⟨loops, catches, table, -⟩ := same
  constructor <;> rintro ⟨breaks, continues, throws, gotos⟩
  · rw [loops] at breaks continues
    rw [catches] at throws
    rw [table] at gotos
    exact ⟨breaks, continues, throws, gotos⟩
  · rw [← loops] at breaks continues
    rw [← catches] at throws
    rw [← table] at gotos
    exact ⟨breaks, continues, throws, gotos⟩

theorem Exits.agree {marks marks' : Nat → Prop} {flow : Flow} (exits : Exits marks emitter flow)
    (wellFormed : WellFormed emitter) (agree : Agree emitter.nextBlock marks marks') :
    Exits marks' emitter flow where
  breaks := by
    intro leaves targets member
    rw [agree _ (wellFormed.loops targets (List.mem_of_mem_head? member)).1]
    exact exits.breaks leaves targets member
  continues := by
    intro leaves targets member
    rw [agree _ (wellFormed.loops targets (List.mem_of_mem_head? member)).2]
    exact exits.continues leaves targets member
  throws := by
    intro leaves target member
    rw [agree _ (wellFormed.catches target (List.mem_of_mem_head? member))]
    exact exits.throws leaves target member
  gotos := by
    intro label member block depth found
    rw [agree _ (wellFormed.labels label block depth found)]
    exact exits.gotos label member block depth found

theorem Exits.mono {blocks : Nat → Prop} {small large : Flow} (exits : Exits blocks emitter large)
    (breaks : small.breaks → large.breaks) (continues : small.continues → large.continues)
    (throws : small.throws → large.throws) (gotos : small.gotos ⊆ large.gotos) :
    Exits blocks emitter small :=
  ⟨fun leaves => exits.breaks (breaks leaves), fun leaves => exits.continues (continues leaves),
    fun leaves => exits.throws (throws leaves), fun label member => exits.gotos label (gotos member)⟩

theorem exits_endingIn {blocks : Nat → Prop} {flow : Flow} {falls : Prop} :
    Exits blocks emitter (flow.endingIn falls) ↔ Exits blocks emitter flow :=
  ⟨fun exits => exits.mono id id id subset_rfl, fun exits => exits.mono id id id subset_rfl⟩

theorem exits_followedBy {blocks : Nat → Prop} {first second : Flow} :
    Exits blocks emitter (first.followedBy second) ↔
      Exits blocks emitter first ∧ Exits blocks emitter second := by
  constructor
  · intro exits
    exact ⟨exits.mono .inl .inl .inl Set.subset_union_left,
      exits.mono .inr .inr .inr Set.subset_union_right⟩
  · rintro ⟨left, right⟩
    exact ⟨fun leaves => leaves.elim left.breaks right.breaks,
      fun leaves => leaves.elim left.continues right.continues,
      fun leaves => leaves.elim left.throws right.throws,
      fun label member => member.elim (left.gotos label) (right.gotos label)⟩

/-- After a part, with the marks extended to its new blocks. -/
theorem Exits.carry {flow : Flow} (exits : Exits marks emitter flow)
    (wellFormed : WellFormed emitter) (same : Same emitter current)
    (agree : Agree emitter.nextBlock marks marks') : Exits marks' current flow :=
  (Exits.of_same same).mpr (exits.agree wellFormed agree)

/-- Marked blocks of labels belong to labels that are reached. -/
def LabelsWithin (marks : Nat → Prop) (emitter : Emitter) (reached : Set String) : Prop :=
  ∀ label block depth, emitter.labelBlocks label = some (block, depth) → marks block →
    label ∈ reached

theorem LabelsWithin.carry {reached : Set String} (within : LabelsWithin marks emitter reached)
    (wellFormed : WellFormed emitter) (table : current.labelBlocks = emitter.labelBlocks)
    (agree : Agree emitter.nextBlock marks marks') : LabelsWithin marks' current reached := by
  intro label block depth found
  rw [table] at found
  rw [agree _ (wellFormed.labels label block depth found)]
  exact within label block depth found

/-- The blocks of the labels that are reached belong to a set. -/
def LabelsInto (blocks : Nat → Prop) (emitter : Emitter) (reached : Set String) : Prop :=
  ∀ label ∈ reached, ∀ block depth, emitter.labelBlocks label = some (block, depth) → blocks block

theorem LabelsInto.carry {blocks : Nat → Prop} {reached : Set String}
    (into : LabelsInto blocks emitter reached)
    (table : current.labelBlocks = emitter.labelBlocks) : LabelsInto blocks current reached := by
  intro label member block depth found
  rw [table] at found
  exact into label member block depth found

end Marks

end HitSimple.ControlFlow

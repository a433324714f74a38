import HitSimple.Safety.WhileLoop

namespace HitSimple.Safety
open Dataflow Validator Codegen

section Leaves
variable {Leaf Expr : Type}

mutual

/-- Whether a `break` or `continue` of a statement can leave it: a `while` keeps those in its body,
a `for` does not. -/
def Stmt.leavesLoop : Stmt Leaf Expr → Bool
  | .breakLoop | .continueLoop => true
  | .statementList statements => statements.leavesLoop
  | .ifThen _ thenBlock => thenBlock.leavesLoop
  | .ifElse _ thenBlock elseBlock => thenBlock.leavesLoop || elseBlock.leavesLoop
  | .forLoop init _ post body => init.leavesLoop || post.leavesLoop || body.leavesLoop
  | .label _ statement => statement.leavesLoop
  | .thrown delivery => delivery.leavesLoop
  | .tryCatch tryBlock catchBlock => tryBlock.leavesLoop || catchBlock.leavesLoop
  | .leaf _ | .whileLoop _ _ | .gotoLabel _ | .returned _ => false

def Block.leavesLoop : Block Leaf Expr → Bool
  | .nil => false
  | .cons statement rest => statement.leavesLoop || rest.leavesLoop

end

end Leaves

/-- Validation leaves some of the loops around a statement as they are. -/
def KeepsLoops {Context : Type} (kept : List StaticLoopContext → List StaticLoopContext)
    (validator : Validator Context) : Prop :=
  ∀ flow, ∃ falls after, validator flow = some (falls, after) ∧ kept after.loops = kept flow.loops

namespace KeepsLoops
variable {Context : Type} {kept : List StaticLoopContext → List StaticLoopContext}
  {first second : Validator Context}

theorem skip : KeepsLoops kept (skip : Validator Context) := fun flow => ⟨true, flow, rfl, rfl⟩

theorem effect (effect : Effect Context) : KeepsLoops kept effect.validator :=
  fun _ => ⟨true, _, rfl, rfl⟩

theorem each (effects : List (Effect Context)) : KeepsLoops kept (validateEach effects) :=
  fun _ => ⟨true, _, rfl, rfl⟩

theorem andThen (one : KeepsLoops kept first) (two : KeepsLoops kept second) :
    KeepsLoops kept (first.andThen second) := by
  intro flow
  obtain ⟨falls, middle, found, keeps⟩ := one flow
  cases falls with
  | false => exact ⟨false, middle, by simp [Validator.andThen, found], keeps⟩
  | true =>
      obtain ⟨falls, after, found', keeps'⟩ := two middle
      exact ⟨falls, after, by simp [Validator.andThen, found, found'], keeps'.trans keeps⟩

theorem alternatives (one : KeepsLoops kept first) (two : KeepsLoops kept second) :
    KeepsLoops kept (first.alternatives second) := by
  intro flow
  obtain ⟨_, middle, found, keeps⟩ := one flow
  obtain ⟨_, after, found', keeps'⟩ := two (middle.restart flow.analyzer.state)
  exact ⟨_, _, alternatives_eq found found', keeps'.trans keeps⟩

theorem branch (decides : Analyzer Context → Option Bool) (one : KeepsLoops kept first)
    (two : KeepsLoops kept second) : KeepsLoops kept (branch decides first second) := by
  intro flow
  rw [Validator.branch]
  cases decides flow.analyzer with
  | none => exact one.alternatives two flow
  | some holds =>
      cases holds with
      | true => exact one flow
      | false => exact two flow

theorem plainBlock (keeps : KeepsLoops kept first) : KeepsLoops kept (plainBlock [] first) := by
  intro flow
  obtain ⟨falls, after, found, keeps⟩ := keeps flow.enterBlock
  exact ⟨falls, _, plainBlock_eq found, keeps⟩

theorem leaveLoop {record : StaticLoopContext → StaticSafetyState → StaticLoopContext}
    (records : ∀ loop loop' loops, kept (loop' :: loops) = kept (loop :: loops)) :
    KeepsLoops kept (leaveLoop record : Validator Context) := by
  intro flow
  rw [Validator.leaveLoop]
  cases around : flow.loops with
  | nil => exact ⟨false, flow, rfl, congrArg kept around⟩
  | cons loop loops => exact ⟨false, _, rfl, records loop _ loops⟩

/-- A `while` takes the breaks in its body to a loop of its own. -/
theorem whileLoop (decides : Analyzer Context → Option Bool) (body : KeepsLoops List.tail first) :
    KeepsLoops kept (first.whileLoop decides) := by
  intro flow
  by_cases decided : decides flow.analyzer = some false
  · exact ⟨true, flow, if_pos decided, rfl⟩
  · obtain ⟨falls, after, found, keeps⟩ := body flow.enterLoop
    exact ⟨true, _, whileLoop_eq decided found, congrArg kept keeps⟩

theorem forLoop (decides : Analyzer Context → Option Bool) (body : KeepsLoops kept first) :
    KeepsLoops kept (first.forLoop decides) := by
  intro flow
  by_cases decided : decides flow.analyzer = some false
  · exact ⟨true, flow, if_pos decided, rfl⟩
  · obtain ⟨falls, after, found, keeps⟩ := body flow
    exact ⟨true, _, forLoop_eq decided found, keeps⟩

end KeepsLoops

section Structured
variable {Context Leaf Expr : Type} {transfers : Transfers Context Leaf Expr} (fuel : Nat)

/-- The loops that a record leaves alone, if a statement can reach a loop around it at all. -/
def Reaches (leaves : Bool) (kept : List StaticLoopContext → List StaticLoopContext) : Prop :=
  leaves = true → ∀ loop loop' loops, kept (loop' :: loops) = kept (loop :: loops)

theorem Reaches.left {first second : Bool} {kept : List StaticLoopContext → List StaticLoopContext}
    (reaches : Reaches (first || second) kept) : Reaches first kept :=
  fun leaves => reaches (Bool.or_eq_true_iff.mpr (.inl leaves))

theorem Reaches.right {first second : Bool} {kept : List StaticLoopContext → List StaticLoopContext}
    (reaches : Reaches (first || second) kept) : Reaches second kept :=
  fun leaves => reaches (Bool.or_eq_true_iff.mpr (.inr leaves))

mutual

theorem stmt_keepsLoops (kept : List StaticLoopContext → List StaticLoopContext) :
    ∀ statement : Stmt Leaf Expr, statement.isStructured transfers = true →
      Reaches statement.leavesLoop kept → KeepsLoops kept (validateStmt transfers fuel statement)
  | .leaf leaf, _, _ => .effect _
  | .statementList statements, structured, reaches =>
      inOrder_keepsLoops kept statements structured reaches
  | .ifThen condition thenBlock, structured, reaches =>
      (KeepsLoops.effect _).andThen
        (.branch _ (block_keepsLoops kept thenBlock structured reaches) .skip)
  | .ifElse condition thenBlock elseBlock, structured, reaches => by
      obtain ⟨first, second⟩ := Bool.and_eq_true_iff.mp structured
      exact (KeepsLoops.effect _).andThen
        (.branch _ (block_keepsLoops kept thenBlock first reaches.left)
          (block_keepsLoops kept elseBlock second reaches.right))
  | .whileLoop condition body, structured, _ =>
      (KeepsLoops.effect _).andThen
        (.whileLoop _ (block_keepsLoops List.tail body structured fun _ _ _ _ => rfl))
  | .forLoop init condition post body, structured, reaches => by
      obtain ⟨start, repeated⟩ := Bool.and_eq_true_iff.mp structured
      obtain ⟨start, step⟩ := Bool.and_eq_true_iff.mp start
      exact (inOrder_keepsLoops kept init start reaches.left.left).andThen
        ((KeepsLoops.each _).andThen (.forLoop _
          ((block_keepsLoops kept body repeated reaches.right).andThen
            (inOrder_keepsLoops kept post step reaches.left.right))))
  | .breakLoop, _, reaches => .leaveLoop (reaches rfl)
  | .continueLoop, _, reaches => .leaveLoop (reaches rfl)

theorem inOrder_keepsLoops (kept : List StaticLoopContext → List StaticLoopContext) :
    ∀ block : Block Leaf Expr, block.isStructured transfers = true →
      Reaches block.leavesLoop kept → KeepsLoops kept (validateInOrder transfers fuel block)
  | .nil, _, _ => .skip
  | .cons statement rest, structured, reaches => by
      obtain ⟨first, later⟩ := Bool.and_eq_true_iff.mp structured
      exact (stmt_keepsLoops kept statement first reaches.left).andThen
        (inOrder_keepsLoops kept rest later reaches.right)

theorem block_keepsLoops (kept : List StaticLoopContext → List StaticLoopContext) :
    ∀ block : Block Leaf Expr, block.isStructured transfers = true →
      Reaches block.leavesLoop kept →
        KeepsLoops kept (validateBlock transfers fuel block (validateInOrder transfers fuel block)
          (validators transfers fuel block))
  | block, structured, reaches => by
      rw [validateBlock_structured structured]
      exact (inOrder_keepsLoops kept block structured reaches).plainBlock

end

end Structured

end HitSimple.Safety

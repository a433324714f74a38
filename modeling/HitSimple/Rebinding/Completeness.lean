import HitSimple.Rebinding.Traversal
import Mathlib.Data.List.ReduceOption

namespace HitSimple.Rebinding
open Ownership

/-- Some node below one of these rebinds the binding. -/
def Rebound (nodes : List Node) (name : String) : Prop :=
  ∃ node ∈ nodes, Recorded Node.fields Node.rebinds node name

section
variable {name : String}

@[simp] theorem rebound_nil : ¬Rebound [] name := by
  simp [Rebound]

theorem rebound_append {first second : List Node} :
    Rebound (first ++ second) name ↔ Rebound first name ∨ Rebound second name := by
  simp only [Rebound, List.mem_append, or_and_right, exists_or]

theorem rebound_expr {node : Expr} :
    Rebound [.expr node] name ↔ Rebound node.fields name := by
  simp only [Rebound, List.mem_singleton, exists_eq_left]
  rw [recorded_iff]
  simp [Node.rebinds, Node.fields]

theorem rebound_block {node : Block} :
    Rebound [.block node] name ↔ Rebound node.fields name := by
  simp only [Rebound, List.mem_singleton, exists_eq_left]
  rw [recorded_iff]
  simp [Node.rebinds, Node.fields]

theorem rebound_stmt {node : Stmt} :
    Rebound [.stmt node] name ↔ name ∈ (Node.stmt node).rebinds ∨ Rebound node.fields name := by
  simp only [Rebound, List.mem_singleton, exists_eq_left]
  rw [recorded_iff]
  rfl

end

mutual

theorem mem_expression {name : String} (node : Expr) (bindings : Bindings) :
    name ∈ expression node bindings ↔ name ∈ bindings ∨ Rebound node.fields name := by
  cases node <;>
    simp only [expression, Expr.fields, rebound_append, rebound_nil, id_eq, or_false, or_assoc,
      mem_someExpression, mem_expressions, mem_statements]

theorem mem_statement {name : String} (node : Stmt) (bindings : Bindings) :
    name ∈ statement node bindings ↔ name ∈ bindings ∨ Rebound [.stmt node] name := by
  rw [rebound_stmt]
  cases node <;>
    simp only [statement, Stmt.fields, Node.rebinds, rebound_append, rebound_nil, id_eq, or_false,
      or_assoc, mem_someExpression, mem_expressions, mem_statements, mem_someStatement,
      mem_someBlock, Set.mem_empty_iff_false, false_or, Set.mem_singleton_iff, Finset.mem_insert]
  · rw [or_left_comm]

theorem mem_blockStatements {name : String} (block : Block) (bindings : Bindings) :
    name ∈ blockStatements block bindings ↔ name ∈ bindings ∨ Rebound block.fields name := by
  cases block
  exact mem_statements _ bindings

theorem mem_someExpression {name : String} (value : Option Expr) (bindings : Bindings) :
    name ∈ someExpression value bindings ↔ name ∈ bindings ∨ Rebound (exprNodes value) name := by
  cases value with
  | none => simp [someExpression, exprNodes]
  | some node =>
      rw [someExpression, mem_expression node bindings]
      exact or_congr_right rebound_expr.symm

theorem mem_someStatement {name : String} (value : Option Stmt) (bindings : Bindings) :
    name ∈ someStatement value bindings ↔ name ∈ bindings ∨ Rebound (stmtNodes value) name := by
  cases value with
  | none => simp [someStatement, stmtNodes]
  | some node => exact mem_statement node bindings

theorem mem_someBlock {name : String} (value : Option Block) (bindings : Bindings) :
    name ∈ someBlock value bindings ↔ name ∈ bindings ∨ Rebound (blockNodes value) name := by
  cases value with
  | none => simp [someBlock, blockNodes]
  | some node =>
      rw [someBlock, mem_blockStatements node bindings]
      exact or_congr_right rebound_block.symm

theorem mem_expressions {name : String} (values : List (Option Expr)) (bindings : Bindings) :
    name ∈ expressions values bindings ↔ name ∈ bindings ∨ Rebound (exprsNodes values) name := by
  cases values with
  | nil => simp [expressions, exprsNodes]
  | cons value values =>
      have split : exprsNodes (value :: values) = exprNodes value ++ exprsNodes values := by
        cases value <;> rfl
      rw [expressions, mem_expressions values, mem_someExpression value, split, rebound_append,
        or_assoc]

theorem mem_statements {name : String} (values : List (Option Stmt)) (bindings : Bindings) :
    name ∈ statements values bindings ↔ name ∈ bindings ∨ Rebound (stmtsNodes values) name := by
  cases values with
  | nil => simp [statements, stmtsNodes]
  | cons value values =>
      have split : stmtsNodes (value :: values) = stmtNodes value ++ stmtsNodes values := by
        cases value <;> rfl
      rw [statements, mem_statements values, mem_someStatement value, split, rebound_append,
        or_assoc]

end

theorem mem_reboundBindings {unit : TranslationUnit} {name : String} :
    name ∈ reboundBindings unit ↔ Rebound unit.roots name := by
  have bodies (functions : List Function) (bindings : Bindings) :
      name ∈ functions.foldl (fun bindings function => someBlock function.body bindings) bindings ↔
        name ∈ bindings ∨ Rebound (functions.flatMap fun function => blockNodes function.body) name := by
    induction functions generalizing bindings with
    | nil => simp
    | cons function functions ih =>
        rw [List.foldl_cons, ih, mem_someBlock, List.flatMap_cons, rebound_append, or_assoc]
  rw [reboundBindings, bodies, mem_someBlock, TranslationUnit.roots, rebound_append]
  simp

/-- A node that rebinds the binding is somewhere in the unit. -/
def TranslationUnit.Rebinds (unit : TranslationUnit) (name : String) : Prop :=
  ∃ root ∈ unit.roots, ∃ address, Reaches Node.fields root (.stmt (.bindingRebind name address))

theorem rebound_roots_iff {unit : TranslationUnit} {name : String} :
    Rebound unit.roots name ↔ unit.Rebinds name := by
  constructor
  · rintro ⟨root, isRoot, node, path, rebinds⟩
    unfold Node.rebinds at rebinds
    split at rebinds
    next bindingName address =>
      obtain rfl := Set.mem_singleton_iff.mp rebinds
      exact ⟨root, isRoot, address, path⟩
    · exact absurd rebinds (Set.notMem_empty name)
  · rintro ⟨root, isRoot, address, path⟩
    exact ⟨root, isRoot, _, path, Set.mem_singleton name⟩

/-- The collected set has the names of the rebind nodes in the unit, and no storage that the emitter
fixes belongs to one of them. -/
theorem reboundBindings_complete (unit : TranslationUnit) (name : String) :
    (name ∈ reboundBindings unit ↔ unit.Rebinds name) ∧
      ∀ checked persistent,
        (initializeBinding (reboundBindings unit) ⟨none, checked⟩ name persistent).bindingStorage =
          none ↔ ¬unit.Rebinds name := by
  have collected : name ∈ reboundBindings unit ↔ unit.Rebinds name :=
    mem_reboundBindings.trans rebound_roots_iff
  refine ⟨collected, fun checked persistent => ?_⟩
  rw [← collected, initializeBinding]
  split
  next unbound => exact iff_of_true rfl unbound
  next bound =>
    refine iff_of_false ?_ bound
    cases persistent <;> simp

/-- A rebind inside the condition of a loop inside an assignment of a return value. -/
example : reboundBindings ⟨[⟨some ⟨[some (.return [some (.assignment
    [some (.while (some (.assignment [some (.bindingRebind "x" none)] none)) none)] none)])]⟩⟩],
    none⟩ = {"x"} := by
  decide

end HitSimple.Rebinding

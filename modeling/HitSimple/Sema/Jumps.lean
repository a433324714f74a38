import HitSimple.Sema.Scope

namespace HitSimple.Jumps
open Sema

mutual

/-- A statement as far as jumps are concerned.  A `for` header without a statement has a plain
one. -/
inductive Stmt where
  | plain
  | varDecl (isStatic : Bool)
  | gotoStmt (label : String)
  | labelStmt (label : String) (statement : Stmt)
  | ifThen (thenBlock : BlockStmt)
  | ifElse (thenBlock elseBlock : BlockStmt)
  | whileStmt (body : BlockStmt)
  | forStmt (init : Stmt) (body : BlockStmt)
  | tryCatch (tryBlock catchBlock : BlockStmt)

inductive BlockStmt where
  | nil
  | cons (statement : Stmt) (rest : BlockStmt)

end

def BlockStmt.statements : BlockStmt → List Stmt
  | .nil => []
  | .cons statement rest => statement :: rest.statements

/-- `labels_` and `pendingGotos_` with the depths they were met at. -/
structure Tables where
  blockDepth : Nat
  labels : List (String × Nat)
  pendingGotos : List (String × Nat)
  diagnostics : List Diagnostic
  deriving DecidableEq, Repr

def Tables.open (tables : Tables) : Tables := { tables with blockDepth := tables.blockDepth + 1 }

def Tables.close (tables : Tables) : Tables := { tables with blockDepth := tables.blockDepth - 1 }

mutual

def Stmt.analyze : Stmt → Tables → Tables
  | .plain, tables | .varDecl _, tables => tables
  | .gotoStmt label, tables =>
      { tables with pendingGotos := tables.pendingGotos ++ [(label, tables.blockDepth)] }
  | .labelStmt label statement, tables =>
      if label ∈ tables.labels.map Prod.fst then
        { tables with diagnostics := tables.diagnostics ++ ["duplicate label '" ++ label ++ "'"] }
      else
        statement.analyze { tables with labels := tables.labels ++ [(label, tables.blockDepth)] }
  | .ifThen thenBlock, tables => (thenBlock.analyze tables.open).close
  | .ifElse thenBlock elseBlock, tables =>
      (elseBlock.analyze (thenBlock.analyze tables.open).close.open).close
  | .whileStmt body, tables => (body.analyze tables.open).close
  | .forStmt init body, tables => (body.analyze (init.analyze tables.open).open).close.close
  | .tryCatch tryBlock catchBlock, tables =>
      (catchBlock.analyze (tryBlock.analyze tables.open).close.open).close

def BlockStmt.analyze : BlockStmt → Tables → Tables
  | .nil, tables => tables
  | .cons statement rest, tables => rest.analyze (statement.analyze tables)

end

def emptyTables : Tables where
  blockDepth := 0
  labels := []
  pendingGotos := []
  diagnostics := []

def gotoDiagnostics (labels : List (String × Nat)) (pending : String × Nat) : List Diagnostic :=
  match labels.find? (·.1 == pending.1) with
  | none => ["goto references unknown label '" ++ pending.1 ++ "'"]
  | some label =>
      if label.2 > pending.2 then
        ["goto into an inner block is not supported for label '" ++ pending.1 ++ "'"]
      else []

/-- The diagnostics on the jumps of a function, operation or method body. -/
def analyzeFunctionBody (body : BlockStmt) : List Diagnostic :=
  let tables := (body.analyze emptyTables.open).close
  tables.diagnostics ++ tables.pendingGotos.flatMap (gotoDiagnostics tables.labels)

/-- The labels in front of a statement. -/
def Stmt.labels : Stmt → List String
  | .labelStmt label statement => label :: statement.labels
  | _ => []

/-- An automatic local is declared in the block of the statement. -/
def Stmt.declares : Stmt → Bool
  | .varDecl isStatic => !isStatic
  | .labelStmt _ statement => statement.declares
  | _ => false

/-- A statement of a block with the statements around it. -/
structure Frame where
  before : List Stmt
  current : Stmt
  after : List Stmt

/-- The label lies directly in the block, and no declaration lies on the way to it. -/
def Frame.Admits (frame : Frame) (label : String) : Prop :=
  (∃ statement ∈ frame.before ++ [frame.current], label ∈ statement.labels) ∨
    ∃ skipped target rest, frame.after = skipped ++ target :: rest ∧ label ∈ target.labels ∧
      ∀ statement ∈ skipped, statement.declares = false

mutual

/-- Every jump of a statement, which lies in the frames, has its label in an enclosing block. -/
def Stmt.HasValidTargets : Stmt → List Frame → Prop
  | .plain, _ | .varDecl _, _ => True
  | .gotoStmt label, frames => ∃ frame ∈ frames, frame.Admits label
  | .labelStmt _ statement, frames => statement.HasValidTargets frames
  | .ifThen thenBlock, frames => thenBlock.HasValidTargets [] frames
  | .ifElse thenBlock elseBlock, frames =>
      thenBlock.HasValidTargets [] frames ∧ elseBlock.HasValidTargets [] frames
  | .whileStmt body, frames => body.HasValidTargets [] frames
  | .forStmt init body, frames =>
      init.HasValidTargets (⟨[], init, [.whileStmt body]⟩ :: frames) ∧
        body.HasValidTargets [] (⟨[init], .whileStmt body, []⟩ :: frames)
  | .tryCatch tryBlock catchBlock, frames =>
      tryBlock.HasValidTargets [] frames ∧ catchBlock.HasValidTargets [] frames

def BlockStmt.HasValidTargets : BlockStmt → List Stmt → List Frame → Prop
  | .nil, _, _ => True
  | .cons statement rest, before, frames =>
      statement.HasValidTargets (⟨before, statement, rest.statements⟩ :: frames) ∧
        rest.HasValidTargets (before ++ [statement]) frames

end

/-- What the source shows of a statement when it is read from left to right. -/
inductive Event where
  | opened
  | closed
  | declared
  | goto (label : String)
  | label (label : String)
  deriving DecidableEq, Repr

def bracketed (events : List Event) : List Event := .opened :: events ++ [.closed]

mutual

def Stmt.events : Stmt → List Event
  | .plain => []
  | .varDecl isStatic => if isStatic then [] else [.declared]
  | .gotoStmt label => [.goto label]
  | .labelStmt label statement => .label label :: statement.events
  | .ifThen thenBlock => bracketed thenBlock.events
  | .ifElse thenBlock elseBlock => bracketed thenBlock.events ++ bracketed elseBlock.events
  | .whileStmt body => bracketed body.events
  | .forStmt init body => bracketed (init.events ++ bracketed body.events)
  | .tryCatch tryBlock catchBlock => bracketed tryBlock.events ++ bracketed catchBlock.events

def BlockStmt.events : BlockStmt → List Event
  | .nil => []
  | .cons statement rest => statement.events ++ rest.events

end

def Event.label? : Event → Option String
  | .label name => some name
  | _ => none

def labelsOf (events : List Event) : List String := events.filterMap Event.label?

/-- A search for a label: the blocks entered since its start and still open, and whether a local
of the present block was declared, or whether the label was found where a jump may go. -/
inductive Scan where
  | searching (depth : Nat) (skipped : Bool)
  | found (valid : Bool)
  deriving DecidableEq, Repr

def Scan.step (label : String) : Scan → Event → Scan
  | .found valid, _ => .found valid
  | .searching depth skipped, .opened => .searching (depth + 1) skipped
  | .searching 0 _, .closed => .searching 0 false
  | .searching (depth + 1) skipped, .closed => .searching depth skipped
  | .searching 0 _, .declared => .searching 0 true
  | .searching (depth + 1) skipped, .declared => .searching (depth + 1) skipped
  | .searching depth skipped, .goto _ => .searching depth skipped
  | .searching depth skipped, .label other =>
      if other = label then .found (depth == 0 && !skipped) else .searching depth skipped

def scan (label : String) (start : Scan) (events : List Event) : Scan :=
  events.foldl (Scan.step label) start

/-- The same event seen from the right: blocks are entered at their ends. -/
def Event.mirror : Event → Option Event
  | .opened => some .closed
  | .closed => some .opened
  | .declared => none
  | .goto name => some (.goto name)
  | .label name => some (.label name)

def mirror (events : List Event) : List Event := events.reverse.filterMap Event.mirror

/-- The label is met after the jump without having entered its block or skipped one of its
declarations, or before the jump without its block having ended. -/
def Finds (label : String) (left right : List Event) : Prop :=
  scan label (.searching 0 false) right = .found true ∨
    scan label (.searching 0 false) (mirror left) = .found true

/-- Each jump finds its label. -/
def FindsTargets (left events right : List Event) : Prop :=
  ∀ before label after, events = before ++ .goto label :: after →
    Finds label (left ++ before) (after ++ right)

section Lists

@[simp] theorem labelsOf_append (left right : List Event) :
    labelsOf (left ++ right) = labelsOf left ++ labelsOf right := List.filterMap_append

@[simp] theorem labelsOf_nil : labelsOf [] = [] := rfl

@[simp] theorem labelsOf_cons_label (label : String) (events : List Event) :
    labelsOf (.label label :: events) = label :: labelsOf events := rfl

@[simp] theorem labelsOf_cons_opened (events : List Event) :
    labelsOf (.opened :: events) = labelsOf events := rfl

@[simp] theorem labelsOf_cons_closed (events : List Event) :
    labelsOf (.closed :: events) = labelsOf events := rfl

@[simp] theorem labelsOf_cons_declared (events : List Event) :
    labelsOf (.declared :: events) = labelsOf events := rfl

@[simp] theorem labelsOf_cons_goto (label : String) (events : List Event) :
    labelsOf (.goto label :: events) = labelsOf events := rfl

@[simp] theorem labelsOf_bracketed (events : List Event) :
    labelsOf (bracketed events) = labelsOf events := by
  simp [bracketed]

@[simp] theorem scan_append (label : String) (start : Scan) (left right : List Event) :
    scan label start (left ++ right) = scan label (scan label start left) right :=
  List.foldl_append

@[simp] theorem scan_found (label : String) (valid : Bool) (events : List Event) :
    scan label (.found valid) events = .found valid := by
  induction events with
  | nil => rfl
  | cons event events ih => exact ih

@[simp] theorem mirror_append (left right : List Event) :
    mirror (left ++ right) = mirror right ++ mirror left := by
  simp [mirror]

@[simp] theorem mirror_bracketed (events : List Event) :
    mirror (bracketed events) = bracketed (mirror events) := by
  simp [mirror, bracketed, Event.mirror]

end Lists

section Balance

/-- Every block that is opened is closed. -/
inductive Balanced : List Event → Prop where
  | nil : Balanced []
  | declared : Balanced [.declared]
  | goto (label : String) : Balanced [.goto label]
  | label (label : String) : Balanced [.label label]
  | append {left right : List Event} : Balanced left → Balanced right → Balanced (left ++ right)
  | bracketed {events : List Event} : Balanced events → Balanced (bracketed events)

theorem Balanced.mirror {events : List Event} (balanced : Balanced events) :
    Balanced (mirror events) := by
  induction balanced with
  | nil => exact .nil
  | declared => exact .nil
  | goto label => exact .goto label
  | label label => exact .label label
  | append _ _ left right =>
    rw [mirror_append]
    exact right.append left
  | bracketed _ inner =>
    rw [mirror_bracketed]
    exact inner.bracketed

theorem labelsOf_mirror {events : List Event} (label : String) :
    label ∈ labelsOf (mirror events) ↔ label ∈ labelsOf events := by
  induction events with
  | nil => rfl
  | cons event events ih =>
    rw [← List.singleton_append, mirror_append, labelsOf_append, labelsOf_append, List.mem_append,
      List.mem_append, ih, or_comm]
    apply or_congr_left
    cases event <;> simp [mirror, Event.mirror, List.filterMap_cons]

/-- A label in a block that is entered on the way is no target. -/
theorem Balanced.scan_inside {events : List Event} (balanced : Balanced events) (label : String)
    (depth : Nat) (skipped : Bool) :
    scan label (.searching (depth + 1) skipped) events =
      if label ∈ labelsOf events then .found false else .searching (depth + 1) skipped := by
  induction balanced generalizing depth with
  | nil => rfl
  | declared => rfl
  | goto other => rfl
  | label other => simp [scan, Scan.step, eq_comm]
  | append _ _ left right =>
    rw [scan_append, left, labelsOf_append]
    split_ifs with earlier whole whole
    · exact scan_found _ _ _
    · exact absurd (List.mem_append_left _ earlier) whole
    · rw [right, if_pos ((List.mem_append.mp whole).resolve_left earlier)]
    · rw [right, if_neg fun later => whole (List.mem_append_right _ later)]
  | @bracketed events _ inner =>
    have entered : scan label (.searching (depth + 1) skipped) (Jumps.bracketed events) =
        scan label (scan label (.searching (depth + 1 + 1) skipped) events) [.closed] := by
      rw [← scan_append]
      rfl
    rw [entered, inner, labelsOf_bracketed]
    split_ifs <;> rfl

theorem Balanced.scan_bracketed {events : List Event} (balanced : Balanced events) (label : String)
    (skipped : Bool) :
    scan label (.searching 0 skipped) (Jumps.bracketed events) =
      if label ∈ labelsOf events then .found false else .searching 0 skipped := by
  have entered : scan label (.searching 0 skipped) (Jumps.bracketed events) =
      scan label (scan label (.searching (0 + 1) skipped) events) [.closed] := by
    rw [← scan_append]
    rfl
  rw [entered, balanced.scan_inside]
  split_ifs <;> rfl

mutual

theorem Stmt.balanced : (statement : Stmt) → Balanced statement.events
  | .plain => .nil
  | .varDecl true => .nil
  | .varDecl false => .declared
  | .gotoStmt label => .goto label
  | .labelStmt label statement => (Balanced.label label).append statement.balanced
  | .ifThen thenBlock => thenBlock.balanced.bracketed
  | .ifElse thenBlock elseBlock => thenBlock.balanced.bracketed.append elseBlock.balanced.bracketed
  | .whileStmt body => body.balanced.bracketed
  | .forStmt init body => (init.balanced.append body.balanced.bracketed).bracketed
  | .tryCatch tryBlock catchBlock => tryBlock.balanced.bracketed.append catchBlock.balanced.bracketed

theorem BlockStmt.balanced : (block : BlockStmt) → Balanced block.events
  | .nil => .nil
  | .cons statement rest => statement.balanced.append rest.balanced

end

end Balance

end HitSimple.Jumps

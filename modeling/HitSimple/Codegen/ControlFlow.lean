import Mathlib.Logic.Function.Basic
import Mathlib.Logic.Relation

namespace HitSimple.ControlFlow

mutual

/-- A statement as far as control flow and scopes go.  `simple` stands for the statements that
evaluate, store, declare or call; a missing `for` initialisation is an empty list. -/
inductive Stmt where
  | simple (emitsCode : Bool)
  | statementList (statements : Block)
  | staticInitialization (statement : Stmt)
  | returnStmt
  | ifThen (thenBlock : Block)
  | ifElse (thenBlock elseBlock : Block)
  | whileStmt (body : Block)
  | forStmt (init : Stmt) (hasCondition : Bool) (post body : Block)
  | breakStmt
  | continueStmt
  | gotoStmt (label : String)
  | labelStmt (label : String) (statement : Stmt)
  | throwStmt
  | tryCatch (tryBlock catchBlock : Block)

inductive Block where
  | nil
  | cons (statement : Stmt) (rest : Block)

end

/-- An instruction of the emitted function.  `statement` marks where the code of a statement starts
and the static scope depth it was emitted with. -/
inductive Instr where
  | statement (depth : Nat)
  | other
  | scopeEnter
  | scopeExit
  | scopeExitTo (targetDepth : Nat)
  | br (target : Nat)
  | condBr (ifTrue ifFalse : Nat)
  | ret
  deriving DecidableEq, Repr

def Instr.isTerminator : Instr → Bool
  | .br _ | .condBr _ _ | .ret => true
  | _ => false

def Instr.isMarker : Instr → Bool
  | .statement _ => true
  | _ => false

structure LoopTargets where
  breakBlock : Nat
  continueBlock : Nat
  breakScopeDepth : Nat
  continueScopeDepth : Nat

structure CatchTarget where
  catchBlock : Nat
  scopeDepth : Nat

/-- The function under construction.  A label has its block and its scope depth. -/
structure Emitter where
  code : Nat → List Instr
  nextBlock : Nat
  insertBlock : Nat
  runtimeScopeDepth : Nat
  loopTargets : List LoopTargets
  catchTargets : List CatchTarget
  labelBlocks : String → Option (Nat × Nat)
  staticInitializationEmissionActive : Bool

abbrev Emission := Except String Emitter

namespace Emitter

def append (emitter : Emitter) (instr : Instr) : Emitter :=
  { emitter with
    code := Function.update emitter.code emitter.insertBlock
      (emitter.code emitter.insertBlock ++ [instr]) }

/-- The block at the insertion point ends in a terminator. -/
def getTerminator (emitter : Emitter) : Bool :=
  (((emitter.code emitter.insertBlock).filter fun instr => !instr.isMarker).getLast?).any
    Instr.isTerminator

/-- `BasicBlock::Create`; the block is the `nextBlock` before. -/
def createBlock (emitter : Emitter) : Emitter :=
  { emitter with nextBlock := emitter.nextBlock + 1 }

def setInsertPoint (emitter : Emitter) (block : Nat) : Emitter :=
  { emitter with insertBlock := block }

def brUnlessTerminated (emitter : Emitter) (target : Nat) : Emitter :=
  if emitter.getTerminator then emitter else emitter.append (.br target)

/-- `emitRuntimeScopeEnter` with the depth counted along. -/
def enterScope (emitter : Emitter) : Emitter :=
  { emitter.append .scopeEnter with runtimeScopeDepth := emitter.runtimeScopeDepth + 1 }

def emitRuntimeScopeExit (emitter : Emitter) : Emitter := emitter.append .scopeExit

def leaveScope (emitter : Emitter) : Emitter :=
  { emitter with runtimeScopeDepth := emitter.runtimeScopeDepth - 1 }

def emitRuntimeScopeExitTo (emitter : Emitter) (targetDepth : Nat) : Emitter :=
  if emitter.runtimeScopeDepth > targetDepth then emitter.append (.scopeExitTo targetDepth)
  else emitter

def pushLoop (emitter : Emitter) (targets : LoopTargets) : Emitter :=
  { emitter with loopTargets := targets :: emitter.loopTargets }

def popLoop (emitter : Emitter) : Emitter :=
  { emitter with loopTargets := emitter.loopTargets.tail }

def pushCatch (emitter : Emitter) (target : CatchTarget) : Emitter :=
  { emitter with catchTargets := target :: emitter.catchTargets }

def popCatch (emitter : Emitter) : Emitter :=
  { emitter with catchTargets := emitter.catchTargets.tail }

def setStaticInitialization (emitter : Emitter) (active : Bool) : Emitter :=
  { emitter with staticInitializationEmissionActive := active }

def emitBreak (emitter : Emitter) : Emission :=
  match emitter.loopTargets with
  | [] => .error "break used outside of a loop"
  | targets :: _ =>
      .ok ((emitter.emitRuntimeScopeExitTo targets.breakScopeDepth).append
        (.br targets.breakBlock))

def emitContinue (emitter : Emitter) : Emission :=
  match emitter.loopTargets with
  | [] => .error "continue used outside of a loop"
  | targets :: _ =>
      .ok ((emitter.emitRuntimeScopeExitTo targets.continueScopeDepth).append
        (.br targets.continueBlock))

def emitGoto (emitter : Emitter) (label : String) : Emission :=
  match emitter.labelBlocks label with
  | none => .error ("unknown label '" ++ label ++ "'")
  | some (block, depth) =>
      if depth > emitter.runtimeScopeDepth then
        .error ("invalid lexical scope for label '" ++ label ++ "'")
      else .ok ((emitter.emitRuntimeScopeExitTo depth).append (.br block))

/-- Leaving the function, by a return or by a throw that no block catches. -/
def emitExit (emitter : Emitter) : Emitter :=
  ((emitter.emitRuntimeScopeExitTo 0).append .other).append .ret

def emitThrow (emitter : Emitter) : Emitter :=
  match emitter.catchTargets with
  | [] => emitter.emitExit
  | target :: _ =>
      ((emitter.append .other).emitRuntimeScopeExitTo target.scopeDepth).append
        (.br target.catchBlock)

end Emitter

/-- `emit(const hir::Block &)` around the emission of its statements. -/
def emitScoped (statements : Emitter → Emission) (emitter : Emitter) : Emission := do
  let emitter ← statements emitter.enterScope
  return (if emitter.getTerminator then emitter else emitter.emitRuntimeScopeExit).leaveScope

def Stmt.isLabel : Stmt → Bool
  | .labelStmt _ _ => true
  | _ => false

mutual

def Stmt.emit : Stmt → Emitter → Emission
  | .simple emitsCode, emitter =>
      let emitter := emitter.append (.statement emitter.runtimeScopeDepth)
      .ok (if emitsCode then emitter.append .other else emitter)
  | .statementList statements, emitter => statements.emitList emitter
  | .staticInitialization statement, emitter =>
      if emitter.staticInitializationEmissionActive then statement.emit emitter
      else do
        let initializeBlock := emitter.nextBlock
        let continueBlock := emitter.nextBlock + 1
        let emitter := (emitter.append (.statement emitter.runtimeScopeDepth)).append .other
        let emitter := emitter.createBlock.createBlock.append
          (.condBr continueBlock initializeBlock)
        let emitter := (emitter.setInsertPoint initializeBlock).setStaticInitialization true
        let emitter ← statement.emit emitter
        let emitter := emitter.setStaticInitialization false
        return (emitter.brUnlessTerminated continueBlock).setInsertPoint continueBlock
  | .returnStmt, emitter =>
      .ok (emitter.append (.statement emitter.runtimeScopeDepth)).emitExit
  | .ifThen thenBlock, emitter => do
      let ifThenBlock := emitter.nextBlock
      let elseBlock := emitter.nextBlock + 1
      let mergeBlock := emitter.nextBlock + 2
      let emitter := (emitter.append (.statement emitter.runtimeScopeDepth)).append .other
      let emitter := emitter.createBlock.createBlock.createBlock.append
        (.condBr ifThenBlock elseBlock)
      let emitter ← emitScoped thenBlock.emitStatements (emitter.setInsertPoint ifThenBlock)
      let emitter := (emitter.brUnlessTerminated mergeBlock).setInsertPoint elseBlock
      return (emitter.brUnlessTerminated mergeBlock).setInsertPoint mergeBlock
  | .ifElse thenBlock elseStmts, emitter => do
      let ifThenBlock := emitter.nextBlock
      let elseBlock := emitter.nextBlock + 1
      let mergeBlock := emitter.nextBlock + 2
      let emitter := (emitter.append (.statement emitter.runtimeScopeDepth)).append .other
      let emitter := emitter.createBlock.createBlock.createBlock.append
        (.condBr ifThenBlock elseBlock)
      let emitter ← emitScoped thenBlock.emitStatements (emitter.setInsertPoint ifThenBlock)
      let emitter := (emitter.brUnlessTerminated mergeBlock).setInsertPoint elseBlock
      let emitter ← emitScoped elseStmts.emitStatements emitter
      return (emitter.brUnlessTerminated mergeBlock).setInsertPoint mergeBlock
  | .whileStmt body, emitter => do
      let conditionBlock := emitter.nextBlock
      let bodyBlock := emitter.nextBlock + 1
      let afterBlock := emitter.nextBlock + 2
      let depth := emitter.runtimeScopeDepth
      let emitter := emitter.append (.statement depth)
      let emitter := emitter.createBlock.createBlock.createBlock.append (.br conditionBlock)
      let emitter := ((emitter.setInsertPoint conditionBlock).append .other).append
        (.condBr bodyBlock afterBlock)
      let emitter := emitter.pushLoop {
        breakBlock := afterBlock, continueBlock := conditionBlock
        breakScopeDepth := depth, continueScopeDepth := depth }
      let emitter ← emitScoped body.emitStatements (emitter.setInsertPoint bodyBlock)
      let emitter := (emitter.brUnlessTerminated conditionBlock).popLoop
      return emitter.setInsertPoint afterBlock
  | .forStmt init hasCondition post body, emitter => do
      let conditionBlock := emitter.nextBlock
      let bodyBlock := emitter.nextBlock + 1
      let postBlock := emitter.nextBlock + 2
      let afterBlock := emitter.nextBlock + 3
      let emitter := emitter.append (.statement emitter.runtimeScopeDepth)
      let emitter := emitter.createBlock.createBlock.createBlock.createBlock.enterScope
      let depth := emitter.runtimeScopeDepth
      let emitter ← init.emit emitter
      let emitter := (emitter.brUnlessTerminated conditionBlock).setInsertPoint conditionBlock
      let emitter :=
        if hasCondition then (emitter.append .other).append (.condBr bodyBlock afterBlock)
        else emitter.append (.br bodyBlock)
      let emitter := emitter.pushLoop {
        breakBlock := afterBlock, continueBlock := postBlock
        breakScopeDepth := depth, continueScopeDepth := depth }
      let emitter ← emitScoped body.emitStatements (emitter.setInsertPoint bodyBlock)
      let emitter := (emitter.brUnlessTerminated postBlock).setInsertPoint postBlock
      let emitter ← post.emitPost emitter
      let emitter := (emitter.brUnlessTerminated conditionBlock).popLoop
      return (emitter.setInsertPoint afterBlock).emitRuntimeScopeExit.leaveScope
  | .breakStmt, emitter => (emitter.append (.statement emitter.runtimeScopeDepth)).emitBreak
  | .continueStmt, emitter => (emitter.append (.statement emitter.runtimeScopeDepth)).emitContinue
  | .gotoStmt label, emitter =>
      (emitter.append (.statement emitter.runtimeScopeDepth)).emitGoto label
  | .labelStmt label statement, emitter =>
      match emitter.labelBlocks label with
      | none => .error ("unknown label '" ++ label ++ "'")
      | some (block, _) =>
          statement.emit ((emitter.brUnlessTerminated block).setInsertPoint block)
  | .throwStmt, emitter => .ok (emitter.append (.statement emitter.runtimeScopeDepth)).emitThrow
  | .tryCatch tryBlock catchBlock, emitter => do
      let tryBody := emitter.nextBlock
      let tryCatch := emitter.nextBlock + 1
      let afterBlock := emitter.nextBlock + 2
      let depth := emitter.runtimeScopeDepth
      let emitter := (emitter.append (.statement depth)).append .other
      let emitter := emitter.createBlock.createBlock.createBlock.append (.br tryBody)
      let emitter := emitter.pushCatch { catchBlock := tryCatch, scopeDepth := depth }
      let emitter ← emitScoped tryBlock.emitStatements (emitter.setInsertPoint tryBody)
      let emitter := (emitter.popCatch.brUnlessTerminated afterBlock).setInsertPoint tryCatch
      let emitter ← emitScoped catchBlock.emitStatements emitter
      return (emitter.brUnlessTerminated afterBlock).setInsertPoint afterBlock

/-- After a terminator only a label is emitted. -/
def Block.emitStatements : Block → Emitter → Emission
  | .nil, emitter => .ok emitter
  | .cons statement rest, emitter =>
      if emitter.getTerminator && !statement.isLabel then rest.emitStatements emitter
      else do
        let emitter ← statement.emit emitter
        rest.emitStatements emitter

def Block.emitList : Block → Emitter → Emission
  | .nil, emitter => .ok emitter
  | .cons statement rest, emitter => do
      let emitter ← statement.emit emitter
      rest.emitList emitter

def Block.emitPost : Block → Emitter → Emission
  | .nil, emitter => .ok emitter
  | .cons statement rest, emitter => do
      let emitter ← statement.emit emitter
      if emitter.getTerminator then .ok emitter else rest.emitPost emitter

end

mutual

/-- The labels of a statement with the scope depths that `collectLabels` gives them. -/
def Stmt.collectLabels : Stmt → Nat → List (String × Nat)
  | .statementList statements, scopeDepth => statements.collectLabels scopeDepth
  | .staticInitialization statement, scopeDepth => statement.collectLabels scopeDepth
  | .ifThen thenBlock, scopeDepth => thenBlock.collectLabels (scopeDepth + 1)
  | .ifElse thenBlock elseBlock, scopeDepth =>
      thenBlock.collectLabels (scopeDepth + 1) ++ elseBlock.collectLabels (scopeDepth + 1)
  | .whileStmt body, scopeDepth => body.collectLabels (scopeDepth + 1)
  | .forStmt init _ post body, scopeDepth =>
      init.collectLabels (scopeDepth + 1) ++ post.collectLabels (scopeDepth + 1) ++
        body.collectLabels (scopeDepth + 2)
  | .labelStmt label statement, scopeDepth =>
      (label, scopeDepth) :: statement.collectLabels scopeDepth
  | .tryCatch tryBlock catchBlock, scopeDepth =>
      tryBlock.collectLabels (scopeDepth + 1) ++ catchBlock.collectLabels (scopeDepth + 1)
  | .simple _, _ | .returnStmt, _ | .breakStmt, _ | .continueStmt, _ | .gotoStmt _, _
  | .throwStmt, _ => []

def Block.collectLabels : Block → Nat → List (String × Nat)
  | .nil, _ => []
  | .cons statement rest, scopeDepth =>
      statement.collectLabels scopeDepth ++ rest.collectLabels scopeDepth

end

/-- A block for each label that has none. -/
def Emitter.addLabel (emitter : Emitter) (label : String × Nat) : Emitter :=
  if (emitter.labelBlocks label.1).isSome then emitter
  else
    { emitter.createBlock with
      labelBlocks := Function.update emitter.labelBlocks label.1
        (some (emitter.nextBlock, label.2)) }

/-- The block that holds the function's body, at no scope yet. -/
def functionEntry : Emitter where
  code := fun _ => []
  nextBlock := 1
  insertBlock := 0
  runtimeScopeDepth := 0
  loopTargets := []
  catchTargets := []
  labelBlocks := fun _ => none
  staticInitializationEmissionActive := false

/-- The body of a function; the analysis accepts no label twice. -/
structure Function where
  body : Block
  distinct : ((body.collectLabels 1).map Prod.fst).Nodup

def Function.emit (function : Function) : Emission := do
  let emitter := (function.body.collectLabels 1).foldl Emitter.addLabel functionEntry
  let emitter ← emitScoped function.body.emitStatements emitter
  return if emitter.getTerminator then emitter else emitter.emitExit

end HitSimple.ControlFlow

import HitSimple.Safety.Tracking

namespace HitSimple.Safety.Visitor
open Dataflow FactMap StaticSafetyState

section Syntax

mutual

/-- The names that an expression binds to other addresses. -/
def Node.rebinds : Node → Finset String
  | .literal _ _ | .variableRef _ _ _ | .captured _ _ | .addressOf _ _ _ _ => ∅
  | .deref operand _ | .unary _ operand _ | .unsigned operand _ | .integerCast operand _ _
  | .templateView operand _ | .booleanTest operand _ | .toFloat operand _ | .toInt operand _
  | .byteSwap operand _ => operand.rebinds
  | .binary left _ right _ _ _ | .floatBinary left right _ | .floatCompare left right _ =>
      left.rebinds ∪ right.rebinds
  | .ternary condition thenExpr elseExpr _ =>
      condition.rebinds ∪ (thenExpr.rebinds ∪ elseExpr.rebinds)
  | .userTemplateOpCall _ arguments _ | .call _ arguments _ => arguments.rebinds
  | .userTemplateFormatCall value file _ => value.rebinds ∪ file.rebinds
  | .dynamicByteView _ source runtimeLength _ => source.rebinds ∪ runtimeLength.rebinds
  | .assignment stores assigned _ => stores.rebinds ∪ assigned.rebinds

def Nodes.rebinds : Nodes → Finset String
  | .nil => ∅
  | .cons node rest => node.rebinds ∪ rest.rebinds

def Action.rebinds : Action → Finset String
  | .localMemory _ _ _ | .stringStore _ _ _ => ∅
  | .bindingRebind bindingName address => {bindingName} ∪ address.rebinds
  | .captureView _ source => source.rebinds
  | .integerStore _ _ _ value | .floatStore _ _ _ value | .boolStore _ _ _ value
  | .viewCopyStore _ _ _ value => value.rebinds
  | .stringCopyStore _ _ _ sourceView => sourceView.rebinds
  | .pointerStore address _ value => address.rebinds ∪ value.rebinds
  | .call _ arguments | .userTemplateOpCall _ arguments | .multiReturnCallStore arguments _ =>
      arguments.rebinds
  | .userTemplateFormatCall value file => value.rebinds ∪ file.rebinds
  | .inputCallStore file format _ => file.rebinds ∪ format.rebinds
  | .statementList statements => statements.rebinds

def Actions.rebinds : Actions → Finset String
  | .nil => ∅
  | .cons action rest => action.rebinds ∪ rest.rebinds

end

end Syntax

section Visits
variable {names : Finset String} {unit : TranslationUnit}

theorem advances_captureArgument (unit : TranslationUnit) (callee : Callee) (index : Nat) (argument : Node)
    (analyzer : Analyzer Context) :
    Advances names analyzer.state (captureArgument unit callee index argument analyzer).2.state :=
  advances_captureStaticEvaluatedArgument argument _ _ analyzer

theorem advances_storeTargets {Target : Type} (targets : List Target)
    (store : Target → String × Nat × Nat) (analyzer : Analyzer Context) :
    Advances names analyzer.state (targets.foldl (fun analyzer target =>
      (prepareStaticNamedStore (store target).1 (store target).2.1 (store target).2.2 analyzer).2)
      analyzer).state :=
  Advances.foldl targets (fun analyzer _ _ => advances_prepareStaticNamedStore _ _ _ analyzer)
    analyzer

variable (covered : unit.potentiallyReboundBindings ⊆ names)
include covered

set_option linter.unusedSectionVars false in
mutual

theorem visit_advances : ∀ (node : Node) (forms : Bool) (analyzer : Analyzer Context),
    node.rebinds ⊆ names → Advances names analyzer.state (visit unit forms node analyzer).state
  | .literal _ _, _, _, _ | .variableRef _ _ _, _, _, _ | .captured _ _, _, _, _
  | .addressOf _ _ _ _, _, _, _ => by
      simp only [visit]
      exact .refl names _
  | .deref operand _, _, analyzer, named | .unary _ operand _, _, analyzer, named
  | .integerCast operand _ _, _, analyzer, named | .booleanTest operand _, _, analyzer, named
  | .toFloat operand _, _, analyzer, named | .toInt operand _, _, analyzer, named
  | .byteSwap operand _, _, analyzer, named => by
      simp only [visit]
      exact visit_advances operand false analyzer named
  | .floatBinary left right _, _, analyzer, named
  | .floatCompare left right _, _, analyzer, named => by
      obtain ⟨first, second⟩ := Finset.union_subset_iff.mp named
      simp only [visit]
      exact (visit_advances left false analyzer first).trans (visit_advances right false _ second)
  | .binary left op right _ operationKind viewOffsetBounds, _, analyzer, named => by
      obtain ⟨first, second⟩ := Finset.union_subset_iff.mp named
      have one := visit_advances left false analyzer first
      have both := one.trans (visit_advances right false _ second)
      simp only [visit]
      split
      · split
        · split
          · exact one
          · exact both
        · exact one.mergeSkipped both
      · split
        · have formed := visit_advances left true analyzer first
          have captured := formed.trans (advances_captureStaticEvaluatedArgument left
            left.result.isAddressable false _)
          have others := captured.trans (visit_advances right true _ second)
          have captured' := others.trans (advances_captureStaticEvaluatedArgument right
            right.result.isAddressable false _)
          exact captured'.trans (advances_releaseStaticCallArguments _ _)
        · exact both
  | .ternary condition thenExpr elseExpr _, _, analyzer, named => by
      obtain ⟨tested, branches⟩ := Finset.union_subset_iff.mp named
      obtain ⟨first, second⟩ := Finset.union_subset_iff.mp branches
      have test := visit_advances condition false analyzer tested
      have one := visit_advances thenExpr false (visit unit false condition analyzer) first
      simp only [visit]
      split
      · exact test.trans one
      · exact test.trans (visit_advances elseExpr false _ second)
      · have two := one.restored.trans (visit_advances elseExpr false _ second)
        exact test.trans (one.mergeSkipped two)
  | .unsigned operand _, _, analyzer, named => by
      simp only [visit]
      exact visit_advances operand _ analyzer named
  | .templateView operand _, _, analyzer, named => by
      simp only [visit]
      exact visit_advances operand _ analyzer named
  | .userTemplateOpCall callee arguments _, _, analyzer, named => by
      simp only [visit]
      exact (visitBorrowed_advances arguments callee 0 analyzer named).trans
        (advances_finishUserCall covered _)
  | .userTemplateFormatCall value file _, _, analyzer, named => by
      obtain ⟨first, second⟩ := Finset.union_subset_iff.mp named
      simp only [visit]
      have evaluated := (visit_advances value false analyzer first).trans
        (visitEach_advances file (fun _ => false) _ second)
      exact evaluated.trans (advances_invalidateStaticGlobalFacts covered _)
  | .call callee arguments _, _, analyzer, named => by
      simp only [visit]
      split
      · exact visitEach_advances arguments (fun _ => true) analyzer named
      · exact (prepareStaticCallArguments_advances arguments callee analyzer named).trans
          (advances_finishCall covered callee _ _)
  | .dynamicByteView _ source runtimeLength _, _, analyzer, named => by
      obtain ⟨first, second⟩ := Finset.union_subset_iff.mp named
      simp only [visit]
      exact (visit_advances source _ analyzer first).trans
        (visitEach_advances runtimeLength _ _ second)
  | .assignment stores assigned _, _, analyzer, named => by
      obtain ⟨first, second⟩ := Finset.union_subset_iff.mp named
      simp only [visit]
      exact (visitActions_advances stores analyzer first).trans
        (visitEach_advances assigned _ _ second)

theorem visitEach_advances : ∀ (nodes : Nodes) (forms : Node → Bool) (analyzer : Analyzer Context),
    nodes.rebinds ⊆ names →
      Advances names analyzer.state (visitEach unit forms nodes analyzer).state
  | .nil, _, _, _ => by
      simp only [visitEach]
      exact .refl names _
  | .cons node rest, forms, analyzer, named => by
      obtain ⟨first, second⟩ := Finset.union_subset_iff.mp named
      simp only [visitEach]
      exact (visit_advances node _ analyzer first).trans (visitEach_advances rest forms _ second)

theorem captureEach_advances : ∀ (nodes : Nodes) (callee : Callee) (index : Nat)
    (analyzer : Analyzer Context), nodes.rebinds ⊆ names →
      Advances names analyzer.state (captureEach unit callee nodes index analyzer).2.state
  | .nil, _, _, _, _ => by
      simp only [captureEach]
      exact .refl names _
  | .cons node rest, callee, index, analyzer, named => by
      obtain ⟨first, second⟩ := Finset.union_subset_iff.mp named
      simp only [captureEach]
      have captured := (visit_advances node (isFormedArgument unit callee index node) analyzer
        first).trans (advances_captureArgument unit callee index node _)
      exact captured.trans (captureEach_advances rest callee (index + 1) _ second)

theorem prepareStaticCallArguments_advances : ∀ (nodes : Nodes) (callee : Callee)
    (analyzer : Analyzer Context), nodes.rebinds ⊆ names →
      Advances names analyzer.state (prepareStaticCallArguments unit callee nodes analyzer).2.state
  | .nil, _, _, _ => by
      simp only [prepareStaticCallArguments]
      exact .refl names _
  | .cons node .nil, callee, analyzer, named => by
      obtain ⟨first, -⟩ := Finset.union_subset_iff.mp named
      simp only [prepareStaticCallArguments]
      exact (visit_advances node _ analyzer first).trans
        (advances_captureArgument unit callee 0 node _)
  | .cons one (.cons two rest), callee, analyzer, named => by
      obtain ⟨first, others⟩ := Finset.union_subset_iff.mp named
      obtain ⟨second, later⟩ := Finset.union_subset_iff.mp others
      have captureOne (analyzer : Analyzer Context) :=
        (visit_advances one (isFormedArgument unit callee 0 one) analyzer first).trans
          (advances_captureArgument unit callee 0 one _)
      have captureTwo (analyzer : Analyzer Context) :=
        (visit_advances two (isFormedArgument unit callee 1 two) analyzer second).trans
          (advances_captureArgument unit callee 1 two _)
      simp only [prepareStaticCallArguments]
      split
      · exact ((captureTwo _).trans (captureOne _)).trans
          (captureEach_advances rest callee 2 _ later)
      · exact ((captureOne _).trans (captureTwo _)).trans
          (captureEach_advances rest callee 2 _ later)

theorem visitBorrowed_advances : ∀ (nodes : Nodes) (callee : String) (index : Nat)
    (analyzer : Analyzer Context), nodes.rebinds ⊆ names →
      Advances names analyzer.state (visitBorrowed unit callee nodes index analyzer).2.state
  | .nil, _, _, _, _ => by
      simp only [visitBorrowed]
      exact .refl names _
  | .cons node rest, callee, index, analyzer, named => by
      obtain ⟨first, second⟩ := Finset.union_subset_iff.mp named
      have all := (visit_advances node (isBorrowed unit callee index) analyzer first).trans
        (visitBorrowed_advances rest callee (index + 1) _ second)
      simp only [visitBorrowed]
      split
      · exact all
      · exact all

theorem visitAction_advances : ∀ (action : Action) (analyzer : Analyzer Context),
    action.rebinds ⊆ names → Advances names analyzer.state (visitAction unit action analyzer).state
  | .localMemory bindingName byteLength storage, analyzer, _ => by
      simp only [visitAction]
      exact advances_declareLocal covered bindingName byteLength storage analyzer
  | .bindingRebind bindingName address, analyzer, named => by
      obtain ⟨bound, evaluated⟩ := Finset.union_subset_iff.mp named
      simp only [visitAction]
      exact (visit_advances address false analyzer evaluated).trans
        (advances_rebind (Finset.singleton_subset_iff.mp bound) address _)
  | .captureView captureName source, analyzer, named => by
      simp only [visitAction]
      exact (visit_advances source _ analyzer named).trans
        (advances_recordStaticViewCapture captureName source _ _)
  | .integerStore bindingName offset targetByteLength value, analyzer, named => by
      simp only [visitAction]
      exact (visit_advances value false analyzer named).trans
        (advances_storeInteger bindingName offset targetByteLength value _)
  | .floatStore bindingName offset targetByteLength value, analyzer, named => by
      simp only [visitAction]
      exact (visit_advances value false analyzer named).trans
        (advances_prepareStaticNamedStore bindingName offset targetByteLength _)
  | .boolStore bindingName offset targetByteLength value, analyzer, named => by
      simp only [visitAction]
      exact (visit_advances value false analyzer named).trans
        (advances_storeBool bindingName offset targetByteLength value _)
  | .viewCopyStore bindingName offset targetByteLength value, analyzer, named => by
      simp only [visitAction]
      exact (visit_advances value false analyzer named).trans
        (advances_storeBytes bindingName offset targetByteLength _ _)
  | .stringStore bindingName offset targetByteLength, analyzer, _ => by
      simp only [visitAction]
      exact advances_storeBytes bindingName offset targetByteLength _ analyzer
  | .stringCopyStore bindingName targetOffset targetByteLength sourceView, analyzer, named => by
      simp only [visitAction]
      exact (visitEach_advances sourceView _ analyzer named).trans
        (advances_storeBytes bindingName targetOffset targetByteLength _ _)
  | .pointerStore address targetByteLength value, analyzer, named => by
      obtain ⟨first, second⟩ := Finset.union_subset_iff.mp named
      simp only [visitAction]
      have evaluated := (visit_advances address false analyzer first).trans
        (visit_advances value false _ second)
      exact evaluated.trans (advances_invalidateStaticFactsOverlapping _ _ _)
  | .call callee arguments, analyzer, named => by
      simp only [visitAction]
      have prepared := prepareStaticCallArguments_advances arguments callee analyzer named
      exact (prepared.trans (advances_releaseObjects callee _ _)).trans
        (advances_finishCall covered callee _ _)
  | .userTemplateOpCall callee arguments, analyzer, named => by
      simp only [visitAction]
      exact (visitBorrowed_advances arguments callee 0 analyzer named).trans
        (advances_finishUserCall covered _)
  | .userTemplateFormatCall value file, analyzer, named => by
      obtain ⟨first, second⟩ := Finset.union_subset_iff.mp named
      simp only [visitAction]
      have evaluated := (visit_advances value false analyzer first).trans
        (visitEach_advances file (fun _ => false) _ second)
      exact evaluated.trans (advances_invalidateStaticGlobalFacts covered _)
  | .multiReturnCallStore arguments targets, analyzer, named => by
      simp only [visitAction]
      have called := (visitEach_advances arguments (fun _ => false) analyzer named).trans
        (advances_invalidateStaticGlobalFacts covered _)
      exact called.trans
        (advances_storeTargets targets (fun target => (target.1, 0, target.2)) _)
  | .inputCallStore file format targets, analyzer, named => by
      obtain ⟨first, second⟩ := Finset.union_subset_iff.mp named
      simp only [visitAction]
      have evaluated := (visitEach_advances file (fun _ => false) analyzer first).trans
        (visit_advances format true _ second)
      exact evaluated.trans (advances_storeTargets targets id _)
  | .statementList statements, analyzer, named => by
      simp only [visitAction]
      exact visitActions_advances statements analyzer named

theorem visitActions_advances : ∀ (actions : Actions) (analyzer : Analyzer Context),
    actions.rebinds ⊆ names →
      Advances names analyzer.state (visitActions unit actions analyzer).state
  | .nil, _, _ => by
      simp only [visitActions]
      exact .refl names _
  | .cons action rest, analyzer, named => by
      obtain ⟨first, second⟩ := Finset.union_subset_iff.mp named
      simp only [visitActions]
      exact (visitAction_advances action analyzer first).trans
        (visitActions_advances rest _ second)

end

end Visits

end HitSimple.Safety.Visitor

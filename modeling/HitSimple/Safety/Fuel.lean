import HitSimple.Safety.Flow

namespace HitSimple.Safety
open Dataflow Validator

variable {Context Leaf Expr : Type}

/-- What one validator finds, the other finds as well. -/
def Refines (less more : Validator Context) : Prop :=
  ∀ flow outcome, less flow = some outcome → more flow = some outcome

namespace Refines

theorem refl (validator : Validator Context) : Refines validator validator :=
  fun _ _ found => found

theorem andThen {first first' second second' : Validator Context} (firsts : Refines first first')
    (seconds : Refines second second') :
    Refines (first.andThen second) (first'.andThen second') := by
  intro flow outcome found
  simp only [Validator.andThen, bind, Option.bind_eq_some_iff] at found ⊢
  obtain ⟨⟨fallsThrough, middle⟩, one, found⟩ := found
  refine ⟨(fallsThrough, middle), firsts flow _ one, ?_⟩
  cases fallsThrough with
  | true => exact seconds middle outcome found
  | false => exact found

theorem alternatives {first first' second second' : Validator Context}
    (firsts : Refines first first') (seconds : Refines second second') :
    Refines (alternatives first second) (alternatives first' second') := by
  intro flow outcome found
  simp only [Validator.alternatives, bind, Option.bind_eq_some_iff] at found ⊢
  obtain ⟨one, firstFound, two, secondFound, found⟩ := found
  exact ⟨one, firsts _ _ firstFound, two, seconds _ _ secondFound, found⟩

theorem branch {thenBlock thenBlock' elseBlock elseBlock' : Validator Context}
    (thens : Refines thenBlock thenBlock') (elses : Refines elseBlock elseBlock')
    (decides : Analyzer Context → Option Bool) :
    Refines (branch decides thenBlock elseBlock) (branch decides thenBlock' elseBlock') := by
  intro flow outcome found
  rw [Validator.branch] at found ⊢
  cases decision : decides flow.analyzer with
  | none =>
      simp only [decision] at found ⊢
      exact thens.alternatives elses flow outcome found
  | some holds =>
      cases holds with
      | true =>
          simp only [decision] at found ⊢
          exact thens flow outcome found
      | false =>
          simp only [decision] at found ⊢
          exact elses flow outcome found

theorem whileLoop {body body' : Validator Context} (bodies : Refines body body')
    (decides : Analyzer Context → Option Bool) :
    Refines (whileLoop decides body) (whileLoop decides body') := by
  intro flow outcome found
  by_cases never : decides flow.analyzer = some false
  · simp only [Validator.whileLoop, never, if_true] at found ⊢
    exact found
  · simp only [Validator.whileLoop, never, if_false, bind, Option.bind_eq_some_iff] at found ⊢
    obtain ⟨after, one, found⟩ := found
    exact ⟨after, bodies _ _ one, found⟩

theorem forLoop {body body' : Validator Context} (bodies : Refines body body')
    (decides : Analyzer Context → Option Bool) :
    Refines (forLoop decides body) (forLoop decides body') := by
  intro flow outcome found
  by_cases never : decides flow.analyzer = some false
  · simp only [Validator.forLoop, never, if_true] at found ⊢
    exact found
  · simp only [Validator.forLoop, never, if_false, bind, Option.bind_eq_some_iff] at found ⊢
    obtain ⟨after, one, found⟩ := found
    exact ⟨after, bodies _ _ one, found⟩

theorem plainBlock {statements statements' : Validator Context}
    (inOrder : Refines statements statements') (localBindings : List String) :
    Refines (plainBlock localBindings statements) (plainBlock localBindings statements') := by
  intro flow outcome found
  simp only [Validator.plainBlock, bind, Option.bind_eq_some_iff] at found ⊢
  obtain ⟨after, one, found⟩ := found
  exact ⟨after, inOrder _ _ one, found⟩

/-- More fuel, and statements that find more, find the same outcome of a worklist. -/
theorem drain {statements statements' : List (Validator Context)}
    (each : List.Forall₂ Refines statements statements') {fuel fuel' : Nat} (enough : fuel ≤ fuel')
    {flow : Flow Context} {exitState : Option StaticSafetyState}
    {outcome : Flow Context × Option StaticSafetyState}
    (found : Validator.drain statements fuel flow exitState = some outcome) :
    Validator.drain statements' fuel' flow exitState = some outcome := by
  induction fuel generalizing fuel' flow exitState with
  | zero =>
      rw [Validator.drain] at found ⊢
      cases gotos : flow.gotos with
      | nil => simpa only [gotos] using found
      | cons goto outer =>
          simp only [gotos] at found ⊢
          cases waiting : goto.pool.waiting with
          | nil => simpa only [waiting] using found
          | cons index rest => simp only [waiting, reduceCtorEq] at found
  | succ fuel ih =>
      obtain ⟨fuel', rfl⟩ : ∃ less, fuel' = less + 1 := ⟨fuel' - 1, by omega⟩
      have less : fuel ≤ fuel' := by omega
      rw [Validator.drain] at found ⊢
      cases gotos : flow.gotos with
      | nil => simpa only [gotos] using found
      | cons goto outer =>
          simp only [gotos] at found ⊢
          cases waiting : goto.pool.waiting with
          | nil => simpa only [waiting] using found
          | cons index rest =>
              simp only [waiting] at found ⊢
              cases entry : goto.pool.entries index with
              | none =>
                  simp only [entry] at found ⊢
                  exact ih less found
              | some entry =>
                  cases taken : statements[index]? with
                  | none =>
                      have beyond : statements'[index]? = none := by
                        rw [List.getElem?_eq_none_iff] at taken ⊢
                        rw [← each.length_eq]
                        exact taken
                      simp only [entry, taken, beyond] at found ⊢
                      exact ih less found
                  | some statement =>
                      obtain ⟨inside, rfl⟩ := List.getElem?_eq_some_iff.mp taken
                      have inside' : index < statements'.length := each.length_eq ▸ inside
                      have refines : Refines statements[index] statements'[index] :=
                        List.Forall₂.get each inside inside'
                      have taken' : statements'[index]? = some statements'[index] :=
                        List.getElem?_eq_getElem inside'
                      simp only [entry, taken, taken', bind, Option.bind_eq_some_iff] at found ⊢
                      obtain ⟨⟨fallsThrough, after⟩, one, found⟩ := found
                      refine ⟨(fallsThrough, after), refines _ _ one, ?_⟩
                      rw [← each.length_eq]
                      cases fallsThrough with
                      | false => exact ih less found
                      | true =>
                          by_cases hasNext : index + 1 < statements.length
                          · simp only [if_true, if_pos hasNext] at found ⊢
                            exact ih less found
                          · simp only [if_true, if_neg hasNext] at found ⊢
                            exact ih less found

theorem labelledBlock {statements statements' : List (Validator Context)}
    (each : List.Forall₂ Refines statements statements') {fuel fuel' : Nat} (enough : fuel ≤ fuel')
    (labelIndex : String → Option Nat) (localBindings : List String) :
    Refines (labelledBlock fuel labelIndex localBindings statements)
      (labelledBlock fuel' labelIndex localBindings statements') := by
  intro flow outcome found
  simp only [Validator.labelledBlock, bind, Option.bind_eq_some_iff] at found ⊢
  obtain ⟨after, one, found⟩ := found
  exact ⟨after, drain each enough one, found⟩

end Refines

variable (transfers : Transfers Context Leaf Expr)

theorem validateBlock_refines {fuel fuel' : Nat} (enough : fuel ≤ fuel') (block : Block Leaf Expr)
    {inOrder inOrder' : Validator Context} {statements statements' : List (Validator Context)}
    (sequence : Refines inOrder inOrder') (each : List.Forall₂ Refines statements statements') :
    Refines (validateBlock transfers fuel block inOrder statements)
      (validateBlock transfers fuel' block inOrder' statements') := by
  rw [validateBlock, validateBlock]
  split
  · exact Refines.labelledBlock each enough _ _
  · exact sequence.plainBlock _

mutual

theorem validateStmt_refines {fuel fuel' : Nat} (enough : fuel ≤ fuel') :
    ∀ statement, Refines (validateStmt transfers fuel statement)
      (validateStmt transfers fuel' statement)
  | .leaf _ | .gotoLabel _ | .returned _ | .breakLoop | .continueLoop => .refl _
  | .statementList statements => inOrder_refines enough statements
  | .ifThen _ thenBlock => (Refines.refl _).andThen ((block_refines enough thenBlock).branch (.refl _) _)
  | .ifElse _ thenBlock elseBlock =>
      (Refines.refl _).andThen
        ((block_refines enough thenBlock).branch (block_refines enough elseBlock) _)
  | .whileLoop _ body => (Refines.refl _).andThen ((block_refines enough body).whileLoop _)
  | .forLoop init _ post body =>
      (inOrder_refines enough init).andThen ((Refines.refl _).andThen
        (((block_refines enough body).andThen (inOrder_refines enough post)).forLoop _))
  | .label _ statement => validateStmt_refines enough statement
  | .thrown delivery => (inOrder_refines enough delivery).andThen (.refl _)
  | .tryCatch tryBlock catchBlock =>
      (block_refines enough tryBlock).alternatives (block_refines enough catchBlock)

theorem inOrder_refines {fuel fuel' : Nat} (enough : fuel ≤ fuel') :
    ∀ block, Refines (validateInOrder transfers fuel block) (validateInOrder transfers fuel' block)
  | .nil => .refl _
  | .cons statement rest =>
      (validateStmt_refines enough statement).andThen (inOrder_refines enough rest)

theorem validators_refine {fuel fuel' : Nat} (enough : fuel ≤ fuel') :
    ∀ block, List.Forall₂ Refines (validators transfers fuel block)
      (validators transfers fuel' block)
  | .nil => .nil
  | .cons statement rest =>
      .cons (validateStmt_refines enough statement) (validators_refine enough rest)

theorem block_refines {fuel fuel' : Nat} (enough : fuel ≤ fuel') (block : Block Leaf Expr) :
    Refines
      (validateBlock transfers fuel block (validateInOrder transfers fuel block)
        (validators transfers fuel block))
      (validateBlock transfers fuel' block (validateInOrder transfers fuel' block)
        (validators transfers fuel' block)) :=
  validateBlock_refines transfers enough block (inOrder_refines enough block)
    (validators_refine enough block)

end

/-- More fuel finds the same outcome. -/
theorem validateSafety_refines {fuel fuel' : Nat} (enough : fuel ≤ fuel')
    (block : Block Leaf Expr) :
    Refines (validateSafety transfers fuel block) (validateSafety transfers fuel' block) :=
  block_refines transfers enough block

end HitSimple.Safety

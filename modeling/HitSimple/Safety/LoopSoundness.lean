import HitSimple.Safety.Loops

namespace HitSimple.Safety
open Dataflow Validator

section Validated
variable {Context Leaf Expr : Type} {transfers : Transfers Context Leaf Expr} {fuel : Nat}
  {flow last : Flow Context} {falls : Bool}

theorem validateEach_tested (condition : Option Expr) (flow : Flow Context) :
    validateEach (condition.toList.map transfers.expression) flow =
      some (true, flow.tested transfers condition) := by
  cases condition <;> rfl

theorem validateStmt_whileLoop {condition : Expr} {body : Block Leaf Expr}
    (validated : validateSafety transfers fuel body
      (flow.tested transfers (some condition)).enterLoop = some (falls, last)) :
    validateStmt transfers fuel (.whileLoop condition body) flow =
      some (true, (flow.tested transfers (some condition)).finishWhile last
        ((flow.tested transfers (some condition)).decision transfers (some condition)) falls) := by
  let entry := flow.tested transfers (some condition)
  have unfolded : validateStmt transfers fuel (.whileLoop condition body) flow =
      (validateSafety transfers fuel body).whileLoop
        (transfers.staticBooleanValue condition) entry := rfl
  rw [unfolded]
  cases decision : entry.decision transfers (some condition) with
  | none =>
      have decided : transfers.staticBooleanValue condition entry.analyzer = none := decision
      have undecided : transfers.staticBooleanValue condition entry.analyzer ≠ some false := by
        rw [decided]
        nofun
      rw [whileLoop_eq undecided validated, decided]
      rfl
  | some value =>
      have decided : transfers.staticBooleanValue condition entry.analyzer = some value := decision
      cases value with
      | false => exact if_pos decided
      | true =>
          have undecided : transfers.staticBooleanValue condition entry.analyzer ≠ some false := by
            rw [decided]
            nofun
          rw [whileLoop_eq undecided validated, decided]
          rfl

theorem validateStmt_forLoop {init post body : Block Leaf Expr} {condition : Option Expr}
    {next : Flow Context} (started : validateInOrder transfers fuel init flow = some (true, next))
    (validated : ((validateSafety transfers fuel body).andThen
      (validateInOrder transfers fuel post)) (next.tested transfers condition) =
        some (falls, last)) :
    validateStmt transfers fuel (.forLoop init condition post body) flow =
      some (true, (next.tested transfers condition).finishFor last
        ((next.tested transfers condition).decision transfers condition) falls) := by
  let entry := next.tested transfers condition
  let decides : Analyzer Context → Option Bool := fun analyzer =>
    condition.bind (transfers.staticBooleanValue · analyzer)
  have unfolded : validateStmt transfers fuel (.forLoop init condition post body) flow =
      (((validateSafety transfers fuel body).andThen
        (validateInOrder transfers fuel post)).forLoop decides) entry := by
    have stepped : ((validateEach (condition.toList.map transfers.expression)).andThen
        (((validateSafety transfers fuel body).andThen
          (validateInOrder transfers fuel post)).forLoop decides)) next =
        (((validateSafety transfers fuel body).andThen
          (validateInOrder transfers fuel post)).forLoop decides) entry := by
      rw [Validator.andThen, validateEach_tested]
      rfl
    rw [← stepped, validateStmt]
    simp only [Validator.andThen, started, bind, Option.bind, if_true]
    rfl
  rw [unfolded]
  by_cases decision : entry.decision transfers condition = some false
  · rw [decision]
    exact if_pos decision
  · rw [forLoop_eq decision validated]
    cases other : entry.decision transfers condition with
    | none => rfl
    | some value =>
        cases value with
        | false => exact absurd other decision
        | true => rfl

end Validated

section Sound
variable {Context Leaf Expr Store : Type} {transfers : Transfers Context Leaf Expr} {fuel : Nat}
  {semantics : Semantics Leaf Expr Store}

theorem stays_of_validates {validator : Validator Context} {flow after : Flow Context}
    {falls : Bool} (validates : Validates validator) (found : validator flow = some (falls, after)) :
    Stays flow after := by
  obtain ⟨_, _, found', stays⟩ := validates flow
  obtain ⟨-, rfl⟩ := Prod.mk.inj (Option.some.inj (found.symm.trans found'))
  exact stays

theorem Covers.of_validates {suspects : Set Fact} {validator : Validator Context}
    {flow after : Flow Context} {store : Store} (validates : Validates validator)
    (found : validator flow = some (true, after))
    (trusts : semantics.Trusts suspects after.analyzer.state store) :
    Covers semantics suspects validator flow .fallsThrough store :=
  ⟨true, after, found, stays_of_validates validates found, rfl, trusts⟩

theorem Stays.innermost {entry last : Flow Context} (stays : Stays entry.enterLoop last) :
    ∃ loop, last.loops.head? = some loop := by
  obtain ⟨loop, _, -, -, around⟩ := List.forall₂_cons_left_iff.mp stays.loops
  exact ⟨loop, by rw [around]; rfl⟩

theorem otherwise_weaker {decision : Option Bool} {thenBlock : Validator Context}
    {flow next : Flow Context} (chosen : flow.otherwise decision thenBlock = some next) :
    next.analyzer.state.Weaker flow.analyzer.state := by
  cases decision with
  | some decided =>
      obtain rfl : flow = next := Option.some.inj chosen
      exact .refl _
  | none =>
      obtain ⟨⟨falls, middle⟩, -, rfl⟩ := Option.map_eq_some_iff.mp chosen
      exact restore_weaker _ _

/-- A `break` or a `continue` takes what is known to the innermost loop. -/
theorem leaveLoop_records {record : StaticLoopContext → StaticSafetyState → StaticLoopContext}
    (flow : Flow Context) : ∃ after, leaveLoop record flow = some (false, after) ∧
      (Clean flow → ∀ loop ∈ after.loops.head?, ∃ around outgoing, loop = record around outgoing ∧
        outgoing.Weaker flow.analyzer.state) := by
  cases around : flow.loops with
  | nil =>
      refine ⟨flow, by rw [leaveLoop, around], ?_⟩
      rw [around]
      intro _ loop innermost
      cases innermost
  | cons loop loops =>
      refine ⟨_, by rw [leaveLoop, around], ?_⟩
      intro clean loop' innermost
      obtain rfl := Option.some.inj innermost
      exact ⟨loop, _, rfl, exitStaticScopes_weaker _ (clean loop (by rw [around]; rfl)) _ _⟩

/-- What is trusted where a loop is left is trusted where the jump arrives. -/
theorem leaveLoop_arrives {record : StaticLoopContext → StaticSafetyState → StaticLoopContext}
    (arrival : StaticLoopContext → Option StaticSafetyState) {suspects : Set Fact}
    {flow : Flow Context} {store : Store} (validates : Validates (leaveLoop record : Validator Context))
    (merges : ∀ loop outgoing,
      arrival (record loop outgoing) = some (mergeInto (arrival loop) outgoing))
    (trusts : semantics.Trusts suspects flow.analyzer.state store) :
    ∃ after, leaveLoop record flow = some (false, after) ∧ Stays flow after ∧
      (Clean flow → ∀ loop ∈ after.loops.head?, ∃ state, arrival loop = some state ∧
        semantics.Trusts suspects state store) := by
  obtain ⟨after, left, records⟩ := leaveLoop_records flow
  refine ⟨after, left, stays_of_validates validates left, ?_⟩
  intro clean loop innermost
  obtain ⟨around, outgoing, rfl, weaker⟩ := records clean loop innermost
  exact ⟨_, merges around outgoing, trusts.weaker ((mergeInto_weaker _ _).trans weaker)⟩

variable (transfers fuel semantics)

/-- What validating some code tells of an execution of it, whichever facts are suspected. -/
def Sound (flow : Flow Context) :
    Code Leaf Expr → (before : Store) → Outcome → (after : Store) → Prop
  | .statement statement, before, outcome, after => statement.isStructured transfers = true →
      ∀ suspects, semantics.Trusts suspects flow.analyzer.state before →
        Covers semantics suspects (validateStmt transfers fuel statement) flow outcome after
  | .inOrder statements, before, outcome, after => statements.isStructured transfers = true →
      ∀ suspects, semantics.Trusts suspects flow.analyzer.state before →
        Covers semantics suspects (validateInOrder transfers fuel statements) flow outcome after
  | .whileRounds condition body, before, _, after => body.isStructured transfers = true →
      let entry := flow.tested transfers (some condition)
      let decision := entry.decision transfers (some condition)
      ∀ falls last, validateSafety transfers fuel body entry.enterLoop = some (falls, last) →
        ∀ suspects, (∀ fact ∉ suspects, flow.analyzer.state.Knows fact →
            Survives entry last decision falls fact → semantics.holds fact before) →
          semantics.Trusts suspects (entry.finishWhile last decision falls).analyzer.state after
  | .forRounds condition post body, before, _, after => body.isStructured transfers = true →
      post.isStructured transfers = true →
      let entry := flow.tested transfers condition
      let decision := entry.decision transfers condition
      ∀ falls last, ((validateSafety transfers fuel body).andThen
          (validateInOrder transfers fuel post)) entry = some (falls, last) →
        ∀ suspects, (∀ fact ∉ suspects, flow.analyzer.state.Knows fact →
            SurvivesFor entry last decision falls fact → semantics.holds fact before) →
          semantics.Trusts suspects (entry.finishFor last decision falls).analyzer.state after

variable {transfers fuel semantics} {flow : Flow Context} {before middle after : Store}
  {outcome : Outcome} {suspects : Set Fact}

theorem Sound.block {block : Block Leaf Expr}
    (sound : Sound transfers fuel semantics flow.enterBlock (.inOrder block) before outcome after)
    (structured : block.isStructured transfers = true)
    (trusts : semantics.Trusts suspects flow.analyzer.state before) :
    Covers semantics suspects (validateSafety transfers fuel block) flow outcome after := by
  rw [validateSafety, validateBlock_structured structured]
  exact (sound structured suspects trusts).plainBlock

theorem Follows.trusts {condition : Option Expr} {value : Bool}
    (follows : Follows transfers semantics flow condition before value middle)
    (trusts : semantics.Trusts suspects flow.analyzer.state before) :
    semantics.Trusts suspects (flow.tested transfers condition).analyzer.state middle :=
  trusts.accounts follows.accounts

/-- A branch that is taken is validated. -/
theorem Follows.branch {condition : Expr} {value : Bool} {first second : Validator Context}
    (follows : Follows transfers semantics flow (some condition) before value middle)
    (whenTrue : value = true →
      Covers semantics suspects first (flow.tested transfers (some condition)) outcome after)
    (whenFalse : value = false → ∀ next, (flow.tested transfers (some condition)).otherwise
      ((flow.tested transfers (some condition)).decision transfers (some condition)) first =
        some next → Covers semantics suspects second next outcome after)
    (firstValidates : Validates first) (secondValidates : Validates second) :
    Covers semantics suspects ((transfers.expression condition).validator.andThen
      (Validator.branch (transfers.staticBooleanValue condition) first second)) flow outcome
        after := by
  let entry := flow.tested transfers (some condition)
  have tested : Covers semantics suspects (Validator.branch
      (transfers.staticBooleanValue condition) first second) entry outcome after := by
    cases decision : entry.decision transfers (some condition) with
    | some decided =>
        have same : transfers.staticBooleanValue condition entry.analyzer = some decided := decision
        obtain rfl : decided = value := follows.decided decided decision
        rw [decision] at whenFalse
        cases decided with
        | true =>
            obtain ⟨falls, last, found, tells⟩ := whenTrue rfl
            exact ⟨falls, last, by rw [Validator.branch, same]; exact found, tells⟩
        | false =>
            obtain ⟨falls, last, found, tells⟩ := whenFalse rfl _ rfl
            exact ⟨falls, last, by rw [Validator.branch, same]; exact found, tells⟩
    | none =>
        have unknown : transfers.staticBooleanValue condition entry.analyzer = none := decision
        have alternatives : Covers semantics suspects (first.alternatives second) entry outcome
            after := by
          cases value with
          | true => exact (whenTrue rfl).firstAlternative secondValidates
          | false =>
              obtain ⟨falls, last, found, -⟩ := firstValidates entry
              refine .secondAlternative firstValidates found (whenFalse rfl _ ?_)
              rw [decision, Flow.otherwise, found]
              rfl
        obtain ⟨falls, last, found, tells⟩ := alternatives
        exact ⟨falls, last, by rw [Validator.branch, unknown]; exact found, tells⟩
  obtain ⟨falls, last, found, tells⟩ := tested
  refine ⟨falls, last, ?_, ⟨tells.stays.gotos, tells.stays.loops⟩, tells.lands.enter id⟩
  exact found

/-- Every execution that does what the analyzer makes of it is told of. -/
theorem Runs.sound {code : Code Leaf Expr}
    (run : Runs transfers fuel semantics flow code before outcome after) :
    Sound transfers fuel semantics flow code before outcome after := by
  induction run with
  | leaf _ accounts =>
      intro _ suspects trusts
      exact ⟨true, _, rfl, .of_eq rfl rfl, rfl, trusts.accounts accounts⟩
  | statementList _ ih => exact ih
  | nil => exact fun _ suspects trusts => ⟨true, _, rfl, .of_eq rfl rfl, rfl, trusts⟩
  | cons _ validated _ first later =>
      intro structured suspects trusts
      obtain ⟨head, tail⟩ := Bool.and_eq_true_iff.mp structured
      exact (first head suspects trusts).andThen validated (later tail suspects)
  | leave _ leaves ih =>
      intro structured suspects trusts
      obtain ⟨head, tail⟩ := Bool.and_eq_true_iff.mp structured
      exact (ih head suspects trusts).leave leaves (inOrder_validates fuel _ tail)
  | ifThen test _ ih =>
      intro structured suspects trusts
      exact test.branch (fun _ => ih.block structured (test.trusts trusts))
        (fun isFalse => absurd isFalse.symm Bool.false_ne_true) (block_validates fuel _ structured) .skip
  | ifSkip test =>
      intro structured suspects trusts
      refine test.branch (fun isTrue => absurd isTrue Bool.false_ne_true) (fun _ next chosen => ?_)
        (block_validates fuel _ structured) .skip
      exact ⟨true, next, rfl, .of_eq rfl rfl, rfl,
        (test.trusts trusts).weaker (otherwise_weaker chosen)⟩
  | ifTrue test _ ih =>
      intro structured suspects trusts
      obtain ⟨first, second⟩ := Bool.and_eq_true_iff.mp structured
      exact test.branch (fun _ => ih.block first (test.trusts trusts))
        (fun isFalse => absurd isFalse.symm Bool.false_ne_true) (block_validates fuel _ first) (block_validates fuel _ second)
  | ifFalse test validated _ ih =>
      intro structured suspects trusts
      obtain ⟨first, second⟩ := Bool.and_eq_true_iff.mp structured
      refine test.branch (fun isTrue => absurd isTrue Bool.false_ne_true) (fun _ next chosen => ?_)
        (block_validates fuel _ first) (block_validates fuel _ second)
      obtain rfl := Option.some.inj (validated.symm.trans chosen)
      exact ih.block second ((test.trusts trusts).weaker (otherwise_weaker chosen))
  | breakLoop =>
      intro structured suspects trusts
      obtain ⟨after, left, stays, lands⟩ := leaveLoop_arrives (·.breakState)
        (stmt_validates fuel _ structured) (fun _ _ => rfl) trusts
      exact ⟨false, after, left, stays, lands⟩
  | continueLoop =>
      intro structured suspects trusts
      obtain ⟨after, left, stays, lands⟩ := leaveLoop_arrives (·.continueState)
        (stmt_validates fuel _ structured) (fun _ _ => rfl) trusts
      exact ⟨false, after, left, stays, lands⟩
  | whileLoop _ ih =>
      intro structured suspects trusts
      obtain ⟨falls, last, validated, stays⟩ := block_validates fuel _ structured
        (Flow.enterLoop _)
      refine .of_validates (stmt_validates fuel _ structured) (validateStmt_whileLoop validated) ?_
      exact ih structured falls last validated suspects fun fact trusted known _ =>
        trusts fact known trusted
  | whileDone test =>
      intro structured entry decision falls last validated suspects earlier
      obtain ⟨loop, innermost⟩ :=
        (stays_of_validates (block_validates fuel _ structured) validated).innermost
      exact test.whileDone innermost earlier
  | whileBreak test _ ih =>
      intro structured entry decision falls last validated suspects earlier
      obtain ⟨loop, innermost⟩ :=
        (stays_of_validates (block_validates fuel _ structured) validated).innermost
      obtain ⟨falls', last', validated', tells⟩ := Sound.block ih structured
        (semantics.trusts_suspected suspects entry.analyzer.state _)
      obtain ⟨rfl, rfl⟩ := Prod.mk.inj (Option.some.inj (validated.symm.trans validated'))
      obtain ⟨state, broken, round⟩ := tells.lands (Clean.enterLoop entry) loop innermost
      exact test.whileBreak innermost broken round earlier
  | whileNext test _ stays steady _ round later =>
      intro structured entry decision falls last validated suspects earlier
      obtain ⟨loop, innermost⟩ :=
        (stays_of_validates (block_validates fuel _ structured) validated).innermost
      obtain ⟨falls', last', validated', tells⟩ := Sound.block round structured
        (semantics.trusts_suspected suspects entry.analyzer.state _)
      obtain ⟨rfl, rfl⟩ := Prod.mk.inj (Option.some.inj (validated.symm.trans validated'))
      refine later structured falls last validated suspects ?_
      exact test.whileNext validated innermost tells.lands stays steady earlier
  | forLoop _ validated _ start ih =>
      intro structured suspects trusts
      obtain ⟨others, repeated⟩ := Bool.and_eq_true_iff.mp structured
      obtain ⟨first, step⟩ := Bool.and_eq_true_iff.mp others
      obtain ⟨_, next, started, tells⟩ := start first suspects trusts
      obtain ⟨rfl, trusts'⟩ := tells.lands
      obtain ⟨-, rfl⟩ := Prod.mk.inj (Option.some.inj (validated.symm.trans started))
      obtain ⟨falls, last, validated', -⟩ := ((block_validates fuel _ repeated).andThen
        (inOrder_validates fuel _ step)) (Flow.tested transfers _ _)
      refine .of_validates (stmt_validates fuel _ structured)
        (validateStmt_forLoop started validated') ?_
      exact ih repeated step falls last validated' suspects fun fact trusted known _ =>
        trusts' fact known trusted
  | forDone test =>
      intro _ _ entry decision falls last _ suspects earlier
      exact test.forDone earlier
  | forNext test _ validated _ _ round step later =>
      intro repeated stepped entry decision falls last validated' suspects earlier
      have covers := (Sound.block round repeated
        (semantics.trusts_suspected suspects entry.analyzer.state _)).andThen validated
        (step stepped _)
      obtain ⟨_, _, found, tells⟩ := covers
      obtain ⟨rfl, rfl⟩ := Prod.mk.inj (Option.some.inj (validated'.symm.trans found))
      exact later repeated stepped falls last validated' suspects (test.forNext tells.lands earlier)

/-- All that is known of a store is true. -/
def Semantics.Describes (semantics : Semantics Leaf Expr Store) (state : StaticSafetyState)
    (store : Store) : Prop :=
  ∀ fact, state.Knows fact → semantics.holds fact store

theorem Runs.describes {statement : Stmt Leaf Expr}
    (structured : statement.isStructured transfers = true)
    (described : semantics.Describes flow.analyzer.state before)
    (run : Runs transfers fuel semantics flow (.statement statement) before .fallsThrough after) :
    ∃ last, validateStmt transfers fuel statement flow = some (true, last) ∧
      semantics.Describes last.analyzer.state after := by
  have trusts : semantics.Trusts ∅ flow.analyzer.state before :=
    fun fact known _ => described fact known
  obtain ⟨falls, last, validated, tells⟩ := run.sound structured ∅ trusts
  obtain ⟨rfl, trusts⟩ := tells.lands
  exact ⟨last, validated, fun fact known => trusts fact known (Set.notMem_empty fact)⟩

end Sound

end HitSimple.Safety

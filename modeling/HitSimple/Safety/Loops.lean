import HitSimple.Safety.Soundness

namespace HitSimple.Safety
open Dataflow Validator StaticSafetyState

section States

/-- What every state that arrives knows. -/
def KnownBy (arriving : Option StaticSafetyState) (fact : Fact) : Prop :=
  ∀ state ∈ arriving, state.Knows fact

theorem knows_arrive {stored incoming : Option StaticSafetyState} {state : StaticSafetyState}
    {fact : Fact} (arrived : arrive stored incoming = some state) (known : state.Knows fact) :
    KnownBy stored fact ∧ KnownBy incoming fact := by
  cases incoming with
  | none =>
      obtain rfl : stored = some state := arrived
      exact ⟨fun _ same => Option.some.inj same ▸ known, nofun⟩
  | some incoming =>
      cases stored with
      | none =>
          obtain rfl : incoming = state := Option.some.inj arrived
          exact ⟨nofun, fun _ same => Option.some.inj same ▸ known⟩
      | some stored =>
          obtain rfl : mergedStaticSafetyStates stored incoming = state := Option.some.inj arrived
          exact ⟨fun _ same => Option.some.inj same ▸ (knows_merged known).1,
            fun _ same => Option.some.inj same ▸ (knows_merged known).2⟩

variable {entry bodyState exitState : StaticSafetyState} {falls : Bool} {loop : StaticLoopContext}
  {fact : Fact}

/-- After a `while` whose condition is not known, what is known was known at its entry, where its
body is left, and in its next iteration. -/
theorem knows_whileExit {condition : Option Bool} (undecided : condition ≠ some true)
    (left : whileExit condition entry bodyState falls loop = some exitState)
    (known : exitState.Knows fact) :
    entry.Knows fact ∧ KnownBy loop.breakState fact ∧
      (falls = true → bodyState.Knows fact) ∧ KnownBy loop.continueState fact := by
  simp only [whileExit, if_neg undecided] at left
  obtain ⟨atExit, inNext⟩ := knows_arrive left known
  have atEntry : entry.Knows fact ∧ KnownBy loop.breakState fact := by
    cases breaks : loop.breakState with
    | none =>
        rw [breaks] at atExit
        refine ⟨atExit entry rfl, fun state same => ?_⟩
        cases same
    | some state =>
        rw [breaks] at atExit
        have both := knows_merged (atExit _ rfl)
        exact ⟨both.1, fun _ same => Option.some.inj same ▸ both.2⟩
  refine ⟨atEntry.1, atEntry.2, ?_⟩
  have next : KnownBy (arrive (if falls then some bodyState else none) loop.continueState) fact := by
    intro state arrived
    rw [Option.mem_def.mp arrived] at inNext
    exact (knows_merged (inNext _ rfl)).2
  cases arrived : arrive (if falls then some bodyState else none) loop.continueState with
  | none =>
      cases falls <;> cases continues : loop.continueState <;> rw [continues] at arrived
      · refine ⟨fun isTrue => absurd isTrue Bool.false_ne_true, fun state same => ?_⟩
        cases same
      all_goals cases arrived
  | some state =>
      obtain ⟨ends, continues⟩ := knows_arrive arrived (next state arrived)
      refine ⟨?_, continues⟩
      rintro rfl
      exact ends bodyState rfl

end States

section Rounds
variable {Context Leaf Expr Store : Type} {transfers : Transfers Context Leaf Expr} {fuel : Nat}
  {semantics : Semantics Leaf Expr Store}

/-- What the rounds of a `while` have to keep: what is known at its entry and goes round, or, when
nothing but a `break` leaves it, what is known there. -/
def Survives (entry last : Flow Context) (decision : Option Bool) (falls : Bool) (fact : Fact) :
    Prop :=
  match decision with
  | some false => True
  | some true => entry.analyzer.state.Knows fact ∧
      ∀ loop ∈ last.loops.head?, KnownBy loop.breakState fact
  | none => entry.analyzer.state.Knows fact ∧ (falls = true → last.analyzer.state.Knows fact) ∧
      ∀ loop ∈ last.loops.head?, KnownBy loop.continueState fact

/-- What the rounds of a `for` have to keep. -/
def SurvivesFor (entry last : Flow Context) (decision : Option Bool) (falls : Bool) (fact : Fact) :
    Prop :=
  decision = some false ∨
    (entry.analyzer.state.Knows fact ∧ (falls = true → last.analyzer.state.Knows fact))

/-- The flow after a `while`. -/
def Flow.finishWhile (entry last : Flow Context) (decision : Option Bool) (falls : Bool) :
    Flow Context :=
  match decision with
  | some false => entry
  | decision => entry.leaveWhile last decision falls

/-- The flow after a `for`. -/
def Flow.finishFor (entry last : Flow Context) (decision : Option Bool) (falls : Bool) :
    Flow Context :=
  match decision with
  | some false => entry
  | _ => entry.leaveFor last falls

variable {entry last : Flow Context} {falls : Bool} {loop : StaticLoopContext} {fact : Fact}

theorem knows_leaveWhile (innermost : last.loops.head? = some loop)
    (known : (entry.leaveWhile last none falls).analyzer.state.Knows fact) :
    Survives entry last none falls fact ∧ KnownBy loop.breakState fact := by
  simp only [Flow.leaveWhile, innermost, Option.bind_some] at known
  cases left : whileExit none entry.analyzer.state last.analyzer.state falls loop with
  | none =>
      simp only [whileExit] at left
      cases breaks : loop.breakState <;>
        cases next : arrive (if falls then some last.analyzer.state else none) loop.continueState <;>
        rw [breaks, next] at left <;> cases left
  | some exitState =>
      rw [left] at known
      have undecided : (none : Option Bool) ≠ some true := nofun
      obtain ⟨atEntry, atBreaks, ends, continues⟩ :=
        knows_whileExit undecided left (restore_weaker _ _ fact known)
      refine ⟨⟨atEntry, ends, ?_⟩, atBreaks⟩
      intro loop' innermost'
      obtain rfl : loop = loop' := Option.some.inj (innermost.symm.trans innermost')
      exact continues

theorem knows_leaveWhile_endless {state : StaticSafetyState}
    (innermost : last.loops.head? = some loop) (broken : loop.breakState = some state)
    (known : (entry.leaveWhile last (some true) falls).analyzer.state.Knows fact) :
    state.Knows fact := by
  have left : whileExit (some true) entry.analyzer.state last.analyzer.state falls loop =
      some state := by
    simp only [whileExit, if_true, broken]
    rfl
  simp only [Flow.leaveWhile, innermost, Option.bind_some, left] at known
  exact restore_weaker _ _ fact known

theorem knows_leaveFor (known : (entry.leaveFor last falls).analyzer.state.Knows fact) :
    entry.analyzer.state.Knows fact ∧ (falls = true → last.analyzer.state.Knows fact) := by
  cases falls with
  | false =>
      exact ⟨restore_weaker _ _ fact known, fun isTrue => absurd isTrue Bool.false_ne_true⟩
  | true =>
      exact ⟨mergeStates_weaker_left _ _ _ fact known,
        fun _ => mergeStates_weaker_right _ _ _ fact known⟩

/-- The suspects inside a round: what is known at the entry but is false by now. -/
def Semantics.suspected (semantics : Semantics Leaf Expr Store) (suspects : Set Fact)
    (entry : StaticSafetyState) (store : Store) : Set Fact :=
  { fact | fact ∈ suspects ∨ (entry.Knows fact ∧ ¬semantics.holds fact store) }

theorem Semantics.trusts_suspected (suspects : Set Fact) (entry : StaticSafetyState)
    (store : Store) :
    semantics.Trusts (semantics.suspected suspects entry store) entry store := by
  intro fact known trusted
  by_contra false
  exact trusted (.inr ⟨known, false⟩)

/-- After a test, what survives is true where it is known. -/
theorem Follows.holds {flow : Flow Context} {condition : Option Expr} {before after : Store}
    {value : Bool} (follows : Follows transfers semantics flow condition before value after)
    {fact : Fact} (earlier : flow.analyzer.state.Knows fact → semantics.holds fact before)
    (known : (flow.tested transfers condition).analyzer.state.Knows fact) :
    semantics.holds fact after := by
  rcases follows.accounts fact known with holds | ⟨wasKnown, keeps⟩
  · exact holds
  · exact keeps (earlier wasKnown)

section Round
variable {flow : Flow Context} {condition : Option Expr} {before middle next after : Store}
  {value : Bool} {suspects : Set Fact} {survives : Fact → Prop} {outcome : Outcome}

/-- What survives is not suspected inside a round. -/
theorem Follows.not_suspected
    (follows : Follows transfers semantics flow condition before value middle)
    (earlier : ∀ fact ∉ suspects, flow.analyzer.state.Knows fact → survives fact →
      semantics.holds fact before)
    (trusted : fact ∉ suspects)
    (survivor : (flow.tested transfers condition).analyzer.state.Knows fact → survives fact) :
    fact ∉ semantics.suspected suspects (flow.tested transfers condition).analyzer.state middle := by
  rintro (suspect | ⟨known, false⟩)
  · exact trusted suspect
  · exact false (follows.holds (fun wasKnown => earlier fact trusted wasKnown (survivor known)) known)

/-- The state in which a `while` is left tells of the store in which a test fails. -/
theorem Follows.whileDone {condition : Expr}
    (follows : Follows transfers semantics flow (some condition) before false after)
    (innermost : last.loops.head? = some loop)
    (earlier : ∀ fact ∉ suspects, flow.analyzer.state.Knows fact →
      Survives (flow.tested transfers (some condition)) last
        ((flow.tested transfers (some condition)).decision transfers (some condition)) falls fact →
      semantics.holds fact before) :
    semantics.Trusts suspects ((flow.tested transfers (some condition)).finishWhile last
      ((flow.tested transfers (some condition)).decision transfers (some condition))
      falls).analyzer.state after := by
  intro fact known trusted
  cases decision : (flow.tested transfers (some condition)).decision transfers (some condition) with
  | none =>
      rw [decision] at known earlier
      have survives := (knows_leaveWhile innermost known).1
      exact follows.holds (fun wasKnown => earlier fact trusted wasKnown survives) survives.1
  | some decided =>
      obtain rfl : decided = false := follows.decided decided decision
      rw [decision] at known earlier
      exact follows.holds (fun wasKnown => earlier fact trusted wasKnown trivial) known

/-- The state in which a `while` is left tells of the store in which a round breaks. -/
theorem Follows.whileBreak {condition : Expr} {state : StaticSafetyState}
    (follows : Follows transfers semantics flow (some condition) before true middle)
    (innermost : last.loops.head? = some loop) (broken : loop.breakState = some state)
    (round : semantics.Trusts (semantics.suspected suspects
      (flow.tested transfers (some condition)).analyzer.state middle) state after)
    (earlier : ∀ fact ∉ suspects, flow.analyzer.state.Knows fact →
      Survives (flow.tested transfers (some condition)) last
        ((flow.tested transfers (some condition)).decision transfers (some condition)) falls fact →
      semantics.holds fact before) :
    semantics.Trusts suspects ((flow.tested transfers (some condition)).finishWhile last
      ((flow.tested transfers (some condition)).decision transfers (some condition))
      falls).analyzer.state after := by
  intro fact known trusted
  cases decision : (flow.tested transfers (some condition)).decision transfers (some condition) with
  | none =>
      rw [decision] at known earlier
      obtain ⟨survives, atBreaks⟩ := knows_leaveWhile innermost known
      exact round fact (atBreaks state broken)
        (follows.not_suspected earlier trusted fun _ => survives)
  | some decided =>
      obtain rfl : decided = true := follows.decided decided decision
      rw [decision] at known earlier
      have atBreak := knows_leaveWhile_endless innermost broken known
      refine round fact atBreak (follows.not_suspected earlier trusted fun atEntry => ⟨atEntry, ?_⟩)
      intro loop' innermost' state' broken'
      obtain rfl : loop = loop' := Option.some.inj (innermost.symm.trans innermost')
      obtain rfl : state = state' := Option.some.inj (broken.symm.trans broken')
      exact atBreak

/-- What survives is still true after a round that goes on. -/
theorem Follows.whileNext {condition : Expr} {body : Block Leaf Expr}
    (follows : Follows transfers semantics flow (some condition) before true middle)
    (validated : validateSafety transfers fuel body
      (flow.tested transfers (some condition)).enterLoop = some (falls, last))
    (innermost : last.loops.head? = some loop)
    (round : Lands semantics (semantics.suspected suspects
      (flow.tested transfers (some condition)).analyzer.state middle)
      (flow.tested transfers (some condition)).enterLoop last falls next outcome)
    (stays : outcome ≠ .breaks)
    (steady : Steady transfers fuel semantics (flow.tested transfers (some condition)) condition body
      before next)
    (earlier : ∀ fact ∉ suspects, flow.analyzer.state.Knows fact →
      Survives (flow.tested transfers (some condition)) last
        ((flow.tested transfers (some condition)).decision transfers (some condition)) falls fact →
      semantics.holds fact before) :
    ∀ fact ∉ suspects, flow.analyzer.state.Knows fact →
      Survives (flow.tested transfers (some condition)) last
        ((flow.tested transfers (some condition)).decision transfers (some condition)) falls fact →
      semantics.holds fact next := by
  intro fact trusted known survivor
  have unsuspected := follows.not_suspected earlier trusted fun _ => survivor
  cases decision : (flow.tested transfers (some condition)).decision transfers (some condition) with
  | none =>
      rw [decision] at survivor
      obtain ⟨-, ends, continues⟩ := survivor
      cases outcome with
      | fallsThrough => exact round.2 fact (ends round.1) unsuspected
      | breaks => exact absurd rfl stays
      | continues =>
          obtain ⟨state, arrived, trusts⟩ := round (Clean.enterLoop _) loop innermost
          exact trusts fact (continues loop innermost state arrived) unsuspected
  | some decided =>
      obtain rfl : decided = true := follows.decided decided decision
      have wasTrue := earlier fact trusted known survivor
      rw [decision] at survivor
      refine steady decision fact survivor.1 ?_ wasTrue
      intro falls' last' validated' loop' innermost'
      obtain ⟨rfl, rfl⟩ := Prod.mk.inj (Option.some.inj (validated.symm.trans validated'))
      exact survivor.2 loop' innermost'

/-- The state in which a `for` is left tells of the store in which a test fails. -/
theorem Follows.forDone (follows : Follows transfers semantics flow condition before false after)
    (earlier : ∀ fact ∉ suspects, flow.analyzer.state.Knows fact →
      SurvivesFor (flow.tested transfers condition) last
        ((flow.tested transfers condition).decision transfers condition) falls fact →
      semantics.holds fact before) :
    semantics.Trusts suspects ((flow.tested transfers condition).finishFor last
      ((flow.tested transfers condition).decision transfers condition) falls).analyzer.state
      after := by
  intro fact known trusted
  cases decision : (flow.tested transfers condition).decision transfers condition with
  | none =>
      rw [decision] at known earlier
      have survives := knows_leaveFor known
      exact follows.holds (fun wasKnown => earlier fact trusted wasKnown (.inr survives)) survives.1
  | some decided =>
      obtain rfl : decided = false := follows.decided decided decision
      rw [decision] at known earlier
      exact follows.holds (fun wasKnown => earlier fact trusted wasKnown (.inl rfl)) known

/-- What survives is still true after a round of a `for`. -/
theorem Follows.forNext (follows : Follows transfers semantics flow condition before true middle)
    (round : falls = true ∧ semantics.Trusts (semantics.suspected suspects
      (flow.tested transfers condition).analyzer.state middle) last.analyzer.state next)
    (earlier : ∀ fact ∉ suspects, flow.analyzer.state.Knows fact →
      SurvivesFor (flow.tested transfers condition) last
        ((flow.tested transfers condition).decision transfers condition) falls fact →
      semantics.holds fact before) :
    ∀ fact ∉ suspects, flow.analyzer.state.Knows fact →
      SurvivesFor (flow.tested transfers condition) last
        ((flow.tested transfers condition).decision transfers condition) falls fact →
      semantics.holds fact next := by
  intro fact trusted known survivor
  have unsuspected := follows.not_suspected earlier trusted fun _ => survivor
  rcases survivor with decided | ⟨-, ends⟩
  · cases follows.decided false decided
  · exact round.2 fact (ends round.1) unsuspected

end Round

end Rounds

end HitSimple.Safety

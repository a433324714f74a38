import HitSimple.Safety.ObjectStore
import HitSimple.Safety.Traversal

namespace HitSimple.Safety.Visitor
open Dataflow FactMap StaticSafetyState

/-- A call of a function of the program: as a function, as an operation or a format of a template,
or with several results. -/
inductive UserCall where
  | function (callee : { callee : Callee // callee.builtin = .none }) (arguments : Nodes)
  | operation (callee : String) (arguments : Nodes)
  | format (value : Node) (file : Nodes)
  | multiReturn (arguments : Nodes) (targets : List (String × Nat))

/-- The analyzer where a call begins, with the arguments that are captured and the ranges that are
borrowed. -/
structure CallEntry where
  analyzer : Analyzer Context
  arguments : List Node
  borrowed : List (Option StaticAddressRange)

namespace UserCall

def action : UserCall → Action
  | .function callee arguments => .call callee arguments
  | .operation callee arguments => .userTemplateOpCall callee arguments
  | .format value file => .userTemplateFormatCall value file
  | .multiReturn arguments targets => .multiReturnCallStore arguments targets

/-- A call with several results is a statement only. -/
def node (result : ViewSemantics) : UserCall → Option Node
  | .function callee arguments => some (.call callee arguments result)
  | .operation callee arguments => some (.userTemplateOpCall callee arguments result)
  | .format value file => some (.userTemplateFormatCall value file result)
  | .multiReturn _ _ => none

variable (unit : TranslationUnit)

def enter (analyzer : Analyzer Context) : UserCall → CallEntry
  | .function callee arguments =>
      let prepared := prepareStaticCallArguments unit callee arguments analyzer
      { analyzer := prepared.2, arguments := prepared.1, borrowed := [] }
  | .operation callee arguments =>
      let located := visitBorrowed unit callee arguments 0 analyzer
      { analyzer := located.2, arguments := [], borrowed := located.1 }
  | .format value file => {
      analyzer := visitEach unit (fun _ => false) file (visit unit false value analyzer)
      arguments := []
      borrowed := [] }
  | .multiReturn arguments _ => {
      analyzer := visitEach unit (fun _ => false) arguments analyzer
      arguments := []
      borrowed := [] }

/-- What is forgotten when a call returns. -/
def finish (entry : CallEntry) : UserCall → Analyzer Context
  | .function _ _ => releaseStaticCallArguments entry.arguments
      (entry.arguments.foldl invalidateArgument (invalidateStaticGlobalFacts unit entry.analyzer))
  | .operation _ _ => finishUserCall unit (entry.borrowed, entry.analyzer)
  | .format _ _ => invalidateStaticGlobalFacts unit entry.analyzer
  | .multiReturn _ targets => targets.foldl
      (fun analyzer target => (prepareStaticNamedStore target.1 0 target.2 analyzer).2)
      (invalidateStaticGlobalFacts unit entry.analyzer)

theorem visitAction_eq (call : UserCall) (analyzer : Analyzer Context) :
    visitAction unit call.action analyzer = call.finish unit (call.enter unit analyzer) := by
  cases call with
  | function callee arguments =>
      obtain ⟨callee, isUser⟩ := callee
      simp only [action, visitAction, releaseObjects, finishCall, writtenRange, isUser, if_true]
      rfl
  | operation callee arguments => simp only [action, visitAction, finish, enter]
  | format value file => simp only [action, visitAction, finish, enter]
  | multiReturn arguments targets => simp only [action, visitAction, finish, enter]

theorem visit_eq {call : UserCall} {result : ViewSemantics} {node : Node}
    (isNode : call.node result = some node) (forms : Bool) (analyzer : Analyzer Context) :
    visit unit forms node analyzer = call.finish unit (call.enter unit analyzer) := by
  cases call with
  | function callee arguments =>
      obtain ⟨callee, isUser⟩ := callee
      obtain rfl := Option.some.inj isNode
      simp only [visit, finishCall, writtenRange, isUser, if_true]
      rfl
  | operation callee arguments =>
      obtain rfl := Option.some.inj isNode
      simp only [visit, finish, enter]
  | format value file =>
      obtain rfl := Option.some.inj isNode
      simp only [visit, finish, enter]
  | multiReturn arguments targets => cases isNode

end UserCall

section Objects

/-- A name that is neither a captured View nor the place of one. -/
def Context.IsObject (context : Context) (name : String) : Prop :=
  name ∉ context.capturedAliases ∧ name.endsWith ".location" = false

/-- A write into a range can change an object; one into an unknown range can change any. -/
def MayWrite (range : Option StaticAddressRange) (name : String) : Prop :=
  ∀ located ∈ range, located.bindingName = name

/-- Where the names of global objects are bound to. -/
def globalRanges (analyzer : Analyzer Context) : List (Option StaticAddressRange) :=
  analyzer.context.globalBindings.1.filterMap fun name =>
    (analyzer.state.bindingAddressFacts.lookup name).map (·.bind (·.range))

end Objects

namespace CallEntry
variable (unit : TranslationUnit) (entry : CallEntry)

/-- What a call is taken to write besides global objects. -/
def writtenRanges : UserCall → List (Option StaticAddressRange)
  | .function _ _ => entry.arguments.map
      (staticMemoryOperandRange entry.analyzer.state entry.analyzer.context)
  | .operation _ _ => entry.borrowed
  | .format _ _ => []
  | .multiReturn _ targets => (targets.filter (·.2 ≠ 0)).map fun target =>
      if target.1 ∈ entry.analyzer.context.globalBindings.1 ∧
          target.1 ∈ unit.potentiallyReboundBindings then none
      else bindingRange entry.analyzer.state target.1 0 target.2

/-- The objects that a call is taken to write. -/
def Invalidates (call : UserCall) (name : String) : Prop :=
  name ∈ entry.analyzer.context.globalBindings.1 ∨
    ∃ range ∈ globalRanges entry.analyzer ++ entry.writtenRanges unit call, MayWrite range name

/-- Captured arguments are apart from the objects that the call writes. -/
def Captures (call : UserCall) : Prop :=
  ∀ argument ∈ entry.arguments, ∃ captureName result, argument = .captured captureName result ∧
    entry.analyzer.context.captureKey captureName ∈ entry.analyzer.context.capturedAliases ∧
    entry.analyzer.context.captureKey captureName ∉ entry.analyzer.context.globalBindings.1 ∧
    ∀ range ∈ globalRanges entry.analyzer ++ entry.writtenRanges unit call, ∀ located ∈ range,
      located.bindingName ≠ entry.analyzer.context.captureKey captureName

end CallEntry

section Lookup
variable {Known : Type} {facts : FactMap String (Option Known)} {key name : String} {value : Known}

theorem lookup_insert_none_iff :
    (facts.insert key none).lookup name = some (some value) ↔
      facts.lookup name = some (some value) ∧ key ≠ name := by
  by_cases same : name = key
  · subst same
    simp
  · rw [Finmap.lookup_insert_of_ne _ same]
    exact ⟨fun found => ⟨found, Ne.symm same⟩, And.left⟩

theorem lookup_forgetAll_iff {kept : String → Bool} :
    (forgetAll facts kept).lookup name = some (some value) ↔
      facts.lookup name = some (some value) ∧ kept name = true := by
  constructor
  · exact lookup_forgetAll_known
  · intro ⟨found, keeps⟩
    have member : name ∈ facts.keys := Finmap.mem_keys.mpr (Finmap.mem_of_lookup_eq_some found)
    rw [forgetAll, lookup_tabulate, if_pos member, found]
    simp [keeps]

end Lookup

section Forgetting

/-- What an invalidation forgets of. -/
def Forgotten (context : Context) (range : Option StaticAddressRange) (name : String) : Prop :=
  match range with
  | some located => located.bindingName = name
  | none => name ∉ context.capturedAliases

/-- A name for which an unknown range has the same effect on all facts. -/
def Context.IsPlain (context : Context) (name : String) : Prop :=
  name ∈ context.capturedAliases ∨ name.endsWith ".location" = false

/-- A step that forgets what is known of some names, and nothing else. -/
structure Forgets (names : String → Prop) (before after : Analyzer Context) : Prop where
  context : after.context = before.context
  weaker : after.state.Weaker before.state
  forgotten : ∀ fact, names fact.bindingName → before.context.IsPlain fact.bindingName →
    ¬after.state.Knows fact
  kept : ∀ fact, ¬names fact.bindingName → before.context.IsPlain fact.bindingName →
    before.state.Knows fact → after.state.Knows fact

namespace Forgets
variable {names names' : String → Prop} {before middle after : Analyzer Context}

theorem refl (analyzer : Analyzer Context) : Forgets (fun _ => False) analyzer analyzer where
  context := rfl
  weaker := .refl _
  forgotten _ none := none.elim
  kept _ _ _ := id

theorem trans (one : Forgets names before middle) (two : Forgets names' middle after) :
    Forgets (fun name => names name ∨ names' name) before after where
  context := two.context.trans one.context
  weaker := two.weaker.trans one.weaker
  forgotten := by
    intro fact forgotten plain known
    rcases forgotten with first | second
    · exact one.forgotten fact first plain (two.weaker fact known)
    · exact two.forgotten fact second (one.context ▸ plain) known
  kept := by
    intro fact kept plain known
    rw [not_or] at kept
    exact two.kept fact kept.2 (one.context ▸ plain) (one.kept fact kept.1 plain known)

theorem congr (forgets : Forgets names before after) (same : ∀ name, names' name ↔ names name) :
    Forgets names' before after where
  context := forgets.context
  weaker := forgets.weaker
  forgotten fact forgotten := forgets.forgotten fact ((same _).mp forgotten)
  kept fact kept := forgets.kept fact fun forgotten => kept ((same _).mpr forgotten)

theorem knows_iff (forgets : Forgets names before after) {fact : Fact}
    (plain : before.context.IsPlain fact.bindingName) :
    after.state.Knows fact ↔ before.state.Knows fact ∧ ¬names fact.bindingName :=
  ⟨fun known => ⟨forgets.weaker fact known, fun forgotten =>
      forgets.forgotten fact forgotten plain known⟩,
    fun ⟨known, kept⟩ => forgets.kept fact kept plain known⟩

theorem of_knows_iff (context : after.context = before.context)
    (weaker : after.state.Weaker before.state)
    (knows : ∀ fact, before.context.IsPlain fact.bindingName →
      (after.state.Knows fact ↔ before.state.Knows fact ∧ ¬names fact.bindingName)) :
    Forgets names before after where
  context := context
  weaker := weaker
  forgotten fact forgotten plain known := ((knows fact plain).mp known).2 forgotten
  kept fact kept plain known := (knows fact plain).mpr ⟨known, kept⟩

/-- A list of steps that keep what each of them needs. -/
theorem foldl {Item : Type} {step : Analyzer Context → Item → Analyzer Context}
    {names : Item → String → Prop} (invariant : Analyzer Context → Prop) (items : List Item)
    (each : ∀ analyzer, ∀ item ∈ items, invariant analyzer →
      Forgets (names item) analyzer (step analyzer item) ∧ invariant (step analyzer item))
    {analyzer : Analyzer Context} (start : invariant analyzer) :
    Forgets (fun name => ∃ item ∈ items, names item name) analyzer (items.foldl step analyzer) := by
  induction items generalizing analyzer with
  | nil => exact (refl analyzer).congr (by simp)
  | cons item rest ih =>
      obtain ⟨first, next⟩ := each analyzer item List.mem_cons_self start
      have later := ih (fun analyzer other member =>
        each analyzer other (List.mem_cons_of_mem _ member)) next
      exact (first.trans later).congr (by simp)

end Forgets

theorem forgets_invalidateStaticBinding (analyzer : Analyzer Context) (bindingName : String) :
    Forgets (bindingName = ·) analyzer
      { analyzer with state := analyzer.state.invalidateStaticBinding bindingName } := by
  have knows (fact : Fact) : (analyzer.state.invalidateStaticBinding bindingName).Knows fact ↔
      analyzer.state.Knows fact ∧ ¬bindingName = fact.bindingName := by
    cases fact with
    | integer | unsignedInteger | address | termination => exact lookup_insert_none_iff
  apply Forgets.of_knows_iff
  · rfl
  · exact fun fact known => ((knows fact).mp known).1
  · exact fun fact _ => knows fact

theorem forgets_invalidateStaticFactsOverlapping (range : Option StaticAddressRange)
    {byteLength : Option Nat} (nonempty : byteLength ≠ some 0) (analyzer : Analyzer Context) :
    Forgets (Forgotten analyzer.context range) analyzer
      (invalidateStaticFactsOverlapping range byteLength analyzer) := by
  unfold invalidateStaticFactsOverlapping
  rw [if_neg nonempty]
  cases range with
  | some located => exact forgets_invalidateStaticBinding analyzer located.bindingName
  | none =>
      apply Forgets.of_knows_iff
      · rfl
      · intro fact known
        cases fact with
        | integer | unsignedInteger | address | termination => exact (lookup_forgetAll_iff.mp known).1
      · intro fact plain
        cases fact with
        | integer | unsignedInteger | termination =>
            apply lookup_forgetAll_iff.trans
            simp [Forgotten, Fact.bindingName, Knows]
        | address name fact =>
            apply lookup_forgetAll_iff.trans
            rcases plain with captured | plain
            · have captured : name ∈ analyzer.context.capturedAliases := captured
              simp [Forgotten, Fact.bindingName, Knows, captured]
            · have plain : name.endsWith ".location" = false := plain
              simp [Forgotten, Fact.bindingName, Knows, plain]

end Forgetting

section Steps

theorem bindingAddressFacts_invalidateStaticFactsOverlapping (range : Option StaticAddressRange)
    (byteLength : Option Nat) (analyzer : Analyzer Context) :
    (invalidateStaticFactsOverlapping range byteLength analyzer).state.bindingAddressFacts =
      analyzer.state.bindingAddressFacts := by
  unfold invalidateStaticFactsOverlapping
  split
  · rfl
  · cases range with
    | some range => rfl
    | none => rfl

/-- A rebound name has no known address, and the facts stay. -/
theorem forgets_rebound (unit : TranslationUnit) (analyzer : Analyzer Context) (bindingName : String) :
    Forgets (fun _ => False) analyzer { analyzer with state :=
      if bindingName ∈ unit.potentiallyReboundBindings then
        { analyzer.state with bindingAddressFacts :=
            analyzer.state.bindingAddressFacts.insert bindingName none }
      else analyzer.state } := by
  split
  · apply Forgets.of_knows_iff
    · rfl
    · intro fact known
      cases fact with
      | integer | unsignedInteger | address | termination => exact known
    · intro fact _
      cases fact with
      | integer | unsignedInteger | address | termination => simp [Knows]
  · exact .refl analyzer

/-- What is forgotten for one global name. -/
def ForgottenGlobal (analyzer : Analyzer Context) (bindingName name : String) : Prop :=
  bindingName = name ∨ ∃ bound, analyzer.state.bindingAddressFacts.lookup bindingName = some bound ∧
    Forgotten analyzer.context (bound.bind (·.range)) name

/-- The part of `invalidateStaticGlobal` that goes by where the name is bound. -/
def forgetBound (analyzer : Analyzer Context) (bindingName : String) : Analyzer Context :=
  match analyzer.state.bindingAddressFacts.lookup bindingName with
  | some bound => invalidateStaticFactsOverlapping (bound.bind (·.range)) none analyzer
  | none => analyzer

theorem forgets_forgetBound (analyzer : Analyzer Context) (bindingName : String) :
    Forgets (fun name => ∃ bound,
        analyzer.state.bindingAddressFacts.lookup bindingName = some bound ∧
          Forgotten analyzer.context (bound.bind (·.range)) name) analyzer
      (forgetBound analyzer bindingName) := by
  unfold forgetBound
  split
  · rename_i bound found
    have forgets : Forgets (Forgotten analyzer.context (bound.bind (·.range))) analyzer
        (invalidateStaticFactsOverlapping (bound.bind (·.range)) none analyzer) :=
      forgets_invalidateStaticFactsOverlapping _ (by simp) analyzer
    exact forgets.congr (by simp [found])
  · rename_i missing
    exact (Forgets.refl analyzer).congr (by simp [missing])

theorem bindingAddressFacts_forgetBound (analyzer : Analyzer Context) (bindingName : String) :
    (forgetBound analyzer bindingName).state.bindingAddressFacts =
      analyzer.state.bindingAddressFacts := by
  unfold forgetBound
  split
  · exact bindingAddressFacts_invalidateStaticFactsOverlapping _ _ _
  · rfl

theorem forgets_invalidateStaticGlobal (unit : TranslationUnit) (analyzer : Analyzer Context)
    (bindingName : String) :
    Forgets (ForgottenGlobal analyzer bindingName) analyzer
      (invalidateStaticGlobal unit analyzer bindingName) := by
  have bound := forgets_forgetBound analyzer bindingName
  have named := bound.trans (forgets_invalidateStaticBinding _ bindingName)
  have rebound := named.trans (forgets_rebound unit _ bindingName)
  have same (name : String) : ForgottenGlobal analyzer bindingName name ↔
      ((∃ bound, analyzer.state.bindingAddressFacts.lookup bindingName = some bound ∧
        Forgotten analyzer.context (bound.bind (·.range)) name) ∨ bindingName = name) ∨ False := by
    simp [ForgottenGlobal, or_comm]
  exact rebound.congr same

theorem lookup_invalidateStaticGlobal (unit : TranslationUnit) (analyzer : Analyzer Context)
    (bindingName other : String) :
    (invalidateStaticGlobal unit analyzer bindingName).state.bindingAddressFacts.lookup other =
      if other = bindingName ∧ other ∈ unit.potentiallyReboundBindings then some none
      else analyzer.state.bindingAddressFacts.lookup other := by
  have whole : (invalidateStaticGlobal unit analyzer bindingName).state.bindingAddressFacts =
      if bindingName ∈ unit.potentiallyReboundBindings then
        analyzer.state.bindingAddressFacts.insert bindingName none
      else analyzer.state.bindingAddressFacts := by
    rw [← bindingAddressFacts_forgetBound analyzer bindingName]
    unfold invalidateStaticGlobal
    dsimp only
    split
    · rfl
    · rfl
  rw [whole]
  by_cases rebound : bindingName ∈ unit.potentiallyReboundBindings
  · rw [if_pos rebound]
    by_cases same : other = bindingName
    · subst same
      rw [if_pos ⟨rfl, rebound⟩, Finmap.lookup_insert]
    · rw [if_neg (fun both => same both.1), Finmap.lookup_insert_of_ne _ same]
  · rw [if_neg rebound, if_neg]
    rintro ⟨rfl, member⟩
    exact rebound member

theorem forgottenGlobal_congr {one two : Analyzer Context} {bindingName : String}
    (context : one.context = two.context)
    (bound : one.state.bindingAddressFacts.lookup bindingName =
      two.state.bindingAddressFacts.lookup bindingName) (name : String) :
    ForgottenGlobal one bindingName name ↔ ForgottenGlobal two bindingName name := by
  unfold ForgottenGlobal
  rw [context, bound]

/-- Names that are forgotten one after another, each by where it was bound at the start. -/
theorem forgets_invalidateStaticGlobals (unit : TranslationUnit) {names : List String}
    (distinct : names.Nodup) (analyzer : Analyzer Context) :
    Forgets (fun name => ∃ bindingName ∈ names, ForgottenGlobal analyzer bindingName name) analyzer
        (names.foldl (invalidateStaticGlobal unit) analyzer) ∧
      ∀ other, (names.foldl (invalidateStaticGlobal unit)
          analyzer).state.bindingAddressFacts.lookup other =
        if other ∈ names ∧ other ∈ unit.potentiallyReboundBindings then some none
        else analyzer.state.bindingAddressFacts.lookup other := by
  induction names generalizing analyzer with
  | nil => exact ⟨(Forgets.refl analyzer).congr (by simp), by simp⟩
  | cons bindingName rest ih =>
      obtain ⟨fresh, distinct⟩ := List.nodup_cons.mp distinct
      have first := forgets_invalidateStaticGlobal unit analyzer bindingName
      have moved := lookup_invalidateStaticGlobal unit analyzer bindingName
      obtain ⟨later, bound⟩ := ih distinct (invalidateStaticGlobal unit analyzer bindingName)
      constructor
      · apply (first.trans later).congr
        intro name
        have others : (∃ other ∈ rest, ForgottenGlobal analyzer other name) ↔
            ∃ other ∈ rest, ForgottenGlobal (invalidateStaticGlobal unit analyzer bindingName)
              other name := by
          apply exists_congr
          intro other
          apply and_congr_right
          intro member
          have apart : ¬(other = bindingName ∧ other ∈ unit.potentiallyReboundBindings) :=
            fun both => fresh (both.1 ▸ member)
          exact forgottenGlobal_congr first.context.symm
            ((moved other).trans (if_neg apart)).symm name
        rw [← others]
        simp
      · intro other
        rw [List.foldl_cons, bound, moved]
        by_cases rebound : other ∈ unit.potentiallyReboundBindings
        · by_cases same : other = bindingName
          · subst same
            simp [rebound]
          · simp [rebound, same]
        · simp [rebound]

end Steps

section Finish

/-- What is forgotten of the globals, by where they are bound at the start. -/
theorem forgets_globals (unit : TranslationUnit) (analyzer : Analyzer Context) :
    Forgets (fun name => name ∈ analyzer.context.globalBindings.1 ∨
        ∃ range ∈ globalRanges analyzer, Forgotten analyzer.context range name)
      analyzer (invalidateStaticGlobalFacts unit analyzer) := by
  have forgets :=
    (forgets_invalidateStaticGlobals unit analyzer.context.globalBindings.2 analyzer).1
  apply forgets.congr
  intro name
  constructor
  · rintro (global | ⟨range, member, forgotten⟩)
    · exact ⟨name, global, .inl rfl⟩
    · obtain ⟨bindingName, global, found⟩ := List.mem_filterMap.mp member
      obtain ⟨bound, known, rfl⟩ := Option.map_eq_some_iff.mp found
      exact ⟨bindingName, global, .inr ⟨bound, known, forgotten⟩⟩
  · rintro ⟨bindingName, global, rfl | ⟨bound, known, forgotten⟩⟩
    · exact .inl global
    · refine .inr ⟨bound.bind (·.range), ?_, forgotten⟩
      exact List.mem_filterMap.mpr ⟨bindingName, global, by rw [known]; rfl⟩

/-- Ranges are forgotten one after another, and no name is bound anew. -/
theorem forgets_ranges (ranges : List (Option StaticAddressRange)) (analyzer : Analyzer Context) :
    Forgets (fun name => ∃ range ∈ ranges, Forgotten analyzer.context range name) analyzer
        (ranges.foldl (fun analyzer range =>
          invalidateStaticFactsOverlapping range none analyzer) analyzer) ∧
      (ranges.foldl (fun analyzer range => invalidateStaticFactsOverlapping range none analyzer)
        analyzer).state.bindingAddressFacts = analyzer.state.bindingAddressFacts := by
  induction ranges generalizing analyzer with
  | nil => exact ⟨(Forgets.refl analyzer).congr (by simp), rfl⟩
  | cons range rest ih =>
      have first : Forgets (Forgotten analyzer.context range) analyzer
          (invalidateStaticFactsOverlapping range none analyzer) :=
        forgets_invalidateStaticFactsOverlapping range (by simp) analyzer
      obtain ⟨later, bound⟩ := ih (invalidateStaticFactsOverlapping range none analyzer)
      constructor
      · apply (first.trans later).congr
        intro name
        rw [first.context]
        simp
      · exact bound.trans (bindingAddressFacts_invalidateStaticFactsOverlapping range none analyzer)

theorem bindingRange_congr {one two : StaticSafetyState} {bindingName : String}
    (bound : one.bindingAddressFacts.lookup bindingName =
      two.bindingAddressFacts.lookup bindingName) (offset byteLength : Nat) :
    bindingRange one bindingName offset byteLength =
      bindingRange two bindingName offset byteLength := by
  unfold bindingRange staticBindingAddressFact
  rw [bound]

theorem bindingRange_unknown {state : StaticSafetyState} {bindingName : String}
    (unknown : state.bindingAddressFacts.lookup bindingName = some none) (offset byteLength : Nat) :
    bindingRange state bindingName offset byteLength = none := by
  unfold bindingRange staticBindingAddressFact
  rw [unknown]
  rfl

/-- The results of a call are stored where their targets are bound when it returns. -/
theorem forgets_targets (targets : List (String × Nat)) (analyzer : Analyzer Context) :
    Forgets (fun name => ∃ range ∈ (targets.filter (·.2 ≠ 0)).map fun target =>
        bindingRange analyzer.state target.1 0 target.2, Forgotten analyzer.context range name)
      analyzer (targets.foldl (fun analyzer target =>
        (prepareStaticNamedStore target.1 0 target.2 analyzer).2) analyzer) := by
  induction targets generalizing analyzer with
  | nil => exact (Forgets.refl analyzer).congr (by simp)
  | cons target rest ih =>
      have later := ih (prepareStaticNamedStore target.1 0 target.2 analyzer).2
      have bound : (prepareStaticNamedStore target.1 0 target.2 analyzer).2.state.bindingAddressFacts =
          analyzer.state.bindingAddressFacts :=
        bindingAddressFacts_invalidateStaticFactsOverlapping _ _ analyzer
      have ranges (other : String × Nat) :
          bindingRange (prepareStaticNamedStore target.1 0 target.2 analyzer).2.state other.1 0
            other.2 = bindingRange analyzer.state other.1 0 other.2 :=
        bindingRange_congr (by rw [bound]) 0 other.2
      by_cases empty : target.2 = 0
      · have same : (prepareStaticNamedStore target.1 0 target.2 analyzer).2 = analyzer := by
          unfold prepareStaticNamedStore invalidateStaticFactsOverlapping
          simp [empty]
        rw [List.foldl_cons, same]
        apply (ih analyzer).congr
        intro name
        simp [empty]
      · have first : Forgets (Forgotten analyzer.context
            (bindingRange analyzer.state target.1 0 target.2)) analyzer
            (prepareStaticNamedStore target.1 0 target.2 analyzer).2 :=
          forgets_invalidateStaticFactsOverlapping _ (by simp [empty]) analyzer
        apply (first.trans later).congr
        intro name
        simp only [ranges, first.context]
        simp [empty]

/-- What the range of a captured argument goes by. -/
theorem staticMemoryOperandRange_captured (state : StaticSafetyState) (context : Context)
    (captureName : String) (result : ViewSemantics) :
    staticMemoryOperandRange state context (.captured captureName result) =
      if isRawMemoryAddress (.captured captureName result) then
        (state.addressFacts.lookup (context.captureKey captureName)).join.bind (·.range)
      else visibleRange result (context.capturedRanges.lookup captureName).join := by
  rfl

/-- The range of a captured argument stays while other names are forgotten. -/
theorem staticMemoryOperandRange_kept {names : String → Prop} {before after : Analyzer Context}
    (forgets : Forgets names before after) {captureName : String}
    (captured : before.context.captureKey captureName ∈ before.context.capturedAliases)
    (kept : ¬names (before.context.captureKey captureName)) (result : ViewSemantics) :
    staticMemoryOperandRange after.state after.context (.captured captureName result) =
      staticMemoryOperandRange before.state before.context (.captured captureName result) := by
  have same : (after.state.addressFacts.lookup (before.context.captureKey captureName)).join =
      (before.state.addressFacts.lookup (before.context.captureKey captureName)).join := by
    apply Option.ext
    intro fact
    have knows : after.state.Knows (.address (before.context.captureKey captureName) fact) ↔ _ :=
      forgets.knows_iff (.inl captured)
    rw [Option.join_eq_some_iff, Option.join_eq_some_iff]
    exact knows.trans (and_iff_left kept)
  rw [staticMemoryOperandRange_captured, staticMemoryOperandRange_captured, forgets.context, same]

/-- The ranges of captured arguments are forgotten one after another, each as it was at the start. -/
theorem forgets_arguments {earlier : String → Prop} {start analyzer : Analyzer Context}
    (before : Forgets earlier start analyzer) {arguments : List Node}
    (captures : ∀ argument ∈ arguments, ∃ captureName result,
      argument = .captured captureName result ∧
      start.context.captureKey captureName ∈ start.context.capturedAliases ∧
      ¬earlier (start.context.captureKey captureName) ∧
      ∀ other ∈ arguments, ¬Forgotten start.context
        (staticMemoryOperandRange start.state start.context other)
        (start.context.captureKey captureName)) :
    Forgets (fun name => earlier name ∨ ∃ argument ∈ arguments, Forgotten start.context
        (staticMemoryOperandRange start.state start.context argument) name) start
      (arguments.foldl invalidateArgument analyzer) := by
  induction arguments generalizing earlier analyzer with
  | nil => exact before.congr (by simp)
  | cons argument rest ih =>
      let range := staticMemoryOperandRange start.state start.context argument
      have step : Forgets (Forgotten start.context range) analyzer
          (invalidateArgument analyzer argument) := by
        obtain ⟨captureName, result, rfl, captured, kept, -⟩ :=
          captures argument List.mem_cons_self
        have same := staticMemoryOperandRange_kept before captured kept result
        rw [← before.context]
        unfold invalidateArgument
        rw [same]
        exact forgets_invalidateStaticFactsOverlapping range (by simp) analyzer
      have next := before.trans step
      have later := ih next (by
        intro other member
        obtain ⟨captureName, result, rfl, captured, kept, apart⟩ :=
          captures other (List.mem_cons_of_mem _ member)
        refine ⟨captureName, result, rfl, captured, ?_, ?_⟩
        · rw [not_or]
          exact ⟨kept, apart argument List.mem_cons_self⟩
        · exact fun third member => apart third (List.mem_cons_of_mem _ member))
      apply later.congr
      intro name
      simp [range, or_assoc]

theorem endsWith_location (captureName : String) :
    (captureName ++ ".location").endsWith ".location" = true := by
  rw [String.endsWith_eq_endsWith_toSlice, String.Slice.endsWith_string_iff]
  simp

theorem mem_of_captureKey_mem {context : Context} {captureName : String}
    (captured : context.captureKey captureName ∈ context.capturedAliases) :
    captureName ∈ context.capturedAliases := by
  by_contra absent
  apply absent
  have missing := Finmap.lookup_eq_none.mpr absent
  unfold Context.captureKey at captured
  rw [missing] at captured
  exact captured

/-- A captured View that is released takes no fact about an object with it. -/
theorem knows_releaseStaticCallArguments {context : Context} {arguments : List Node}
    (captured : ∀ argument ∈ arguments, ∃ captureName result,
      argument = .captured captureName result ∧ captureName ∈ context.capturedAliases)
    (analyzer : Analyzer Context) :
    (releaseStaticCallArguments arguments analyzer).state.Weaker analyzer.state ∧
      ∀ fact : Fact, context.IsObject fact.bindingName → analyzer.state.Knows fact →
        (releaseStaticCallArguments arguments analyzer).state.Knows fact := by
  unfold releaseStaticCallArguments
  induction arguments generalizing analyzer with
  | nil => exact ⟨.refl _, fun _ _ => id⟩
  | cons argument rest ih =>
      obtain ⟨captureName, result, rfl, member⟩ := captured argument List.mem_cons_self
      obtain ⟨weaker, kept⟩ := ih (fun other member => captured other (List.mem_cons_of_mem _ member))
        (releaseStaticCallArgument analyzer (.captured captureName result))
      constructor
      · apply weaker.trans
        intro fact known
        cases fact with
        | integer | unsignedInteger | termination => exact lookup_erase_known known
        | address => exact lookup_erase_known (lookup_erase_known known)
      · intro fact object known
        apply kept fact object
        have apart : fact.bindingName ≠ captureName := fun same => object.1 (same ▸ member)
        have placed : fact.bindingName ≠ captureName ++ ".location" := by
          intro same
          have ends := endsWith_location captureName
          rw [← same, object.2] at ends
          cases ends
        cases fact with
        | integer | unsignedInteger | termination =>
            exact (Finmap.lookup_erase_ne apart).trans known
        | address =>
            exact (Finmap.lookup_erase_ne placed).trans
              ((Finmap.lookup_erase_ne apart).trans known)

end Finish

end HitSimple.Safety.Visitor

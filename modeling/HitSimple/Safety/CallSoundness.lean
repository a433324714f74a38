import HitSimple.Safety.UserCalls

namespace HitSimple.Safety.Visitor
open Dataflow FactMap StaticSafetyState

section Finish
variable {unit : TranslationUnit} {call : UserCall} {entry : CallEntry}

theorem mayWrite_iff_forgotten {context : Context} {name : String}
    (object : context.IsObject name) (range : Option StaticAddressRange) :
    MayWrite range name ↔ Forgotten context range name := by
  cases range with
  | none => simpa [MayWrite, Forgotten] using object.1
  | some located => simp [MayWrite, Forgotten]

/-- A captured name is forgotten with a range that names it only. -/
theorem not_forgotten_captured {context : Context} {name : String}
    (captured : name ∈ context.capturedAliases) {range : Option StaticAddressRange}
    (apart : ∀ located ∈ range, located.bindingName ≠ name) : ¬Forgotten context range name := by
  cases range with
  | none => exact fun absent => absent captured
  | some located => exact apart located rfl

/-- What a call that returns has forgotten, but for the captured arguments it releases. -/
theorem forgets_finish (captures : entry.Captures unit call) :
    ∃ returned, Forgets (fun name => name ∈ entry.analyzer.context.globalBindings.1 ∨
        ∃ range ∈ globalRanges entry.analyzer ++ entry.writtenRanges unit call,
          Forgotten entry.analyzer.context range name) entry.analyzer returned ∧
      (call.finish unit entry).state.Weaker returned.state ∧
      ∀ fact : Fact, entry.analyzer.context.IsObject fact.bindingName →
        returned.state.Knows fact → (call.finish unit entry).state.Knows fact := by
  have globals := forgets_globals unit entry.analyzer
  cases call with
  | function callee arguments =>
      have captured : ∀ argument ∈ entry.arguments, ∃ captureName result,
          argument = .captured captureName result ∧
            captureName ∈ entry.analyzer.context.capturedAliases := by
        intro argument member
        obtain ⟨captureName, result, rfl, captured, -⟩ := captures argument member
        exact ⟨captureName, result, rfl, mem_of_captureKey_mem captured⟩
      refine ⟨_, ?_, knows_releaseStaticCallArguments captured _⟩
      apply (forgets_arguments globals _).congr
      · intro name
        simp [CallEntry.writtenRanges, or_and_right, exists_or, or_assoc]
      · intro argument member
        obtain ⟨captureName, result, rfl, captured, notGlobal, apart⟩ := captures argument member
        refine ⟨captureName, result, rfl, captured, ?_, ?_⟩
        · rintro (global | ⟨range, bound, forgotten⟩)
          · exact notGlobal global
          · exact not_forgotten_captured captured
              (apart range (List.mem_append_left _ bound)) forgotten
        · intro other member
          apply not_forgotten_captured captured
          apply apart _ (List.mem_append_right _ _)
          exact List.mem_map_of_mem member
  | operation callee arguments =>
      refine ⟨_, ?_, .refl _, fun _ _ => id⟩
      obtain ⟨located, bound⟩ := forgets_ranges entry.borrowed entry.analyzer
      have forgets := located.trans (forgets_globals unit _)
      apply forgets.congr
      intro name
      simp only [globalRanges, located.context, bound, CallEntry.writtenRanges, List.mem_append,
        or_and_right, exists_or]
      exact or_rotate.symm
  | format value file =>
      refine ⟨_, ?_, .refl _, fun _ _ => id⟩
      apply globals.congr
      simp [CallEntry.writtenRanges]
  | multiReturn arguments targets =>
      refine ⟨_, ?_, .refl _, fun _ _ => id⟩
      have forgets := globals.trans
        (forgets_targets targets (invalidateStaticGlobalFacts unit entry.analyzer))
      apply forgets.congr
      intro name
      have moved := (forgets_invalidateStaticGlobals unit entry.analyzer.context.globalBindings.2
        entry.analyzer).2
      have ranges (target : String × Nat) :
          bindingRange (invalidateStaticGlobalFacts unit entry.analyzer).state target.1 0 target.2 =
            if target.1 ∈ entry.analyzer.context.globalBindings.1 ∧
                target.1 ∈ unit.potentiallyReboundBindings then none
            else bindingRange entry.analyzer.state target.1 0 target.2 := by
        split
        · rename_i rebound
          exact bindingRange_unknown ((moved target.1).trans (if_pos rebound)) 0 target.2
        · rename_i fixed
          exact bindingRange_congr ((moved target.1).trans (if_neg fixed)) 0 target.2
      simp only [ranges, globals.context, CallEntry.writtenRanges, List.mem_append, or_and_right,
        exists_or]
      exact or_assoc.symm

/-- After a call it is known of an object what was known before, unless the call is taken to
write the object. -/
theorem knows_finish_iff (captures : entry.Captures unit call) {fact : Fact}
    (object : entry.analyzer.context.IsObject fact.bindingName) :
    (call.finish unit entry).state.Knows fact ↔
      entry.analyzer.state.Knows fact ∧ ¬entry.Invalidates unit call fact.bindingName := by
  obtain ⟨returned, forgets, weaker, kept⟩ := forgets_finish captures
  have same : (call.finish unit entry).state.Knows fact ↔ returned.state.Knows fact :=
    ⟨weaker fact, kept fact object⟩
  rw [same, forgets.knows_iff (.inr object.2)]
  unfold CallEntry.Invalidates
  simp only [mayWrite_iff_forgotten object]

theorem finish_weaker (captures : entry.Captures unit call) :
    (call.finish unit entry).state.Weaker entry.analyzer.state := by
  obtain ⟨returned, forgets, weaker, -⟩ := forgets_finish captures
  exact weaker.trans forgets.weaker

end Finish

section Soundness
variable {unit : TranslationUnit} {call : UserCall} {analyzer : Analyzer Context}
  {store : ObjectStore} {roots : Set String}

/-- What is known after a call of a function of the program is true whatever the function writes to
the objects it can reach, exactly if nothing is known of the objects that the call is not taken to
write. -/
theorem userCall_describes_iff (captures : (call.enter unit analyzer).Captures unit call)
    (objects : ∀ name, store.Reaches roots name →
      (call.enter unit analyzer).analyzer.context.IsObject name)
    (described : store.IsDescribedBy (call.enter unit analyzer).analyzer.state) :
    (∀ contents, (∀ name, ¬store.Reaches roots name → contents name = store.contents name) →
      (store.written contents).IsDescribedBy (visitAction unit call.action analyzer).state ∧
        ∀ forms result node, call.node result = some node →
          (store.written contents).IsDescribedBy (visit unit forms node analyzer).state) ↔
    ∀ fact, (call.enter unit analyzer).analyzer.state.Knows fact →
      store.Reaches roots fact.bindingName →
        (call.enter unit analyzer).Invalidates unit call fact.bindingName := by
  have finished (node : Node) (forms : Bool) (result : ViewSemantics)
      (isNode : call.node result = some node) :
      (visit unit forms node analyzer).state = (visitAction unit call.action analyzer).state := by
    rw [UserCall.visitAction_eq, UserCall.visit_eq unit isNode]
  constructor
  · intro sound fact known reached
    by_contra kept
    have after : (visitAction unit call.action analyzer).state.Knows fact := by
      rw [UserCall.visitAction_eq]
      exact (knows_finish_iff captures (objects _ reached)).mpr ⟨known, kept⟩
    obtain ⟨word, wrong⟩ := store.exists_not_reads fact (store.byteLength_pos fact.bindingName)
    let contents := Function.update store.contents fact.bindingName word
    have writes (name : String) (unreached : ¬store.Reaches roots name) :
        contents name = store.contents name := by
      have other : name ≠ fact.bindingName := by
        rintro rfl
        exact unreached reached
      exact Function.update_of_ne other _ _
    have holds := (sound contents writes).1 fact after
    have changed : contents fact.bindingName = word := Function.update_self _ _ _
    apply wrong
    have reads : store.Reads fact (contents fact.bindingName) := holds
    rwa [changed] at reads
  · intro covered contents writes
    have describes : (store.written contents).IsDescribedBy
        (visitAction unit call.action analyzer).state := by
      intro fact known
      rw [UserCall.visitAction_eq] at known
      have before := finish_weaker captures fact known
      by_cases reached : store.Reaches roots fact.bindingName
      · have kept := (knows_finish_iff captures (objects _ reached)).mp known
        exact absurd (covered fact before reached) kept.2
      · show store.Reads fact (contents fact.bindingName)
        rw [writes _ reached]
        exact described fact before
    refine ⟨describes, ?_⟩
    intro forms result node isNode
    rw [finished node forms result isNode]
    exact describes

end Soundness

section Published

def plainUnit : TranslationUnit where
  potentiallyReboundBindings := ∅
  viewParameterCopies _ := none
  isCStringParameter _ _ _ := false

/-- The start of a function in a program with the pointer `g`. -/
def pointerProgram : Analyzer Context where
  state := .empty
  context := {
    definitionByteLengths := Finmap.singleton "g" 8
    globalBindings := ⟨["g"], by decide⟩
    capturedAliases := ∅
    capturedRanges := ∅
    nextStaticCallCaptureId := 0 }

/-- The local byte `x` is declared and set to 1. -/
def countOne : Actions :=
  .cons (.localMemory "x" 1 .local)
    (.cons (.integerStore "x" 0 1 (.literal (.integerLiteral ['1'] (signedIntegerResult 1))
      (signedIntegerResult 1))) .nil)

/-- The address of `x` is stored in `g`. -/
def publishAddress : Action :=
  .integerStore "g" 0 8 (.addressOf "x" 1 0 (fixedResult .addr pointerByteLength))

def counted : Analyzer Context :=
  visitActions plainUnit countOne pointerProgram

def published : Analyzer Context :=
  visitAction plainUnit publishAddress counted

/-- A call without arguments. -/
def plainCall : UserCall :=
  .function ⟨{ builtin := .none, overloadIndex := 0, formatArgumentKinds := [], knownExtent := none },
    rfl⟩ .nil

/-- The store in which `x` is 1 and `g` holds an address. -/
def pointerStore (word : Nat) : ObjectStore where
  address name := if name = "x" then 256 else if name = "g" then 512 else 1024
  byteLength name := if name = "g" then 8 else 1
  byteLength_pos name := by
    split
    · decide
    · decide
  contents name := BitVec.ofNat _ (if name = "x" then 1 else if name = "g" then word else 0)

theorem knows_counted {fact : Fact} (known : counted.state.Knows fact) :
    fact = .integer "x" 1 ∨ fact = .unsignedInteger "x" 1 := by
  have nothing {Known : Type} {name : String} {value : Known} (known :
      ((((∅ : FactMap String (Option Known)).insert "x" none).insert "x" none).lookup name) =
        some (some value)) : False := by
    rw [lookup_insert_none_iff, lookup_insert_none_iff, Finmap.lookup_empty] at known
    cases known.1.1
  cases fact with
  | integer name value =>
      have known : ((((∅ : FactMap String (Option Int)).insert "x" none).insert "x" none).insert "x"
        (some 1)).lookup name = some (some value) := known
      rcases lookup_insert_known known with ⟨rfl, same⟩ | ⟨-, earlier⟩
      · obtain rfl := Option.some.inj same
        exact .inl rfl
      · exact (nothing earlier).elim
  | unsignedInteger name value =>
      have known : ((((∅ : FactMap String (Option Nat)).insert "x" none).insert "x" none).insert "x"
        (some 1)).lookup name = some (some value) := known
      rcases lookup_insert_known known with ⟨rfl, same⟩ | ⟨-, earlier⟩
      · obtain rfl := Option.some.inj same
        exact .inr rfl
      · exact (nothing earlier).elim
  | address name value =>
      have known : (((((∅ : FactMap String (Option StaticAddressFact)).insert "x" none).erase
        "$store.address").insert "x" none).insert "x" none).lookup name = some (some value) := known
      rw [lookup_insert_none_iff, lookup_insert_none_iff] at known
      have earlier := lookup_erase_known known.1.1
      rw [lookup_insert_none_iff, Finmap.lookup_empty] at earlier
      cases earlier.1
  | termination name value =>
      have known : ((((∅ : FactMap String (Option Bool)).insert "x" none).insert "x" none).insert "x"
        none).lookup name = some (some value) := known
      rw [lookup_insert_none_iff] at known
      exact (nothing known.1).elim

theorem counted_describes (word : Nat) : (pointerStore word).IsDescribedBy counted.state := by
  intro fact known
  rcases knows_counted known with rfl | rfl
  · left
    show (BitVec.ofNat (1 * 8) 1).toInt = 1
    decide
  · show (BitVec.ofNat (1 * 8) 1).toNat = 1
    decide

/-- The address that `g` is known to hold once it is published. -/
def addressOfCount : StaticAddressFact where
  origin := .nonDynamicObject
  dynamicObjectId := 0
  isBaseAddress := true
  range := some { bindingName := "x", lowerBound := 0, offset := 0, upperBound := 1 }

theorem knows_published {fact : Fact} (known : published.state.Knows fact) :
    counted.state.Knows fact ∨ fact = .address "g" addressOfCount := by
  cases fact with
  | integer name value =>
      have known : ((counted.state.integerValues.insert "g" none).insert "g" none).lookup name =
        some (some value) := known
      rw [lookup_insert_none_iff, lookup_insert_none_iff] at known
      exact .inl known.1.1
  | unsignedInteger name value =>
      have known : ((counted.state.unsignedIntegerValues.insert "g" none).insert "g"
        none).lookup name = some (some value) := known
      rw [lookup_insert_none_iff, lookup_insert_none_iff] at known
      exact .inl known.1.1
  | address name value =>
      have known : (((counted.state.addressFacts.erase "$store.address").insert "g" none).insert "g"
        (some addressOfCount)).lookup name = some (some value) := known
      rcases lookup_insert_known known with ⟨rfl, same⟩ | ⟨-, earlier⟩
      · obtain rfl := Option.some.inj same
        exact .inr rfl
      · rw [lookup_insert_none_iff] at earlier
        exact .inl (lookup_erase_known earlier.1)
  | termination name value =>
      have known : ((counted.state.cstrTerminations.insert "g" none).insert "g" none).lookup name =
        some (some value) := known
      rw [lookup_insert_none_iff, lookup_insert_none_iff] at known
      exact .inl known.1.1

/-- `x = 1; g = &x; f();` where `f` stores 0 through `g`. -/
theorem userCall_not_describes :
    ∃ contents, (pointerStore 256).IsDescribedBy published.state ∧
      (∀ name, ¬(pointerStore 256).Reaches {"g"} name →
        contents name = (pointerStore 256).contents name) ∧
      ¬((pointerStore 256).written contents).IsDescribedBy
        (visitAction plainUnit plainCall.action published).state := by
  let contents (name : String) : BitVec ((pointerStore 256).byteLength name * 8) :=
    if name = "x" then 0 else (pointerStore 256).contents name
  refine ⟨contents, ?_, ?_, ?_⟩
  · intro fact known
    rcases knows_published known with earlier | rfl
    · exact counted_describes 256 fact earlier
    · refine ⟨by decide, ?_⟩
      intro range member
      obtain rfl := Option.some.inj member
      decide
  · intro name unreached
    have reached : (pointerStore 256).Reaches {"g"} "x" := by
      apply ObjectStore.Reaches.stored (.root (Set.mem_singleton "g"))
      exact ⟨0, by decide, by decide, by decide⟩
    have other : name ≠ "x" := by
      rintro rfl
      exact unreached reached
    exact if_neg other
  · intro described
    have known : (visitAction plainUnit plainCall.action published).state.Knows (.integer "x" 1) :=
      rfl
    have holds := described _ known
    revert holds
    show ¬((0#8).toInt = 1 ∨ ((0#8).toNat : Int) = 1)
    decide

/-- `x = 1; f();` where the address of `x` is stored nowhere. -/
theorem userCall_describes_iff_private :
    ((pointerStore 0).written
        (Function.update (pointerStore 0).contents "g" (BitVec.allOnes _))).IsDescribedBy
      (visitAction plainUnit plainCall.action counted).state := by
  have reached (name : String) (reaches : (pointerStore 0).Reaches {"g"} name) : name = "g" := by
    induction reaches with
    | root known => exact known
    | @stored object target _ points same =>
        subst same
        obtain ⟨offset, inside, low, -⟩ := points
        obtain rfl : offset = 0 := by
          have bound : offset + 8 ≤ 8 := inside
          omega
        have below : (pointerStore 0).address target ≤ 0 := low
        have above : 256 ≤ (pointerStore 0).address target := by
          unfold pointerStore
          dsimp only
          split
          · exact le_rfl
          · split
            · decide
            · decide
        omega
  have captures : (plainCall.enter plainUnit counted).Captures plainUnit plainCall := nofun
  have objects (name : String) (reaches : (pointerStore 0).Reaches {"g"} name) :
      (plainCall.enter plainUnit counted).analyzer.context.IsObject name := by
    obtain rfl := reached name reaches
    exact ⟨by decide, by decide⟩
  have unknown (fact : Fact) (known : counted.state.Knows fact)
      (reaches : (pointerStore 0).Reaches {"g"} fact.bindingName) :
      (plainCall.enter plainUnit counted).Invalidates plainUnit plainCall fact.bindingName := by
    have global := reached _ reaches
    rcases knows_counted known with rfl | rfl
    · exact absurd global (by decide)
    · exact absurd global (by decide)
  refine ((userCall_describes_iff captures objects (counted_describes 0)).mpr unknown _ ?_).1
  intro name unreached
  refine Function.update_of_ne ?_ _ _
  rintro rfl
  exact unreached (.root rfl)

end Published

end HitSimple.Safety.Visitor

import HitSimple.Format.Analysis
import Mathlib.Data.List.Forall2

namespace HitSimple.Sema
open FixedWidth Format Literal HitSimple.Runtime

theorem formatItem_specifier {conversion : Conversion} {item : FormatItem}
    (found : formatItem conversion = .ok item) : conversion.specifier ≠ 0#8 := by
  intro nul
  rw [formatItem, nul] at found
  have unknown : ¬ (isIntegerSpecifier 0#8 ∨ 0#8 = letter 's' ∨ 0#8 = letter 'p' ∨
      0#8 = letter 'c') := by decide
  rw [if_neg (by decide), if_neg unknown] at found
  split at found <;> cases found

/-- The analyzer's item of a conversion is the runtime's, if the width fits. -/
theorem formatItem_ok_iff {conversion : Conversion} {item : FormatItem}
    (fits : width conversion.digits ≤ maxUInt64) :
    formatItem conversion = .ok item ↔
      WellFormed conversion ∧ item = conversionItem conversion := by
  rw [formatItem, parseByteLength, if_pos fits]
  constructor
  · intro found
    split_ifs at found with isFloat known wide reads
    · refine ⟨⟨?_, fun other => absurd isFloat other, fun _ => known⟩, ?_⟩
      · exact .inr (.inr (.inr (.inr isFloat)))
      · rw [conversionItem, if_pos isFloat]
        exact (Except.ok.inj found).symm
    · refine ⟨⟨by tauto, fun _ => not_not.mp wide, fun float => absurd float isFloat⟩, ?_⟩
      rw [conversionItem, if_neg isFloat]
      exact (Except.ok.inj found).symm
  · rintro ⟨formed, rfl⟩
    by_cases isFloat : conversion.specifier = letter 'f'
    · rw [if_pos isFloat, if_pos (formed.float isFloat), conversionItem, if_pos isFloat]
    · have reads : isIntegerSpecifier conversion.specifier ∨ conversion.specifier = letter 's' ∨
          conversion.specifier = letter 'p' ∨ conversion.specifier = letter 'c' := by
        have known := formed.known
        tauto
      rw [if_neg isFloat, if_neg (not_not.mpr (formed.integer isFloat)), if_pos reads,
        conversionItem, if_neg isFloat]

theorem parseItems_ok_iff {tokens : List Token} {items : List FormatItem} :
    parseItems tokens = .ok items ↔
      Terminated tokens ∧
        List.Forall₂ (fun conversion item => formatItem conversion = .ok item)
          (conversions tokens) items := by
  induction tokens generalizing items with
  | nil =>
      refine ⟨fun same => ?_, fun ⟨_, matched⟩ => ?_⟩
      · rw [← Except.ok.inj same]
        exact ⟨terminated_nil, .nil⟩
      · cases matched
        rfl
  | cons token rest ih =>
      cases token with
      | text byte =>
          rw [terminated_text, conversions_text, ← ih]
          rfl
      | percent =>
          rw [terminated_percent, conversions_percent, ← ih]
          rfl
      | unterminated digits =>
          exact ⟨nofun, fun ⟨terminated, _⟩ => absurd terminated not_terminated_unterminated⟩
      | conversion conversion =>
          rw [terminated_conversion, conversions_conversion, parseItems, bind_ok_iff]
          simp only [bind_ok_iff]
          constructor
          · rintro ⟨item, first, later, found, same⟩
            rw [← Except.ok.inj same]
            obtain ⟨terminated, matched⟩ := ih.mp found
            exact ⟨terminated, .cons first matched⟩
          · rintro ⟨terminated, matched⟩
            cases matched with
            | cons first later => exact ⟨_, first, _, ih.mpr ⟨terminated, later⟩, rfl⟩

/-- No conversion is lost at a NUL, and no width overflows. -/
def ReadsAlike (format : List Byte) : Prop :=
  conversions (tokens (visible format)) = conversions (tokens format) ∧
    ∀ conversion ∈ conversions (tokens format), width conversion.digits ≤ maxUInt64

section Literal
variable {format : List Byte} {items : List FormatItem}

/-- A literal that the analyzer accepts is cut by a NUL between its conversions. -/
theorem parseLiteralFormat_visible (parsed : parseLiteralFormat format = .ok items) :
    (∃ rest, conversions (tokens format) = conversions (tokens (visible format)) ++ rest) ∧
      Terminated (tokens (visible format)) := by
  obtain ⟨terminated, matched⟩ := parseItems_ok_iff.mp parsed
  have noNul := ((List.forall₂_and_left _ _).mp
    (matched.imp fun conversion item found => ⟨formatItem_specifier found, found⟩)).1
  exact ⟨(tokens_visible noNul).1, (tokens_visible noNul).2 terminated⟩

/-- The items of a literal are those that the runtime finds, if it reads alike. -/
theorem readsAlike_iff (parsed : parseLiteralFormat format = .ok items) :
    ReadsAlike format ↔
      (∀ conversion ∈ conversions (tokens (visible format)), WellFormed conversion) ∧
        items = (conversions (tokens (visible format))).map conversionItem := by
  obtain ⟨-, matched⟩ := parseItems_ok_iff.mp parsed
  constructor
  · rintro ⟨same, fit⟩
    have formed : List.Forall₂ (fun conversion item =>
        WellFormed conversion ∧ item = conversionItem conversion) (conversions (tokens format)) items := by
      refine ((List.forall₂_and_left _ _).mpr ⟨fit, matched⟩).imp fun conversion item found => ?_
      exact (formatItem_ok_iff found.1).mp found.2
    obtain ⟨allFormed, stand⟩ := (List.forall₂_and_left _ _).mp formed
    rw [same]
    refine ⟨allFormed, ?_⟩
    rw [← List.forall₂_eq_eq_eq, List.forall₂_map_right_iff]
    exact stand.flip
  · rintro ⟨formed, stand⟩
    obtain ⟨⟨rest, whole⟩, -⟩ := parseLiteralFormat_visible parsed
    have lengths := matched.length_eq
    rw [stand, List.length_map, whole, List.length_append] at lengths
    have nothing : rest = [] := List.length_eq_zero_iff.mp (by omega)
    rw [nothing, List.append_nil] at whole
    refine ⟨whole.symm, fun conversion member => (formed conversion ?_).width_le⟩
    rwa [← whole]

theorem hsFormatOutput_literal {checked : Bool} {arguments : List FormatArg}
    (parsed : parseLiteralFormat format = .ok items) :
    (∃ pieces, hsFormatOutput checked (tokens (visible format)) arguments = .ok pieces ∧
        pieces.filterMap Piece.item? = items) ↔
      ReadsAlike format ∧
        List.Forall₂ (SuitsArgument checked) (conversions (tokens format)) arguments := by
  obtain ⟨-, terminated⟩ := parseLiteralFormat_visible parsed
  constructor
  · rintro ⟨pieces, written, matched⟩
    obtain ⟨-, suited⟩ := hsFormatOutput_ok_iff.mp ⟨pieces, written⟩
    obtain ⟨formed, suits⟩ := (List.forall₂_and_left _ _).mp suited
    have alike := (readsAlike_iff parsed).mpr
      ⟨formed, matched.symm.trans (hsFormatOutput_items written)⟩
    exact ⟨alike, alike.1 ▸ suits⟩
  · rintro ⟨alike, suits⟩
    obtain ⟨formed, stand⟩ := (readsAlike_iff parsed).mp alike
    obtain ⟨pieces, written⟩ := hsFormatOutput_ok_iff.mpr
      ⟨terminated, (List.forall₂_and_left _ _).mpr ⟨formed, alike.1 ▸ suits⟩⟩
    exact ⟨pieces, written, (hsFormatOutput_items written).trans stand.symm⟩

theorem hsValidateScanFormat_literal {targets : List ScanTarget}
    (parsed : parseLiteralFormat format = .ok items)
    (capacities : List.Forall₂ (fun item (target : ScanTarget) =>
      suitsCapacity item target.capacity = true) items targets) :
    hsValidateScanFormat (tokens (visible format)) targets = .ok items ↔
      ReadsAlike format ∧
        List.Forall₂ (fun conversion (target : ScanTarget) =>
          suitsKind conversion.specifier target.kind = true) (conversions (tokens format)) targets := by
  obtain ⟨-, terminated⟩ := parseLiteralFormat_visible parsed
  rw [hsValidateScanFormat_ok_iff, and_iff_right terminated, List.forall₂_and_left]
  constructor
  · rintro ⟨⟨formed, suits⟩, stand⟩
    have alike := (readsAlike_iff parsed).mpr ⟨formed, stand⟩
    refine ⟨alike, alike.1 ▸ suits.imp fun conversion target found => found.2⟩
  · rintro ⟨alike, kinds⟩
    obtain ⟨formed, stand⟩ := (readsAlike_iff parsed).mp alike
    rw [stand, List.forall₂_map_left_iff] at capacities
    refine ⟨⟨formed, ?_⟩, stand⟩
    exact capacities.mp (fun conversion target capacity kind => ⟨capacity, kind⟩) (alike.1 ▸ kinds)

end Literal

section Views

/-- The View of an argument, as it is lowered, suits its conversion. -/
def SuitsView (checked : Bool) (conversion : Conversion) (argument : FormatArgument) : Prop :=
  ∀ view, argument.lowered = .ok view → SuitsArgument checked conversion view

/-- The template of a target, as it is resolved, suits its conversion. -/
def SuitsTemplate (conversion : Conversion) (target : ScanTargetExpr) : Prop :=
  ∀ reference, target.reference = .ok reference →
    suitsKind conversion.specifier (scanKind reference.templateName) = true

theorem mapM_lowered {arguments : List FormatArgument} {views : List FormatArg}
    (found : arguments.mapM (·.lowered) = .ok views) :
    List.Forall₂ (fun argument view => argument.lowered = .ok view) arguments views := by
  induction arguments generalizing views with
  | nil =>
      rw [← Except.ok.inj found]
      exact .nil
  | cons argument arguments ih =>
      rw [List.mapM_cons, bind_ok_iff] at found
      obtain ⟨view, first, found⟩ := found
      obtain ⟨later, found, same⟩ := bind_ok_iff.mp found
      rw [← Except.ok.inj same]
      exact .cons first (ih found)

theorem suitsView_iff {checked : Bool} {conversions : List Conversion}
    {arguments : List FormatArgument} {views : List FormatArg}
    (lowered : List.Forall₂ (fun argument view => argument.lowered = .ok view) arguments views) :
    List.Forall₂ (SuitsView checked) conversions arguments ↔
      List.Forall₂ (SuitsArgument checked) conversions views := by
  induction lowered generalizing conversions with
  | nil => rw [List.forall₂_nil_right_iff, List.forall₂_nil_right_iff]
  | cons first _ ih =>
      cases conversions with
      | nil => exact ⟨nofun, nofun⟩
      | cons conversion conversions =>
          rw [List.forall₂_cons, List.forall₂_cons, ih]
          refine and_congr_left fun _ => ⟨fun suits => suits _ first, fun suits view found => ?_⟩
          rwa [← Except.ok.inj (first.symm.trans found)]

theorem validateInputTarget_none {conversion : Conversion} {item : FormatItem} {length : Nat}
    (parsed : formatItem conversion = .ok item) (valid : validateInputTarget item length = none) :
    suitsCapacity item length = true := by
  have known : isIntegerSpecifier item.specifier = true ∨ item.specifier = letter 's' ∨
      item.specifier = letter 'p' ∨ item.specifier = letter 'c' ∨ item.specifier = letter 'f' := by
    rw [formatItem] at parsed
    split_ifs at parsed with isFloat known wide reads
    · rw [← Except.ok.inj parsed]
      tauto
    · rw [← Except.ok.inj parsed]
      tauto
  unfold validateInputTarget at valid
  unfold suitsCapacity
  split_ifs at valid ⊢ with string character
  · exact absurd (string.symm.trans character) (by decide)
  · exact decide_eq_true (not_lt.mp ‹_›)
  · exact decide_eq_true (not_lt.mp ‹_›)
  · exact decide_eq_true (not_not.mp ‹_›)
  · exact decide_eq_true (not_not.mp ‹_›)
  · have integer : isIntegerSpecifier item.specifier = true := by tauto
    exact Bool.eq_true_of_not_eq_false fun other => ‹¬ (_ ∧ _)› ⟨integer, other⟩

/-- What is known of the lowered targets of an accepted left context. -/
theorem lowerScanTargets_ok {matched : List Conversion} {items : List FormatItem}
    {targets : List ScanTargetExpr} {lowered : List ScanTarget}
    (parsed : List.Forall₂ (fun conversion item => formatItem conversion = .ok item) matched items)
    (lengths : targets.length = items.length)
    (found : lowerScanTargets items targets = .ok lowered) :
    List.Forall₂ (fun item (target : ScanTarget) => suitsCapacity item target.capacity = true)
        items lowered ∧
      (List.Forall₂ SuitsTemplate matched targets ↔
        List.Forall₂ (fun conversion (target : ScanTarget) =>
          suitsKind conversion.specifier target.kind = true) matched lowered) := by
  induction parsed generalizing targets lowered with
  | nil =>
      obtain rfl := List.length_eq_zero_iff.mp lengths
      rw [← Except.ok.inj found]
      exact ⟨.nil, ⟨fun _ => .nil, fun _ => .nil⟩⟩
  | cons first _ ih =>
      cases targets with
      | nil => cases lengths
      | cons target targets =>
          rw [lowerScanTargets] at found
          split_ifs at found with op discard
          obtain ⟨reference, resolved, found⟩ := bind_ok_iff.mp found
          cases valid : validateInputTarget _ reference.byteLength with
          | some diagnostic =>
              rw [valid] at found
              cases found
          | none =>
              rw [valid] at found
              obtain ⟨later, found, same⟩ := bind_ok_iff.mp found
              rw [← Except.ok.inj same]
              obtain ⟨capacities, templates⟩ := ih (Nat.succ.inj lengths) found
              refine ⟨.cons (validateInputTarget_none first valid) capacities, ?_⟩
              rw [List.forall₂_cons, List.forall₂_cons, templates]
              refine and_congr_left fun _ => ⟨fun suits => suits _ resolved, fun suits other found => ?_⟩
              rwa [← Except.ok.inj (resolved.symm.trans found)]

end Views

/-- A format call with a literal format. -/
inductive FormatCall where
  | output (call : OutputCall)
  | input (call : InputCall)

namespace FormatCall

/-- Where the analyzer accepts a call, the runtime parses its format without an error, and finds
the items that the analyzer has matched. -/
def Agrees (checked : Bool) : FormatCall → Prop
  | .output call => ∀ lowering, analyzeOutputCall call = .ok lowering →
      ∃ pieces, hsFormatOutput checked (tokens (visible lowering.format)) lowering.arguments =
          .ok pieces ∧
        ∀ items ∈ lowering.items, pieces.filterMap Piece.item? = items
  | .input call => ∀ lowering, lowerInputLeftContext call = .ok lowering →
      hsValidateScanFormat (tokens (visible lowering.format)) lowering.targets = .ok lowering.items

def IsAccepted : FormatCall → Prop
  | .output call => ∃ lowering, analyzeOutputCall call = .ok lowering
  | .input call => ∃ lowering, lowerInputLeftContext call = .ok lowering

/-- The format reads alike, and its conversions suit the arguments.  An expression checks no
format. -/
def Suits (checked : Bool) : FormatCall → Prop
  | .output call =>
      call.isPlainPrint = true ∨
      if call.isStatement then
        ReadsAlike call.format ∧
          List.Forall₂ (SuitsView checked) (conversions (tokens call.format)) call.arguments
      else
        Terminated (tokens (visible call.format)) ∧
          List.Forall₂ (fun conversion argument =>
            WellFormed conversion ∧ SuitsView checked conversion argument)
            (conversions (tokens (visible call.format))) call.arguments
  | .input call =>
      ReadsAlike call.format ∧
        List.Forall₂ SuitsTemplate (conversions (tokens call.format)) call.targets

end FormatCall

theorem mapError_ok_iff {action : Except String (List FormatItem)} {rename : String → String}
    {items : List FormatItem} : action.mapError rename = .ok items ↔ action = .ok items := by
  cases action with
  | error message => exact ⟨nofun, nofun⟩
  | ok items' => exact Iff.rfl

/-- An accepted output call other than a plain print. -/
theorem analyzeOutputCall_ok {call : OutputCall} {lowering : OutputLowering}
    (accepted : analyzeOutputCall call = .ok lowering) (formats : call.isPlainPrint = false) :
    lowering.format = call.format ∧
      List.Forall₂ (fun argument view => argument.lowered = .ok view) call.arguments
        lowering.arguments ∧
      if call.isStatement then
        ∃ items, lowering.items = some items ∧ parseLiteralFormat call.format = .ok items
      else lowering.items = none := by
  by_cases file : call.builtin = .fprintf ∧ call.fileIsHandle = false
  · rw [analyzeOutputCall, if_pos file] at accepted
    cases accepted
  by_cases userTemplate : call.arguments.any (·.hasUserTemplate) = true
  · rw [analyzeOutputCall, if_neg file, if_neg (Bool.eq_false_iff.mp formats),
      if_pos userTemplate] at accepted
    cases accepted
  rw [analyzeOutputCall, if_neg file, if_neg (Bool.eq_false_iff.mp formats),
    if_neg userTemplate] at accepted
  obtain ⟨views, lowered, accepted⟩ := bind_ok_iff.mp accepted
  have arguments := mapM_lowered lowered
  split_ifs at accepted ⊢
  · obtain ⟨items, parsed, accepted⟩ := bind_ok_iff.mp accepted
    split_ifs at accepted
    rw [← Except.ok.inj accepted]
    exact ⟨rfl, arguments, items, rfl, mapError_ok_iff.mp parsed⟩
  · rw [← Except.ok.inj accepted]
    exact ⟨rfl, arguments, rfl⟩

theorem analyzeOutputCall_plainPrint {call : OutputCall} {lowering : OutputLowering}
    (accepted : analyzeOutputCall call = .ok lowering) (plain : call.isPlainPrint = true)
    (checked : Bool) :
    lowering.items = none ∧ ∃ pieces, hsFormatOutput checked (tokens (visible lowering.format))
      lowering.arguments = .ok pieces := by
  rw [analyzeOutputCall] at accepted
  split_ifs at accepted with file
  rw [← Except.ok.inj accepted]
  refine ⟨rfl, [.converted ⟨letter 's', 0⟩ ⟨call.format.length + 1, .string⟩], ?_⟩
  cases checked <;> rfl

theorem lowerInputLeftContext_ok {call : InputCall} {lowering : InputLowering}
    (accepted : lowerInputLeftContext call = .ok lowering) :
    lowering.format = call.format ∧ parseLiteralFormat call.format = .ok lowering.items ∧
      call.targets.length = lowering.items.length ∧
      lowerScanTargets lowering.items call.targets = .ok lowering.targets := by
  by_cases noTargets : call.targets = []
  · rw [lowerInputLeftContext, if_pos noTargets] at accepted
    cases accepted
  rw [lowerInputLeftContext, if_neg noTargets] at accepted
  obtain ⟨items, parsed, accepted⟩ := bind_ok_iff.mp accepted
  by_cases nothing : items = []
  · rw [if_pos nothing] at accepted
    cases accepted
  by_cases count : call.targets.length = items.length
  · rw [if_neg nothing, if_neg (not_not.mpr count)] at accepted
    obtain ⟨_, _, accepted⟩ := bind_ok_iff.mp accepted
    obtain ⟨targets, lowered, accepted⟩ := bind_ok_iff.mp accepted
    split_ifs at accepted
    rw [← Except.ok.inj accepted]
    exact ⟨rfl, mapError_ok_iff.mp parsed, count, lowered⟩
  · rw [if_neg nothing, if_pos count] at accepted
    cases accepted

/-- An accepted output call goes well when its format suits it. -/
theorem output_agrees_iff {checked : Bool} {call : OutputCall} {lowering : OutputLowering}
    (accepted : analyzeOutputCall call = .ok lowering) :
    (∃ pieces, hsFormatOutput checked (tokens (visible lowering.format)) lowering.arguments =
        .ok pieces ∧ ∀ items ∈ lowering.items, pieces.filterMap Piece.item? = items) ↔
      (FormatCall.output call).Suits checked := by
  cases formats : call.isPlainPrint with
  | true =>
      obtain ⟨noItems, pieces, written⟩ := analyzeOutputCall_plainPrint accepted formats checked
      rw [noItems]
      exact iff_of_true ⟨pieces, written, nofun⟩ (.inl formats)
  | false =>
      obtain ⟨same, lowered, matched⟩ := analyzeOutputCall_ok accepted formats
      rw [FormatCall.Suits, or_iff_right (Bool.eq_false_iff.mp formats), same]
      split_ifs at matched ⊢ with statement
      · obtain ⟨items, found, parsed⟩ := matched
        rw [suitsView_iff lowered, ← hsFormatOutput_literal parsed, found]
        simp only [Option.mem_some_iff, forall_eq']
      · rw [matched, List.forall₂_and_left, suitsView_iff lowered, ← List.forall₂_and_left,
          ← hsFormatOutput_ok_iff]
        exact exists_congr fun pieces => and_iff_left nofun

theorem input_agrees_iff {call : InputCall} {lowering : InputLowering} (checked : Bool)
    (accepted : lowerInputLeftContext call = .ok lowering) :
    hsValidateScanFormat (tokens (visible lowering.format)) lowering.targets = .ok lowering.items ↔
      (FormatCall.input call).Suits checked := by
  obtain ⟨same, parsed, lengths, lowered⟩ := lowerInputLeftContext_ok accepted
  obtain ⟨-, matched⟩ := parseItems_ok_iff.mp parsed
  obtain ⟨capacities, templates⟩ := lowerScanTargets_ok matched lengths lowered
  rw [FormatCall.Suits, templates, same]
  exact hsValidateScanFormat_literal parsed capacities

/-- The checks of a literal format agree exactly where it suits every accepted call. -/
theorem formatChecks_agree_iff (checked : Bool) (call : FormatCall) :
    call.Agrees checked ↔ (call.IsAccepted → call.Suits checked) := by
  cases call with
  | output call =>
      exact ⟨fun agrees ⟨lowering, accepted⟩ =>
          (output_agrees_iff accepted).mp (agrees lowering accepted),
        fun suits lowering accepted => (output_agrees_iff accepted).mpr (suits ⟨lowering, accepted⟩)⟩
  | input call =>
      exact ⟨fun agrees ⟨lowering, accepted⟩ =>
          (input_agrees_iff checked accepted).mp (agrees lowering accepted),
        fun suits lowering accepted =>
          (input_agrees_iff checked accepted).mpr (suits ⟨lowering, accepted⟩)⟩

/-- `_, x = scanf("%d")` where `x` has the template `f32`. -/
def integerIntoFloat : InputCall where
  hasFile := false
  fileIsHandle := false
  fileIsPointerSized := false
  format := [percentSign, letter 'd']
  countOp := "="
  count := .discard
  targets := [{
    op := "="
    isDiscard := false
    reference := .ok { byteLength := 4, templateName := .floating 4 } }]

theorem formatChecks_disagree_integerIntoFloat :
    ¬ (FormatCall.input integerIntoFloat).Agrees true := by
  intro agrees
  have accepted : lowerInputLeftContext integerIntoFloat = .ok {
      format := [percentSign, letter 'd']
      items := [{ specifier := letter 'd', floatByteLength := 0 }]
      targets := [{ capacity := 4, kind := .float }] } := rfl
  have refused : hsValidateScanFormat (tokens (visible [percentSign, letter 'd']))
      [{ capacity := 4, kind := .float }] =
        .error "scan target type mismatch for integer conversion" := rfl
  have found := agrees _ accepted
  rw [refused] at found
  cases found

end HitSimple.Sema

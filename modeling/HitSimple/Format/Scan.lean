import HitSimple.Format.Runtime

namespace HitSimple.Runtime
open FixedWidth Format Literal

inductive ScanKind where
  | any | float | pointer | string
  deriving DecidableEq, Repr

structure ScanTarget where
  capacity : Nat
  kind : ScanKind
  deriving DecidableEq, Repr

def isIntegerCapacity (capacity : Nat) : Bool :=
  capacity == 1 || capacity == 2 || capacity == 4 || capacity == 8

def hsValidateScanTarget (target : ScanTarget) (specifier : Byte) (floatLength : Nat) :
    Except String Unit :=
  if specifier = letter 's' then
    if target.capacity < 2 then .error "scan string target must leave room for a NUL terminator"
    else if target.kind ≠ .any ∧ target.kind ≠ .string then
      .error "scan target type mismatch for %s"
    else .ok ()
  else if specifier = letter 'c' then
    if target.capacity < 1 then .error "scan character target has no capacity"
    else if target.kind ≠ .any then .error "scan target type mismatch for %c"
    else .ok ()
  else if specifier = letter 'p' then
    if target.capacity ≠ 8 then .error "scan pointer target capacity mismatch"
    else if target.kind ≠ .any ∧ target.kind ≠ .pointer then
      .error "scan target type mismatch for %p"
    else .ok ()
  else if specifier = letter 'f' then
    if target.capacity ≠ floatLength then .error "scan float target capacity mismatch"
    else if target.kind ≠ .any ∧ target.kind ≠ .float then
      .error "scan target type mismatch for %f"
    else .ok ()
  else if isIntegerCapacity target.capacity = false then
    .error "scan integer target capacity must be 1, 2, 4, or 8"
  else if target.kind ≠ .any then .error "scan target type mismatch for integer conversion"
  else .ok ()

/-- The item of a scan conversion. -/
def hsScanItem (conversion : Conversion) : Except String FormatItem := do
  let width ← formatWidth "scan format width overflow" conversion.digits
  let specifier := conversion.specifier
  if specifier = letter 'f' then
    if isFloatByteLength (floatByteLength width) then
      .ok { specifier, floatByteLength := floatByteLength width }
    else .error "invalid scan float byte length"
  else if width ≠ 0 then .error "scan byte length is only valid for %f"
  else if isIntegerSpecifier specifier ∨ specifier = letter 'c' ∨ specifier = letter 's' ∨
      specifier = letter 'p' then
    .ok { specifier, floatByteLength := 0 }
  else .error "unknown scan format specifier"

def hsValidateScanFormat : List Token → List ScanTarget → Except String (List FormatItem)
  | [], [] => .ok []
  | [], _ :: _ => .error "scan format item count does not match target count"
  | .text _ :: rest, targets | .percent :: rest, targets => hsValidateScanFormat rest targets
  | .unterminated digits :: _, _ => do
      let _ ← formatWidth "scan format width overflow" digits
      .error "unterminated scan format specifier"
  | .conversion conversion :: rest, targets => do
      let item ← hsScanItem conversion
      match targets with
      | [] => .error "scan format item count does not match target count"
      | target :: targets => do
          hsValidateScanTarget target item.specifier item.floatByteLength
          let items ← hsValidateScanFormat rest targets
          .ok (item :: items)

/-- The capacity that a conversion needs. -/
def suitsCapacity (item : FormatItem) (capacity : Nat) : Bool :=
  if item.specifier = letter 's' then decide (2 ≤ capacity)
  else if item.specifier = letter 'c' then decide (1 ≤ capacity)
  else if item.specifier = letter 'p' then decide (capacity = 8)
  else if item.specifier = letter 'f' then decide (capacity = item.floatByteLength)
  else isIntegerCapacity capacity

/-- The target kinds that a conversion can store into. -/
def suitsKind (specifier : Byte) (kind : ScanKind) : Bool :=
  kind == .any ||
    if specifier = letter 's' then kind == .string
    else if specifier = letter 'c' then false
    else if specifier = letter 'p' then kind == .pointer
    else if specifier = letter 'f' then kind == .float
    else false

theorem hsValidateScanTarget_ok_iff (target : ScanTarget) (item : FormatItem) :
    hsValidateScanTarget target item.specifier item.floatByteLength = .ok () ↔
      suitsCapacity item target.capacity = true ∧ suitsKind item.specifier target.kind = true := by
  obtain ⟨capacity, kind⟩ := target
  unfold hsValidateScanTarget suitsCapacity suitsKind
  by_cases string : item.specifier = letter 's'
  · simp only [if_pos string]
    cases kind <;> split_ifs <;> grind
  · by_cases character : item.specifier = letter 'c'
    · simp only [if_neg string, if_pos character]
      cases kind <;> split_ifs <;> simp_all
      omega
    · by_cases pointer : item.specifier = letter 'p'
      · simp only [if_neg string, if_neg character, if_pos pointer]
        cases kind <;> split_ifs <;> simp_all
      · by_cases float : item.specifier = letter 'f'
        · simp only [if_neg string, if_neg character, if_neg pointer, if_pos float]
          cases kind <;> split_ifs <;> simp_all
        · simp only [if_neg string, if_neg character, if_neg pointer, if_neg float]
          cases kind <;> split_ifs <;> simp_all

theorem bind_ok_iff {Value Result : Type} {action : Except String Value}
    {next : Value → Except String Result} {result : Result} :
    (action >>= next) = .ok result ↔ ∃ value, action = .ok value ∧ next value = .ok result := by
  cases action with
  | error message => exact ⟨nofun, nofun⟩
  | ok value =>
      refine ⟨fun found => ⟨value, rfl, found⟩, fun ⟨_, same, found⟩ => ?_⟩
      rw [Except.ok.inj same]
      exact found

theorem formatWidth_ok_iff {overflow : String} {digits : List Byte} {value : Nat} :
    formatWidth overflow digits = .ok value ↔ width digits ≤ maxUInt64 ∧ value = width digits := by
  rw [formatWidth_eq]
  split_ifs with fits
  · exact ⟨fun same => ⟨fits, (Except.ok.inj same).symm⟩, fun ⟨_, same⟩ => congrArg _ same.symm⟩
  · exact ⟨nofun, fun ⟨fits', _⟩ => absurd fits' fits⟩

theorem hsScanItem_ok_iff {conversion : Conversion} {item : FormatItem} :
    hsScanItem conversion = .ok item ↔
      WellFormed conversion ∧ item = conversionItem conversion := by
  rw [hsScanItem, bind_ok_iff]
  simp only [formatWidth_ok_iff]
  constructor
  · rintro ⟨_, ⟨fits, rfl⟩, found⟩
    split_ifs at found with isFloat known wide reads
    · refine ⟨⟨?_, fun other => absurd isFloat other, fun _ => known⟩, ?_⟩
      · exact .inr (.inr (.inr (.inr isFloat)))
      · rw [conversionItem, if_pos isFloat]
        exact (Except.ok.inj found).symm
    · refine ⟨⟨by tauto, fun _ => not_not.mp wide, fun float => absurd float isFloat⟩, ?_⟩
      rw [conversionItem, if_neg isFloat]
      exact (Except.ok.inj found).symm
  · rintro ⟨formed, rfl⟩
    refine ⟨_, ⟨formed.width_le, rfl⟩, ?_⟩
    by_cases isFloat : conversion.specifier = letter 'f'
    · rw [if_pos isFloat, if_pos (formed.float isFloat), conversionItem, if_pos isFloat]
    · have reads : isIntegerSpecifier conversion.specifier ∨ conversion.specifier = letter 'c' ∨
          conversion.specifier = letter 's' ∨ conversion.specifier = letter 'p' := by
        have known := formed.known
        tauto
      rw [if_neg isFloat, if_neg (not_not.mpr (formed.integer isFloat)), if_pos reads,
        conversionItem, if_neg isFloat]

/-- A target suits a conversion in its capacity and its kind. -/
def SuitsTarget (conversion : Conversion) (target : ScanTarget) : Prop :=
  suitsCapacity (conversionItem conversion) target.capacity = true ∧
    suitsKind conversion.specifier target.kind = true

theorem hsValidateScanFormat_conversion {conversion : Conversion} {rest : List Token}
    {target : ScanTarget} {targets : List ScanTarget} {items : List FormatItem} :
    hsValidateScanFormat (.conversion conversion :: rest) (target :: targets) = .ok items ↔
      (WellFormed conversion ∧ SuitsTarget conversion target) ∧
        ∃ later, hsValidateScanFormat rest targets = .ok later ∧
          items = conversionItem conversion :: later := by
  simp only [hsValidateScanFormat, bind_ok_iff, hsScanItem_ok_iff]
  constructor
  · rintro ⟨_, ⟨formed, rfl⟩, ⟨⟩, suited, later, found, same⟩
    have suits := (hsValidateScanTarget_ok_iff target _).mp suited
    exact ⟨⟨formed, suits⟩, later, found, (Except.ok.inj same).symm⟩
  · rintro ⟨⟨formed, suits⟩, later, found, rfl⟩
    exact ⟨_, ⟨formed, rfl⟩, (), (hsValidateScanTarget_ok_iff target _).mpr suits, later, found, rfl⟩

theorem hsValidateScanFormat_conversion_nil {conversion : Conversion} {rest : List Token}
    {items : List FormatItem} :
    hsValidateScanFormat (.conversion conversion :: rest) [] ≠ .ok items := by
  rw [hsValidateScanFormat, Ne, bind_ok_iff]
  rintro ⟨_, _, found⟩
  cases found

theorem hsValidateScanFormat_unterminated {digits : List Byte} {rest : List Token}
    {targets : List ScanTarget} {items : List FormatItem} :
    hsValidateScanFormat (.unterminated digits :: rest) targets ≠ .ok items := by
  rw [hsValidateScanFormat, Ne, bind_ok_iff]
  rintro ⟨_, _, found⟩
  cases found

/-- A scan format goes well when it is terminated, and its conversions are well formed, one for
each target, which suits it. -/
theorem hsValidateScanFormat_ok_iff {tokens : List Token} {targets : List ScanTarget}
    {items : List FormatItem} :
    hsValidateScanFormat tokens targets = .ok items ↔
      (Terminated tokens ∧
        List.Forall₂ (fun conversion target =>
          WellFormed conversion ∧ SuitsTarget conversion target) (conversions tokens) targets) ∧
      items = (conversions tokens).map conversionItem := by
  induction tokens generalizing targets items with
  | nil =>
      cases targets with
      | nil =>
          refine ⟨fun same => ⟨⟨terminated_nil, .nil⟩, (Except.ok.inj same).symm⟩, ?_⟩
          rintro ⟨_, rfl⟩
          rfl
      | cons target targets => exact ⟨nofun, fun ⟨⟨_, suited⟩, _⟩ => by cases suited⟩
  | cons token rest ih =>
      cases token with
      | text byte =>
          rw [terminated_text, conversions_text, ← ih]
          rfl
      | percent =>
          rw [terminated_percent, conversions_percent, ← ih]
          rfl
      | unterminated digits =>
          exact ⟨fun found => absurd found hsValidateScanFormat_unterminated,
            fun ⟨⟨terminated, _⟩, _⟩ => absurd terminated not_terminated_unterminated⟩
      | conversion conversion =>
          rw [terminated_conversion, conversions_conversion]
          cases targets with
          | nil =>
              exact ⟨fun found => absurd found hsValidateScanFormat_conversion_nil,
                fun ⟨⟨_, suited⟩, _⟩ => by cases suited⟩
          | cons target targets =>
              rw [hsValidateScanFormat_conversion, List.forall₂_cons, List.map_cons]
              constructor
              · rintro ⟨suits, later, found, rfl⟩
                obtain ⟨⟨terminated, suited⟩, rfl⟩ := ih.mp found
                exact ⟨⟨terminated, suits, suited⟩, rfl⟩
              · rintro ⟨⟨terminated, suits, suited⟩, rfl⟩
                exact ⟨suits, _, ih.mpr ⟨⟨terminated, suited⟩, rfl⟩, rfl⟩

end HitSimple.Runtime

import HitSimple.Codegen.Emit

namespace HitSimple.Codegen

/-- An emission that gives no diagnostic is well typed exactly under a condition. -/
structure TypesWhen (allowed : Prop) {α : Type} (emission : Emission α) : Prop where
  of_ok : ∀ value, emission = .ok value → allowed
  typed : allowed → emission ≠ .error .illTyped

section Composition
variable {α β : Type} {first second : Prop}

theorem typesWhen_ok (value : α) : TypesWhen True (Except.ok value : Emission α) where
  of_ok := fun _ _ => trivial
  typed := nofun

theorem typesWhen_unsupported (allowed : Prop) (message : String) :
    TypesWhen allowed (unsupported message : Emission α) where
  of_ok := nofun
  typed := nofun

theorem TypesWhen.congr {emission : Emission α} (types : TypesWhen first emission)
    (same : first ↔ second) : TypesWhen second emission where
  of_ok := fun value emitted => same.mp (types.of_ok value emitted)
  typed := fun allowed => types.typed (same.mpr allowed)

theorem TypesWhen.bind {emission : Emission α} {next : α → Emission β}
    (types : TypesWhen first emission)
    (continues : ∀ value, emission = .ok value → TypesWhen second (next value)) :
    TypesWhen (first ∧ second) (emission >>= next) := by
  cases emitted : emission with
  | error error =>
      refine ⟨nofun, fun allowed illTyped => ?_⟩
      rw [emission_error_bind, Except.error.injEq] at illTyped
      exact types.typed allowed.1 (by rw [emitted, illTyped])
  | ok value =>
      have rest := continues value emitted
      exact ⟨fun result emission => ⟨types.of_ok value emitted, rest.of_ok result emission⟩,
        fun allowed => rest.typed allowed.2⟩

/-- Steps that only give diagnostics add no condition. -/
theorem TypesWhen.after {emission : Emission α} {next : α → Emission β}
    (types : TypesWhen True emission)
    (continues : ∀ value, emission = .ok value → TypesWhen second (next value)) :
    TypesWhen second (emission >>= next) :=
  (types.bind continues).congr (iff_of_eq (true_and second))

theorem TypesWhen.before {emission : Emission α} {next : α → Emission β}
    (types : TypesWhen first emission)
    (continues : ∀ value, emission = .ok value → TypesWhen True (next value)) :
    TypesWhen first (emission >>= next) :=
  (types.bind continues).congr (iff_of_eq (and_true first))

theorem TypesWhen.ite {condition : Prop} [Decidable condition] {thenEmission elseEmission : Emission α}
    (thenTypes : condition → TypesWhen first thenEmission)
    (elseTypes : ¬condition → TypesWhen second elseEmission) :
    TypesWhen (if condition then first else second)
      (if condition then thenEmission else elseEmission) := by
  split
  · rename_i holds
    exact thenTypes holds
  · rename_i fails
    exact elseTypes fails

theorem TypesWhen.branch {condition : Prop} [Decidable condition]
    {thenEmission elseEmission : Emission α}
    (thenTypes : condition → TypesWhen first thenEmission)
    (elseTypes : ¬condition → TypesWhen first elseEmission) :
    TypesWhen first (if condition then thenEmission else elseEmission) :=
  (TypesWhen.ite thenTypes elseTypes).congr (iff_of_eq (ite_self first))

theorem typesWhen_integerType (context : Context) (byteLength : Nat) :
    TypesWhen True (context.integerType byteLength) := by
  unfold Context.integerType
  split
  · exact ⟨nofun, nofun⟩
  · exact typesWhen_ok ()

theorem typesWhen_findStorage (context : Context) (name : String) :
    TypesWhen True (context.findStorage name) := by
  unfold Context.findStorage
  split
  · exact typesWhen_ok _
  · exact ⟨nofun, nofun⟩

end Composition

/-- What a node has to meet, in each way it can be emitted, for its code to be well typed. -/
structure WidthRequests where
  integer : Nat → Prop
  pointer : Prop
  view : Prop
  condition : Prop

/-- The requests of a node that is only an integer. -/
def integerRequests (byteLength : Nat) (integer : Nat → Prop) : WidthRequests where
  integer := integer
  pointer := integer pointerByteLength
  view := integer byteLength
  condition := True

/-- The requests of a node whose integer is read from its View. -/
def viewRequests (view : Prop) : WidthRequests where
  integer := fun _ => view
  pointer := view
  view := view
  condition := True

variable (context : Context)

def addressOffsetRequests (right : Hir.Expr) (leftRequests rightRequests : WidthRequests)
    (bounds : Option Hir.ViewOffsetBounds) : Prop :=
  leftRequests.pointer ∧
    rightRequests.integer (if bounds.isSome then right.byteLength else pointerByteLength)

def binaryIntegerRequests (left : Hir.Expr) (op : OperatorSpelling) (right : Hir.Expr)
    (result : ViewSemantics) (kind : Hir.StandardOperationKind)
    (bounds : Option Hir.ViewOffsetBounds) (leftRequests rightRequests : WidthRequests) : Prop :=
  if bounds.isSome then addressOffsetRequests right leftRequests rightRequests bounds
  else if op.symbol.isLogical then leftRequests.condition ∧ rightRequests.condition
  else if kind = .standardBytesCompare ∨ kind = .standardCStringCompare then
    leftRequests.view ∧ rightRequests.view
  else
    leftRequests.integer (operationByteLength op left right result) ∧
      rightRequests.integer (operationByteLength op left right result)

def binaryRequests (left : Hir.Expr) (op : OperatorSpelling) (right : Hir.Expr)
    (result : ViewSemantics) (kind : Hir.StandardOperationKind)
    (bounds : Option Hir.ViewOffsetBounds) (leftRequests rightRequests : WidthRequests) :
    WidthRequests :=
  let requests := integerRequests result.staticByteLength fun _ =>
    binaryIntegerRequests left op right result kind bounds leftRequests rightRequests
  if kind = .addressOffset then
    { requests with pointer := addressOffsetRequests right leftRequests rightRequests bounds }
  else requests

/-- A ternary that is no raw View has to be requested at its own length. -/
def ternaryIntegerRequests (result : ViewSemantics)
    (conditionRequests thenRequests elseRequests : WidthRequests) (byteLength : Nat) : Prop :=
  if isRawTernary result then
    conditionRequests.condition ∧ thenRequests.view ∧ elseRequests.view
  else conditionRequests.condition ∧ thenRequests.integer result.staticByteLength ∧
    elseRequests.integer result.staticByteLength ∧ byteLength = result.staticByteLength

def ternaryRequests (result : ViewSemantics)
    (conditionRequests thenRequests elseRequests : WidthRequests) : WidthRequests :=
  { integerRequests result.staticByteLength
      (ternaryIntegerRequests result conditionRequests thenRequests elseRequests) with
    view := conditionRequests.condition ∧ thenRequests.view ∧ elseRequests.view }

mutual

/-- The lengths every part of an expression is requested at. -/
def widthRequests : Hir.Expr → WidthRequests
  | .integerLiteral _ result | .characterLiteral _ result | .addressOf _ _ _ result
  | .variableRef _ _ result | .floatCompare _ _ _ _ result | .call _ result =>
      integerRequests result.staticByteLength fun _ => True
  | .stringLiteral _ _ | .floatLiteral _ _ | .toFloat _ _ _ _ | .floatBinary _ _ _ _ =>
      viewRequests True
  | .deref address _ =>
      { viewRequests (widthRequests address).pointer with condition := True }
  | .booleanTest operand _ =>
      { viewRequests (widthRequests operand).view with condition := (widthRequests operand).view }
  | .binary left op right result kind bounds =>
      binaryRequests left op right result kind bounds (widthRequests left) (widthRequests right)
  | .unary op operand result =>
      integerRequests result.staticByteLength fun _ =>
        if op = .not then (widthRequests operand).condition
        else (widthRequests operand).integer result.staticByteLength
  | .ternary condition thenExpr elseExpr result =>
      ternaryRequests result (widthRequests condition) (widthRequests thenExpr)
        (widthRequests elseExpr)
  | .unsigned operand _ => viewRequests (widthRequests operand).view
  | .integerCast operand _ result =>
      integerRequests result.staticByteLength fun _ =>
        (widthRequests operand).integer operand.byteLength
  | .templateView operand _ =>
      { viewRequests (widthRequests operand).view with
        pointer := if operand.result.category = .address then (widthRequests operand).pointer
          else (widthRequests operand).view }
  | .assignment stores result _ =>
      viewRequests (statementRequests stores ∧ (widthRequests result).view)

def statementRequests : Hir.Statement → Prop
  | .integerStore binding targetByteLength offset value _ =>
      match context.storage binding.bindingName with
      | some storage =>
          if accessesPointer storage offset targetByteLength then (widthRequests value).pointer
          else (widthRequests value).integer targetByteLength
      | none => True
  | .pointerStore address targetByteLength value =>
      (widthRequests address).pointer ∧ (widthRequests value).integer targetByteLength
  | .floatStore _ _ _ _ | .stringStore _ _ _ _ | .localMemory _ _ _ => True
  | .boolStore _ _ _ value => (widthRequests value).condition
  | .viewCopyStore _ _ _ value | .stringCopyStore _ _ _ value | .implAssignment _ _ _ _ value
  | .captureView _ value => (widthRequests value).view
  | .bindingRebind _ address => (widthRequests address).integer address.byteLength
  | .sequence first second => statementRequests first ∧ statementRequests second

end

attribute [simp] widthRequests statementRequests

/-- The code of a node meets its requests, and an integer has the requested width. -/
structure MeetsRequests (requests : WidthRequests) (code : ExprCode) : Prop where
  integer : ∀ byteLength isUnsigned,
    TypesWhen (requests.integer byteLength) (code.integer byteLength isUnsigned)
  width : ∀ byteLength isUnsigned integerCode,
    code.integer byteLength isUnsigned = .ok integerCode → integerCode.width = byteLength * 8
  pointer : TypesWhen requests.pointer code.pointer
  view : TypesWhen requests.view code.view
  condition : TypesWhen requests.condition code.condition

section Emitters
variable {context}

theorem typesWhen_typed (code : IntegerCode) (width : Nat) :
    TypesWhen (code.width = width) (code.typed width) := by
  unfold IntegerCode.typed
  split
  · rename_i same
    exact (typesWhen_ok _).congr (iff_of_true trivial same)
  · rename_i different
    exact ⟨nofun, fun same => absurd same different⟩

theorem emission_bind_eq_ok {α β : Type} {emission : Emission α} {next : α → Emission β}
    {result : β} (emitted : (emission >>= next) = .ok result) :
    ∃ value, emission = .ok value ∧ next value = .ok result := by
  cases emission with
  | error error => cases emitted
  | ok value => exact ⟨value, rfl, emitted⟩

theorem typesWhen_pointerOfInteger {allowed : Prop} {value : Emission IntegerCode}
    (types : TypesWhen allowed value)
    (width : ∀ code, value = .ok code → code.width = 64) :
    TypesWhen allowed (pointerOfInteger value) :=
  types.before fun code emitted =>
    (typesWhen_typed code 64).congr (iff_of_true (width code emitted) trivial)

theorem typesWhen_materialize {allowed : Prop} {value : Emission IntegerCode}
    (types : TypesWhen allowed value) (byteLength : Nat) :
    TypesWhen allowed (materialize context value byteLength) :=
  (typesWhen_integerType context byteLength).after fun _ _ =>
    types.before fun _ _ => typesWhen_ok _

theorem typesWhen_integerOfView {allowed : Prop} {view : Emission ViewCode}
    (types : TypesWhen allowed view) (byteLength : Nat) (isUnsigned : Bool) :
    TypesWhen allowed (integerOfView context view byteLength isUnsigned) := by
  refine types.before fun code _ => ?_
  split
  · exact typesWhen_ok _
  · exact (typesWhen_integerType context _).after fun _ _ => typesWhen_ok _

theorem width_integerOfView {view : Emission ViewCode} {byteLength : Nat} {isUnsigned : Bool}
    {code : IntegerCode}
    (emitted : integerOfView context view byteLength isUnsigned = .ok code) :
    code.width = byteLength * 8 := by
  obtain ⟨source, -, rest⟩ := emission_bind_eq_ok emitted
  split at rest
  · cases rest
    rfl
  · obtain ⟨-, -, rest⟩ := emission_bind_eq_ok rest
    cases rest
    rfl

theorem meetsRequests_integerExprCode (expression : Hir.Expr) {allowed : Nat → Prop}
    {integer : Nat → Bool → Emission IntegerCode}
    (types : ∀ byteLength isUnsigned, TypesWhen (allowed byteLength) (integer byteLength isUnsigned))
    (width : ∀ byteLength isUnsigned code, integer byteLength isUnsigned = .ok code →
      code.width = byteLength * 8) :
    MeetsRequests (integerRequests expression.byteLength allowed)
      (integerExprCode context expression integer) where
  integer := types
  width := width
  pointer := typesWhen_pointerOfInteger (types _ _) fun code emitted => width _ _ code emitted
  view := by
    show TypesWhen (allowed expression.byteLength) (ite _ _ _)
    split
    · exact typesWhen_unsupported _ _
    · exact typesWhen_materialize (types _ _) _
  condition := typesWhen_unsupported _ _

theorem meetsRequests_viewExprCode (expression : Hir.Expr) {allowed : Prop}
    {view : Emission ViewCode} (types : TypesWhen allowed view) :
    MeetsRequests (viewRequests allowed) (viewExprCode context expression view) where
  integer := fun byteLength isUnsigned =>
    (typesWhen_integerType context byteLength).after fun _ _ =>
      typesWhen_integerOfView types byteLength isUnsigned
  width := by
    intro byteLength isUnsigned code emitted
    obtain ⟨-, -, rest⟩ := emission_bind_eq_ok emitted
    exact width_integerOfView rest
  pointer := typesWhen_pointerOfInteger
    ((typesWhen_integerType context _).after fun _ _ => typesWhen_integerOfView types _ _) (by
      intro code emitted
      obtain ⟨-, -, rest⟩ := emission_bind_eq_ok emitted
      exact width_integerOfView rest)
  view := types
  condition := typesWhen_unsupported _ _

end Emitters

end HitSimple.Codegen

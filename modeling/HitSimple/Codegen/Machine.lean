import HitSimple.Hir
import HitSimple.Codegen.Instruction

namespace HitSimple.Codegen
open FixedWidth Literal

/-- The state the emitted code runs on: memory, the locating slots of rebound names, and the ranges
the runtime has registered. -/
structure Machine where
  memory : Memory 64
  bindings : String → BitVec 64
  isAccessible : BitVec 64 → Nat → Bool

abbrev Run := StateT Machine (Except Fault)

section Runs
variable {α β : Type}

theorem bind_of_ok {first : Run α} {before after : Machine} {value : α}
    (run : first before = .ok (value, after)) (next : α → Run β) :
    (first >>= next) before = next value after := by
  simp only [bind, StateT.bind, Except.bind, run]

theorem bind_of_error {first : Run α} {before : Machine} {fault : Fault}
    (run : first before = .error fault) (next : α → Run β) :
    (first >>= next) before = .error fault := by
  simp only [bind, StateT.bind, Except.bind, run]

theorem run_bind_eq_ok {machine : Machine} {first : Run α} {next : α → Run β}
    {outcome : β × Machine} (ran : (first >>= next) machine = .ok outcome) :
    ∃ value middle, first machine = .ok (value, middle) ∧ next value middle = .ok outcome := by
  cases run : first machine with
  | error fault =>
      rw [bind_of_error run] at ran
      cases ran
  | ok reached =>
      rw [bind_of_ok run] at ran
      exact ⟨reached.1, reached.2, rfl, ran⟩

@[simp] theorem map_run (value : α → β) (run : Run α) (machine : Machine) :
    (value <$> run) machine = (run machine).map fun outcome => (value outcome.1, outcome.2) := by
  simp only [Functor.map, StateT.map, bind, Except.bind, pure, Except.pure]
  cases run machine <;> rfl

@[simp] theorem liftM_run (outcome : Except Fault α) (machine : Machine) :
    (liftM outcome : Run α) machine = outcome.map (·, machine) := by
  cases outcome <;> rfl

@[simp] theorem pure_run (value : α) (machine : Machine) :
    (pure value : Run α) machine = .ok (value, machine) := rfl

end Runs

/-- Where the bytes of a View are: in memory, or in storage only the View refers to. -/
inductive Place where
  | located (address : BitVec 64)
  | temporary (contents : Nat → Byte)

namespace Place

def byte (machine : Machine) : Place → Nat → Byte
  | located address, index => machine.memory (address + BitVec.ofNat 64 index)
  | temporary contents, index => contents index

def load (place : Place) (count : Nat) : Run (BitVec (count * 8)) := do
  return assemble count (place.byte (← get))

end Place

/-- The storage the emitter keeps for a name.  A rebound name has a locating slot of its own, a
borrowed one denotes storage of the caller. -/
structure Storage where
  address : BitVec 64
  byteLength : Nat
  isPointerStorage : Bool
  isRebound : Bool
  isBorrowed : Bool
  isDeclaration : Bool
  deriving DecidableEq, Repr

def Storage.requiresAccessCheck (storage : Storage) : Bool :=
  storage.isRebound || storage.isBorrowed

/-- What emission depends on besides the node: the safety mode, the storage of the names, and the
parts of the program and of its runtime that are not integer code. -/
structure Context where
  checked : Bool
  maxIntegerByteLength : Nat
  pointerFits : pointerByteLength ≤ maxIntegerByteLength
  storage : String → Option Storage
  stringAddress : List Byte → BitVec 64
  callee : String → (byteLength : Nat) → Run (BitVec (byteLength * 8))
  returnsPointer : String → Bool
  assignTemplate : String → BitVec 64 → Place → Run Unit
  floatValue : Hir.Expr → (byteLength : Nat) → Run (BitVec (byteLength * 8))
  floatComparison : BinaryOperator → (byteLength : Nat) → BitVec (byteLength * 8) →
    BitVec (byteLength * 8) → Bool
  cStringOrder : Machine → Place → Place → Int

/-- A checked program that calls nothing, where every name denotes one internal object. -/
def Context.ofObject (address : BitVec 64) (byteLength : Nat) : Context where
  checked := true
  maxIntegerByteLength := 2 ^ 20
  pointerFits := by decide
  storage := fun _ => some {
    address, byteLength
    isPointerStorage := false
    isRebound := false
    isBorrowed := false
    isDeclaration := false }
  stringAddress := fun _ => 0
  callee := fun _ _ => throw .undefined
  returnsPointer := fun _ => false
  assignTemplate := fun _ _ _ => throw .undefined
  floatValue := fun _ _ => throw .undefined
  floatComparison := fun _ _ _ _ => false
  cStringOrder := fun _ _ _ => 0

/-- Every byte holds the same value, and every access is allowed. -/
def Machine.filledWith (byte : Byte) : Machine where
  memory := fun _ => byte
  bindings := fun _ => 0
  isAccessible := fun _ _ => true

/-- Emission fails with a diagnostic, or builds a module the verifier rejects. -/
inductive EmitError where
  | diagnostic (message : String)
  | illTyped
  deriving DecidableEq, Repr

abbrev Emission := Except EmitError

@[simp] theorem emission_ok_bind {α β : Type} (value : α) (next : α → Emission β) :
    ((Except.ok value : Emission α) >>= next) = next value := rfl

@[simp] theorem emission_error_bind {α β : Type} (error : EmitError) (next : α → Emission β) :
    ((Except.error error : Emission α) >>= next) = .error error := rfl

@[simp] theorem emission_pure {α : Type} (value : α) : (pure value : Emission α) = .ok value := rfl

/-- Code that computes an integer of a type of `width` bits. -/
structure IntegerCode where
  width : Nat
  run : Run (BitVec width)

/-- Code that locates a View of a static length. -/
structure ViewCode where
  byteLength : Nat
  requiresAccessCheck : Bool
  run : Run Place

/-- The operand of an instruction of `width` bits. -/
def IntegerCode.typed (code : IntegerCode) (width : Nat) : Emission (Run (BitVec width)) :=
  if same : code.width = width then .ok (same ▸ code.run) else .error .illTyped

/-- Extension or truncation to a type, whichever applies. -/
def IntegerCode.resize (code : IntegerCode) (isUnsigned : Bool) (width : Nat) : IntegerCode where
  width := width
  run := FixedWidth.resize isUnsigned width <$> code.run

@[simp] theorem IntegerCode.typed_self {width : Nat} (run : Run (BitVec width)) :
    IntegerCode.typed { width, run } width = .ok run := by
  simp [IntegerCode.typed]

namespace Context
variable (context : Context)

def checkLoad (isRequired : Bool) (address : BitVec 64) (byteLength : Nat) : Run Unit := do
  if context.checked && isRequired && !(← get).isAccessible address byteLength then
    throw .invalidLoad

def checkStore (isRequired : Bool) (address : BitVec 64) (byteLength : Nat) : Run Unit := do
  if context.checked && isRequired && !(← get).isAccessible address byteLength then
    throw .invalidStore

def checkViewLoad (isRequired : Bool) (place : Place) (byteLength : Nat) : Run Unit :=
  match place with
  | .located address => context.checkLoad isRequired address byteLength
  | .temporary _ => return ()

def findStorage (name : String) : Emission Storage :=
  match context.storage name with
  | some storage => .ok storage
  | none => .error (.diagnostic ("unknown local '" ++ name ++ "'"))

def integerType (byteLength : Nat) : Emission Unit :=
  if byteLength = 0 ∨ context.maxIntegerByteLength < byteLength then
    .error (.diagnostic ("unsupported integer byte length " ++ toString byteLength ++
      "; LLVM supports at most " ++ toString context.maxIntegerByteLength ++ " bytes"))
  else .ok ()

/-- The lengths an emitted integer can have. -/
def Supports (byteLength : Nat) : Prop :=
  0 < byteLength ∧ byteLength ≤ context.maxIntegerByteLength

variable {context}

theorem Supports.integerType_eq_ok {byteLength : Nat} (supported : context.Supports byteLength) :
    context.integerType byteLength = .ok () := by
  obtain ⟨positive, fits⟩ := supported
  exact if_neg (by omega)

theorem supports_of_le_pointerByteLength {byteLength : Nat} (positive : 0 < byteLength)
    (fits : byteLength ≤ pointerByteLength) : context.Supports byteLength :=
  ⟨positive, fits.trans context.pointerFits⟩

end Context

/-- The address a name denotes at an offset. -/
def bindingPointer (storage : Storage) (name : String) (offset : Nat) : Run (BitVec 64) := do
  let machine ← get
  let base := if storage.isRebound then machine.bindings name else storage.address
  return base + BitVec.ofNat 64 offset

def readPointer (context : Context) (storage : Storage) (name : String) (offset byteLength : Nat) :
    Run (BitVec 64) := do
  let address ← bindingPointer storage name offset
  context.checkLoad storage.requiresAccessCheck address byteLength
  return address

def writeBytes (context : Context) (storage : Storage) (name : String) (offset byteLength : Nat)
    (word : BitVec (byteLength * 8)) : Run Unit := do
  let address ← bindingPointer storage name offset
  context.checkStore storage.requiresAccessCheck address byteLength
  modify fun machine => { machine with memory := machine.memory.store address byteLength word }

def int64Max : Int := 2 ^ 63 - 1

def int64Min : Int := -2 ^ 63

/-- A size as the signed offset it is converted to. -/
def toInt64 (size : Nat) : Int :=
  (BitVec.ofNat 64 size).toInt

/-- The emitter's reading of a constant offset: the text of a literal, whatever its View. -/
def knownSignedAddressOffset : Hir.Expr → Option Int
  | .integerLiteral value _ => match parseUnsignedIntegerLiteral value with
      | none => none
      | some value => if int64Max < value then none else some value
  | .unary op operand _ => match knownSignedAddressOffset operand with
      | none => none
      | some value => if op = .negate ∧ value ≠ int64Min then some (-value) else none
  | .templateView operand _ => knownSignedAddressOffset operand
  | _ => none

def addKnownAddressOffset (left right : Int) : Option Int :=
  if (0 < right ∧ int64Max - right < left) ∨ (right < 0 ∧ left < int64Min - right) then none
  else some (left + right)

structure KnownAddressRange where
  bindingName : String
  offset : Int
  lowerBound : Int
  upperBound : Nat
  deriving DecidableEq, Repr

variable (context : Context)

def Context.isRebound (name : String) : Bool :=
  ((context.storage name).map Storage.isRebound).getD false

def knownAddressRange : Hir.Expr → Option KnownAddressRange
  | .unsigned operand _ => knownAddressRange operand
  | .integerCast operand _ result =>
      if result.staticByteLength ≠ pointerByteLength ∨
          operand.result.length ≠ .static pointerByteLength then none
      else knownAddressRange operand
  | .templateView operand _ => knownAddressRange operand
  | .addressOf binding targetByteLength offset _ =>
      if context.isRebound binding.bindingName then none
      else some {
        bindingName := binding.bindingName
        offset := toInt64 offset
        lowerBound := toInt64 offset
        upperBound := (offset + targetByteLength) % 2 ^ 64 }
  | .binary left op right _ operationKind _ =>
      let addressOffset := operationKind = .addressOffset
      if ¬addressOffset ∧ op.symbol ≠ .add ∧ op.symbol ≠ .subtract then none
      else match knownAddressRange left, knownSignedAddressOffset right with
        | some range, some offset =>
            let adjusted :=
              if ¬addressOffset ∧ op.symbol = .subtract then
                if offset = int64Min then none else addKnownAddressOffset range.offset (-offset)
              else addKnownAddressOffset range.offset offset
            adjusted.map fun offset => { range with offset }
        | _, _ => none
  | _ => none

def targetsRegisteredInternalObject : Hir.Expr → Bool
  | .addressOf binding _ _ _ => match context.storage binding.bindingName with
      | some storage => !storage.requiresAccessCheck && !storage.isDeclaration
      | none => false
  | .unsigned operand _ | .integerCast operand _ _ | .templateView operand _ =>
      targetsRegisteredInternalObject operand
  | .binary left _ _ _ operationKind _ =>
      operationKind == .addressOffset && targetsRegisteredInternalObject left
  | _ => false

/-- Whether the emitter leaves out the runtime check of an access. -/
def hasKnownStaticAddressRange (address : Hir.Expr) (byteLength : Nat) : Bool :=
  match knownAddressRange context address with
  | none => false
  | some range =>
      if range.offset < range.lowerBound ∨ !targetsRegisteredInternalObject context address then
        false
      else ((range.offset % 2 ^ 64).toNat + byteLength) % 2 ^ 64 ≤ range.upperBound

end HitSimple.Codegen

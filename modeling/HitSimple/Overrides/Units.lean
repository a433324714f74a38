import HitSimple.Batches.Atomic
import Mathlib.Data.List.Basic

namespace HitSimple.Overrides

inductive Linkage where
  | external
  | internal
  deriving DecidableEq

inductive LinkageTarget where
  | global
  | function
  deriving DecidableEq

inductive AbiValueKind where
  | integer
  | floating
  | pointer
  | aggregate
  deriving DecidableEq

def AbiValueKind.toString : AbiValueKind → String
  | .integer => "integer"
  | .floating => "floating"
  | .pointer => "pointer"
  | .aggregate => "aggregate"

inductive AbiType where
  | mk (kind : AbiValueKind) (byteLength : Nat) (isSigned : Bool) (aggregateName : String)
      (alignment elementCount : Nat) (aggregateFields : List AbiType)
      (aggregateFieldOffsets : List Nat)

namespace AbiType

def kind : AbiType → AbiValueKind
  | ⟨kind, _, _, _, _, _, _, _⟩ => kind

def byteLength : AbiType → Nat
  | ⟨_, byteLength, _, _, _, _, _, _⟩ => byteLength

def aggregateName : AbiType → String
  | ⟨_, _, _, aggregateName, _, _, _, _⟩ => aggregateName

def alignment : AbiType → Nat
  | ⟨_, _, _, _, alignment, _, _, _⟩ => alignment

def elementCount : AbiType → Nat
  | ⟨_, _, _, _, _, elementCount, _, _⟩ => elementCount

def aggregateFields : AbiType → List AbiType
  | ⟨_, _, _, _, _, _, aggregateFields, _⟩ => aggregateFields

def aggregateFieldOffsets : AbiType → List Nat
  | ⟨_, _, _, _, _, _, _, aggregateFieldOffsets⟩ => aggregateFieldOffsets

end AbiType

structure FunctionAbiSignature where
  parameterTypes : List AbiType
  returnTypes : List AbiType
  isCCompatibility : Bool

structure GlobalMemory where
  name : String
  bindingName : String
  byteLength : Nat
  isExtern : Bool
  linkage : Linkage
  abiType : Option AbiType

structure Parameter where
  name : String
  bindingName : String
  byteLength : Nat

structure Function where
  name : String
  parameters : List Parameter
  returnByteLengths : List Nat
  linkage : Linkage
  abiSignature : Option FunctionAbiSignature

structure ExternFunction where
  name : String
  parameterByteLengths : List Nat
  returnByteLengths : List Nat
  abiSignature : Option FunctionAbiSignature

/-- A function is behind an owning pointer, which may be null. -/
@[ext] structure TranslationUnit where
  globals : List GlobalMemory
  externFunctions : List ExternFunction
  functions : List (Option Function)

structure LinkageOverride where
  symbolName : String
  target : LinkageTarget
  linkage : Linkage

structure AbiOverride where
  symbolName : String
  target : LinkageTarget
  objectType : Option AbiType
  functionSignature : Option FunctionAbiSignature

abbrev Diagnostic := String

def LinkageTarget.name : LinkageTarget → String
  | .global => "global"
  | .function => "function"

def keyFor (target : LinkageTarget) (symbolName : String) : String :=
  (if target = .global then "global:" else "function:") ++ symbolName

theorem keyFor_injective {target other : LinkageTarget} {name otherName : String}
    (same : keyFor target name = keyFor other otherName) : target = other ∧ name = otherName := by
  have lists := congrArg String.toList same
  cases target <;> cases other <;>
    simp [keyFor, String.toList_append, String.toList_inj] at lists ⊢
  · exact lists
  · exact lists

/-! ### The objects and functions of a unit -/

inductive Place where
  | global (index : Nat)
  | function (index : Nat)
  | externFunction (index : Nat)
  deriving DecidableEq

inductive Slot where
  | global (slot : Option GlobalMemory)
  | function (slot : Option (Option Function))
  | externFunction (slot : Option ExternFunction)

namespace TranslationUnit

def read (unit : TranslationUnit) : Place → Slot
  | .global index => .global unit.globals[index]?
  | .function index => .function unit.functions[index]?
  | .externFunction index => .externFunction unit.externFunctions[index]?

theorem read_ext (first second : TranslationUnit)
    (same : ∀ place, first.read place = second.read place) : first = second := by
  apply TranslationUnit.ext
  · exact List.ext_getElem? fun index => Slot.global.inj (same (.global index))
  · exact List.ext_getElem? fun index => Slot.externFunction.inj (same (.externFunction index))
  · exact List.ext_getElem? fun index => Slot.function.inj (same (.function index))

variable (unit : TranslationUnit)

def findGlobal (symbolName : String) : Option (Fin unit.globals.length) :=
  unit.globals.findFinIdx? (·.bindingName = symbolName)

def findFunction (symbolName : String) : Option (Fin unit.functions.length) :=
  unit.functions.findFinIdx? fun function => function.any (·.name = symbolName)

def findExtern (symbolName : String) : Option (Fin unit.externFunctions.length) :=
  unit.externFunctions.findFinIdx? (·.name = symbolName)

def modify (onGlobal : GlobalMemory → GlobalMemory) (onFunction : Function → Function)
    (onExtern : ExternFunction → ExternFunction) : Place → TranslationUnit
  | .global index => { unit with globals := unit.globals.modify index onGlobal }
  | .function index => { unit with functions := unit.functions.modify index (Option.map onFunction) }
  | .externFunction index =>
      { unit with externFunctions := unit.externFunctions.modify index onExtern }

end TranslationUnit

def Slot.map (onGlobal : GlobalMemory → GlobalMemory) (onFunction : Function → Function)
    (onExtern : ExternFunction → ExternFunction) : Slot → Slot
  | .global slot => .global (slot.map onGlobal)
  | .function slot => .function (slot.map (Option.map onFunction))
  | .externFunction slot => .externFunction (slot.map onExtern)

section
variable {unit : TranslationUnit} {onGlobal : GlobalMemory → GlobalMemory}
  {onFunction : Function → Function} {onExtern : ExternFunction → ExternFunction}

theorem read_modify_self (place : Place) :
    (unit.modify onGlobal onFunction onExtern place).read place =
      (unit.read place).map onGlobal onFunction onExtern := by
  cases place <;>
    simp [TranslationUnit.modify, TranslationUnit.read, Slot.map]

theorem read_modify_other {target place : Place} (other : place ≠ target) :
    (unit.modify onGlobal onFunction onExtern target).read place = unit.read place := by
  cases target with
  | global index =>
      cases place with
      | global other' =>
          have apart : index ≠ other' := fun same => other (by rw [same])
          simp [TranslationUnit.modify, TranslationUnit.read, apart]
      | function => rfl
      | externFunction => rfl
  | function index =>
      cases place with
      | function other' =>
          have apart : index ≠ other' := fun same => other (by rw [same])
          simp [TranslationUnit.modify, TranslationUnit.read, apart]
      | global => rfl
      | externFunction => rfl
  | externFunction index =>
      cases place with
      | externFunction other' =>
          have apart : index ≠ other' := fun same => other (by rw [same])
          simp [TranslationUnit.modify, TranslationUnit.read, apart]
      | global => rfl
      | function => rfl

end

/-! ### Names -/

/-- The first element of a list with a property. -/
def IsFirst {α : Type} (list : List α) (holds : α → Prop) (index : Nat) : Prop :=
  (∃ element, list[index]? = some element ∧ holds element) ∧
    ∀ earlier < index, ∀ element, list[earlier]? = some element → ¬holds element

theorem isFirst_iff_of_find {α : Type} {list : List α} {test : α → Bool}
    {found : Fin list.length} (finds : list.findFinIdx? test = some found) (index : Nat) :
    IsFirst list (test · = true) index ↔ index = found := by
  rw [List.findFinIdx?_eq_some_iff] at finds
  have isFirst : IsFirst list (test · = true) found := by
    refine ⟨⟨list[found], List.getElem?_eq_getElem found.isLt, finds.1⟩, ?_⟩
    intro earlier below element located holds
    obtain ⟨bound, rfl⟩ := List.getElem?_eq_some_iff.mp located
    exact finds.2 ⟨earlier, bound⟩ below holds
  constructor
  · rintro ⟨⟨element, located, holds⟩, none'⟩
    rcases Nat.lt_trichotomy index found with below | same | above
    · exact absurd holds (isFirst.2 index below element located)
    · exact same
    · obtain ⟨other, otherLocated, otherHolds⟩ := isFirst.1
      exact absurd otherHolds (none' found above other otherLocated)
  · rintro rfl
    exact isFirst

/-- The object or function of a unit that a symbol name stands for: a function has its definition
before its declaration. -/
def Designates (unit : TranslationUnit) (target : LinkageTarget) (symbolName : String) :
    Place → Prop
  | .global index => target = .global ∧ IsFirst unit.globals (·.bindingName = symbolName) index
  | .function index => target = .function ∧
      IsFirst unit.functions (fun function => ∃ f ∈ function, f.name = symbolName) index
  | .externFunction index => target = .function ∧
      (∀ f, some f ∈ unit.functions → f.name ≠ symbolName) ∧
      IsFirst unit.externFunctions (·.name = symbolName) index

theorem Designates.key_eq {unit : TranslationUnit} {target other : LinkageTarget}
    {name otherName : String} {place : Place} (first : Designates unit target name place)
    (second : Designates unit other otherName place) :
    keyFor target name = keyFor other otherName := by
  cases place with
  | global index =>
      obtain ⟨rfl, ⟨element, located, rfl⟩, _⟩ := first
      obtain ⟨rfl, ⟨_, again, rfl⟩, _⟩ := second
      obtain rfl := Option.some_inj.mp (located.symm.trans again)
      rfl
  | function index =>
      obtain ⟨rfl, ⟨element, located, f, defines, rfl⟩, _⟩ := first
      obtain ⟨rfl, ⟨_, again, g, definesToo, rfl⟩, _⟩ := second
      obtain rfl := Option.some_inj.mp (located.symm.trans again)
      obtain rfl := Option.some_inj.mp (defines.symm.trans definesToo)
      rfl
  | externFunction index =>
      obtain ⟨rfl, _, ⟨element, located, rfl⟩, _⟩ := first
      obtain ⟨rfl, _, ⟨_, again, rfl⟩, _⟩ := second
      obtain rfl := Option.some_inj.mp (located.symm.trans again)
      rfl

section
variable {unit : TranslationUnit} {symbolName : String} {place : Place}

theorem designates_global {found : Fin unit.globals.length}
    (finds : unit.findGlobal symbolName = some found) :
    Designates unit .global symbolName place ↔ place = .global found := by
  have first (index : Nat) := isFirst_iff_of_find finds index
  cases place with
  | global index => simpa [Designates] using first index
  | function index => simp [Designates]
  | externFunction index => simp [Designates]

theorem designates_function {found : Fin unit.functions.length}
    (finds : unit.findFunction symbolName = some found) :
    Designates unit .function symbolName place ↔ place = .function found := by
  have first (index : Nat) := isFirst_iff_of_find finds index
  cases place with
  | global index => simp [Designates]
  | function index =>
      have same : (fun function : Option Function => ∃ f ∈ function, f.name = symbolName) =
          fun function => function.any (·.name = symbolName) = true := by
        funext function
        cases function <;> simp
      rw [Designates, same, first index]
      simp
  | externFunction index =>
      have defined := (List.findFinIdx?_eq_some_iff.mp finds).1
      obtain ⟨f, isFunction, named⟩ := (Option.any_eq_true _ _).mp defined
      refine iff_of_false (fun designates => ?_) (by simp)
      refine designates.2.1 f ?_ (by simpa using named)
      rw [← isFunction]
      exact List.getElem_mem _

theorem designates_extern {found : Fin unit.externFunctions.length}
    (undefined : unit.findFunction symbolName = none)
    (finds : unit.findExtern symbolName = some found) :
    Designates unit .function symbolName place ↔ place = .externFunction found := by
  have first (index : Nat) := isFirst_iff_of_find finds index
  have missing (f : Function) (member : some f ∈ unit.functions) : f.name ≠ symbolName := by
    simpa using List.findFinIdx?_eq_none_iff.mp undefined (some f) member
  cases place with
  | global index => simp [Designates]
  | function index =>
      refine iff_of_false ?_ (by simp)
      rintro ⟨_, ⟨element, located, f, isFunction, named⟩, _⟩
      obtain rfl := Option.mem_def.mp isFunction
      exact missing f (List.mem_of_getElem? located) named
  | externFunction index =>
      have isFirst : IsFirst unit.externFunctions (·.name = symbolName) index ↔ index = found := by
        simpa using first index
      rw [Designates, isFirst, and_iff_right rfl, and_iff_right missing]
      simp

end

end HitSimple.Overrides

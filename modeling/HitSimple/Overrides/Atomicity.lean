import HitSimple.Overrides.AbiTypes

namespace HitSimple.Overrides
open Batches

/-! ### Linkage -/

/-- A pointer to a linkage of the unit, and its new value. -/
structure PendingLinkage where
  target : Place
  linkage : Linkage

def linkageRules (unit : TranslationUnit) :
    Rules LinkageOverride String Diagnostic PendingLinkage where
  unnamed override :=
    if override.symbolName = "" then some "linkage override has an empty symbol name" else none
  key override := keyFor override.target override.symbolName
  duplicate override :=
    s!"duplicate linkage override for {override.target.name} '{override.symbolName}'"
  examine override :=
    match override.target with
    | .global =>
        match unit.findGlobal override.symbolName with
        | none =>
            ([s!"linkage override references unknown global '{override.symbolName}'"], none)
        | some found =>
            if unit.globals[found].isExtern then
              ([s!"linkage override cannot target extern global declaration '{override.symbolName}'"],
                none)
            else ([], some ⟨.global found, override.linkage⟩)
    | .function =>
        match unit.findFunction override.symbolName with
        | some found => ([], some ⟨.function found, override.linkage⟩)
        | none =>
            match unit.findExtern override.symbolName with
            | some _ =>
                ([s!"linkage override cannot target extern function declaration '{override.symbolName}'"],
                  none)
            | none =>
                ([s!"linkage override references unknown function '{override.symbolName}'"], none)

def assignLinkage (unit : TranslationUnit) (pending : PendingLinkage) : TranslationUnit :=
  unit.modify ({ · with linkage := pending.linkage }) ({ · with linkage := pending.linkage }) id
    pending.target

def applyLinkageOverrides (unit : TranslationUnit) (overrides : List LinkageOverride) :
    List Diagnostic × TranslationUnit :=
  (linkageRules unit).run assignLinkage unit overrides

/-! ### ABI -/

/-- The check of the types that both lists have. -/
def validateTypes (role name : String) : List AbiType → List Nat → List Diagnostic
  | type :: types, length :: lengths =>
      (if isValidType type = false then
        [s!"ABI override has unsupported {type.kind.toString} {role} type for function '{name}'"]
      else if storageByteLength type ≠ some length then
        [s!"ABI override {role} byte length does not match function '{name}'"]
      else []) ++ validateTypes role name types lengths
  | _, _ => []

/-- The diagnostics of a signature, and whether it is valid. -/
def validateSignature (signature : FunctionAbiSignature) (parameters returns : List Nat)
    (name : String) : List Diagnostic × Bool :=
  let diagnostics :=
    (if signature.parameterTypes.length ≠ parameters.length then
      [s!"ABI override parameter count does not match function '{name}'"] else []) ++
    (if signature.returnTypes.length ≠ returns.length then
      [s!"ABI override return count does not match function '{name}'"] else []) ++
    validateTypes "parameter" name signature.parameterTypes parameters ++
    validateTypes "return" name signature.returnTypes returns
  (diagnostics, diagnostics.isEmpty)

/-- A pointer to an ABI shape of the unit, and its new value. -/
structure PendingAbi where
  target : Place
  objectType : Option AbiType
  functionSignature : Option FunctionAbiSignature

/-- The signature that a function or declaration takes over. -/
def examineSignature (override : AbiOverride) (signature : FunctionAbiSignature) (target : Place)
    (parameters returns : List Nat) : List Diagnostic × Option PendingAbi :=
  let (diagnostics, valid) := validateSignature signature parameters returns override.symbolName
  (diagnostics, if valid then some ⟨target, none, override.functionSignature⟩ else none)

def abiRules (unit : TranslationUnit) : Rules AbiOverride String Diagnostic PendingAbi where
  unnamed override :=
    if override.symbolName = "" then some "ABI override has an empty symbol name" else none
  key override := keyFor override.target override.symbolName
  duplicate override :=
    s!"duplicate ABI override for {override.target.name} '{override.symbolName}'"
  examine override :=
    match override.target with
    | .global =>
        match override.objectType, override.functionSignature with
        | some objectType, none =>
            if isValidType objectType = false then
              ([s!"ABI override has unsupported {objectType.kind.toString} object type for global '{override.symbolName}'"],
                none)
            else
              match unit.findGlobal override.symbolName with
              | none =>
                  ([s!"ABI override references unknown global '{override.symbolName}'"], none)
              | some found =>
                  if storageByteLength objectType ≠ some unit.globals[found].byteLength then
                    ([s!"ABI override object byte length does not match global '{override.symbolName}'"],
                      none)
                  else ([], some ⟨.global found, override.objectType, none⟩)
        | _, _ =>
            ([s!"global ABI override for '{override.symbolName}' must provide exactly one object type"],
              none)
    | .function =>
        match override.objectType, override.functionSignature with
        | none, some signature =>
            match unit.findFunction override.symbolName with
            | some found =>
                match unit.functions[found] with
                | some definition =>
                    examineSignature override signature (.function found)
                      (definition.parameters.map (·.byteLength)) definition.returnByteLengths
                -- no null pointer has the name
                | none => ([], none)
            | none =>
                match unit.findExtern override.symbolName with
                | none =>
                    ([s!"ABI override references unknown function '{override.symbolName}'"], none)
                | some found =>
                    examineSignature override signature (.externFunction found)
                      unit.externFunctions[found].parameterByteLengths
                      unit.externFunctions[found].returnByteLengths
        | _, _ =>
            ([s!"function ABI override for '{override.symbolName}' must provide exactly one function signature"],
              none)

def assignAbi (unit : TranslationUnit) (pending : PendingAbi) : TranslationUnit :=
  unit.modify ({ · with abiType := pending.objectType })
    ({ · with abiSignature := pending.functionSignature })
    ({ · with abiSignature := pending.functionSignature }) pending.target

def applyAbiOverrides (unit : TranslationUnit) (overrides : List AbiOverride) :
    List Diagnostic × TranslationUnit :=
  (abiRules unit).run assignAbi unit overrides

/-! ### What an override stands for -/

def LinkageOverride.Names (unit : TranslationUnit) (override : LinkageOverride) : Place → Prop :=
  Designates unit override.target override.symbolName

def LinkageOverride.change (override : LinkageOverride) : Slot → Slot :=
  Slot.map ({ · with linkage := override.linkage }) ({ · with linkage := override.linkage }) id

def AbiOverride.Names (unit : TranslationUnit) (override : AbiOverride) : Place → Prop :=
  Designates unit override.target override.symbolName

def AbiOverride.change (override : AbiOverride) : Slot → Slot :=
  Slot.map ({ · with abiType := override.objectType })
    ({ · with abiSignature := override.functionSignature })
    ({ · with abiSignature := override.functionSignature })

/-! ### Linkage -/

variable {unit : TranslationUnit}

def PendingLinkage.effect (pending : PendingLinkage) : Slot → Slot :=
  Slot.map ({ · with linkage := pending.linkage }) ({ · with linkage := pending.linkage }) id

theorem linkage_assigns :
    Assigns TranslationUnit.read PendingLinkage.target PendingLinkage.effect assignLinkage where
  self _ pending := read_modify_self pending.target
  other _ _ _ other := read_modify_other other
  ext := TranslationUnit.read_ext

theorem linkage_examined (override : LinkageOverride)
    (accepted : (linkageRules unit).Accepts override) :
    ∃ write, ((linkageRules unit).examine override).2 = some write ∧
      Makes (LinkageOverride.Names unit) LinkageOverride.change PendingLinkage.target
        PendingLinkage.effect override write := by
  obtain ⟨_, clean⟩ := accepted
  obtain ⟨symbolName, target, linkage⟩ := override
  cases target with
  | global =>
      cases finds : unit.findGlobal symbolName with
      | none => simp [linkageRules, finds] at clean
      | some found =>
          by_cases isExtern : unit.globals[found.val].isExtern = true
          · simp [linkageRules, finds, isExtern] at clean
          · refine ⟨⟨.global found, linkage⟩, ?_, fun place => designates_global finds, rfl⟩
            simp [linkageRules, finds, isExtern]
  | function =>
      cases finds : unit.findFunction symbolName with
      | some found =>
          refine ⟨⟨.function found, linkage⟩, ?_, fun place => designates_function finds, rfl⟩
          simp [linkageRules, finds]
      | none => cases declared : unit.findExtern symbolName <;>
          simp [linkageRules, finds, declared] at clean

theorem linkage_atomic (unit : TranslationUnit) (overrides : List LinkageOverride) :
    Atomic TranslationUnit.read (LinkageOverride.Names unit) LinkageOverride.change
      (applyLinkageOverrides unit) unit overrides :=
  Rules.atomic linkage_assigns linkage_examined
    (fun _ _ _ first second => Designates.key_eq first second) unit overrides

/-! ### ABI -/

def PendingAbi.effect (pending : PendingAbi) : Slot → Slot :=
  Slot.map ({ · with abiType := pending.objectType })
    ({ · with abiSignature := pending.functionSignature })
    ({ · with abiSignature := pending.functionSignature })

theorem abi_assigns :
    Assigns TranslationUnit.read PendingAbi.target PendingAbi.effect assignAbi where
  self _ pending := read_modify_self pending.target
  other _ _ _ other := read_modify_other other
  ext := TranslationUnit.read_ext

/-- A type that stands for so many bytes. -/
def FitsLength (type : AbiType) (length : Nat) : Prop :=
  type.WellFormed ∧ type.extent = length

theorem validateTypes_nil {role name : String} {types : List AbiType} {lengths : List Nat}
    (clean : validateTypes role name types lengths = []) (sizes : types.length = lengths.length) :
    List.Forall₂ FitsLength types lengths := by
  induction types generalizing lengths with
  | nil =>
      obtain rfl := List.length_eq_zero_iff.mp sizes.symm
      exact .nil
  | cons type types ih =>
      cases lengths with
      | nil => cases sizes
      | cons length lengths =>
          rw [validateTypes, List.append_eq_nil_iff] at clean
          obtain ⟨own, rest⟩ := clean
          split at own
          · cases own
          next valid =>
            split at own
            · cases own
            next fits =>
              refine .cons ⟨wellFormed_of_valid ?_, ?_⟩ (ih rest (Nat.succ.inj sizes))
              · exact Bool.not_eq_false _ ▸ valid
              · exact (storageByteLength_eq_some (not_not.mp fits)).2.2.symm

/-- A signature whose types stand for the bytes of the parameters and the return values. -/
def FitsSignature (signature : FunctionAbiSignature) (parameters returns : List Nat) : Prop :=
  List.Forall₂ FitsLength signature.parameterTypes parameters ∧
    List.Forall₂ FitsLength signature.returnTypes returns

theorem validateSignature_nil {signature : FunctionAbiSignature} {parameters returns : List Nat}
    {name : String} (clean : (validateSignature signature parameters returns name).1 = []) :
    (validateSignature signature parameters returns name).2 = true ∧
      FitsSignature signature parameters returns := by
  refine ⟨List.isEmpty_iff.mpr clean, ?_⟩
  simp only [validateSignature, List.append_eq_nil_iff, ite_eq_right_iff, List.cons_ne_nil,
    imp_false, not_not] at clean
  obtain ⟨⟨⟨parameterCount, returnCount⟩, parameterTypes⟩, returnTypes⟩ := clean
  exact ⟨validateTypes_nil parameterTypes parameterCount,
    validateTypes_nil returnTypes returnCount⟩

/-- The types that an override attaches fit what it attaches them to. -/
def AbiOverride.Fits (unit : TranslationUnit) (override : AbiOverride) : Prop :=
  ∃ place, override.Names unit place ∧
    match unit.read place with
    | .global slot => ∃ global type, slot = some global ∧ override.objectType = some type ∧
        override.functionSignature = none ∧ FitsLength type global.byteLength
    | .function slot => ∃ function signature, slot = some (some function) ∧
        override.objectType = none ∧ override.functionSignature = some signature ∧
        FitsSignature signature (function.parameters.map (·.byteLength)) function.returnByteLengths
    | .externFunction slot => ∃ function signature, slot = some function ∧
        override.objectType = none ∧ override.functionSignature = some signature ∧
        FitsSignature signature function.parameterByteLengths function.returnByteLengths

theorem examineSignature_nil {override : AbiOverride} {signature : FunctionAbiSignature}
    {target : Place} {parameters returns : List Nat}
    (clean : (examineSignature override signature target parameters returns).1 = []) :
    (examineSignature override signature target parameters returns).2 =
        some ⟨target, none, override.functionSignature⟩ ∧
      FitsSignature signature parameters returns := by
  obtain ⟨valid, fits⟩ := validateSignature_nil clean
  refine ⟨?_, fits⟩
  simp only [examineSignature, valid, if_true]

theorem abi_examined (override : AbiOverride) (accepted : (abiRules unit).Accepts override) :
    (∃ write, ((abiRules unit).examine override).2 = some write ∧
      Makes (AbiOverride.Names unit) AbiOverride.change PendingAbi.target PendingAbi.effect
        override write) ∧ override.Fits unit := by
  obtain ⟨_, clean⟩ := accepted
  obtain ⟨symbolName, target, objectType, functionSignature⟩ := override
  cases target with
  | global =>
      cases objectType with
      | none => simp [abiRules] at clean
      | some type =>
          cases functionSignature with
          | some signature => simp [abiRules] at clean
          | none =>
              cases valid : isValidType type with
              | false => simp [abiRules, valid] at clean
              | true =>
                  cases finds : unit.findGlobal symbolName with
                  | none => simp [abiRules, valid, finds] at clean
                  | some found =>
                      have located (place : Place) :
                          Designates unit .global symbolName place ↔ place = .global found :=
                        designates_global finds
                      by_cases stored :
                          storageByteLength type = some unit.globals[found.val].byteLength
                      · refine ⟨⟨⟨.global found, some type, none⟩, ?_, located, rfl⟩,
                          .global found, (located _).mpr rfl, ?_⟩
                        · simp [abiRules, valid, finds, stored]
                        · exact ⟨unit.globals[found], type, List.getElem?_eq_getElem found.isLt, rfl,
                            rfl, wellFormed_of_valid valid,
                            (storageByteLength_eq_some stored).2.2.symm⟩
                      · simp [abiRules, valid, finds, stored] at clean
  | function =>
      cases objectType with
      | some type => simp [abiRules] at clean
      | none =>
          cases functionSignature with
          | none => simp [abiRules] at clean
          | some signature =>
              cases finds : unit.findFunction symbolName with
              | some found =>
                  have located (place : Place) :
                      Designates unit .function symbolName place ↔ place = .function found :=
                    designates_function finds
                  obtain ⟨function, isFunction, _⟩ := (Option.any_eq_true _ _).mp
                    (List.findFinIdx?_eq_some_iff.mp finds).1
                  simp only [abiRules, finds, isFunction] at clean ⊢
                  obtain ⟨written, fits⟩ := examineSignature_nil clean
                  refine ⟨⟨_, written, located, rfl⟩, .function found, (located _).mpr rfl, ?_⟩
                  refine ⟨function, signature, ?_, rfl, rfl, fits⟩
                  rw [← isFunction]
                  exact List.getElem?_eq_getElem found.isLt
              | none =>
                  cases declared : unit.findExtern symbolName with
                  | none => simp [abiRules, finds, declared] at clean
                  | some found =>
                      have located (place : Place) :
                          Designates unit .function symbolName place ↔
                            place = .externFunction found :=
                        designates_extern finds declared
                      simp only [abiRules, finds, declared] at clean ⊢
                      obtain ⟨written, fits⟩ := examineSignature_nil clean
                      exact ⟨⟨_, written, located, rfl⟩, .externFunction found,
                        (located _).mpr rfl, unit.externFunctions[found], signature,
                        List.getElem?_eq_getElem found.isLt, rfl, rfl, fits⟩

theorem abi_atomic (unit : TranslationUnit) (overrides : List AbiOverride) :
    Atomic TranslationUnit.read (AbiOverride.Names unit) AbiOverride.change
      (applyAbiOverrides unit) unit overrides :=
  Rules.atomic abi_assigns (fun override accepted => (abi_examined override accepted).1)
    (fun _ _ _ first second => Designates.key_eq first second) unit overrides

/-- The batches of both kinds are atomic, and the types of an accepted ABI batch are well formed and
fit what they are attached to. -/
theorem overrides_atomic (unit : TranslationUnit) :
    (∀ overrides, Atomic TranslationUnit.read (LinkageOverride.Names unit) LinkageOverride.change
      (applyLinkageOverrides unit) unit overrides) ∧
    ∀ overrides, Atomic TranslationUnit.read (AbiOverride.Names unit) AbiOverride.change
        (applyAbiOverrides unit) unit overrides ∧
      ((applyAbiOverrides unit overrides).1 = [] → ∀ override ∈ overrides, override.Fits unit) := by
  refine ⟨linkage_atomic unit, fun overrides => ⟨abi_atomic unit overrides, ?_⟩⟩
  intro clean override member
  exact (abi_examined override ((Rules.run_errors.mp clean).1 override member)).2

end HitSimple.Overrides

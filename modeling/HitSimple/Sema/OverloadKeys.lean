import HitSimple.Sema.ImplOps
import Mathlib.Data.List.Nodup

namespace HitSimple.Sema

section Separated

/-- The text after the last separator is determined. -/
theorem append_separator_inj {separator : Char} {left right first second : List Char}
    (first_free : separator ∉ first) (second_free : separator ∉ second)
    (same : left ++ separator :: first = right ++ separator :: second) :
    left = right ∧ first = second := by
  rcases List.append_eq_append_iff.mp same with ⟨middle, rfl, tail⟩ | ⟨middle, rfl, tail⟩
  · cases middle with
    | nil => simpa using tail
    | cons char middle =>
      injection tail with _ tail
      simp [tail] at first_free
  · cases middle with
    | nil => simpa [eq_comm] using tail
    | cons char middle =>
      injection tail with _ tail
      simp [tail] at second_free

theorem lookupKey_inj {op op' first first' second second' : String}
    (first_free : '|' ∉ first.toList) (first_free' : '|' ∉ first'.toList)
    (second_free : '|' ∉ second.toList) (second_free' : '|' ∉ second'.toList)
    (same : lookupKey op first second = lookupKey op' first' second') :
    op = op' ∧ first = first' ∧ second = second' := by
  have outer : (op ++ "|" ++ first).toList ++ '|' :: second.toList =
      (op' ++ "|" ++ first').toList ++ '|' :: second'.toList := by
    simpa [lookupKey] using congrArg String.toList same
  obtain ⟨inner, seconds⟩ := append_separator_inj second_free second_free' outer
  have inner : op.toList ++ '|' :: first.toList = op'.toList ++ '|' :: first'.toList := by
    simpa using inner
  obtain ⟨ops, firsts⟩ := append_separator_inj first_free first_free' inner
  exact ⟨String.toList_inj.mp ops, String.toList_inj.mp firsts, String.toList_inj.mp seconds⟩

end Separated

section Collection
variable {owner : String} {state : ImplOps} {op : Ast.ImplOpDecl}

/-- An operation that is collected without a diagnostic, with its two parameters. -/
structure IsOverload (owner : String) (state : ImplOps) (op : Ast.ImplOpDecl)
    (first second : Ast.ImplOpParam) (returns : List Nat) : Prop where
  params : op.params = [first, second]
  new : ownedKey owner op ∉ state.opKeys
  collected : collectImplOp owner state op =
    registerImplOp owner { state with opKeys := state.opKeys ++ [ownedKey owner op] } op first
      second returns

theorem addDiagnostics_ne_nil {messages : List Diagnostic} (some_message : messages ≠ []) :
    (state.addDiagnostics messages).declared.diagnostics ≠ [] := by
  simp [ImplOps.addDiagnostics, some_message]

theorem addDiagnostic_ne_nil (message : Diagnostic) :
    (state.addDiagnostic message).declared.diagnostics ≠ [] :=
  addDiagnostics_ne_nil (by simp)

/-- Each operation is diagnosed or registered. -/
theorem isOverload_of_clean (clean : (collectImplOp owner state op).declared.diagnostics = []) :
    ∃ first second returns, IsOverload owner state op first second returns := by
  unfold collectImplOp at clean
  split at clean
  · exact absurd clean (addDiagnostic_ne_nil _)
  rename_i supported
  split at clean
  case h_2 => exact absurd clean (addDiagnostic_ne_nil _)
  case h_1 first second params =>
    split at clean
    · exact absurd clean (addDiagnostic_ne_nil _)
    rename_i returning
    split at clean
    · rename_i invalid
      exact absurd clean (addDiagnostics_ne_nil invalid)
    rename_i valid
    split at clean
    · exact absurd clean (addDiagnostic_ne_nil _)
    rename_i new
    dsimp only at clean
    split at clean
    · exact absurd clean (addDiagnostic_ne_nil _)
    rename_i returns parsed
    split at clean
    · exact absurd clean (addDiagnostic_ne_nil _)
    rename_i single
    split at clean
    · exact absurd clean (addDiagnostic_ne_nil _)
    rename_i signature
    refine ⟨first, second, returns, params, new, ?_⟩
    rw [collectImplOp, if_neg supported]
    simp only [params] at valid ⊢
    rw [if_neg returning, if_neg valid, if_neg new, parsed]
    dsimp only
    rw [if_neg single, if_neg signature]

theorem clean_of_collectImplOp (clean : (collectImplOp owner state op).declared.diagnostics = []) :
    state.declared.diagnostics = [] := by
  obtain ⟨first, second, returns, overload⟩ := isOverload_of_clean clean
  rw [overload.collected] at clean
  exact clean

theorem clean_of_collectImplOps {ops : List Ast.ImplOpDecl}
    (clean : (ops.foldl (collectImplOp owner) state).declared.diagnostics = []) :
    state.declared.diagnostics = [] := by
  induction ops generalizing state with
  | nil => exact clean
  | cons op ops ih => exact clean_of_collectImplOp (ih clean)

theorem clean_of_collectImplDecl {decl : Ast.ImplDecl}
    (clean : (collectImplDecl state decl).declared.diagnostics = []) :
    state.declared.diagnostics = [] := by
  unfold collectImplDecl at clean
  split at clean
  · exact absurd clean (addDiagnostic_ne_nil _)
  · exact clean_of_collectImplOps clean

theorem clean_of_collectImplDecls {unit : List Ast.ImplDecl}
    (clean : (unit.foldl collectImplDecl state).declared.diagnostics = []) :
    state.declared.diagnostics = [] := by
  induction unit generalizing state with
  | nil => exact clean
  | cons decl unit ih => exact clean_of_collectImplDecl (ih clean)

end Collection

section Keys

/-- An operation with the template whose block defines it. -/
structure Definition where
  owner : String
  op : Ast.ImplOpDecl
  deriving DecidableEq, Repr

def definitionsOf (decl : Ast.ImplDecl) : List Definition :=
  decl.ops.map fun op => { owner := decl.name, op }

def definitions (unit : List Ast.ImplDecl) : List Definition := unit.flatMap definitionsOf

def Definition.parameterTemplates (definition : Definition) : List String :=
  definition.op.params.map (·.templateName)

/-- The key that the language gives an overload, which its owner is no part of. -/
def Definition.overloadKey (definition : Definition) : String × Nat × List String :=
  (definition.op.op, definition.op.params.length, definition.parameterTemplates)

def Definition.searchKey (definition : Definition) : String :=
  definition.op.params.foldl (fun key param => key ++ "|" ++ param.templateName) definition.op.op

/-- Two definitions of one owner with one overload key are duplicates. -/
theorem ownedKey_congr {left right : Definition} (owners : left.owner = right.owner)
    (keys : left.overloadKey = right.overloadKey) :
    ownedKey left.owner left.op = ownedKey right.owner right.op := by
  simp only [Definition.overloadKey, Definition.parameterTemplates, Prod.mk.injEq] at keys
  obtain ⟨ops, counts, templates⟩ := keys
  have byTemplates (definition : Definition) : ownedKey definition.owner definition.op =
      (definition.op.params.map (·.templateName)).foldl (fun key template => key ++ "|" ++ template)
        (definition.owner ++ "|" ++ definition.op.op ++ "|" ++
          toString definition.op.params.length) := by
    rw [List.foldl_map]
    rfl
  rw [byTemplates, byTemplates, owners, ops, counts, templates]

/-- The state has registered exactly these definitions, in their order. -/
structure Registers (state : ImplOps) (done : List Definition) : Prop where
  opKeys : state.opKeys = done.map fun definition => ownedKey definition.owner definition.op
  distinct : state.opKeys.Nodup
  implOps : (state.implOps.map fun binding => (binding.implTemplate, binding.op, binding.params)) =
    done.map fun definition => (definition.owner, definition.op.op, definition.op.params)
  implOpIndexes : ∀ key, state.implOpIndexes key =
    (done.map Definition.searchKey).findIdx? (· == key)
  binary : ∀ definition ∈ done, ∃ first second, definition.op.params = [first, second]

theorem registers_noImplOps (declared : Declarations) : Registers (noImplOps declared) [] := by
  constructor <;> simp [noImplOps]

variable {owner : String} {state : ImplOps} {done : List Definition}

theorem Registers.length (registers : Registers state done) :
    state.implOps.length = done.length := by
  simpa using congrArg List.length registers.implOps

theorem emplace_findIdx? {keys : List String} {indexes : String → Option Nat}
    (indexed : ∀ key, indexes key = keys.findIdx? (· == key)) (new key : String) :
    emplace indexes new keys.length key = (keys ++ [new]).findIdx? (· == key) := by
  rw [List.findIdx?_append, emplace]
  by_cases same : key = new
  · subst same
    simp [indexed]
  · have apart : new ≠ key := fun equal => same equal.symm
    simp [same, apart, indexed]

theorem Registers.collectImplOp (registers : Registers state done) {op : Ast.ImplOpDecl}
    (clean : (collectImplOp owner state op).declared.diagnostics = []) :
    Registers (collectImplOp owner state op) (done ++ [⟨owner, op⟩]) := by
  obtain ⟨first, second, returns, overload⟩ := isOverload_of_clean clean
  rw [overload.collected]
  constructor
  · simp [registerImplOp, registers.opKeys]
  · simp only [registerImplOp, List.nodup_append, registers.distinct, List.nodup_singleton,
      true_and, List.mem_singleton]
    rintro key earlier _ rfl rfl
    exact overload.new earlier
  · simp [registerImplOp, registers.implOps]
  · intro key
    have searchKey : (Definition.mk owner op).searchKey =
        lookupKey op.op first.templateName second.templateName := by
      simp [Definition.searchKey, overload.params, lookupKey]
    rw [List.map_append, List.map_singleton, searchKey,
      ← emplace_findIdx? registers.implOpIndexes, List.length_map, ← registers.length]
    rfl
  · intro definition member
    rcases List.mem_append.mp member with earlier | last
    · exact registers.binary definition earlier
    · rw [List.mem_singleton.mp last]
      exact ⟨first, second, overload.params⟩

theorem Registers.collectImplOps (registers : Registers state done) {ops : List Ast.ImplOpDecl}
    (clean : (ops.foldl (Sema.collectImplOp owner) state).declared.diagnostics = []) :
    Registers (ops.foldl (Sema.collectImplOp owner) state)
      (done ++ ops.map fun op => ⟨owner, op⟩) := by
  induction ops generalizing state done with
  | nil => simpa using registers
  | cons op ops ih =>
    have step := registers.collectImplOp (clean_of_collectImplOps clean)
    simpa using ih step clean

theorem Registers.collectImplDecl (registers : Registers state done) {decl : Ast.ImplDecl}
    (clean : (collectImplDecl state decl).declared.diagnostics = []) :
    Registers (collectImplDecl state decl) (done ++ definitionsOf decl) := by
  unfold Sema.collectImplDecl at clean ⊢
  split at clean
  · exact absurd clean (addDiagnostic_ne_nil _)
  · rename_i known
    rw [if_neg known]
    exact registers.collectImplOps clean

theorem Registers.collectImplDecls (registers : Registers state done) {unit : List Ast.ImplDecl}
    (clean : (unit.foldl Sema.collectImplDecl state).declared.diagnostics = []) :
    Registers (unit.foldl Sema.collectImplDecl state) (done ++ definitions unit) := by
  induction unit generalizing state done with
  | nil => simpa [definitions] using registers
  | cons decl unit ih =>
    have step := registers.collectImplDecl (clean_of_collectImplDecls clean)
    simpa [definitions] using ih step clean

end Keys

section Uniqueness
variable {unit : List Ast.ImplDecl}

/-- No two definitions share a key, and a lookup finds the one definition with its key. -/
structure HasUniqueKeys (state : ImplOps) (unit : List Ast.ImplDecl) : Prop where
  distinct : ((definitions unit).map Definition.overloadKey).Nodup
  bound : (state.implOps.map fun binding => (binding.implTemplate, binding.op, binding.params)) =
    (definitions unit).map fun definition =>
      (definition.owner, definition.op.op, definition.op.params)
  found : ∀ index definition, (definitions unit)[index]? = some definition →
    state.implOpIndexes definition.searchKey = some index
  sound : ∀ op first second index, '|' ∉ first.toList → '|' ∉ second.toList →
    state.implOpIndexes (lookupKey op first second) = some index →
      ((definitions unit)[index]?).map Definition.overloadKey = some (op, 2, [first, second])

/-- Template names come from identifiers. -/
def NamesIdentifiers (unit : List Ast.ImplDecl) : Prop :=
  ∀ definition ∈ definitions unit, ∀ name ∈ definition.parameterTemplates, '|' ∉ name.toList

/-- Definitions of different templates have different keys. -/
def OwnersDiffer (unit : List Ast.ImplDecl) : Prop :=
  (definitions unit).Pairwise fun left right =>
    left.owner ≠ right.owner → left.overloadKey ≠ right.overloadKey

theorem searchKey_of_binary {definition : Definition} {first second : Ast.ImplOpParam}
    (binary : definition.op.params = [first, second]) :
    definition.searchKey =
      lookupKey definition.op.op first.templateName second.templateName := by
  simp [Definition.searchKey, binary, lookupKey]

theorem overloadKey_of_searchKey {state : ImplOps} (registers : Registers state (definitions unit))
    (identifiers : NamesIdentifiers unit) {definition : Definition}
    (member : definition ∈ definitions unit) {op first second : String}
    (first_free : '|' ∉ first.toList) (second_free : '|' ∉ second.toList)
    (same : definition.searchKey = lookupKey op first second) :
    definition.overloadKey = (op, 2, [first, second]) := by
  obtain ⟨left, right, binary⟩ := registers.binary definition member
  have free := identifiers definition member
  simp only [Definition.parameterTemplates, binary, List.map_cons, List.map_nil,
    List.forall_mem_cons] at free
  rw [searchKey_of_binary binary] at same
  obtain ⟨ops, firsts, seconds⟩ := lookupKey_inj free.1 first_free free.2.1 second_free same
  simp [Definition.overloadKey, Definition.parameterTemplates, binary, ops, firsts, seconds]

theorem searchKey_inj {state : ImplOps} (registers : Registers state (definitions unit))
    (identifiers : NamesIdentifiers unit) {left right : Definition}
    (left_member : left ∈ definitions unit) (right_member : right ∈ definitions unit)
    (same : left.searchKey = right.searchKey) : left.overloadKey = right.overloadKey := by
  obtain ⟨first, second, binary⟩ := registers.binary right right_member
  have free := identifiers right right_member
  simp only [Definition.parameterTemplates, binary, List.map_cons, List.map_nil,
    List.forall_mem_cons] at free
  rw [overloadKey_of_searchKey registers identifiers left_member free.1 free.2.1
    (same.trans (searchKey_of_binary binary))]
  simp [Definition.overloadKey, Definition.parameterTemplates, binary]

/-- Duplicates of one owner are diagnosed, so the owners decide. -/
theorem distinct_of_ownersDiffer {state : ImplOps}
    (registers : Registers state (definitions unit)) (differ : OwnersDiffer unit) :
    ((definitions unit).map Definition.overloadKey).Nodup := by
  have owned := registers.distinct
  rw [registers.opKeys, List.Nodup, List.pairwise_map] at owned
  rw [List.Nodup, List.pairwise_map]
  apply (owned.and differ).imp
  intro left right apart same
  by_cases owners : left.owner = right.owner
  · exact apart.1 (ownedKey_congr owners same)
  · exact apart.2 owners same

theorem collectImplOps_uniqueKeys_iff (declared : Declarations) (unit : List Ast.ImplDecl)
    (identifiers : NamesIdentifiers unit)
    (accepted : (collectImplOps declared unit).declared.diagnostics = []) :
    HasUniqueKeys (collectImplOps declared unit) unit ↔ OwnersDiffer unit := by
  have registers : Registers (collectImplOps declared unit) (definitions unit) := by
    have registers := (registers_noImplOps declared).collectImplDecls accepted
    rwa [List.nil_append] at registers
  constructor
  · intro unique
    have distinct := unique.distinct
    rw [List.Nodup, List.pairwise_map] at distinct
    apply distinct.imp
    intro left right apart _
    exact apart
  · intro differ
    have distinct := distinct_of_ownersDiffer registers differ
    refine ⟨distinct, registers.implOps, fun index definition at_index => ?_,
      fun op first second index first_free second_free found => ?_⟩
    · obtain ⟨below, rfl⟩ := List.getElem?_eq_some_iff.mp at_index
      rw [registers.implOpIndexes, List.findIdx?_eq_some_iff_getElem]
      refine ⟨by simpa using below, by simp, fun earlier before same => ?_⟩
      have lower : earlier < (definitions unit).length := before.trans below
      have keys : (definitions unit)[earlier].overloadKey =
          (definitions unit)[index].overloadKey := by
        apply searchKey_inj registers identifiers (List.getElem_mem lower) (List.getElem_mem below)
        simpa using same
      have apart := List.pairwise_iff_getElem.mp (List.pairwise_map.mp distinct) earlier index
        lower below before
      exact apart keys
    · rw [registers.implOpIndexes, List.findIdx?_eq_some_iff_getElem] at found
      obtain ⟨below, same, -⟩ := found
      rw [List.length_map] at below
      have member := List.getElem_mem below
      rw [List.getElem?_eq_getElem below, Option.map_some,
        overloadKey_of_searchKey registers identifiers member first_free second_free
          (by simpa using same)]

def isOrderedBy (template other : String) : Ast.ImplOpDecl where
  op := "<"
  params := [{ name := "left", templateName := template, isMutable := false },
    { name := "right", templateName := other, isMutable := false }]
  returns := [{ name := "", length := "", templateName := "bool" }]

def colourTemplates : Declarations where
  structs := []
  templates := [{ name := "Colour", members := [], byteLength := 4 },
    { name := "Shade", members := [], byteLength := 4 }]
  topLevelNames := ["Colour", "Shade"]
  diagnostics := []

/-- The two templates order mixed operands in ways of their own. -/
def mixedOrders : List Ast.ImplDecl :=
  [{ name := "Colour", ops := [isOrderedBy "Colour" "Shade"] },
    { name := "Shade", ops := [isOrderedBy "Colour" "Shade"] }]

/-- The second definition is accepted and never found. -/
theorem mixedOrders_not_uniqueKeys :
    (collectImplOps colourTemplates mixedOrders).declared.diagnostics = [] ∧
      ¬HasUniqueKeys (collectImplOps colourTemplates mixedOrders) mixedOrders := by
  refine ⟨by decide, fun unique => ?_⟩
  exact absurd unique.distinct (by decide)

/-- Orders of unmixed operands have keys of their own. -/
def ownOrders : List Ast.ImplDecl :=
  [{ name := "Colour", ops := [isOrderedBy "Colour" "Colour"] },
    { name := "Shade", ops := [isOrderedBy "Shade" "Shade"] }]

theorem ownOrders_uniqueKeys :
    HasUniqueKeys (collectImplOps colourTemplates ownOrders) ownOrders := by
  rw [collectImplOps_uniqueKeys_iff colourTemplates ownOrders]
  · unfold OwnersDiffer
    decide
  · unfold NamesIdentifiers
    decide
  · decide

end Uniqueness

end HitSimple.Sema

import HitSimple.CCompat.StructLayout

namespace HitSimple.CCompat
open Placement (FirstAligned Natural Strictest ending)

/-! ### Resolving deeper -/

structure Declarations.Extends (smaller larger : Declarations) : Prop where
  pointers : smaller.pointerByteLength = larger.pointerByteLength
  aliases : ∀ name object, smaller.aliases name = some object → larger.aliases name = some object
  structs : ∀ name length, smaller.structs name = some length → larger.structs name = some length

section
variable {smaller larger : Declarations}

theorem Declarations.Extends.resolveAlias (extends_ : smaller.Extends larger) {name : String}
    {type : TypeInfo} (resolved : smaller.resolveAlias name = some type) :
    larger.resolveAlias name = some type := by
  unfold Declarations.resolveAlias at resolved ⊢
  cases found : smaller.aliases name with
  | none =>
      rw [found] at resolved
      cases resolved
  | some object =>
      rw [found] at resolved
      rwa [extends_.aliases name object found]

theorem Declarations.Extends.resolveBaseType (extends_ : smaller.Extends larger) {type : CType}
    {info : TypeInfo} (resolved : smaller.resolveBaseType type = some info) :
    larger.resolveBaseType type = some info := by
  unfold Declarations.resolveBaseType at resolved ⊢
  split at resolved
  · cases resolved
  next plain =>
    rw [if_neg plain]
    cases base : type.base with
    | typedefName =>
        rw [base] at resolved
        exact extends_.resolveAlias resolved
    | _ =>
        rw [base] at resolved
        exact resolved

theorem Declarations.Extends.resolveType (extends_ : smaller.Extends larger) {type : CType}
    {pointerDepth : Nat} {info : TypeInfo}
    (resolved : smaller.resolveType type pointerDepth = some info) :
    larger.resolveType type pointerDepth = some info := by
  obtain ⟨base, found, rfl⟩ := Option.map_eq_some_iff.mp resolved
  have pointer : larger.makePointer = smaller.makePointer := by
    funext pointee
    rw [Declarations.makePointer, Declarations.makePointer, extends_.pointers]
  rw [Declarations.resolveType, extends_.resolveBaseType found, pointer]
  rfl

theorem Declarations.Extends.ensureStructComplete (extends_ : smaller.Extends larger)
    {type complete : TypeInfo} (resolved : smaller.ensureStructComplete type = some complete) :
    larger.ensureStructComplete type = some complete := by
  obtain ⟨abi, coreTemplate, pointee⟩ := type
  unfold Declarations.ensureStructComplete at resolved ⊢
  dsimp only at resolved ⊢
  split at resolved
  next aggregate =>
    rw [if_pos aggregate]
    cases found : smaller.structs abi.aggregateName with
    | none =>
        rw [found] at resolved
        cases resolved
    | some byteLength =>
        rw [found] at resolved
        rwa [extends_.structs _ _ found]
  next scalar => rwa [if_neg scalar]

theorem Declarations.Extends.resolvePlainObject (extends_ : smaller.Extends larger) {type : CType}
    {declarator : Declarator} {object : ObjectInfo}
    (resolved : smaller.resolvePlainObject type declarator = some object) :
    larger.resolvePlainObject type declarator = some object := by
  unfold Declarations.resolvePlainObject at resolved ⊢
  cases found : smaller.resolveType type declarator.pointerDepth with
  | none =>
      rw [found] at resolved
      cases resolved
  | some info =>
      rw [found] at resolved
      rw [extends_.resolveType found]
      dsimp only at resolved ⊢
      split at resolved
      · cases resolved
      next notVoid =>
        rw [if_neg notVoid]
        cases completed : smaller.ensureStructComplete info with
        | none =>
            rw [completed] at resolved
            cases resolved
        | some complete =>
            rw [completed] at resolved
            rwa [extends_.ensureStructComplete completed]

theorem Declarations.Extends.resolveObject (extends_ : smaller.Extends larger) {type : CType}
    {declarator : Declarator} {object : ObjectInfo}
    (resolved : smaller.resolveObject type declarator = some object) :
    larger.resolveObject type declarator = some object := by
  unfold Declarations.resolveObject at resolved ⊢
  split at resolved
  next isName =>
    rw [if_pos isName]
    split at resolved
    · cases resolved
    next plain =>
      rw [if_neg plain]
      cases found : smaller.aliases type.name with
      | none =>
          rw [found] at resolved
          cases resolved
      | some aliased =>
          rw [found] at resolved
          rw [extends_.aliases _ _ found]
          dsimp only at resolved ⊢
          split at resolved
          next isArray => rwa [if_pos isArray]
          next notArray =>
            rw [if_neg notArray]
            exact extends_.resolvePlainObject resolved
  next other =>
    rw [if_neg other]
    exact extends_.resolvePlainObject resolved

end

structure Resolved.Extends (smaller larger : Resolved) : Prop where
  declarations : smaller.declarations.Extends larger.declarations
  layouts : ∀ name info, smaller.layouts name = some info → larger.layouts name = some info

section
variable {smaller larger : Resolved}

theorem Resolved.Extends.alignment (extends_ : smaller.Extends larger) {type : TypeInfo}
    (known : smaller.alignment type ≠ 0) : larger.alignment type = smaller.alignment type := by
  unfold Resolved.alignment at known ⊢
  split
  next aggregate =>
    rw [if_pos aggregate] at known
    cases found : smaller.layouts type.abi.aggregateName with
    | none =>
        rw [found] at known
        exact absurd rfl known
    | some info => rw [extends_.layouts _ _ found]
  next => rfl

/-- What placing a field comes to. -/
structure PlacesField (resolved : Resolved) (placing : Placing) (field : Field) (object : ObjectInfo)
    (offset : Nat) : Prop where
  resolves : resolved.declarations.resolveObject field.type field.declarator = some object
  length : object.byteLength ≠ 0
  alignment : resolved.alignment object.type ≠ 0
  aligned : alignUp placing.offset (resolved.alignment object.type) = some offset
  fits : ¬offset + object.byteLength > 2 ^ 64 - 1

def Placing.add (placing : Placing) (name : String) (object : ObjectInfo) (alignment offset : Nat) :
    Placing where
  fields := placing.fields ++ [⟨name, object, alignment, offset⟩]
  offset := (offset + object.byteLength) % 2 ^ 64
  aggregateAlignment := max placing.aggregateAlignment alignment

theorem placeField_eq_some {resolved : Resolved} {placing placed : Placing} {field : Field} :
    placeField resolved placing field = some placed ↔ ∃ object offset,
      PlacesField resolved placing field object offset ∧
      placed = placing.add field.name object (resolved.alignment object.type) offset := by
  unfold placeField
  constructor
  · intro done
    obtain ⟨object, resolves, done⟩ := Option.bind_eq_some_iff.mp done
    dsimp only at done
    split at done
    · cases done
    next known =>
      obtain ⟨offset, aligned, done⟩ := Option.bind_eq_some_iff.mp done
      split at done
      · cases done
      next fits =>
        rw [not_or] at known
        exact ⟨object, offset, ⟨resolves, known.1, known.2, aligned, fits⟩,
          (Option.some.inj done).symm⟩
  · rintro ⟨object, offset, ⟨resolves, length, alignment, aligned, fits⟩, rfl⟩
    refine Option.bind_eq_some_iff.mpr ⟨object, resolves, ?_⟩
    dsimp only
    rw [if_neg (not_or.mpr ⟨length, alignment⟩)]
    refine Option.bind_eq_some_iff.mpr ⟨offset, aligned, ?_⟩
    rw [if_neg fits]
    rfl

theorem Resolved.Extends.placeField (extends_ : smaller.Extends larger) {placing placed : Placing}
    {field : Field} (done : placeField smaller placing field = some placed) :
    placeField larger placing field = some placed := by
  obtain ⟨object, offset, ⟨resolves, length, alignment, aligned, fits⟩, rfl⟩ :=
    placeField_eq_some.mp done
  have same := extends_.alignment alignment
  refine placeField_eq_some.mpr ⟨object, offset, ⟨?_, length, ?_, ?_, fits⟩, ?_⟩
  · exact extends_.declarations.resolveObject resolves
  · rwa [same]
  · rwa [same]
  · rw [same]

theorem Resolved.Extends.placeFields (extends_ : smaller.Extends larger) {fields : List Field}
    {placing placed : Placing}
    (done : fields.foldlM (CCompat.placeField smaller) placing = some placed) :
    fields.foldlM (CCompat.placeField larger) placing = some placed := by
  induction fields generalizing placing with
  | nil => exact done
  | cons field fields ih =>
      rw [List.foldlM_cons] at done ⊢
      obtain ⟨next, first, rest⟩ := Option.bind_eq_some_iff.mp done
      exact Option.bind_eq_some_iff.mpr ⟨next, extends_.placeField first, ih rest⟩

theorem Resolved.Extends.layoutFields (extends_ : smaller.Extends larger) {fields : List Field}
    {info : StructInfo} (done : layoutFields smaller fields = some info) :
    layoutFields larger fields = some info := by
  obtain ⟨placed, places, rest⟩ := Option.bind_eq_some_iff.mp done
  exact Option.bind_eq_some_iff.mpr ⟨placed, extends_.placeFields places, rest⟩

end

/-- More depth, and fewer names that are being resolved, resolve no less. -/
theorem DeclaredTypes.resolve_extends (unit : DeclaredTypes) {depth deeper : Nat}
    {structs fewer typedefs fewerTypedefs : List String} (below : depth ≤ deeper)
    (subset : fewer ⊆ structs) (subsetTypedefs : fewerTypedefs ⊆ typedefs) :
    (unit.resolve depth structs typedefs).Extends (unit.resolve deeper fewer fewerTypedefs) := by
  induction depth generalizing deeper structs fewer typedefs fewerTypedefs with
  | zero =>
      refine ⟨⟨?_, nofun, nofun⟩, nofun⟩
      cases deeper <;> rfl
  | succ depth ih =>
      obtain ⟨deeper, rfl⟩ : ∃ less, deeper = less + 1 := ⟨deeper - 1, by omega⟩
      have layouts (name : String) (info : StructInfo)
          (found : (unit.resolve (depth + 1) structs typedefs).layouts name = some info) :
          (unit.resolve (deeper + 1) fewer fewerTypedefs).layouts name = some info := by
        unfold DeclaredTypes.resolve at found ⊢
        dsimp only at found ⊢
        split at found
        · cases found
        next fresh =>
          obtain ⟨fields, declared, laidOut⟩ := Option.bind_eq_some_iff.mp found
          rw [if_neg fun listed => fresh (subset listed)]
          refine Option.bind_eq_some_iff.mpr ⟨fields, declared, ?_⟩
          exact (ih (by omega) (List.cons_subset_cons name subset) subsetTypedefs).layoutFields laidOut
      refine ⟨⟨rfl, ?_, ?_⟩, layouts⟩
      · intro name object found
        unfold DeclaredTypes.resolve at found ⊢
        dsimp only at found ⊢
        split at found
        · cases found
        next fresh =>
          obtain ⟨⟨type, declarator⟩, declared, resolves⟩ := Option.bind_eq_some_iff.mp found
          rw [if_neg fun listed => fresh (subsetTypedefs listed)]
          refine Option.bind_eq_some_iff.mpr ⟨⟨type, declarator⟩, declared, ?_⟩
          exact (ih (by omega) subset (List.cons_subset_cons name subsetTypedefs)).declarations.resolveObject
            resolves
      · intro name length found
        obtain ⟨info, laidOut, rfl⟩ := Option.map_eq_some_iff.mp found
        exact Option.map_eq_some_iff.mpr ⟨info, layouts name info laidOut, rfl⟩

/-! ### The layout of a struct -/

/-- The layout that the struct of a name resolves to. -/
def DeclaredTypes.LaysOut (unit : DeclaredTypes) (name : String) (info : StructInfo) : Prop :=
  ∃ depth structs typedefs, (unit.resolve depth structs typedefs).layouts name = some info

theorem DeclaredTypes.LaysOut.unique {unit : DeclaredTypes} {name : String}
    {left right : StructInfo} (isLeft : unit.LaysOut name left) (isRight : unit.LaysOut name right) :
    left = right := by
  obtain ⟨depth, structs, typedefs, foundLeft⟩ := isLeft
  obtain ⟨other, otherStructs, otherTypedefs, foundRight⟩ := isRight
  have left := (unit.resolve_extends (le_max_left depth other) (List.nil_subset structs)
    (List.nil_subset typedefs)).layouts name _ foundLeft
  have right := (unit.resolve_extends (le_max_right depth other) (List.nil_subset otherStructs)
    (List.nil_subset otherTypedefs)).layouts name _ foundRight
  exact Option.some.inj (left.symm.trans right)

/-- The length and the alignment of a field are those of its type. -/
structure FieldInfo.IsTyped (unit : DeclaredTypes) (field : FieldInfo) : Prop where
  array : field.object.isArray = true →
    field.byteLength = field.object.type.abi.byteLength * field.object.arrayCount
  scalar : field.object.type.abi.kind ≠ .aggregate →
    field.alignment = field.object.type.abi.byteLength
  struct : field.object.type.abi.kind = .aggregate → ∃ nested : StructInfo,
    unit.LaysOut field.object.type.abi.aggregateName nested ∧
      field.alignment = nested.alignment ∧ field.object.type.abi.byteLength = nested.byteLength

/-- A type that is a struct has the length of that struct's layout. -/
def DeclaredTypes.Sizes (unit : DeclaredTypes) (type : TypeInfo) : Prop :=
  type.abi.kind = .aggregate → ∃ nested : StructInfo,
    unit.LaysOut type.abi.aggregateName nested ∧ type.abi.byteLength = nested.byteLength

section
variable {unit : DeclaredTypes} {declarations : Declarations}

theorem sizes_of_complete
    (structs : ∀ name length, declarations.structs name = some length →
      ∃ nested : StructInfo, unit.LaysOut name nested ∧ length = nested.byteLength)
    {type complete : TypeInfo} (resolved : declarations.ensureStructComplete type = some complete) :
    unit.Sizes complete := by
  obtain ⟨abi, coreTemplate, pointee⟩ := type
  unfold Declarations.ensureStructComplete at resolved
  dsimp only at resolved
  split at resolved
  next aggregate =>
    split at resolved
    · cases resolved
    next byteLength found =>
      cases resolved
      exact fun _ => structs _ _ found
  next scalar =>
    cases resolved
    exact fun aggregate => absurd aggregate scalar

theorem sizes_of_resolvePlainObject
    (structs : ∀ name length, declarations.structs name = some length →
      ∃ nested : StructInfo, unit.LaysOut name nested ∧ length = nested.byteLength)
    {type : CType} {declarator : Declarator} {object : ObjectInfo}
    (resolved : declarations.resolvePlainObject type declarator = some object) :
    unit.Sizes object.type := by
  unfold Declarations.resolvePlainObject at resolved
  split at resolved
  · cases resolved
  split at resolved
  · cases resolved
  split at resolved
  · cases resolved
  next complete completed =>
    dsimp only at resolved
    split at resolved
    · cases resolved
    split at resolved
    · cases resolved
    · cases resolved
      exact sizes_of_complete structs completed

theorem sizes_of_resolveObject
    (aliases : ∀ name object, declarations.aliases name = some object → unit.Sizes object.type)
    (structs : ∀ name length, declarations.structs name = some length →
      ∃ nested : StructInfo, unit.LaysOut name nested ∧ length = nested.byteLength)
    {type : CType} {declarator : Declarator} {object : ObjectInfo}
    (resolved : declarations.resolveObject type declarator = some object) :
    unit.Sizes object.type := by
  unfold Declarations.resolveObject at resolved
  split at resolved
  · split at resolved
    · cases resolved
    split at resolved
    · cases resolved
    next aliased found =>
      split at resolved
      · split at resolved
        · cases resolved
        split at resolved
        · cases resolved
        · cases resolved
          exact aliases _ _ found
      · exact sizes_of_resolvePlainObject structs resolved
  · exact sizes_of_resolvePlainObject structs resolved

end

theorem DeclaredTypes.structs_resolve (unit : DeclaredTypes) {depth : Nat}
    {structs typedefs : List String} {name : String} {length : Nat}
    (found : (unit.resolve depth structs typedefs).declarations.structs name = some length) :
    ∃ nested : StructInfo, unit.LaysOut name nested ∧ length = nested.byteLength := by
  cases depth with
  | zero => cases found
  | succ depth =>
      obtain ⟨info, laidOut, rfl⟩ := Option.map_eq_some_iff.mp found
      exact ⟨info, ⟨depth + 1, structs, typedefs, laidOut⟩, rfl⟩

theorem DeclaredTypes.aliases_resolve (unit : DeclaredTypes) {depth : Nat}
    {structs typedefs : List String} {name : String} {object : ObjectInfo}
    (found : (unit.resolve depth structs typedefs).declarations.aliases name = some object) :
    unit.Sizes object.type := by
  induction depth generalizing structs typedefs name object with
  | zero => cases found
  | succ depth ih =>
      unfold DeclaredTypes.resolve at found
      dsimp only at found
      split at found
      · cases found
      · obtain ⟨⟨type, declarator⟩, _, resolves⟩ := Option.bind_eq_some_iff.mp found
        exact sizes_of_resolveObject (fun _ _ => ih) (fun _ _ => unit.structs_resolve) resolves

theorem byteLength_of_array {object : ObjectInfo} (isArray : object.isArray = true)
    (known : object.byteLength ≠ 0) :
    object.byteLength = object.type.abi.byteLength * object.arrayCount := by
  unfold ObjectInfo.byteLength at known ⊢
  rw [if_pos isArray] at known ⊢
  split at known
  next fits => rw [if_pos fits]
  · exact absurd rfl known

/-- The fields placed so far. -/
structure Placing.IsNatural (placing : Placing) : Prop where
  natural : Natural FieldInfo.byteLength FieldInfo.offset FieldInfo.alignment placing.fields
  ending : placing.offset = ending FieldInfo.byteLength FieldInfo.offset placing.fields
  strictest : Strictest FieldInfo.alignment placing.fields placing.aggregateAlignment
  bound : placing.offset < 2 ^ 64
  positive : ∀ field ∈ placing.fields, 0 < field.byteLength

theorem alignUp_firstAligned {value alignment result : Nat} (bound : value < 2 ^ 64)
    (aligned : alignUp value alignment = some result) :
    FirstAligned value alignment result ∧ result < 2 ^ 64 := by
  unfold alignUp at aligned
  split at aligned
  · cases aligned
  next positive =>
    dsimp only at aligned
    split at aligned
    next divides =>
      cases aligned
      exact ⟨Placement.firstAligned_self divides, bound⟩
    next misaligned =>
      split at aligned
      · cases aligned
      next fits =>
        have below : value + (alignment - value % alignment) < 2 ^ 64 := by omega
        rw [Nat.mod_eq_of_lt below] at aligned
        cases aligned
        exact ⟨Placement.firstAligned_add (Nat.pos_of_ne_zero positive) misaligned, below⟩

section
variable {resolved : Resolved} {placing placed : Placing} {field : Field} {object : ObjectInfo}
  {offset : Nat}

theorem Placing.IsNatural.add (isNatural : placing.IsNatural)
    (places : PlacesField resolved placing field object offset) :
    (placing.add field.name object (resolved.alignment object.type) offset).IsNatural := by
  obtain ⟨_, length, _, aligned, fits⟩ := places
  obtain ⟨first, below⟩ := alignUp_firstAligned isNatural.bound aligned
  rw [isNatural.ending] at first
  have exact_ : (offset + object.byteLength) % 2 ^ 64 = offset + object.byteLength :=
    Nat.mod_eq_of_lt (by omega)
  refine ⟨isNatural.natural.snoc first, ?_, isNatural.strictest.snoc, ?_, ?_⟩
  · rw [Placing.add, Placement.ending_snoc]
    exact exact_
  · exact Nat.mod_lt _ (by decide)
  · intro other listed
    rcases List.mem_append.mp listed with earlier | last
    · exact isNatural.positive other earlier
    · rw [List.mem_singleton.mp last]
      exact Nat.pos_of_ne_zero length

theorem DeclaredTypes.isTyped_of_places {unit : DeclaredTypes} {depth : Nat}
    {structs typedefs : List String}
    (places : PlacesField (unit.resolve depth structs typedefs) placing field object offset) :
    FieldInfo.IsTyped unit ⟨field.name, object,
      (unit.resolve depth structs typedefs).alignment object.type, offset⟩ where
  array isArray := byteLength_of_array isArray places.length
  scalar scalar := if_neg scalar
  struct aggregate := by
    obtain ⟨nested, laysOut, length⟩ := sizes_of_resolveObject (fun _ _ => unit.aliases_resolve)
      (fun _ _ => unit.structs_resolve) places.resolves aggregate
    refine ⟨nested, laysOut, ?_, length⟩
    have known := places.alignment
    rw [Resolved.alignment, if_pos aggregate] at known ⊢
    cases found : (unit.resolve depth structs typedefs).layouts object.type.abi.aggregateName with
    | none =>
        rw [found] at known
        exact absurd rfl known
    | some info =>
        rw [laysOut.unique ⟨depth, structs, typedefs, found⟩]
        rfl

theorem foldlM_isTyped {unit : DeclaredTypes} {depth : Nat} {structs typedefs : List String}
    {fields : List Field} (typed : ∀ field ∈ placing.fields, field.IsTyped unit)
    (done : fields.foldlM (placeField (unit.resolve depth structs typedefs)) placing = some placed) :
    (∀ field ∈ placed.fields, field.IsTyped unit) ∧
      placed.fields.map FieldInfo.name = placing.fields.map FieldInfo.name ++
        fields.map Field.name := by
  induction fields generalizing placing with
  | nil =>
      cases done
      exact ⟨typed, by simp⟩
  | cons field fields ih =>
      rw [List.foldlM_cons] at done
      obtain ⟨next, first, rest⟩ := Option.bind_eq_some_iff.mp done
      obtain ⟨object, offset, places, rfl⟩ := placeField_eq_some.mp first
      obtain ⟨allTyped, names⟩ := ih (fun other listed => by
        rcases List.mem_append.mp listed with earlier | last
        · exact typed other earlier
        · rw [List.mem_singleton.mp last]
          exact unit.isTyped_of_places places) rest
      refine ⟨allTyped, ?_⟩
      rw [names]
      simp [Placing.add]

theorem foldlM_isNatural {fields : List Field} (isNatural : placing.IsNatural)
    (done : fields.foldlM (placeField resolved) placing = some placed) : placed.IsNatural := by
  induction fields generalizing placing with
  | nil =>
      cases done
      exact isNatural
  | cons field fields ih =>
      rw [List.foldlM_cons] at done
      obtain ⟨next, first, rest⟩ := Option.bind_eq_some_iff.mp done
      obtain ⟨object, offset, places, rfl⟩ := placeField_eq_some.mp first
      exact ih (isNatural.add places) rest

end

end HitSimple.CCompat

import HitSimple.CAbi.Plan

namespace HitSimple.CAbi
open Slots HitSimple.Overrides

namespace CAbiScalarLeaf

def region (leaf : CAbiScalarLeaf) : Region :=
  ⟨leaf.offset, leaf.byteLength⟩

def valueClass (leaf : CAbiScalarLeaf) : CAbiEightbyteClass :=
  if leaf.kind = .floating then .sse else .integer

/-- The leaf has a byte in the eightbyte. -/
def Meets (leaf : CAbiScalarLeaf) (index : Nat) : Prop :=
  leaf.offset / 8 ≤ index ∧ index ≤ (leaf.offset + leaf.byteLength - 1) / 8

instance (leaf : CAbiScalarLeaf) (index : Nat) : Decidable (leaf.Meets index) :=
  inferInstanceAs (Decidable (_ ∧ _))

/-- A leaf that lies within the value, which has two eightbytes at most. -/
structure Fits (leaf : CAbiScalarLeaf) (byteLength : Nat) : Prop where
  nonempty : 0 < leaf.byteLength
  inside : leaf.offset + leaf.byteLength ≤ byteLength
  eightbytes : leaf.offset + leaf.byteLength ≤ 16
  scalar : leaf.kind ≠ .aggregate

end CAbiScalarLeaf

/-- The leaves of one element, by those of its fields. -/
def elementLeaves (kind : AbiValueKind) (byteLength : Nat)
    (inFields : Nat → List CAbiScalarLeaf) (offset : Nat) : List CAbiScalarLeaf :=
  if kind = .aggregate then inFields offset else [⟨kind, offset, byteLength⟩]

mutual

/-- The scalar leaves of a value of the type at an offset. -/
def leavesAt : AbiType → Nat → List CAbiScalarLeaf
  | ⟨kind, byteLength, _, _, _, elementCount, fields, offsets⟩, offset =>
      (List.range elementCount).flatMap fun index =>
        elementLeaves kind byteLength (fun offset => fieldLeaves offset fields offsets)
          (offset + index * byteLength)

def fieldLeaves (offset : Nat) : List AbiType → List Nat → List CAbiScalarLeaf
  | [], _ => []
  | _ :: _, [] => []
  | field :: fields, fieldOffset :: offsets =>
      leavesAt field (offset + fieldOffset) ++ fieldLeaves offset fields offsets

end

/-- The class of an eightbyte by the leaves in it: one that is not floating makes it INTEGER. -/
def systemVClass (leaves : List CAbiScalarLeaf) : CAbiEightbyteClass :=
  if leaves = [] then .none
  else if ∃ leaf ∈ leaves, leaf.kind ≠ .floating then .integer
  else .sse

/-! ### What the classification collects -/

def addLeaf (classification : CAbiClassification) (leaf : CAbiScalarLeaf) : CAbiClassification where
  classes index :=
    if leaf.Meets index then mergeClass (classification.classes index) leaf.valueClass
    else classification.classes index
  floatLeaves :=
    if leaf.kind = .floating then
      classification.floatLeaves ++ [⟨leaf.offset, leaf.byteLength⟩]
    else classification.floatLeaves
  scalarLeaves := classification.scalarLeaves ++ [leaf]
  byteLength := classification.byteLength

/-- The classification went on by these leaves, which all fit. -/
def Collects (classification result : CAbiClassification) (leaves : List CAbiScalarLeaf) : Prop :=
  result = leaves.foldl addLeaf classification ∧
    ∀ leaf ∈ leaves, leaf.Fits classification.byteLength

/-- Induction over a type by its fields. -/
theorem typeInduction {motive : AbiType → Prop}
    (node : ∀ kind byteLength isSigned name alignment count fields offsets,
      (∀ field ∈ fields, motive field) →
        motive ⟨kind, byteLength, isSigned, name, alignment, count, fields, offsets⟩)
    (type : AbiType) : motive type :=
  @AbiType.rec motive (fun fields => ∀ field ∈ fields, motive field)
    (fun kind byteLength isSigned name alignment count fields offsets ih =>
      node kind byteLength isSigned name alignment count fields offsets ih)
    nofun
    (fun _ _ first rest => List.forall_mem_cons.mpr ⟨first, rest⟩) type

section
variable {classification middle result : CAbiClassification}
  {leaves others : List CAbiScalarLeaf}

@[simp] theorem byteLength_foldl (leaves : List CAbiScalarLeaf)
    (classification : CAbiClassification) :
    (leaves.foldl addLeaf classification).byteLength = classification.byteLength := by
  induction leaves generalizing classification with
  | nil => rfl
  | cons leaf leaves ih => exact ih _

theorem collects_nil : Collects classification classification [] :=
  ⟨rfl, nofun⟩

theorem Collects.append (first : Collects classification middle leaves)
    (second : Collects middle result others) :
    Collects classification result (leaves ++ others) := by
  obtain ⟨rfl, fits⟩ := first
  obtain ⟨rfl, fits'⟩ := second
  rw [byteLength_foldl] at fits'
  refine ⟨List.foldl_append.symm, fun leaf member => ?_⟩
  rcases List.mem_append.mp member with member | member
  · exact fits leaf member
  · exact fits' leaf member

theorem classifyScalar_collects {kind : AbiValueKind} {byteLength offset : Nat}
    (nonempty : 0 < byteLength) (inside : offset + byteLength ≤ classification.byteLength)
    (scalar : kind ≠ .aggregate)
    (classified : classifyScalar kind byteLength offset classification = some result) :
    Collects classification result [⟨kind, offset, byteLength⟩] := by
  obtain ⟨short, same⟩ := Option.ite_none_left_eq_some.mp classified
  obtain rfl := Option.some_inj.mp same
  refine ⟨rfl, List.forall_mem_singleton.mpr ⟨nonempty, inside, ?_, scalar⟩⟩
  dsimp only
  omega

theorem classifyElement_collects {kind : AbiValueKind} {byteLength alignment offset : Nat}
    {fieldsMatch : Bool} {visit : Nat → CAbiClassification → Option CAbiClassification}
    {inFields : Nat → List CAbiScalarLeaf} (nonempty : 0 < byteLength)
    (visited : ∀ result, visit offset classification = some result →
      Collects classification result (inFields offset))
    (classified : classifyElement kind byteLength alignment fieldsMatch visit offset
      classification = some result) :
    Collects classification result (elementLeaves kind byteLength inFields offset) := by
  unfold classifyElement at classified
  split at classified
  · cases classified
  rename_i passed
  simp only [not_or, not_lt] at passed
  have inside : offset + byteLength ≤ classification.byteLength := by omega
  unfold elementLeaves
  split at classified
  · split at classified
    · exact visited result classified
    · cases classified
  · rename_i scalar
    rw [if_neg scalar]
    exact classifyScalar_collects nonempty inside scalar classified

/-- The offsets of the elements do not overflow where the loop does not stop. -/
theorem classifyElements_collects {byteLength offset count : Nat} (bound : offset ≤ maxSize)
    (fits : byteLength ≤ maxSize / count)
    {visit : Nat → CAbiClassification → Option CAbiClassification}
    {inElement : Nat → List CAbiScalarLeaf}
    (visited : ∀ offset classification result, offset ≤ maxSize →
      visit offset classification = some result →
        Collects classification result (inElement offset))
    {indices : List Nat} (within : ∀ index ∈ indices, index < count)
    (classified : classifyElements byteLength offset visit indices classification = some result) :
    Collects classification result
      (indices.flatMap fun index => inElement (offset + index * byteLength)) := by
  induction indices generalizing classification with
  | nil =>
      obtain rfl := Option.some_inj.mp classified
      exact collects_nil
  | cons index rest ih =>
      have total : index * byteLength ≤ maxSize := by
        calc index * byteLength ≤ count * byteLength :=
              Nat.mul_le_mul_right _ (within index List.mem_cons_self).le
          _ ≤ maxSize := by
              rw [Nat.mul_comm]
              exact (Nat.mul_le_mul_right _ fits).trans (Nat.div_mul_le_self _ _)
      rw [classifyElements] at classified
      split at classified
      · cases classified
      rename_i noWrap
      have same : (offset + index * byteLength) % 2 ^ 64 = offset + index * byteLength := by
        unfold maxSize at bound total
        omega
      rw [same] at classified noWrap
      obtain ⟨middle, first, rest'⟩ := Option.bind_eq_some_iff.mp classified
      have bound' : offset + index * byteLength ≤ maxSize := by
        unfold maxSize at *
        omega
      rw [List.flatMap_cons]
      exact (visited _ _ _ bound' first).append
        (ih (fun other member => within other (List.mem_cons_of_mem _ member)) rest')

theorem classifyFields_collects {byteLength offset : Nat} (short : byteLength ≤ maxSize)
    {fields : List AbiType} {offsets : List Nat}
    (ofField : ∀ field ∈ fields, ∀ {offset : Nat} {classification result : CAbiClassification},
      offset ≤ maxSize → classifyCAbiValue field offset classification = some result →
        Collects classification result (leavesAt field offset))
    (classified : classifyFields byteLength offset fields offsets classification = some result) :
    Collects classification result (fieldLeaves offset fields offsets) := by
  induction fields generalizing offsets classification with
  | nil =>
      rw [classifyFields] at classified
      obtain rfl := Option.some_inj.mp classified
      rw [fieldLeaves]
      exact collects_nil
  | cons field fields ih =>
      cases offsets with
      | nil =>
          rw [classifyFields] at classified
          obtain rfl := Option.some_inj.mp classified
          rw [fieldLeaves]
          exact collects_nil
      | cons fieldOffset offsets =>
          rw [classifyFields] at classified
          split at classified
          · cases classified
          rename_i passed
          simp only [not_or, not_lt] at passed
          obtain ⟨middle, first, others⟩ := Option.bind_eq_some_iff.mp classified
          rw [fieldLeaves]
          refine (ofField field List.mem_cons_self (by omega) first).append ?_
          exact ih (fun field member => ofField field (List.mem_cons_of_mem _ member)) others

/-- The classification collects the leaves of the tree. -/
theorem classifyCAbiValue_collects (type : AbiType) {offset : Nat} (bound : offset ≤ maxSize)
    (classified : classifyCAbiValue type offset classification = some result) :
    Collects classification result (leavesAt type offset) := by
  induction type using typeInduction generalizing offset classification result with
  | node kind byteLength isSigned name alignment count fields offsets ih =>
    rw [classifyCAbiValue] at classified
    split at classified
    · cases classified
    rename_i passed
    simp only [not_or, not_lt] at passed
    obtain ⟨counted, sized, fits⟩ := passed
    have short := fits.trans (Nat.div_le_self maxSize count)
    have ofElement (offset : Nat) (classification result : CAbiClassification)
        (_ : offset ≤ maxSize) :
        classifyElement kind byteLength alignment
          (decide (fields ≠ [] ∧ fields.length = offsets.length))
          (fun offset classification => classifyFields byteLength offset fields offsets
            classification) offset classification = some result →
        Collects classification result (elementLeaves kind byteLength
          (fun offset => fieldLeaves offset fields offsets) offset) :=
      classifyElement_collects (Nat.pos_of_ne_zero sized) fun result =>
        classifyFields_collects short fun field member => ih field member
    rw [leavesAt]
    dsimp only at classified
    split at classified
    · exact classifyElements_collects bound fits ofElement
        (fun index member => List.mem_range.mp member) classified
    · rename_i single
      obtain rfl : count = 1 := not_not.mp single
      have alone := ofElement offset classification result bound classified
      simpa using alone

/-! ### The collected leaves and their classes -/

@[simp] theorem scalarLeaves_foldl (leaves : List CAbiScalarLeaf)
    (classification : CAbiClassification) :
    (leaves.foldl addLeaf classification).scalarLeaves =
      classification.scalarLeaves ++ leaves := by
  induction leaves generalizing classification with
  | nil => exact (List.append_nil _).symm
  | cons leaf leaves ih =>
      rw [List.foldl_cons, ih]
      exact List.append_cons _ _ _ |>.symm

theorem mem_floatLeaves_foldl {leaf : CAbiFloatLeaf} :
    leaf ∈ (leaves.foldl addLeaf classification).floatLeaves ↔
      leaf ∈ classification.floatLeaves ∨
        ⟨.floating, leaf.offset, leaf.byteLength⟩ ∈ leaves := by
  induction leaves generalizing classification with
  | nil => simp
  | cons first leaves ih =>
      have added : leaf ∈ (addLeaf classification first).floatLeaves ↔
          leaf ∈ classification.floatLeaves ∨
            first = ⟨.floating, leaf.offset, leaf.byteLength⟩ := by
        obtain ⟨kind, offset, byteLength⟩ := first
        obtain ⟨offset', byteLength'⟩ := leaf
        unfold addLeaf
        by_cases floating : kind = .floating
        · simp [floating, eq_comm]
        · simp [floating]
      rw [List.foldl_cons, ih, added, or_assoc, List.mem_cons, eq_comm]

theorem systemVClass_cons (leaf : CAbiScalarLeaf) (leaves : List CAbiScalarLeaf) :
    systemVClass (leaf :: leaves) = mergeClass leaf.valueClass (systemVClass leaves) := by
  simp only [systemVClass, reduceCtorEq, if_false, List.exists_mem_cons_iff,
    CAbiScalarLeaf.valueClass]
  by_cases floating : leaf.kind = .floating
  · simp only [floating, ne_eq, not_true_eq_false, false_or, if_true]
    by_cases other : ∃ leaf ∈ leaves, leaf.kind ≠ .floating
    · obtain ⟨_, member, _⟩ := id other
      rw [if_pos other, if_neg (List.ne_nil_of_mem member)]
      rfl
    · rw [if_neg other]
      split <;> rfl
  · rw [if_pos (.inl floating), if_neg floating]
    split
    · rfl
    · split <;> rfl

theorem mergeClass_assoc (left middle right : CAbiEightbyteClass) :
    mergeClass (mergeClass left middle) right = mergeClass left (mergeClass middle right) := by
  cases left <;> cases middle <;> cases right <;> rfl

theorem mergeClass_none (left : CAbiEightbyteClass) : mergeClass left .none = left := by
  cases left <;> rfl

/-- The class of an eightbyte after the leaves. -/
theorem classes_foldl (index : Nat) :
    (leaves.foldl addLeaf classification).classes index =
      mergeClass (classification.classes index)
        (systemVClass (leaves.filter fun leaf => leaf.Meets index)) := by
  induction leaves generalizing classification with
  | nil => exact (mergeClass_none _).symm
  | cons leaf leaves ih =>
      rw [List.foldl_cons, ih]
      by_cases meets : leaf.Meets index
      · rw [List.filter_cons_of_pos (by simpa using meets), systemVClass_cons,
          ← mergeClass_assoc]
        exact congrArg (mergeClass · _) (if_pos meets)
      · rw [List.filter_cons_of_neg (by simpa using meets)]
        exact congrArg (mergeClass · _) (if_neg meets)

end

/-! ### Leaves apart from one another -/

/-- The fields of every aggregate in the tree lie in range and apart from one another. -/
def FieldsApart (type : AbiType) : Prop :=
  ∀ level, Ownership.Reaches AbiType.parts type level → level.kind = .aggregate →
    (∀ index region, level.fieldRegion index = some region →
      region.base + region.length ≤ level.byteLength) ∧
    ∀ first second left right, first < second → level.fieldRegion first = some left →
      level.fieldRegion second = some right → left.Separate right

theorem fieldsApart_of_wellFormed {type : AbiType} (wellFormed : type.WellFormed) :
    FieldsApart type := fun level reached aggregate =>
  ⟨(wellFormed level reached).inside aggregate, (wellFormed level reached).apart aggregate⟩

theorem FieldsApart.field {type field : AbiType} (apart : FieldsApart type)
    (isField : field ∈ type.parts) : FieldsApart field :=
  fun level reached => apart level (.head isField reached)

/-- The leaf lies in the region. -/
def Inside (leaf : CAbiScalarLeaf) (region : Region) : Prop :=
  region.base ≤ leaf.offset ∧ leaf.offset + leaf.byteLength ≤ region.base + region.length

/-- Leaves within a region, apart from one another. -/
structure Spread (leaves : List CAbiScalarLeaf) (region : Region) : Prop where
  inside : ∀ leaf ∈ leaves, Inside leaf region
  apart : leaves.Pairwise fun left right => left.region.Separate right.region

section
variable {leaves others : List CAbiScalarLeaf} {region other : Region}

theorem Inside.separate {left right : CAbiScalarLeaf} (inside : Inside left region)
    (inside' : Inside right other) (separate : region.Separate other) :
    left.region.Separate right.region := by
  rw [Region.separate_iff] at separate ⊢
  unfold Inside at inside inside'
  change left.byteLength = 0 ∨ right.byteLength = 0 ∨
    left.offset + left.byteLength ≤ right.offset ∨ right.offset + right.byteLength ≤ left.offset
  omega

/-- Leaves below several parts whose regions are apart. -/
theorem spread_flatMap {α : Type*} {parts : List α} {below : α → List CAbiScalarLeaf}
    {regionOf : α → Region} (each : ∀ part ∈ parts, Spread (below part) (regionOf part))
    (within : ∀ part ∈ parts, region.base ≤ (regionOf part).base ∧
      (regionOf part).base + (regionOf part).length ≤ region.base + region.length)
    (separate : parts.Pairwise fun left right => (regionOf left).Separate (regionOf right)) :
    Spread (parts.flatMap below) region := by
  constructor
  · intro leaf member
    obtain ⟨part, isPart, member⟩ := List.mem_flatMap.mp member
    have inside := (each part isPart).inside leaf member
    have bounds := within part isPart
    unfold Inside at *
    omega
  · refine List.pairwise_flatMap.mpr ⟨fun part isPart => (each part isPart).apart, ?_⟩
    refine separate.imp_of_mem fun {left right} isLeft isRight separate => ?_
    intro leaf member leaf' member'
    exact ((each left isLeft).inside leaf member).separate
      ((each right isRight).inside leaf' member') separate

end

theorem fieldLeaves_eq (offset : Nat) (fields : List AbiType) (offsets : List Nat) :
    fieldLeaves offset fields offsets =
      (fields.zip offsets).flatMap fun part => leavesAt part.1 (offset + part.2) := by
  induction fields generalizing offsets with
  | nil => rw [fieldLeaves, List.zip_nil_left, List.flatMap_nil]
  | cons field fields ih =>
      cases offsets with
      | nil => rw [fieldLeaves, List.zip_nil_right, List.flatMap_nil]
      | cons fieldOffset offsets =>
          rw [fieldLeaves, ih, List.zip_cons_cons, List.flatMap_cons]

theorem fieldRegion_zip {type : AbiType} {index : Nat}
    (below : index < (type.aggregateFields.zip type.aggregateFieldOffsets).length) :
    type.fieldRegion index =
      some ⟨((type.aggregateFields.zip type.aggregateFieldOffsets)[index]).2,
        ((type.aggregateFields.zip type.aggregateFieldOffsets)[index]).1.extent⟩ := by
  rw [List.length_zip, Nat.lt_min] at below
  rw [AbiType.fieldRegion, List.getElem?_eq_getElem below.1, List.getElem?_eq_getElem below.2,
    List.getElem_zip]

/-- The leaves of a value lie within its extent and apart from one another. -/
theorem leavesAt_spread {type : AbiType} (apart : FieldsApart type) (offset : Nat) :
    Spread (leavesAt type offset) ⟨offset, type.extent⟩ := by
  induction type using typeInduction generalizing offset with
  | node kind byteLength isSigned name alignment count fields offsets ih =>
    have element (offset : Nat) :
        Spread (elementLeaves kind byteLength (fun offset => fieldLeaves offset fields offsets)
          offset) ⟨offset, byteLength⟩ := by
      unfold elementLeaves
      split
      · rename_i aggregate
        obtain ⟨inside, separate⟩ := apart _ .refl aggregate
        dsimp only
        rw [fieldLeaves_eq]
        refine @spread_flatMap ⟨offset, byteLength⟩ _ _ _
          (fun part => ⟨offset + part.2, part.1.extent⟩) ?_ ?_ ?_
        · intro part member
          have isField := (List.of_mem_zip member).1
          refine ih part.1 isField (apart.field ?_) _
          exact Eq.mpr (congrArg (part.1 ∈ ·) (if_pos aggregate)) isField
        · intro part member
          obtain ⟨index, below, rfl⟩ := List.mem_iff_getElem.mp member
          have bound := inside index _ (fieldRegion_zip below)
          exact ⟨Nat.le_add_right _ _, by rw [Nat.add_assoc]; exact Nat.add_le_add_left bound _⟩
        · refine List.pairwise_iff_getElem.mpr fun first second below below' before => ?_
          have fields := separate first second _ _ before (fieldRegion_zip below)
            (fieldRegion_zip below')
          rw [Region.separate_iff] at fields ⊢
          dsimp only [AbiType.aggregateFields, AbiType.aggregateFieldOffsets] at fields ⊢
          omega
      · refine ⟨List.forall_mem_singleton.mpr ⟨le_rfl, le_rfl⟩, List.pairwise_singleton _ _⟩
    rw [leavesAt]
    refine @spread_flatMap _ _ _ _ (fun index => ⟨offset + index * byteLength, byteLength⟩)
      (fun index _ => element _) ?_ ?_
    · intro index member
      have below := List.mem_range.mp member
      refine ⟨Nat.le_add_right _ _, ?_⟩
      change offset + index * byteLength + byteLength ≤ offset + byteLength * count
      rw [Nat.add_assoc, ← Nat.succ_mul, Nat.mul_comm byteLength]
      exact Nat.add_le_add_left (Nat.mul_le_mul_right _ below) _
    · refine List.pairwise_lt_range.imp fun {first second} before => ?_
      rw [Region.separate_iff]
      have ends : (first + 1) * byteLength ≤ second * byteLength := Nat.mul_le_mul_right _ before
      rw [Nat.add_mul, Nat.one_mul] at ends
      dsimp only
      omega

end HitSimple.CAbi

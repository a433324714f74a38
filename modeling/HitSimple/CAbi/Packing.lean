import HitSimple.CAbi.Leaves
import HitSimple.FixedWidth.Bytes

namespace HitSimple.CAbi
open FixedWidth Slots HitSimple.Overrides

/-! ### The pieces of a plan -/

/-- A classification that collected leaves apart from one another. -/
structure Collected (classification : CAbiClassification) (leaves : List CAbiScalarLeaf)
    (byteLength : Nat) : Prop where
  scalar : classification.scalarLeaves = leaves
  float : ∀ leaf, leaf ∈ classification.floatLeaves ↔
    ⟨.floating, leaf.offset, leaf.byteLength⟩ ∈ leaves
  classes : ∀ index, classification.classes index =
    systemVClass (leaves.filter fun leaf => leaf.Meets index)
  fits : ∀ leaf ∈ leaves, leaf.Fits byteLength
  apart : leaves.Pairwise fun left right => left.region.Separate right.region

theorem collected_of_classify {type : AbiType} (apart : FieldsApart type)
    {classification : CAbiClassification}
    (classified : classifyCAbiValue type 0 (emptyClassification type.byteLength) =
      some classification) :
    Collected classification (leavesAt type 0) type.byteLength := by
  obtain ⟨rfl, fits⟩ := classifyCAbiValue_collects type (Nat.zero_le _) classified
  refine ⟨?_, ?_, ?_, fits, (leavesAt_spread apart 0).apart⟩
  · rw [scalarLeaves_foldl]
    rfl
  · intro leaf
    rw [mem_floatLeaves_foldl]
    exact or_iff_right nofun
  · intro index
    rw [classes_foldl]
    rfl

theorem leavesOfPiece_spec {offset pieceEnd : Nat} {leaves found : List CAbiScalarLeaf}
    (collected : leavesOfPiece offset pieceEnd leaves = some found) :
    (∀ leaf, leaf ∈ found ↔
      leaf ∈ leaves ∧ offset < leaf.offset + leaf.byteLength ∧ leaf.offset < pieceEnd) ∧
    ∀ leaf ∈ found, offset ≤ leaf.offset ∧ leaf.offset + leaf.byteLength ≤ pieceEnd := by
  induction leaves generalizing found with
  | nil =>
      obtain rfl := Option.some_inj.mp collected
      exact ⟨by simp, nofun⟩
  | cons first leaves ih =>
      rw [leavesOfPiece] at collected
      dsimp only at collected
      split at collected
      · cases collected
      split at collected
      · rename_i outside
        obtain ⟨members, within⟩ := ih collected
        refine ⟨fun leaf => ?_, within⟩
        rw [members, List.mem_cons, or_and_right, or_iff_right]
        rintro ⟨rfl, meets⟩
        omega
      split at collected
      · cases collected
      rename_i meets contained
      obtain ⟨rest, isRest, rfl⟩ := Option.map_eq_some_iff.mp collected
      obtain ⟨members, within⟩ := ih isRest
      constructor
      · intro leaf
        rw [List.mem_cons, List.mem_cons, members, or_and_right]
        refine or_congr_left (iff_self_and.mpr ?_)
        rintro rfl
        omega
      · refine List.forall_mem_cons.mpr ⟨?_, within⟩
        omega

/-- A type for the bytes of a piece: no leaf reaches into the piece from below, and the type takes in
the leaves of the piece. -/
structure PieceFits (type : PieceType) (offset byteLength : Nat)
    (leaves : List CAbiScalarLeaf) : Prop where
  size : type.storeSize ≤ byteLength
  start : ∀ leaf ∈ leaves, offset < leaf.offset + leaf.byteLength →
    leaf.offset < offset + byteLength → offset ≤ leaf.offset
  cover : ∀ leaf ∈ leaves, offset ≤ leaf.offset →
    leaf.offset + leaf.byteLength ≤ offset + byteLength →
    leaf.offset + leaf.byteLength ≤ offset + type.storeSize

section
variable {classification : CAbiClassification} {leaves : List CAbiScalarLeaf}
  {offset byteLength total : Nat} {type : PieceType}

theorem storeSize_integer (count : Nat) : (PieceType.integer (count * 8)).storeSize = count := by
  rw [PieceType.storeSize]
  omega

theorem integerPieceType_fits (collected : Collected classification leaves total)
    (isType : integerPieceType classification offset byteLength = some type) :
    PieceFits type offset byteLength leaves := by
  obtain ⟨-, isType⟩ := Option.ite_none_left_eq_some.mp isType
  obtain ⟨found, isFound, isType⟩ := Option.bind_eq_some_iff.mp isType
  obtain ⟨members, within⟩ := leavesOfPiece_spec isFound
  rw [collected.scalar] at members
  have start : ∀ leaf ∈ leaves, offset < leaf.offset + leaf.byteLength →
      leaf.offset < offset + byteLength → offset ≤ leaf.offset := fun leaf member after before =>
    (within leaf ((members leaf).mpr ⟨member, after, before⟩)).1
  -- The whole piece is read unless there is one leaf at its start.
  have ofWhole (isWhole : type = .integer (byteLength * 8)) :
      PieceFits type offset byteLength leaves := by
    subst isWhole
    refine ⟨(storeSize_integer byteLength).le, start, fun leaf _ _ inside => ?_⟩
    rwa [storeSize_integer]
  have ofSole {leaf : CAbiScalarLeaf} (sole : found = [leaf]) (first : leaf.offset = offset)
      (size : type.storeSize = leaf.byteLength) : PieceFits type offset byteLength leaves := by
    have bounds := within leaf (sole ▸ List.mem_singleton_self leaf)
    refine ⟨by omega, start, fun other member after before => ?_⟩
    have nonempty := (collected.fits other member).nonempty
    have isFound := (members other).mpr ⟨member, by omega, by omega⟩
    rw [sole, List.mem_singleton] at isFound
    rw [isFound]
    omega
  have rest (isType : (if found = [] ∨ byteLength > maxUnsigned / 8 then none
      else some (PieceType.integer (byteLength * 8))) = some type) :
      PieceFits type offset byteLength leaves := by
    obtain ⟨-, same⟩ := Option.ite_none_left_eq_some.mp isType
    exact ofWhole (Option.some_inj.mp same).symm
  unfold soleLeafType at isType
  split at isType
  · rename_i leaf
    split at isType
    · rename_i first
      split at isType
      · obtain ⟨-, same⟩ := Option.ite_none_left_eq_some.mp isType
        obtain rfl := Option.some_inj.mp same
        exact ofSole rfl first (storeSize_integer _)
      split at isType
      · rename_i pointer
        obtain rfl := Option.some_inj.mp isType
        exact ofSole rfl first pointer.2.symm
      · exact rest isType
    · exact rest isType
  · exact rest isType

theorem contiguousEnd_spec {size cursor last : Nat} {found : List CAbiFloatLeaf}
    (contiguous : contiguousEnd size cursor found = some last) :
    last = cursor + size * found.length ∧
      ∀ leaf ∈ found, leaf.byteLength = size ∧ leaf.offset + leaf.byteLength ≤ last := by
  induction found generalizing cursor with
  | nil =>
      obtain rfl := Option.some_inj.mp contiguous
      exact ⟨rfl, nofun⟩
  | cons leaf found ih =>
      obtain ⟨matches', rest⟩ := Option.ite_none_left_eq_some.mp contiguous
      obtain ⟨isLast, all⟩ := ih rest
      simp only [not_or, not_not] at matches'
      have step : size * (found.length + 1) = size * found.length + size := Nat.mul_succ _ _
      rw [List.length_cons, step]
      refine ⟨by omega, List.forall_mem_cons.mpr ⟨⟨matches'.1, by omega⟩, all⟩⟩

theorem sseElementType_size {size : Nat} (isElement : sseElementType size = some type) :
    type.storeSize = size ∧ 0 < size := by
  unfold sseElementType at isElement
  split at isElement
  · obtain rfl := Option.some_inj.mp isElement
    exact ⟨rfl, by decide⟩
  · obtain rfl := Option.some_inj.mp isElement
    exact ⟨rfl, by decide⟩
  · cases isElement

/-- The leaves of an SSE piece follow one another from its start on. -/
theorem ssePieceType_spec (isType : ssePieceType classification offset byteLength = some type) :
    type.storeSize ≤ byteLength ∧
      (∃ first ∈ classification.floatLeaves, first.offset = offset ∧ 0 < first.byteLength) ∧
      ∀ leaf ∈ classification.floatLeaves, offset ≤ leaf.offset →
        leaf.offset ≤ maxSize - leaf.byteLength →
        leaf.offset + leaf.byteLength ≤ offset + byteLength →
        leaf.offset + leaf.byteLength ≤ offset + type.storeSize := by
  obtain ⟨-, isType⟩ := Option.ite_none_left_eq_some.mp isType
  dsimp only at isType
  generalize isPiece : (classification.floatLeaves.filter fun leaf =>
    offset ≤ leaf.offset ∧ leaf.offset ≤ maxSize - leaf.byteLength ∧
      leaf.offset + leaf.byteLength ≤ offset + byteLength) = inPiece at isType
  have members (leaf : CAbiFloatLeaf) : leaf ∈ inPiece ↔ leaf ∈ classification.floatLeaves ∧
      offset ≤ leaf.offset ∧ leaf.offset ≤ maxSize - leaf.byteLength ∧
        leaf.offset + leaf.byteLength ≤ offset + byteLength := by
    rw [← isPiece, List.mem_filter, decide_eq_true_iff]
  have sorted := List.perm_insertionSort (fun left right => left.offset ≤ right.offset) inPiece
  split at isType
  · cases isType
  rename_i first rest isSorted
  rw [isSorted] at sorted
  obtain ⟨cursor, contiguous, isType⟩ := Option.bind_eq_some_iff.mp isType
  obtain ⟨short, isType⟩ := Option.ite_none_left_eq_some.mp isType
  obtain ⟨element, isElement, isType⟩ := Option.bind_eq_some_iff.mp isType
  obtain ⟨size, positive⟩ := sseElementType_size isElement
  obtain ⟨isLast, all⟩ := contiguousEnd_spec contiguous
  have start : first.offset = offset := by
    obtain ⟨passed, -⟩ := Option.ite_none_left_eq_some.mp contiguous
    exact not_not.mp (not_or.mp passed).2
  have stored : type.storeSize = first.byteLength * (first :: rest).length := by
    split at isType
    · rename_i single
      obtain rfl := Option.some_inj.mp isType
      rw [single, size, Nat.mul_one]
    · obtain ⟨-, same⟩ := Option.ite_none_left_eq_some.mp isType
      obtain rfl := Option.some_inj.mp same
      rw [PieceType.storeSize, size]
  refine ⟨by omega, ⟨first, ?_, start, positive⟩, ?_⟩
  · exact ((members first).mp (sorted.mem_iff.mp List.mem_cons_self)).1
  · intro leaf member after bound before
    have inside := (all leaf (sorted.mem_iff.mpr ((members leaf).mpr ⟨member, after, bound, before⟩))).2
    omega

theorem floating_of_sse {leaf : CAbiScalarLeaf} (isSse : systemVClass leaves = .sse)
    (member : leaf ∈ leaves) : leaf.kind = .floating := by
  by_contra other
  rw [systemVClass, if_neg (List.ne_nil_of_mem member), if_pos ⟨leaf, member, other⟩] at isSse
  cases isSse

/-- Two leaves that share a byte are one leaf. -/
theorem Collected.eq_of_shared (collected : Collected classification leaves total)
    {left right : CAbiScalarLeaf} (isLeft : left ∈ leaves) (isRight : right ∈ leaves)
    {address : Nat} (inLeft : left.region.Contains address)
    (inRight : right.region.Contains address) : left = right := by
  by_contra different
  have symmetric : Std.Symm fun left right : CAbiScalarLeaf =>
      left.region.Separate right.region := ⟨fun _ _ => Region.Separate.symm⟩
  exact collected.apart.forall isLeft isRight different address inLeft inRight

theorem ssePieceType_fits (collected : Collected classification leaves total)
    {index : Nat} (isSse : classification.classes index = .sse) (short : byteLength ≤ 8)
    (isType : ssePieceType classification (index * 8) byteLength = some type) :
    PieceFits type (index * 8) byteLength leaves := by
  obtain ⟨size, ⟨first, isFirst, start, positive⟩, cover⟩ := ssePieceType_spec isType
  rw [collected.float] at isFirst
  refine ⟨size, ?_, ?_⟩
  · intro leaf member after _
    by_contra below
    have same := collected.eq_of_shared member isFirst
      (show leaf.region.Contains (index * 8) from
        Region.contains_iff.mpr ⟨(not_le.mp below).le, after⟩)
      (show (⟨first.offset, first.byteLength⟩ : Region).Contains (index * 8) from
        Region.contains_iff.mpr (by dsimp only; omega))
    rw [same] at below
    exact below start.ge
  · intro leaf member after before
    have fits := collected.fits leaf member
    have nonempty := fits.nonempty
    have meets : leaf.Meets index := by
      unfold CAbiScalarLeaf.Meets
      omega
    have floating : leaf.kind = .floating := by
      rw [collected.classes] at isSse
      exact floating_of_sse isSse (List.mem_filter.mpr ⟨member, decide_eq_true meets⟩)
    have isFloat : ⟨leaf.offset, leaf.byteLength⟩ ∈ classification.floatLeaves := by
      rw [collected.float, ← floating]
      exact member
    have inRange := fits.eightbytes
    exact cover _ isFloat after (by unfold maxSize; dsimp only; omega) before

theorem pieceTypeFor_fits (collected : Collected classification leaves total) {index : Nat}
    (short : byteLength ≤ 8)
    (isType : pieceTypeFor classification (index * 8) byteLength index = .ok type) :
    PieceFits type (index * 8) byteLength leaves := by
  unfold pieceTypeFor at isType
  split at isType
  · split at isType
    · cases isType
      exact integerPieceType_fits collected ‹_›
    · cases isType
  · rename_i isSse
    split at isType
    · cases isType
      exact ssePieceType_fits collected isSse short ‹_›
    · cases isType
  · cases isType
  · cases isType

/-- The plan has the pieces in order, each with a type of its own. -/
theorem planPieces_spec {indices : List Nat} {pieces : List CAbiDirectPiece}
    (planned : planPieces classification total indices = .ok pieces) :
    List.Forall₂ (fun index piece => piece.offset = index * 8 ∧
      pieceTypeFor classification (index * 8) (min 8 (total - index * 8)) index =
        .ok piece.type) indices pieces := by
  induction indices generalizing pieces with
  | nil =>
      cases planned
      exact .nil
  | cons index rest ih =>
      rw [planPieces] at planned
      split at planned
      · cases planned
      rename_i type isType
      split at planned
      · cases planned
      rename_i others isOthers
      cases planned
      exact .cons ⟨rfl, isType⟩ (ih isOthers)

end

def CAbiDirectPiece.region (piece : CAbiDirectPiece) : Region :=
  ⟨piece.offset, piece.type.storeSize⟩

/-- The pieces of a value, one for each eightbyte, with the types that fit its leaves. -/
structure Pieces (pieces : List CAbiDirectPiece) (leaves : List CAbiScalarLeaf) (total : Nat) :
    Prop where
  located : ∀ piece ∈ pieces, ∃ index, piece.offset = index * 8 ∧ index * 8 < total ∧
    PieceFits piece.type (index * 8) (min 8 (total - index * 8)) leaves
  complete : ∀ index, index * 8 < total → ∃ piece ∈ pieces, piece.offset = index * 8
  apart : pieces.Pairwise fun left right => left.region.Separate right.region

section
variable {classification : CAbiClassification} {leaves : List CAbiScalarLeaf} {total : Nat}
  {pieces : List CAbiDirectPiece}

theorem pieces_of_plan (collected : Collected classification leaves total)
    (planned : planPieces classification total (List.range ((total + 7) / 8)) = .ok pieces) :
    Pieces pieces leaves total := by
  obtain ⟨length, spec⟩ := List.forall₂_iff_get.mp (planPieces_spec planned)
  rw [List.length_range] at length
  have each {index : Nat} (below : index < pieces.length) : pieces[index].offset = index * 8 ∧
      PieceFits pieces[index].type (index * 8) (min 8 (total - index * 8)) leaves := by
    obtain ⟨same, isType⟩ := spec index (by rwa [List.length_range, length]) below
    simp only [List.get_eq_getElem, List.getElem_range] at same isType
    exact ⟨same, pieceTypeFor_fits collected (Nat.min_le_left _ _) isType⟩
  refine ⟨?_, ?_, ?_⟩
  · intro piece member
    obtain ⟨index, below, rfl⟩ := List.mem_iff_getElem.mp member
    exact ⟨index, (each below).1, by omega, (each below).2⟩
  · intro index inside
    have below : index < pieces.length := by omega
    exact ⟨pieces[index], List.getElem_mem below, (each below).1⟩
  · refine List.pairwise_iff_getElem.mpr fun first second below below' before => ?_
    have size := (each below).2.size
    have start := (each below).1
    have start' := (each below').1
    refine Region.separate_iff.mpr (.inr (.inr (.inl ?_)))
    change pieces[first].offset + pieces[first].type.storeSize ≤ pieces[second].offset
    omega

/-- Each leaf lies in a piece. -/
theorem Pieces.exists_piece (found : Pieces pieces leaves total) {leaf : CAbiScalarLeaf}
    (member : leaf ∈ leaves) (fits : leaf.Fits total) :
    ∃ piece ∈ pieces, Inside leaf piece.region := by
  have nonempty := fits.nonempty
  have inside := fits.inside
  -- A leaf that goes on in the next eightbyte would reach into its piece from below.
  have short : leaf.offset + leaf.byteLength ≤ leaf.offset / 8 * 8 + 8 := by
    by_contra long
    obtain ⟨piece, isPiece, next⟩ := found.complete (leaf.offset / 8 + 1) (by omega)
    obtain ⟨index, same, below, typeFits⟩ := found.located piece isPiece
    have := typeFits.start leaf member (by omega) (by omega)
    omega
  obtain ⟨piece, isPiece, start⟩ := found.complete (leaf.offset / 8) (by omega)
  obtain ⟨index, same, below, typeFits⟩ := found.located piece isPiece
  have covered := typeFits.cover leaf member (by omega) (by omega)
  refine ⟨piece, isPiece, ?_, ?_⟩
  · change piece.offset ≤ leaf.offset
    omega
  · change leaf.offset + leaf.byteLength ≤ piece.offset + piece.type.storeSize
    omega

theorem Pieces.existsUnique_piece (found : Pieces pieces leaves total) {leaf : CAbiScalarLeaf}
    (member : leaf ∈ leaves) (fits : leaf.Fits total) :
    ∃! piece, piece ∈ pieces ∧ Inside leaf piece.region := by
  obtain ⟨piece, isPiece, inside⟩ := found.exists_piece member fits
  refine ⟨piece, ⟨isPiece, inside⟩, ?_⟩
  rintro other ⟨isOther, inside'⟩
  by_contra different
  have symmetric : Std.Symm fun left right : CAbiDirectPiece =>
      left.region.Separate right.region := ⟨fun _ _ => Region.Separate.symm⟩
  have nonempty := fits.nonempty
  refine found.apart.forall isOther isPiece different leaf.offset ?_ ?_
  · exact Region.contains_iff.mpr ⟨inside'.1, by have := inside'.2; omega⟩
  · exact Region.contains_iff.mpr ⟨inside.1, by have := inside.2; omega⟩

end

/-! ### Packing and unpacking -/

/-- The value of a piece. -/
structure PieceValue where
  type : PieceType
  bits : BitVec (type.storeSize * 8)

inductive PhysicalValue where
  | single (value : PieceValue)
  | struct (fields : List PieceValue)

def PhysicalValue.type : PhysicalValue → PhysicalType
  | .single value => .single value.type
  | .struct fields => .struct (fields.map PieceValue.type)

/-- The values by their index, where a value that stands alone is not in a structure. -/
def PhysicalValue.fields : PhysicalValue → List PieceValue
  | .single value => [value]
  | .struct fields => fields

def pieceOutOfRange (piece : CAbiDirectPiece) (byteLength : Nat) : Prop :=
  piece.offset > byteLength ∨ piece.type.storeSize > byteLength - piece.offset

instance (piece : CAbiDirectPiece) (byteLength : Nat) :
    Decidable (pieceOutOfRange piece byteLength) :=
  inferInstanceAs (Decidable (_ ∨ _))

/-- The loop over the pieces that loads their values. -/
def loadPieces (storage : Memory 64) (base : BitVec 64) (byteLength : Nat) :
    List CAbiDirectPiece → Except String (List PieceValue)
  | [] => .ok []
  | piece :: rest =>
      if pieceOutOfRange piece byteLength then
        .error "direct C aggregate ABI piece exceeds logical storage"
      else
        match loadPieces storage base byteLength rest with
        | .error message => .error message
        | .ok values =>
          .ok (⟨piece.type,
            storage.load (base + BitVec.ofNat 64 piece.offset) piece.type.storeSize⟩ :: values)

def packCAbiDirectValue (storage : Memory 64) (base : BitVec 64) (logicalType : AbiType)
    (plan : CAbiDirectPlan) : Except String PhysicalValue :=
  if logicalType.elementCount ≠ 1 ∨ logicalType.byteLength = 0 ∨ plan.pieces = [] then
    .error "invalid direct C aggregate ABI value"
  else
    match loadPieces storage base logicalType.byteLength plan.pieces with
    | .error message => .error message
    | .ok [value] => .ok (.single value)
    | .ok values => .ok (.struct values)

/-- The loop over the pieces that stores their values. -/
def storePieces (base : BitVec 64) (byteLength : Nat) :
    List CAbiDirectPiece → List PieceValue → Memory 64 → Except String (Memory 64)
  | piece :: rest, value :: values, storage =>
      if pieceOutOfRange piece byteLength then
        .error "direct C aggregate ABI piece exceeds logical storage"
      else
        storePieces base byteLength rest values
          (storage.store (base + BitVec.ofNat 64 piece.offset) piece.type.storeSize value.bits)
  | _, _, storage => .ok storage

def unpackCAbiDirectValue (value : PhysicalValue) (storage : Memory 64) (base : BitVec 64)
    (logicalType : AbiType) (plan : CAbiDirectPlan) : Except String (Memory 64) :=
  if value.type ≠ plan.physicalType ∨ logicalType.elementCount ≠ 1 ∨
      logicalType.byteLength = 0 ∨ plan.pieces = [] then
    .error "invalid direct C aggregate ABI result"
  else storePieces base logicalType.byteLength plan.pieces value.fields storage

section
variable {source target : Memory 64} {from' to' : BitVec 64} {total : Nat}
  {pieces : List CAbiDirectPiece}

theorem loadPieces_eq (inRange : ∀ piece ∈ pieces, ¬pieceOutOfRange piece total) :
    loadPieces source from' total pieces = .ok (pieces.map fun piece => ⟨piece.type,
      source.load (from' + BitVec.ofNat 64 piece.offset) piece.type.storeSize⟩) := by
  induction pieces with
  | nil => rfl
  | cons piece rest ih =>
      obtain ⟨first, others⟩ := List.forall_mem_cons.mp inRange
      rw [loadPieces, if_neg first, ih others]
      rfl

theorem store_load_at {offset distance count : Nat} (short : offset + count ≤ 2 ^ 63)
    (short' : distance < 2 ^ 63) :
    target.store (to' + BitVec.ofNat 64 offset) count
        (source.load (from' + BitVec.ofNat 64 offset) count) (to' + BitVec.ofNat 64 distance) =
      if offset ≤ distance ∧ distance < offset + count then
        source (from' + BitVec.ofNat 64 distance)
      else target (to' + BitVec.ofNat 64 distance) := by
  have split (base : BitVec 64) (after : offset ≤ distance) : base + BitVec.ofNat 64 distance =
      base + BitVec.ofNat 64 offset + BitVec.ofNat 64 (distance - offset) := by
    rw [BitVec.add_assoc, ← BitVec.ofNat_add, Nat.add_sub_cancel' after]
  by_cases inside : offset ≤ distance ∧ distance < offset + count
  · rw [if_pos inside, split to' inside.1, Memory.store_at _ _ _ (by omega) (by omega), Memory.load,
      byteAt_assemble _ (by omega), split from' inside.1]
  · rw [if_neg inside]
    apply Memory.store_of_outside
    have distances : to' + BitVec.ofNat 64 distance - (to' + BitVec.ofNat 64 offset) =
        BitVec.ofNat 64 distance - BitVec.ofNat 64 offset := by
      bv_omega
    rw [distances, BitVec.toNat_sub, BitVec.toNat_ofNat, BitVec.toNat_ofNat]
    omega

/-- Each byte of a piece comes from the source, and the others stay. -/
theorem storePieces_eq (inRange : ∀ piece ∈ pieces, ¬pieceOutOfRange piece total)
    (small : total ≤ 16) :
    ∃ result, storePieces to' total pieces (pieces.map fun piece => ⟨piece.type,
        source.load (from' + BitVec.ofNat 64 piece.offset) piece.type.storeSize⟩) target =
          .ok result ∧
      ∀ distance < total, result (to' + BitVec.ofNat 64 distance) =
        if ∃ piece ∈ pieces, piece.region.Contains distance then
          source (from' + BitVec.ofNat 64 distance)
        else target (to' + BitVec.ofNat 64 distance) := by
  induction pieces generalizing target with
  | nil => exact ⟨target, rfl, fun distance _ => by simp⟩
  | cons piece rest ih =>
      obtain ⟨first, others⟩ := List.forall_mem_cons.mp inRange
      rw [List.map_cons, storePieces, if_neg first]
      obtain ⟨result, stored, bytes⟩ := @ih (target.store (to' + BitVec.ofNat 64 piece.offset)
        piece.type.storeSize (source.load (from' + BitVec.ofNat 64 piece.offset)
          piece.type.storeSize)) others
      refine ⟨result, stored, fun distance below => ?_⟩
      unfold pieceOutOfRange at first
      rw [bytes distance below, store_load_at (by omega) (by omega)]
      have covers : piece.region.Contains distance ↔
          piece.offset ≤ distance ∧ distance < piece.offset + piece.type.storeSize :=
        Region.contains_iff
      simp only [List.exists_mem_cons_iff, covers]
      by_cases inRest : ∃ piece ∈ rest, piece.region.Contains distance
      · simp only [inRest, or_true, if_true]
      · simp only [inRest, or_false, if_false]

/-- The physical value has the values of the pieces and the type of the plan. -/
theorem packCAbiDirectValue_eq {logicalType : AbiType} (single : logicalType.elementCount = 1)
    (nonempty : logicalType.byteLength ≠ 0) (some' : pieces ≠ [])
    (inRange : ∀ piece ∈ pieces, ¬pieceOutOfRange piece logicalType.byteLength) :
    ∃ value, packCAbiDirectValue source from' logicalType ⟨physicalTypeOf pieces, pieces⟩ =
        .ok value ∧ value.type = physicalTypeOf pieces ∧
      value.fields = pieces.map fun piece => ⟨piece.type,
        source.load (from' + BitVec.ofNat 64 piece.offset) piece.type.storeSize⟩ := by
  have passed : ¬(logicalType.elementCount ≠ 1 ∨ logicalType.byteLength = 0 ∨ pieces = []) := by
    rintro (other | none | none)
    · exact other single
    · exact nonempty none
    · exact some' none
  rw [packCAbiDirectValue, if_neg passed, loadPieces_eq inRange]
  match pieces with
  | [] => exact absurd rfl some'
  | [piece] => exact ⟨_, rfl, rfl, rfl⟩
  | piece :: second :: rest =>
      refine ⟨_, rfl, ?_, rfl⟩
      simp [PhysicalValue.type, physicalTypeOf, Function.comp_def]

end

/-- The direct plan of an aggregate loses nothing. -/
structure Lossless (type : AbiType) (plan : CAbiDirectPlan) : Prop where
  leaf : ∀ leaf ∈ leavesAt type 0, ∃! piece, piece ∈ plan.pieces ∧ Inside leaf piece.region
  apart : plan.pieces.Pairwise fun left right => left.region.Separate right.region
  inside : ∀ piece ∈ plan.pieces, piece.offset + piece.type.storeSize ≤ type.byteLength
  classes : ∃ classification,
    classifyCAbiValue type 0 (emptyClassification type.byteLength) = some classification ∧
      ∀ index, classification.classes index =
        systemVClass ((leavesAt type 0).filter fun leaf => leaf.Meets index)
  restored : ∀ (source target : Memory 64) (from' to' : BitVec 64), ∃ value result,
    packCAbiDirectValue source from' type plan = .ok value ∧
    unpackCAbiDirectValue value target to' type plan = .ok result ∧
    ∀ leaf ∈ leavesAt type 0, ∀ distance, leaf.region.Contains distance →
      result (to' + BitVec.ofNat 64 distance) = source (from' + BitVec.ofNat 64 distance)

theorem cAbiDirectPlanFor_lossless (abiTypeFor : AbiType → Bool) {type : AbiType}
    (apart : FieldsApart type) {plan : CAbiDirectPlan}
    (planned : cAbiDirectPlanFor abiTypeFor type = .ok plan) : Lossless type plan := by
  unfold cAbiDirectPlanFor at planned
  split at planned
  · cases planned
  rename_i passed
  simp only [not_or, not_not, not_lt] at passed
  obtain ⟨aggregate, nonempty, small, single⟩ := passed
  split at planned
  · cases planned
  split at planned
  · cases planned
  rename_i classification classified
  split at planned
  · cases planned
  rename_i pieces isPieces
  split at planned
  · cases planned
  rename_i some'
  cases planned
  have collected := collected_of_classify apart classified
  have found := pieces_of_plan collected isPieces
  have inRange : ∀ piece ∈ pieces, piece.offset + piece.type.storeSize ≤ type.byteLength := by
    intro piece member
    obtain ⟨index, same, below, fits⟩ := found.located piece member
    have := fits.size
    omega
  have notOut : ∀ piece ∈ pieces, ¬pieceOutOfRange piece type.byteLength := by
    intro piece member
    have := inRange piece member
    unfold pieceOutOfRange
    omega
  refine ⟨fun leaf member => found.existsUnique_piece member (collected.fits leaf member),
    found.apart, inRange, ⟨classification, classified, collected.classes⟩, ?_⟩
  intro source target from' to'
  obtain ⟨value, packed, sameType, fields⟩ :=
    @packCAbiDirectValue_eq source from' pieces type single nonempty some' notOut
  obtain ⟨result, stored, bytes⟩ :=
    @storePieces_eq source target from' to' type.byteLength pieces notOut small
  refine ⟨value, result, packed, ?_, ?_⟩
  · unfold unpackCAbiDirectValue
    rw [if_neg, fields, stored]
    rintro (other | other | none | none)
    · exact other sameType
    · exact other single
    · exact nonempty none
    · exact some' none
  · intro leaf member distance contains
    obtain ⟨piece, isPiece, inside⟩ := found.exists_piece member (collected.fits leaf member)
    have fits := (collected.fits leaf member).inside
    obtain ⟨least, most⟩ := Region.contains_iff.mp contains
    have below : distance < type.byteLength := most.trans_le fits
    have covered : piece.region.Contains distance :=
      Region.contains_iff.mpr ⟨inside.1.trans least, most.trans_le inside.2⟩
    rw [bytes distance below, if_pos ⟨piece, isPiece, covered⟩]

/-- `struct { float x; int y; float z[2]; }` -/
def mixedType : AbiType :=
  ⟨.aggregate, 16, true, "mixed", 4, 1,
    [⟨.floating, 4, true, "", 4, 1, [], []⟩, ⟨.integer, 4, true, "", 4, 1, [], []⟩,
      ⟨.floating, 4, true, "", 4, 2, [], []⟩], [0, 4, 8]⟩

theorem cAbiDirectPlanFor_lossless_mixed : Lossless mixedType
    ⟨.struct [.integer 64, .vector .float 2], [⟨.integer 64, 0⟩, ⟨.vector .float 2, 8⟩]⟩ :=
  cAbiDirectPlanFor_lossless (fun _ => true)
    (fieldsApart_of_wellFormed (wellFormed_of_valid (by decide))) (by rfl)

end HitSimple.CAbi

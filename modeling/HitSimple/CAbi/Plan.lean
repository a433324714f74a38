import HitSimple.Overrides.AbiTypes
import Mathlib.Data.List.Range
import Mathlib.Data.List.Sort

namespace HitSimple.CAbi
open Slots HitSimple.Overrides

inductive CAbiEightbyteClass where
  | none | integer | sse | memory
  deriving DecidableEq, Repr

structure CAbiFloatLeaf where
  offset : Nat
  byteLength : Nat
  deriving DecidableEq

structure CAbiScalarLeaf where
  kind : AbiValueKind
  offset : Nat
  byteLength : Nat
  deriving DecidableEq

/-- The classes are those of two eightbytes. -/
structure CAbiClassification where
  classes : Nat → CAbiEightbyteClass
  floatLeaves : List CAbiFloatLeaf
  scalarLeaves : List CAbiScalarLeaf
  byteLength : Nat

def mergeClass (left right : CAbiEightbyteClass) : CAbiEightbyteClass :=
  if left = .none then right
  else if right = .none ∨ left = right then left
  else if left = .memory ∨ right = .memory then .memory
  else .integer

/-- The end of `classifyCAbiValue`, for a value that is not an aggregate. -/
def classifyScalar (kind : AbiValueKind) (byteLength offset : Nat)
    (classification : CAbiClassification) : Option CAbiClassification :=
  let firstEightbyte := offset / 8
  let lastEightbyte := (offset + byteLength - 1) / 8
  if 2 ≤ lastEightbyte then none
  else
    let valueClass := if kind = .floating then .sse else .integer
    some { classification with
      classes := fun index =>
        if firstEightbyte ≤ index ∧ index ≤ lastEightbyte then
          mergeClass (classification.classes index) valueClass
        else classification.classes index
      floatLeaves :=
        if kind = .floating then classification.floatLeaves ++ [⟨offset, byteLength⟩]
        else classification.floatLeaves
      scalarLeaves := classification.scalarLeaves ++ [⟨kind, offset, byteLength⟩] }

/-- `classifyCAbiValue` of a type with one element, by the loop over its fields. -/
def classifyElement (kind : AbiValueKind) (byteLength alignment : Nat) (fieldsMatch : Bool)
    (visitFields : Nat → CAbiClassification → Option CAbiClassification) (offset : Nat)
    (classification : CAbiClassification) : Option CAbiClassification :=
  if alignment = 0 ∨ offset % alignment ≠ 0 ∨ offset > classification.byteLength ∨
      byteLength > classification.byteLength - offset then none
  else
    match kind with
    | .aggregate => if fieldsMatch then visitFields offset classification else none
    | kind => classifyScalar kind byteLength offset classification

/-- The loop over the elements of an array. -/
def classifyElements (byteLength offset : Nat)
    (visit : Nat → CAbiClassification → Option CAbiClassification) :
    List Nat → CAbiClassification → Option CAbiClassification
  | [], classification => some classification
  | index :: rest, classification =>
      let elementOffset := (offset + index * byteLength) % 2 ^ 64
      if elementOffset < offset then none
      else (visit elementOffset classification).bind (classifyElements byteLength offset visit rest)

mutual

def classifyCAbiValue : AbiType → Nat → CAbiClassification → Option CAbiClassification
  | ⟨kind, byteLength, _, _, alignment, elementCount, fields, offsets⟩, offset, classification =>
      if elementCount = 0 ∨ byteLength = 0 ∨ byteLength > maxSize / elementCount then none
      else
        let visit := classifyElement kind byteLength alignment
          (decide (fields ≠ [] ∧ fields.length = offsets.length))
          fun offset classification => classifyFields byteLength offset fields offsets classification
        if elementCount ≠ 1 then
          classifyElements byteLength offset visit (List.range elementCount) classification
        else visit offset classification

/-- The loop over the fields of an aggregate. -/
def classifyFields (byteLength offset : Nat) :
    List AbiType → List Nat → CAbiClassification → Option CAbiClassification
  | [], _, classification => some classification
  | _ :: _, [], classification => some classification
  | field :: fields, fieldOffset :: offsets, classification =>
      if fieldOffset > byteLength ∨ offset > maxSize - fieldOffset then none
      else
        (classifyCAbiValue field (offset + fieldOffset) classification).bind fun classification =>
          classifyFields byteLength offset fields offsets classification

end

/-- The LLVM types of the pieces. -/
inductive PieceType where
  | integer (bits : Nat)
  | pointer
  | float
  | double
  | vector (element : PieceType) (count : Nat)
  deriving DecidableEq, Repr

/-- `getTypeStoreSize`. -/
def PieceType.storeSize : PieceType → Nat
  | .integer bits => (bits + 7) / 8
  | .pointer => 8
  | .float => 4
  | .double => 8
  | .vector element count => element.storeSize * count

def maxUnsigned : Nat := 2 ^ 32 - 1

/-- The leaves that meet a piece, unless one of them reaches out of it. -/
def leavesOfPiece (offset pieceEnd : Nat) : List CAbiScalarLeaf → Option (List CAbiScalarLeaf)
  | [] => some []
  | leaf :: rest =>
      if leaf.offset > maxSize - leaf.byteLength then none
      else
        let leafEnd := leaf.offset + leaf.byteLength
        if leafEnd ≤ offset ∨ pieceEnd ≤ leaf.offset then leavesOfPiece offset pieceEnd rest
        else if leaf.offset < offset ∨ pieceEnd < leafEnd then none
        else (leavesOfPiece offset pieceEnd rest).map (leaf :: ·)

/-- The type of a piece with one leaf at its start. -/
def soleLeafType (offset : Nat) : List CAbiScalarLeaf → Option (Option PieceType)
  | [leaf] =>
      if leaf.offset = offset then
        if leaf.kind = .integer then
          some (if leaf.byteLength > maxUnsigned / 8 then none
            else some (.integer (leaf.byteLength * 8)))
        else if leaf.kind = .pointer ∧ leaf.byteLength = pointerSize then some (some .pointer)
        else none
      else none
  | _ => none

def integerPieceType (classification : CAbiClassification) (offset byteLength : Nat) :
    Option PieceType :=
  if offset > maxSize - byteLength then none
  else
    (leavesOfPiece offset (offset + byteLength) classification.scalarLeaves).bind fun leaves =>
      (soleLeafType offset leaves).getD
        (if leaves = [] ∨ byteLength > maxUnsigned / 8 then none
          else some (.integer (byteLength * 8)))

/-- Where the leaves end that follow one another with one byte length. -/
def contiguousEnd (elementByteLength : Nat) : Nat → List CAbiFloatLeaf → Option Nat
  | cursor, [] => some cursor
  | cursor, leaf :: rest =>
      if leaf.byteLength ≠ elementByteLength ∨ leaf.offset ≠ cursor then none
      else contiguousEnd elementByteLength (cursor + leaf.byteLength) rest

def sseElementType : Nat → Option PieceType
  | 4 => some .float
  | 8 => some .double
  | _ => none

/-- Leaves with one offset make the type fail wherever they stand, so that any sort will do. -/
def ssePieceType (classification : CAbiClassification) (offset byteLength : Nat) :
    Option PieceType :=
  if offset > maxSize - byteLength then none
  else
    let pieceEnd := offset + byteLength
    let inPiece := classification.floatLeaves.filter fun leaf =>
      offset ≤ leaf.offset ∧ leaf.offset ≤ maxSize - leaf.byteLength ∧
        leaf.offset + leaf.byteLength ≤ pieceEnd
    match inPiece.insertionSort fun left right => left.offset ≤ right.offset with
    | [] => none
    | first :: rest =>
        (contiguousEnd first.byteLength offset (first :: rest)).bind fun cursor =>
          if pieceEnd < cursor then none
          else
            (sseElementType first.byteLength).bind fun elementType =>
              if (first :: rest).length = 1 then some elementType
              else if maxUnsigned < (first :: rest).length then none
              else some (.vector elementType (first :: rest).length)

structure CAbiDirectPiece where
  type : PieceType
  offset : Nat
  deriving DecidableEq

inductive PhysicalType where
  | single (type : PieceType)
  | struct (fields : List PieceType)
  deriving DecidableEq

structure CAbiDirectPlan where
  physicalType : PhysicalType
  pieces : List CAbiDirectPiece

def pieceTypeFor (classification : CAbiClassification) (offset byteLength index : Nat) :
    Except String PieceType :=
  match classification.classes index with
  | .integer =>
    match integerPieceType classification offset byteLength with
    | some type => .ok type
    | none => .error "unsupported C aggregate INTEGER ABI piece"
  | .sse =>
    match ssePieceType classification offset byteLength with
    | some type => .ok type
    | none => .error "unsupported C aggregate SSE ABI piece"
  | .none | .memory => .error "unsupported C aggregate ABI classification"

/-- The loop over the pieces. -/
def planPieces (classification : CAbiClassification) (byteLength : Nat) :
    List Nat → Except String (List CAbiDirectPiece)
  | [] => .ok []
  | index :: rest =>
      let offset := index * 8
      match pieceTypeFor classification offset (min 8 (byteLength - offset)) index with
      | .error message => .error message
      | .ok type =>
        match planPieces classification byteLength rest with
        | .error message => .error message
        | .ok pieces => .ok (⟨type, offset⟩ :: pieces)

def physicalTypeOf : List CAbiDirectPiece → PhysicalType
  | [piece] => .single piece.type
  | pieces => .struct (pieces.map CAbiDirectPiece.type)

def emptyClassification (byteLength : Nat) : CAbiClassification :=
  ⟨fun _ => .none, [], [], byteLength⟩

/-- `cAbiDirectPlanFor`: no plan and no diagnostic, a diagnostic, or the plan. -/
def cAbiDirectPlanFor (abiTypeFor : AbiType → Bool) (type : AbiType) :
    Except (Option String) CAbiDirectPlan :=
  if type.kind ≠ .aggregate ∨ type.byteLength = 0 ∨ type.byteLength > 16 ∨
      type.elementCount ≠ 1 then .error none
  else if abiTypeFor type = false then .error none
  else
    match classifyCAbiValue type 0 (emptyClassification type.byteLength) with
    | none => .error (some "unsupported C aggregate ABI classification")
    | some classification =>
      match planPieces classification type.byteLength
          (List.range ((type.byteLength + 7) / 8)) with
      | .error message => .error (some message)
      | .ok pieces =>
        if pieces = [] then
          .error (some "unsupported empty C aggregate ABI classification")
        else .ok ⟨physicalTypeOf pieces, pieces⟩

end HitSimple.CAbi

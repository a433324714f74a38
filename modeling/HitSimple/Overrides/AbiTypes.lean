import HitSimple.Overrides.Units
import HitSimple.Ownership.Reach
import HitSimple.Slots.Memory
import Mathlib.Algebra.Group.Nat.Defs

namespace HitSimple.Overrides
open Slots

def maxSize : Nat := 2 ^ 64 - 1

def pointerSize : Nat := 8

def storageByteLength (type : AbiType) : Option Nat :=
  if type.byteLength = 0 ∨ type.elementCount = 0 ∨
      type.byteLength > maxSize / type.elementCount then none
  else some (type.byteLength * type.elementCount % 2 ^ 64)

mutual

def isValidType : AbiType → Bool
  | ⟨kind, byteLength, isSigned, aggregateName, alignment, elementCount, fields, offsets⟩ =>
      if storageByteLength ⟨kind, byteLength, isSigned, aggregateName, alignment, elementCount,
          fields, offsets⟩ = none ∨ alignment = 0 then false
      else
        match kind with
        | .integer => byteLength = 1 ∨ byteLength = 2 ∨ byteLength = 4 ∨ byteLength = 8
        | .floating => byteLength = 4 ∨ byteLength = 8
        | .pointer => byteLength = pointerSize
        | .aggregate =>
            if aggregateName = "" ∨ fields = [] ∨ fields.length ≠ offsets.length then false
            else validFields byteLength fields offsets 0

/-- The loop over the fields of an aggregate. -/
def validFields (byteLength : Nat) : List AbiType → List Nat → Nat → Bool
  | [], _, _ => true
  | _ :: _, [], _ => false
  | field :: fields, offset :: offsets, previousEnd =>
      match storageByteLength field with
      | none => false
      | some fieldLength =>
          if isValidType field = false ∨ offset < previousEnd ∨ offset > byteLength ∨
              fieldLength > byteLength - offset then false
          else validFields byteLength fields offsets ((offset + fieldLength) % 2 ^ 64)

end

/-! ### Well-formed types -/

namespace AbiType

def extent (type : AbiType) : Nat :=
  type.byteLength * type.elementCount

/-- The fields of a type that is an aggregate. -/
def parts (type : AbiType) : List AbiType :=
  if type.kind = .aggregate then type.aggregateFields else []

def fieldRegion (type : AbiType) (index : Nat) : Option Region :=
  match type.aggregateFields[index]?, type.aggregateFieldOffsets[index]? with
  | some field, some offset => some ⟨offset, field.extent⟩
  | _, _ => none

/-- One level: bytes that no count overflows, and fields apart from one another inside them. -/
structure SoundLevel (type : AbiType) : Prop where
  nonempty : 0 < type.extent
  bound : type.extent < 2 ^ 64
  offsets : type.kind = .aggregate →
    type.aggregateFields.length = type.aggregateFieldOffsets.length
  inside : type.kind = .aggregate → ∀ index region, type.fieldRegion index = some region →
    region.base + region.length ≤ type.byteLength
  apart : type.kind = .aggregate → ∀ first second left right, first < second →
    type.fieldRegion first = some left → type.fieldRegion second = some right →
      left.Separate right

/-- Every level of the tree is sound. -/
def WellFormed (type : AbiType) : Prop :=
  ∀ level, Ownership.Reaches parts type level → level.SoundLevel

end AbiType

theorem storageByteLength_eq_some {type : AbiType} {length : Nat}
    (stored : storageByteLength type = some length) :
    0 < type.extent ∧ type.extent < 2 ^ 64 ∧ length = type.extent := by
  unfold storageByteLength at stored
  split at stored
  · cases stored
  next passed =>
    rw [not_or, not_or] at passed
    obtain ⟨sized, counted, fits⟩ := passed
    have bound : type.byteLength * type.elementCount ≤ maxSize := by
      calc type.byteLength * type.elementCount
          ≤ maxSize / type.elementCount * type.elementCount :=
            Nat.mul_le_mul_right _ (not_lt.mp fits)
        _ ≤ maxSize := Nat.div_mul_le_self _ _
    have below : type.extent < 2 ^ 64 := by
      unfold AbiType.extent
      unfold maxSize at bound
      omega
    refine ⟨Nat.mul_pos (Nat.pos_of_ne_zero sized) (Nat.pos_of_ne_zero counted), below, ?_⟩
    obtain rfl := Option.some_inj.mp stored
    exact Nat.mod_eq_of_lt below

/-- A field that the loop accepts starts where the ones before it have ended. -/
theorem validFields_spec {byteLength : Nat} (bound : byteLength < 2 ^ 64) {fields : List AbiType}
    {offsets : List Nat} {previousEnd : Nat}
    (valid : validFields byteLength fields offsets previousEnd = true)
    {index : Nat} {field : AbiType} {offset : Nat} (isField : fields[index]? = some field)
    (isOffset : offsets[index]? = some offset) :
    isValidType field = true ∧ previousEnd ≤ offset ∧ offset + field.extent ≤ byteLength ∧
      ∀ later other otherOffset, index < later → fields[later]? = some other →
        offsets[later]? = some otherOffset → offset + field.extent ≤ otherOffset := by
  induction fields generalizing offsets previousEnd index field offset with
  | nil => simp at isField
  | cons first fields ih =>
      cases offsets with
      | nil => simp at isOffset
      | cons firstOffset offsets =>
          rw [validFields] at valid
          cases stored : storageByteLength first with
          | none => simp [stored] at valid
          | some fieldLength =>
              obtain ⟨_, _, rfl⟩ := storageByteLength_eq_some stored
              simp only [stored] at valid
              split at valid
              · cases valid
              next passed =>
                simp only [not_or, Bool.not_eq_false, not_lt] at passed
                obtain ⟨isValid, after, low, fits⟩ := passed
                rw [Nat.mod_eq_of_lt (by omega)] at valid
                cases index with
                | zero =>
                    obtain rfl := Option.some_inj.mp isField
                    obtain rfl := Option.some_inj.mp isOffset
                    refine ⟨isValid, after, by omega, ?_⟩
                    intro later other otherOffset above isOther isOtherOffset
                    obtain ⟨place, rfl⟩ := Nat.exists_eq_succ_of_ne_zero above.ne'
                    have isLater : fields[place]? = some other := isOther
                    have isLaterOffset : offsets[place]? = some otherOffset := isOtherOffset
                    exact (ih valid isLater isLaterOffset).2.1
                | succ index =>
                    obtain ⟨ownValid, ownAfter, ownFits, ownApart⟩ := ih valid isField isOffset
                    refine ⟨ownValid, by omega, ownFits, ?_⟩
                    intro later other otherOffset above isOther isOtherOffset
                    obtain ⟨place, rfl⟩ := Nat.exists_eq_succ_of_ne_zero (Nat.ne_zero_of_lt above)
                    exact ownApart place other otherOffset (by omega) isOther isOtherOffset

theorem isValidType_stored {type : AbiType} (valid : isValidType type = true) :
    ∃ length, storageByteLength type = some length := by
  unfold isValidType at valid
  split at valid
  split at valid
  · cases valid
  next passed => exact Option.ne_none_iff_exists'.mp (not_or.mp passed).1

theorem isValidType_fields {type : AbiType} (valid : isValidType type = true)
    (aggregate : type.kind = .aggregate) :
    type.aggregateFields.length = type.aggregateFieldOffsets.length ∧
      validFields type.byteLength type.aggregateFields type.aggregateFieldOffsets 0 = true := by
  obtain ⟨kind, byteLength, isSigned, name, alignment, count, fields, offsets⟩ := type
  obtain rfl : kind = .aggregate := aggregate
  rw [isValidType] at valid
  split at valid
  · cases valid
  split at valid
  · cases valid
  next passed => exact ⟨not_not.mp (not_or.mp (not_or.mp passed).2).2, valid⟩

theorem byteLength_lt {type : AbiType} (valid : isValidType type = true) :
    type.byteLength < 2 ^ 64 := by
  obtain ⟨length, stored⟩ := isValidType_stored valid
  obtain ⟨nonempty, bound, _⟩ := storageByteLength_eq_some stored
  have counted : 0 < type.elementCount := Nat.pos_of_mul_pos_left nonempty
  exact (Nat.le_mul_of_pos_right _ counted).trans_lt bound

theorem soundLevel_of_valid {type : AbiType} (valid : isValidType type = true) :
    type.SoundLevel := by
  obtain ⟨length, stored⟩ := isValidType_stored valid
  obtain ⟨nonempty, bound, _⟩ := storageByteLength_eq_some stored
  have located {index : Nat} {region : Region} (isRegion : type.fieldRegion index = some region) :
      ∃ field offset, type.aggregateFields[index]? = some field ∧
        type.aggregateFieldOffsets[index]? = some offset ∧ region = ⟨offset, field.extent⟩ := by
    unfold AbiType.fieldRegion at isRegion
    split at isRegion
    next field offset isField isOffset =>
      exact ⟨field, offset, isField, isOffset, (Option.some_inj.mp isRegion).symm⟩
    · cases isRegion
  refine ⟨nonempty, bound, fun aggregate => (isValidType_fields valid aggregate).1, ?_, ?_⟩
  · intro aggregate index region isRegion
    obtain ⟨field, offset, isField, isOffset, rfl⟩ := located isRegion
    exact (validFields_spec (byteLength_lt valid) (isValidType_fields valid aggregate).2 isField
      isOffset).2.2.1
  · intro aggregate first second left right before isLeft isRight
    obtain ⟨field, offset, isField, isOffset, rfl⟩ := located isLeft
    obtain ⟨other, otherOffset, isOther, isOtherOffset, rfl⟩ := located isRight
    have ends := (validFields_spec (byteLength_lt valid) (isValidType_fields valid aggregate).2
      isField isOffset).2.2.2 second other otherOffset before isOther isOtherOffset
    exact Region.separate_iff.mpr (.inr (.inr (.inl ends)))

theorem isValidType_of_part {type part : AbiType} (valid : isValidType type = true)
    (isPart : part ∈ type.parts) : isValidType part = true := by
  unfold AbiType.parts at isPart
  split at isPart
  next aggregate =>
    obtain ⟨lengths, fieldsValid⟩ := isValidType_fields valid aggregate
    obtain ⟨index, below, rfl⟩ := List.mem_iff_getElem.mp isPart
    exact (validFields_spec (byteLength_lt valid) fieldsValid (List.getElem?_eq_getElem below)
      (List.getElem?_eq_getElem (lengths ▸ below))).1
  · cases isPart

/-- What the type check accepts is well formed at every level. -/
theorem wellFormed_of_valid {type : AbiType} (valid : isValidType type = true) :
    type.WellFormed := by
  intro level reached
  refine soundLevel_of_valid ?_
  induction reached with
  | refl => exact valid
  | tail _ isPart ih => exact isValidType_of_part ih isPart

/-- The second field starts inside the first one. -/
example : isValidType ⟨.aggregate, 8, true, "pair", 4, 1,
    [⟨.integer, 4, true, "", 4, 1, [], []⟩, ⟨.integer, 4, true, "", 4, 1, [], []⟩], [0, 2]⟩ =
    false := by
  decide

end HitSimple.Overrides

import Mathlib.Data.Fin.Tuple.Basic
import Mathlib.Order.Basic
import Mathlib.Data.List.GetD
import Mathlib.Data.List.Basic

namespace Slots

/-- The addresses from `base` on, `length` of them. -/
structure Region where
  base : Nat
  length : Nat
  deriving DecidableEq

namespace Region

def Contains (region : Region) (address : Nat) : Prop :=
  region.base ≤ address ∧ address - region.base < region.length

instance (region : Region) (address : Nat) : Decidable (region.Contains address) :=
  inferInstanceAs (Decidable (_ ∧ _))

def Separate (left right : Region) : Prop :=
  ∀ address, left.Contains address → ¬right.Contains address

theorem contains_iff {region : Region} {address : Nat} :
    region.Contains address ↔ region.base ≤ address ∧ address < region.base + region.length := by
  unfold Contains
  omega

@[simp] theorem contains_base {region : Region} :
    region.Contains region.base ↔ 0 < region.length := by
  simp [Contains]

theorem Separate.symm {left right : Region} (separate : left.Separate right) :
    right.Separate left :=
  fun address inRight inLeft => separate address inLeft inRight

theorem Separate.base_ne {left right : Region} (separate : left.Separate right)
    (leftLength : 0 < left.length) (rightLength : 0 < right.length) : left.base ≠ right.base := by
  intro same
  apply separate left.base (contains_base.mpr leftLength)
  rw [same]
  exact contains_base.mpr rightLength

theorem separate_iff {left right : Region} :
    left.Separate right ↔ left.length = 0 ∨ right.length = 0 ∨
      left.base + left.length ≤ right.base ∨ right.base + right.length ≤ left.base := by
  constructor
  · intro separate
    by_contra meets
    have inLeft := separate (max left.base right.base)
    simp only [contains_iff] at inLeft
    omega
  · intro apart address inLeft inRight
    rw [contains_iff] at inLeft inRight
    omega

instance (left right : Region) : Decidable (left.Separate right) :=
  decidable_of_iff _ separate_iff.symm

end Region

section
variable {count : Nat} (region : Fin count → Region)

/-- The first slot whose region contains the address. -/
def firstCovering (address : Nat) : Option (Fin count) :=
  Fin.find? fun slot => decide ((region slot).Contains address)

variable {region}

theorem firstCovering_eq_some_iff {address : Nat} {slot : Fin count} :
    firstCovering region address = some slot ↔
      (region slot).Contains address ∧ ∀ earlier < slot, ¬(region earlier).Contains address := by
  rw [firstCovering, Fin.find?_eq_some_iff]
  simp only [decide_eq_true_eq, decide_eq_false_iff_not]

/-- A lookup reaches a slot from every address of its region just when no earlier region meets
it. -/
theorem firstCovering_reaches_iff {slot : Fin count} :
    (∀ address, (region slot).Contains address → firstCovering region address = some slot) ↔
      ∀ earlier < slot, (region earlier).Separate (region slot) := by
  constructor
  · intro reaches earlier before address inEarlier inSlot
    exact (firstCovering_eq_some_iff.mp (reaches address inSlot)).2 earlier before inEarlier
  · intro separate address inside
    rw [firstCovering_eq_some_iff]
    exact ⟨inside, fun earlier before inEarlier => separate earlier before address inEarlier inside⟩

end

section
variable {Cell : Type*}

/-- The cells of a region, as far as the memory has them. -/
def read (memory : List Cell) (region : Region) : List Cell :=
  (memory.drop region.base).take region.length

/-- The memory with the cells from `base` on replaced, where it has them. -/
def write (memory : List Cell) (base : Nat) (cells : List Cell) : List Cell :=
  memory.mapIdx fun address cell => if address < base then cell else cells.getD (address - base) cell

@[simp] theorem length_write (memory : List Cell) (base : Nat) (cells : List Cell) :
    (write memory base cells).length = memory.length := by
  rw [write, List.length_mapIdx]

theorem getElem?_write_of_not_contains {memory cells : List Cell} {base address : Nat}
    (outside : ¬(Region.mk base cells.length).Contains address) :
    (write memory base cells)[address]? = memory[address]? := by
  rw [Region.contains_iff] at outside
  dsimp only at outside
  rw [write, List.getElem?_mapIdx]
  cases memory[address]? with
  | none => rfl
  | some cell =>
      simp only [Option.map_some]
      split
      · rfl
      · rw [List.getD_eq_default _ _ (by omega)]

theorem getElem?_write_of_contains {memory cells : List Cell} {base address : Nat}
    (inside : (Region.mk base cells.length).Contains address) (bound : address < memory.length) :
    (write memory base cells)[address]? = cells[address - base]? := by
  rw [Region.contains_iff] at inside
  dsimp only at inside
  rw [write, List.getElem?_mapIdx, List.getElem?_eq_getElem bound, Option.map_some,
    if_neg (by omega), List.getD_eq_getElem _ _ (by omega), List.getElem?_eq_getElem]

theorem getElem?_read (memory : List Cell) (region : Region) (index : Nat) :
    (read memory region)[index]? =
      if index < region.length then memory[region.base + index]? else none := by
  rw [read, List.getElem?_take, List.getElem?_drop]

/-- A write leaves alone what it does not meet. -/
theorem read_write_of_separate {memory cells : List Cell} {base : Nat} {region : Region}
    (separate : region.Separate ⟨base, cells.length⟩) :
    read (write memory base cells) region = read memory region := by
  apply List.ext_getElem?
  intro index
  rw [getElem?_read, getElem?_read]
  split
  · rename_i bound
    apply getElem?_write_of_not_contains
    apply separate
    rw [Region.contains_iff]
    omega
  · rfl

/-- A part of a region is separate from what the region is separate from. -/
theorem Region.Separate.mono {left right part : Region} (separate : left.Separate right)
    (inside : ∀ address, part.Contains address → right.Contains address) : left.Separate part :=
  fun address inLeft inPart => separate address inLeft (inside address inPart)

theorem Region.contains_of_le {base length shorter address : Nat} (bound : shorter ≤ length)
    (inside : (Region.mk base shorter).Contains address) :
    (Region.mk base length).Contains address := by
  rw [Region.contains_iff] at inside ⊢
  dsimp only at inside ⊢
  omega

/-- A write at the start of a region replaces its first cells. -/
theorem read_write_self {memory cells : List Cell} {region : Region}
    (fits : cells.length ≤ region.length) (inside : region.base + region.length ≤ memory.length) :
    read (write memory region.base cells) region =
      cells ++ (read memory region).drop cells.length := by
  apply List.ext_getElem?
  intro index
  rw [getElem?_read, List.getElem?_append, List.getElem?_drop, getElem?_read]
  by_cases written : index < cells.length
  · rw [if_pos (by omega), if_pos written, getElem?_write_of_contains _ (by omega)]
    · rw [Nat.add_sub_cancel_left]
    · rw [Region.contains_iff]
      dsimp only
      omega
  · rw [if_neg written]
    have same : cells.length + (index - cells.length) = index := by omega
    rw [same]
    split
    · apply getElem?_write_of_not_contains
      rw [Region.contains_iff]
      dsimp only
      omega
    · rfl

end


section
variable {α : Type}

/-- The entry at a height of a stack whose top is the head and whose bottom is at height `1`. -/
def level : List α → Nat → Option α
  | [], _ => none
  | top :: below, height => if height = below.length + 1 then some top else level below height

@[simp] theorem level_nil (height : Nat) : level ([] : List α) height = none := rfl

@[simp] theorem level_top (top : α) (below : List α) :
    level (top :: below) (below.length + 1) = some top := by
  simp [level]

theorem level_below {top : α} {below : List α} {height : Nat}
    (other : height ≠ below.length + 1) : level (top :: below) height = level below height :=
  if_neg other

theorem level_bound {stack : List α} {height : Nat} {entry : α}
    (found : level stack height = some entry) : 1 ≤ height ∧ height ≤ stack.length := by
  induction stack with
  | nil => cases found
  | cons top below ih =>
      by_cases here : height = below.length + 1
      · subst here
        simp
      · rw [level_below here] at found
        have := ih found
        simp only [List.length_cons]
        omega

theorem level_high {stack : List α} {height : Nat} (high : stack.length < height) :
    level stack height = none := by
  cases found : level stack height with
  | none => rfl
  | some entry =>
      have := level_bound found
      omega

theorem level_modifyHead (change : α → α) (stack : List α) (height : Nat) :
    level (stack.modifyHead change) height =
      if height = stack.length then (level stack height).map change else level stack height := by
  cases stack with
  | nil => simp
  | cons top below =>
      by_cases here : height = below.length + 1
      · subst here
        simp
      · simp [level, here]

theorem level_push (top : α) (stack : List α) (height : Nat) :
    level (top :: stack) height =
      if height = stack.length + 1 then some top else level stack height := rfl

theorem level_tail (stack : List α) (height : Nat) :
    level stack.tail height = if height = stack.length then none else level stack height := by
  cases stack with
  | nil => simp
  | cons top below =>
      by_cases here : height = below.length + 1
      · subst here
        simp [level_high (Nat.lt_succ_self below.length)]
      · simp [level, here]

end

end Slots

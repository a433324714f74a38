import Mathlib.Algebra.Group.Nat.Defs
import Mathlib.Data.Nat.Basic

namespace FixedWidth

abbrev Byte := BitVec 8

/-- A word read from bytes in little-endian order. -/
def assemble : (count : Nat) → (Nat → Byte) → BitVec (count * 8)
  | 0, _ => 0#_
  | count + 1, bytes => (bytes count ++ assemble count bytes).cast (by omega)

/-- The byte of a word at an index, counted from the low end. -/
def byteAt {width : Nat} (word : BitVec width) (index : Nat) : Byte :=
  word.extractLsb' (index * 8) 8

theorem getLsbD_assemble {count bit : Nat} (bytes : Nat → Byte) (bound : bit < count * 8) :
    (assemble count bytes).getLsbD bit = (bytes (bit / 8)).getLsbD (bit % 8) := by
  induction count with
  | zero => omega
  | succ count ih =>
      rw [assemble, BitVec.getLsbD_cast, BitVec.getLsbD_append]
      by_cases low : bit < count * 8
      · rw [if_pos low, ih low]
      · have quotient : bit / 8 = count := by omega
        have remainder : bit % 8 = bit - count * 8 := by omega
        rw [if_neg low, quotient, remainder]

@[simp] theorem assemble_byteAt {count : Nat} (word : BitVec (count * 8)) :
    assemble count (byteAt word) = word := by
  apply BitVec.eq_of_getLsbD_eq
  intro bit bound
  rw [getLsbD_assemble _ bound, byteAt, BitVec.getLsbD_extractLsb', Nat.div_add_mod' bit 8]
  simp [Nat.mod_lt]

theorem assemble_congr {count : Nat} {left right : Nat → Byte}
    (agree : ∀ index, index < count → left index = right index) :
    assemble count left = assemble count right := by
  apply BitVec.eq_of_getLsbD_eq
  intro bit bound
  rw [getLsbD_assemble _ bound, getLsbD_assemble _ bound, agree (bit / 8) (by omega)]

theorem byteAt_assemble {count index : Nat} (bytes : Nat → Byte) (bound : index < count) :
    byteAt (assemble count bytes) index = bytes index := by
  apply BitVec.eq_of_getLsbD_eq
  intro bit bitBound
  have quotient : (index * 8 + bit) / 8 = index := by omega
  have remainder : (index * 8 + bit) % 8 = bit := by omega
  rw [byteAt, BitVec.getLsbD_extractLsb', getLsbD_assemble _ (by omega), quotient, remainder]
  simp [bitBound]

/-- A byte-addressed memory. -/
abbrev Memory (addressWidth : Nat) := BitVec addressWidth → Byte

namespace Memory
variable {addressWidth : Nat}

def load (memory : Memory addressWidth) (address : BitVec addressWidth) (count : Nat) :
    BitVec (count * 8) :=
  assemble count fun index => memory (address + BitVec.ofNat addressWidth index)

/-- The memory after writing the low `count` bytes of a word. -/
def store (memory : Memory addressWidth) (address : BitVec addressWidth) (count : Nat)
    {width : Nat} (word : BitVec width) : Memory addressWidth := fun cell =>
  if (cell - address).toNat < count then byteAt word (cell - address).toNat else memory cell

theorem store_of_outside (memory : Memory addressWidth) {address cell : BitVec addressWidth}
    {count width : Nat} (word : BitVec width) (outside : count ≤ (cell - address).toNat) :
    memory.store address count word cell = memory cell :=
  if_neg (by omega)

theorem store_at (memory : Memory addressWidth) (address : BitVec addressWidth) {count index : Nat}
    {width : Nat} (word : BitVec width) (bound : index < count)
    (fits : count ≤ 2 ^ addressWidth) :
    memory.store address count word (address + BitVec.ofNat addressWidth index) =
      byteAt word index := by
  have distance : (address + BitVec.ofNat addressWidth index - address).toNat = index := by
    rw [BitVec.add_comm, BitVec.add_sub_cancel, BitVec.toNat_ofNat, Nat.mod_eq_of_lt (by omega)]
  rw [store, distance, if_pos bound]

end Memory

end FixedWidth

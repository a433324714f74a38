import HitSimple.FixedWidth.Bytes
import HitSimple.Safety.IntegerStores

namespace HitSimple.Safety
open FixedWidth

/-- The objects of a running program: where each of them is, and its bytes. -/
structure ObjectStore where
  address : String → Nat
  byteLength : String → Nat
  byteLength_pos : ∀ name, 0 < byteLength name
  contents : ∀ name, BitVec (byteLength name * 8)

def isTerminated {byteLength : Nat} (word : BitVec (byteLength * 8)) : Bool :=
  !(List.range byteLength).all fun index => byteAt word index != 0

namespace ObjectStore
variable (store : ObjectStore)

section Facts

/-- A known address is null, or lies where it says. -/
def PointsTo (fact : StaticAddressFact) (word : BitVec 64) : Prop :=
  if fact.origin = .null then word = 0
  else word ≠ 0 ∧ ∀ range ∈ fact.range,
    (word.toNat : Int) = store.address range.bindingName + range.offset

/-- What a fact says of the bytes of its object. -/
def Reads (fact : Fact) {byteLength : Nat} (word : BitVec (byteLength * 8)) : Prop :=
  match fact with
  | .integer _ value => word.toInt = value ∨ (word.toNat : Int) = value
  | .unsignedInteger _ value => word.toNat = value
  | .address _ fact => store.PointsTo fact (word.setWidth 64)
  | .termination _ terminated => isTerminated word = terminated

def Holds (fact : Fact) : Prop :=
  store.Reads fact (store.contents fact.bindingName)

def IsDescribedBy (state : StaticSafetyState) : Prop :=
  ∀ fact, state.Knows fact → store.Holds fact

theorem isTerminated_zero {byteLength : Nat} (nonempty : 0 < byteLength) :
    isTerminated 0#(byteLength * 8) = true := by
  have first : byteAt 0#(byteLength * 8) 0 = 0 := by
    simp [byteAt]
  unfold isTerminated
  rw [Bool.not_eq_true', List.all_eq_false]
  exact ⟨0, List.mem_range.mpr nonempty, by simp [first]⟩

theorem isTerminated_allOnes (byteLength : Nat) :
    isTerminated (BitVec.allOnes (byteLength * 8)) = false := by
  unfold isTerminated
  rw [Bool.not_eq_false', List.all_eq_true]
  intro index member
  have inside := List.mem_range.mp member
  have low : (byteAt (BitVec.allOnes (byteLength * 8)) index).getLsbD 0 = true := by
    simp [byteAt]
    omega
  rw [bne_iff_ne]
  intro zero
  rw [zero] at low
  cases low

/-- No fact is true of all bytes. -/
theorem exists_not_reads (fact : Fact) {byteLength : Nat} (nonempty : 0 < byteLength) :
    ∃ word : BitVec (byteLength * 8), ¬store.Reads fact word := by
  have wide : 1 < byteLength * 8 := by omega
  have one : (1#(byteLength * 8)).toNat = 1 := BitVec.toNat_one (by omega)
  have oneInt : (1#(byteLength * 8)).toInt = 1 := BitVec.toInt_one wide
  cases fact with
  | integer name value =>
      by_cases zero : value = 0
      · refine ⟨1#_, ?_⟩
        simp [Reads, one, oneInt, zero]
      · refine ⟨0#_, ?_⟩
        simp [Reads, Ne.symm zero]
  | unsignedInteger name value =>
      by_cases zero : value = 0
      · refine ⟨1#_, ?_⟩
        simp [Reads, one, zero]
      · refine ⟨0#_, ?_⟩
        simp [Reads, Ne.symm zero]
  | address name fact =>
      by_cases null : fact.origin = .null
      · refine ⟨1#_, ?_⟩
        simp only [Reads, PointsTo, if_pos null]
        intro zero
        have same := congrArg BitVec.toNat zero
        rw [BitVec.toNat_setWidth, one] at same
        cases same
      · refine ⟨0#_, ?_⟩
        simp [Reads, PointsTo, null]
  | termination name terminated =>
      cases terminated with
      | true =>
          refine ⟨BitVec.allOnes _, ?_⟩
          simp [Reads, isTerminated_allOnes]
      | false =>
          refine ⟨0#_, ?_⟩
          simp [Reads, isTerminated_zero nonempty]

end Facts

section Reach

/-- Some bytes of an object are the address of a byte of another one. -/
def HoldsAddress (object target : String) : Prop :=
  ∃ offset, offset + 8 ≤ store.byteLength object ∧
    let word := (store.contents object >>> (offset * 8)).setWidth 64
    store.address target ≤ word.toNat ∧
      word.toNat < store.address target + store.byteLength target

/-- The objects that a function can reach from some it knows, through stored addresses. -/
inductive Reaches (roots : Set String) : String → Prop where
  | root {name : String} (known : name ∈ roots) : Reaches roots name
  | stored {object target : String} (reached : Reaches roots object)
      (points : store.HoldsAddress object target) : Reaches roots target

/-- The store with other bytes in its objects. -/
def written (contents : ∀ name, BitVec (store.byteLength name * 8)) : ObjectStore :=
  { store with contents }

end Reach

end ObjectStore

end HitSimple.Safety

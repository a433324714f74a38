import HitSimple.Operator
import HitSimple.FixedWidth.Reading
import Mathlib.Tactic.IntervalCases

namespace HitSimple.Sema
open FixedWidth

def foldMask (byteLength : Nat) : BitVec 64 :=
  if byteLength = 8 then BitVec.allOnes 64 else (1#64 <<< (byteLength * 8)) - 1#64

/-- The square-and-multiply loop of the folder. -/
def foldPower (mask value left right : BitVec 64) : BitVec 64 :=
  if right = 0#64 then value
  else
    let value := if right &&& 1#64 ≠ 0#64 then (value * left) &&& mask else value
    foldPower mask value ((left * left) &&& mask) (right >>> 1)
termination_by right.toNat
decreasing_by
  have positive : right.toNat ≠ 0 := fun zero => by
    rename_i nonzero
    exact nonzero (BitVec.eq_of_toNat_eq zero)
  rw [BitVec.toNat_ushiftRight, Nat.shiftRight_eq_div_pow]
  omega

def foldIntegerOperation (op : BinaryOperator) (left right : BitVec 64) (byteLength : Nat) :
    Option (BitVec 64) :=
  if byteLength = 0 ∨ 8 < byteLength then none
  else
    let mask := foldMask byteLength
    let left := left &&& mask
    let right := right &&& mask
    match op with
    | .add => some ((left + right) &&& mask)
    | .subtract => some ((left - right) &&& mask)
    | .multiply => some ((left * right) &&& mask)
    | .divide => if right = 0#64 then none else some (left / right)
    | .modulo => if right = 0#64 then none else some (left % right)
    | .power => some (foldPower mask 1#64 left right)
    | .shiftLeft =>
        if byteLength * 8 ≤ right.toNat then none else some ((left <<< right.toNat) &&& mask)
    | .shiftRight =>
        if byteLength * 8 ≤ right.toNat then none else some (left >>> right.toNat)
    | .bitAnd => some (left &&& right)
    | .bitOr => some (left ||| right)
    | .bitXor => some (left ^^^ right)
    | _ => none

/-- The comparison the folder makes between the stored values of two literals. -/
def foldComparison (op : BinaryOperator) (unsignedComparison : Bool) (left right : BitVec 64) :
    Bool :=
  match op with
  | .equal => left == right
  | .notEqual => left != right
  | .less => if unsignedComparison then left.ult right else left.slt right
  | .lessEqual => if unsignedComparison then left.ule right else left.sle right
  | .greater => if unsignedComparison then right.ult left else right.slt left
  | _ => if unsignedComparison then right.ule left else right.sle left

/-- What the folder computes, at the width of the operation. -/
def foldPattern (op : BinaryOperator) {width : Nat} (left right : BitVec width) :
    Option (BitVec width) :=
  match op with
  | .add => some (left + right)
  | .subtract => some (left - right)
  | .multiply => some (left * right)
  | .divide => if right = 0#(width) then none else some (left / right)
  | .modulo => if right = 0#(width) then none else some (left % right)
  | .power => some (left ^ right.toNat)
  | .shiftLeft => if width ≤ right.toNat then none else some (left <<< right.toNat)
  | .shiftRight => if width ≤ right.toNat then none else some (left >>> right.toNat)
  | .bitAnd => some (left &&& right)
  | .bitOr => some (left ||| right)
  | .bitXor => some (left ^^^ right)
  | _ => none

theorem foldMask_toNat {byteLength : Nat} (positive : 0 < byteLength) (small : byteLength ≤ 8) :
    (foldMask byteLength).toNat = 2 ^ (byteLength * 8) - 1 := by
  interval_cases byteLength <;> decide

theorem and_foldMask {byteLength : Nat} (positive : 0 < byteLength) (small : byteLength ≤ 8)
    (value : BitVec 64) :
    value &&& foldMask byteLength = (value.setWidth (byteLength * 8)).setWidth 64 := by
  apply BitVec.eq_of_toNat_eq
  rw [BitVec.toNat_and, foldMask_toNat positive small, Nat.and_two_pow_sub_one_eq_mod,
    BitVec.toNat_setWidth_of_le (by omega), BitVec.toNat_setWidth]

section Stored
variable {width : Nat}

private theorem toNat_stored (fits : width ≤ 64) (pattern : BitVec width) :
    (pattern.setWidth 64).toNat = pattern.toNat :=
  BitVec.toNat_setWidth_of_le fits

private theorem setWidth_stored (fits : width ≤ 64) (pattern : BitVec width) :
    (pattern.setWidth 64).setWidth width = pattern := by
  rw [BitVec.setWidth_setWidth_of_le _ fits, BitVec.setWidth_eq]

private theorem stored_eq_zero_iff (fits : width ≤ 64) (pattern : BitVec width) :
    pattern.setWidth 64 = 0#64 ↔ pattern = 0#(width) := by
  rw [BitVec.toNat_eq, toNat_stored fits, BitVec.toNat_eq, BitVec.toNat_ofNat, BitVec.toNat_ofNat,
    Nat.zero_mod, Nat.zero_mod]

private theorem stored_of_toNat_eq (fits : width ≤ 64) {wide : BitVec 64} {pattern : BitVec width}
    (equal : wide.toNat = pattern.toNat) : wide = pattern.setWidth 64 := by
  apply BitVec.eq_of_toNat_eq
  rw [equal, toNat_stored fits]

private theorem square_pow (left : BitVec width) (exponent : Nat) :
    (left * left) ^ exponent = left ^ (2 * exponent) := by
  induction exponent with
  | zero => rfl
  | succ exponent ih =>
      rw [show 2 * (exponent + 1) = 2 * exponent + 1 + 1 by omega, BitVec.pow_succ,
        BitVec.pow_succ, BitVec.pow_succ, ih]
      ac_rfl

end Stored

/-- Squaring halves the exponent, so the loop multiplies `value` by the exact power. -/
theorem foldPower_eq {byteLength : Nat} (positive : 0 < byteLength) (small : byteLength ≤ 8)
    (value left : BitVec (byteLength * 8)) (right : BitVec 64) :
    foldPower (foldMask byteLength) (value.setWidth 64) (left.setWidth 64) right =
      (value * left ^ right.toNat).setWidth 64 := by
  have fits : byteLength * 8 ≤ 64 := by omega
  have masked (first second : BitVec (byteLength * 8)) :
      (first.setWidth 64 * second.setWidth 64) &&& foldMask byteLength =
        (first * second).setWidth 64 := by
    rw [and_foldMask positive small, BitVec.setWidth_mul _ _ fits, setWidth_stored fits,
      setWidth_stored fits]
  induction h : right.toNat using Nat.strongRecOn generalizing value left right with
  | ind exponent ih =>
      rw [foldPower]
      by_cases zero : right = 0#64
      · rw [if_pos zero, ← h, zero]
        simp
      have nonzero : right.toNat ≠ 0 := fun equal => zero (BitVec.eq_of_toNat_eq equal)
      have half : (right >>> 1).toNat = exponent / 2 := by
        rw [BitVec.toNat_ushiftRight, Nat.shiftRight_eq_div_pow, h, Nat.pow_one]
      have lowBit : right &&& 1#64 ≠ 0#64 ↔ exponent % 2 = 1 := by
        rw [ne_eq, BitVec.toNat_eq, BitVec.toNat_and, h]
        simp [Nat.and_one_is_mod]
      rw [if_neg zero, masked left left]
      by_cases odd : exponent % 2 = 1
      · have split : exponent = 1 + 2 * (exponent / 2) := by omega
        rw [if_pos (lowBit.mpr odd), masked value left,
          ih _ (by omega) (value * left) (left * left) (right >>> 1) half, square_pow]
        congr 1
        conv_rhs => rw [split, BitVec.pow_add, BitVec.pow_one]
        ac_rfl
      · have split : exponent = 2 * (exponent / 2) := by omega
        rw [if_neg (fun bit => odd (lowBit.mp bit)),
          ih _ (by omega) value (left * left) (right >>> 1) half, square_pow, ← split]

/-- The folder masks its operands and works on their unsigned patterns at the width of the
operation, whatever their interpretation. -/
theorem foldIntegerOperation_eq {byteLength : Nat} (positive : 0 < byteLength)
    (small : byteLength ≤ 8) (op : BinaryOperator) (left right : BitVec 64) :
    foldIntegerOperation op left right byteLength =
      (foldPattern op (left.setWidth (byteLength * 8)) (right.setWidth (byteLength * 8))).map
        (BitVec.setWidth 64) := by
  have fits : byteLength * 8 ≤ 64 := by omega
  have accepted : ¬(byteLength = 0 ∨ 8 < byteLength) := by omega
  rw [foldIntegerOperation, if_neg accepted]
  simp only [and_foldMask positive small]
  generalize left.setWidth (byteLength * 8) = x
  generalize right.setWidth (byteLength * 8) = y
  cases op with
  | add => simp [foldPattern, BitVec.setWidth_add _ _ fits, setWidth_stored fits]
  | subtract =>
      have difference : (x.setWidth 64 - y.setWidth 64).setWidth (byteLength * 8) = x - y := by
        have total := BitVec.setWidth_add (x.setWidth 64 - y.setWidth 64) (y.setWidth 64) fits
        rw [BitVec.sub_add_cancel, setWidth_stored fits, setWidth_stored fits] at total
        exact BitVec.eq_sub_iff_add_eq.mpr total.symm
      simp only [foldPattern, Option.map_some, difference]
  | multiply => simp [foldPattern, BitVec.setWidth_mul _ _ fits, setWidth_stored fits]
  | divide =>
      simp only [foldPattern, stored_eq_zero_iff fits]
      split
      · rfl
      · refine congrArg some (stored_of_toNat_eq fits ?_)
        rw [BitVec.toNat_udiv, BitVec.toNat_udiv, toNat_stored fits, toNat_stored fits]
  | modulo =>
      simp only [foldPattern, stored_eq_zero_iff fits]
      split
      · rfl
      · refine congrArg some (stored_of_toNat_eq fits ?_)
        rw [BitVec.toNat_umod, BitVec.toNat_umod, toNat_stored fits, toNat_stored fits]
  | power =>
      have one : (1#64) = (1#(byteLength * 8)).setWidth 64 := by
        apply stored_of_toNat_eq fits
        rw [BitVec.toNat_ofNat, BitVec.toNat_ofNat, Nat.mod_eq_of_lt (by decide),
          Nat.mod_eq_of_lt (Nat.one_lt_two_pow (by omega))]
      simp only [foldPattern, Option.map_some]
      rw [one, foldPower_eq positive small, toNat_stored fits, BitVec.one_mul]
  | shiftLeft =>
      simp only [foldPattern, toNat_stored fits]
      split
      · rfl
      · simp [BitVec.setWidth_shiftLeft_of_le fits, setWidth_stored fits]
  | shiftRight =>
      simp only [foldPattern, toNat_stored fits]
      split
      · rfl
      · refine congrArg some (stored_of_toNat_eq fits ?_)
        rw [BitVec.toNat_ushiftRight, BitVec.toNat_ushiftRight, toNat_stored fits]
  | bitAnd => simp [foldPattern]
  | bitOr => simp [foldPattern]
  | bitXor => simp [foldPattern]
  | _ => rfl

end HitSimple.Sema

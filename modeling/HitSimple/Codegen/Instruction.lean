import HitSimple.Operator
import HitSimple.FixedWidth.Reading

namespace HitSimple.Codegen
open FixedWidth

/-- How an execution of the emitted code fails: a runtime check that reports, or an operation
without a defined result. -/
inductive Fault where
  | divisionByZero | negativeShift | negativeExponent
  | invalidLoad | invalidStore | viewOffset | viewLength | unterminatedString
  | undefined
  | callee (name : String)
  deriving DecidableEq, Repr

section Operands
variable {width : Nat}

/-- The checks on the right operand that are emitted before the instruction. -/
def checkOperand (checked rightUnsigned : Bool) (op : BinaryOperator) (right : BitVec width) :
    Except Fault Unit :=
  if checked && op.isDivision && right == 0#(width) then .error .divisionByZero
  else if checked && (op == .shiftLeft || op == .shiftRight) && !rightUnsigned &&
      right.slt 0#(width) then
    .error .negativeShift
  else if checked && op == .power && !rightUnsigned && right.slt 0#(width) then
    .error .negativeExponent
  else .ok ()

def hasMore (unsignedOperation : Bool) (exponent : BitVec width) : Bool :=
  if unsignedOperation then (0#(width)).ult exponent else (0#(width)).slt exponent

theorem ne_zero_of_hasMore {unsignedOperation : Bool} {exponent : BitVec width}
    (more : hasMore unsignedOperation exponent = true) : exponent ≠ 0#(width) := by
  rintro rfl
  cases unsignedOperation <;> simp [hasMore, BitVec.ult, BitVec.slt] at more

theorem toNat_sub_one {exponent : BitVec width} (nonzero : exponent ≠ 0#(width)) :
    (exponent - 1#(width)).toNat + 1 = exponent.toNat := by
  have positive : exponent.toNat ≠ 0 := fun zero => nonzero (BitVec.eq_of_toNat_eq (by simpa using zero))
  have bound := exponent.isLt
  rw [BitVec.toNat_sub, BitVec.toNat_ofNat]
  by_cases empty : width = 0
  · subst empty
    omega
  · have one : 1 % 2 ^ width = 1 := Nat.mod_eq_of_lt (Nat.one_lt_two_pow empty)
    rw [one, show 2 ^ width - 1 + exponent.toNat = exponent.toNat - 1 + 2 ^ width by omega,
      Nat.add_mod_right, Nat.mod_eq_of_lt (by omega)]
    omega

/-- The emitted loop of `**`: one multiplication for each unit of the exponent. -/
def powerLoop (unsignedOperation : Bool) (left result exponent : BitVec width) : BitVec width :=
  if _more : hasMore unsignedOperation exponent then
    powerLoop unsignedOperation left (result * left) (exponent - 1#(width))
  else result
termination_by exponent.toNat
decreasing_by
  have step := toNat_sub_one (ne_zero_of_hasMore _more)
  omega

/-- The instruction sequence of an arithmetic operator.  A division by zero is undefined, and so is
a shift by the width or more, whose result is poison. -/
def arithmetic (op : BinaryOperator) (unsignedOperation : Bool) (left right : BitVec width) :
    Except Fault (BitVec width) :=
  match op with
  | .add => .ok (left + right)
  | .subtract => .ok (left - right)
  | .multiply => .ok (left * right)
  | .power => .ok (powerLoop unsignedOperation left 1#(width) right)
  | .divide =>
      if unsignedOperation then
        if right = 0#(width) then .error .undefined else .ok (left / right)
      else if left = BitVec.intMin width ∧ right = BitVec.allOnes width then
        .ok (BitVec.intMin width)
      else if right = 0#(width) then .error .undefined else .ok (left.sdiv right)
  | .modulo =>
      if unsignedOperation then
        if right = 0#(width) then .error .undefined else .ok (left % right)
      else if left = BitVec.intMin width ∧ right = BitVec.allOnes width then .ok 0#(width)
      else if right = 0#(width) then .error .undefined else .ok (left.srem right)
  | .shiftLeft =>
      if width ≤ right.toNat then .error .undefined else .ok (left <<< right.toNat)
  | .shiftRight =>
      if width ≤ right.toNat then .error .undefined
      else if unsignedOperation then .ok (left >>> right.toNat)
      else .ok (left.sshiftRight right.toNat)
  | .bitAnd => .ok (left &&& right)
  | .bitOr => .ok (left ||| right)
  | .bitXor => .ok (left ^^^ right)
  | _ => .error .undefined

def comparison (op : BinaryOperator) (unsignedOperation : Bool) (left right : BitVec width) :
    Bool :=
  match op with
  | .less => if unsignedOperation then left.ult right else left.slt right
  | .greater => if unsignedOperation then right.ult left else right.slt left
  | .lessEqual => if unsignedOperation then left.ule right else left.sle right
  | .greaterEqual => if unsignedOperation then right.ule left else right.sle left
  | .equal => left == right
  | _ => left != right

/-- The checks and the instruction of an arithmetic operator. -/
def integerInstruction (checked rightUnsigned : Bool) (op : BinaryOperator)
    (unsignedOperation : Bool) (left right : BitVec width) : Except Fault (BitVec width) :=
  match checkOperand checked rightUnsigned op right with
  | .error fault => .error fault
  | .ok () => arithmetic op unsignedOperation left right

end Operands

end HitSimple.Codegen

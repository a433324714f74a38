import HitSimple.Codegen.Emit
import HitSimple.Standard.Integer

namespace HitSimple.Codegen
open FixedWidth Standard

/-- An integer expression denotes a View: at every length its code yields that View, extended by its
own interpretation or truncated. -/
structure Denotes (context : Context) (expression : Hir.Expr) (before : Machine)
    (view : IntegerValue) (after : Machine) : Prop where
  byteLength_eq : view.byteLength = expression.byteLength
  isUnsigned_eq : view.isUnsigned = expression.isUnsigned
  supported : context.Supports view.byteLength
  emitted : ∀ byteLength, context.Supports byteLength → ∃ run,
    emitIntegerValue context expression byteLength expression.isUnsigned =
        .ok { width := byteLength * 8, run } ∧
      run before = .ok (view.extended byteLength, after)

/-- The code of an expression at every length is the one at its own length, extended by its own
interpretation or truncated. -/
structure WidthCoherent (context : Context) (expression : Hir.Expr)
    (run : Run (BitVec (expression.byteLength * 8))) : Prop where
  supported : context.Supports expression.byteLength
  emitted : ∀ byteLength, context.Supports byteLength →
    emitIntegerValue context expression byteLength expression.isUnsigned =
      .ok (IntegerCode.resize { width := expression.byteLength * 8, run } expression.isUnsigned
        (byteLength * 8))

theorem WidthCoherent.denotes {context : Context} {expression : Hir.Expr}
    {run : Run (BitVec (expression.byteLength * 8))}
    (coherent : WidthCoherent context expression run) {before after : Machine}
    {bits : BitVec (expression.byteLength * 8)} (value : run before = .ok (bits, after)) :
    Denotes context expression before
      { byteLength := expression.byteLength, isUnsigned := expression.isUnsigned, bits } after where
  byteLength_eq := rfl
  isUnsigned_eq := rfl
  supported := coherent.supported
  emitted := by
    intro byteLength requested
    refine ⟨_, coherent.emitted byteLength requested, ?_⟩
    simp only [map_run, value]
    rfl

section Leaves
variable {context : Context}

theorem widthCoherent_variable {binding : Hir.Binding} {offset : Nat} {result : ViewSemantics}
    {storage : Storage} (found : context.storage binding.bindingName = some storage)
    (supported : context.Supports result.staticByteLength) :
    WidthCoherent context (.variableRef binding offset result)
      (loadVariable context storage binding.bindingName offset result.staticByteLength) where
  supported := supported
  emitted := by
    intro byteLength requested
    simp only [emitIntegerValue, exprCode, variableExprCode, emitVariable, Context.findStorage,
      found, requested.integerType_eq_ok, supported.integerType_eq_ok, emission_ok_bind]
    rfl

theorem widthCoherent_integerLiteral {text : Literal.Spelling} {result : ViewSemantics}
    {value : Nat} (parsed : Literal.parseUnsignedIntegerLiteral text = some value)
    (supported : context.Supports result.staticByteLength) :
    WidthCoherent context (.integerLiteral text result)
      (return BitVec.ofNat (result.staticByteLength * 8) value) where
  supported := supported
  emitted := by
    intro byteLength requested
    simp only [emitIntegerValue, exprCode, integerExprCode, emitIntegerLiteral, parsed,
      requested.integerType_eq_ok, emission_ok_bind]
    rfl

theorem widthCoherent_characterLiteral {byte : FixedWidth.Byte} :
    WidthCoherent context (.characterLiteral [byte] (unsignedIntegerResult 1))
      (return byte) where
  supported := show context.Supports 1 from
    Context.supports_of_le_pointerByteLength (by omega) (by decide)
  emitted := by
    intro byteLength requested
    simp only [emitIntegerValue, exprCode, characterExprCode, integerExprCode,
      emitCharacterLiteral, requested.integerType_eq_ok, emission_ok_bind]
    rfl

/-- An internal name that is not rebound is read where it was defined. -/
theorem loadVariable_internal {storage : Storage} (internal : storage.requiresAccessCheck = false)
    (name : String) (offset byteLength : Nat) (machine : Machine) :
    loadVariable context storage name offset byteLength machine =
      .ok (machine.memory.load (storage.address + BitVec.ofNat 64 offset) byteLength, machine) := by
  have notRebound : storage.isRebound = false := (Bool.or_eq_false_iff.mp internal).1
  have location : bindingPointer storage name offset machine =
      .ok (storage.address + BitVec.ofNat 64 offset, machine) := by
    rw [bindingPointer, notRebound]
    rfl
  have unchecked (address : BitVec 64) :
      context.checkLoad storage.requiresAccessCheck address byteLength machine =
        .ok ((), machine) := by
    rw [Context.checkLoad, internal, Bool.and_false]
    rfl
  have address : readPointer context storage name offset byteLength machine =
      .ok (storage.address + BitVec.ofNat 64 offset, machine) := by
    rw [readPointer, bind_of_ok location, bind_of_ok (unchecked _), pure_run]
  rw [loadVariable, bind_of_ok address]
  rfl

end Leaves

/-- A name `x` with a View of its own. -/
def objectVariable (templateName : TemplateName) (byteLength : Nat) : Hir.Expr :=
  .variableRef { bindingName := "x", storage := .local } 0 (mutableResult templateName byteLength)

theorem objectVariable_denotes (templateName : TemplateName) (byteLength : Nat) (byte : Byte)
    (supported : (Context.ofObject 0 byteLength).Supports
      (objectVariable templateName byteLength).byteLength) :
    Denotes (.ofObject 0 byteLength) (objectVariable templateName byteLength) (.filledWith byte) {
      byteLength := (objectVariable templateName byteLength).byteLength
      isUnsigned := (objectVariable templateName byteLength).isUnsigned
      bits := assemble _ fun _ => byte } (.filledWith byte) :=
  (widthCoherent_variable (by rfl) supported).denotes
    (loadVariable_internal (by rfl) _ _ _ _)

end HitSimple.Codegen

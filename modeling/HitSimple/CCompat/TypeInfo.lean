import HitSimple.CCompat.Tokens
import Mathlib.Logic.Function.Iterate
import Mathlib.Algebra.Group.Nat.Defs

namespace HitSimple.CCompat

inductive CAbiValueKind where
  | void
  | integer
  | floating
  | pointer
  | aggregate
  deriving DecidableEq

structure CAbiType where
  kind : CAbiValueKind
  byteLength : Nat
  isSigned : Bool
  aggregateName : String
  deriving DecidableEq

inductive TypeInfo where
  | mk (abi : CAbiType) (coreTemplate : String) (pointee : Option TypeInfo)

namespace TypeInfo

def abi : TypeInfo → CAbiType
  | ⟨abi, _, _⟩ => abi

def pointee : TypeInfo → Option TypeInfo
  | ⟨_, _, pointee⟩ => pointee

end TypeInfo

structure ObjectInfo where
  type : TypeInfo
  isArray : Bool
  arrayCount : Nat

/-- `checkedMultiply`, with `0` for an overflow. -/
def ObjectInfo.byteLength (object : ObjectInfo) : Nat :=
  if object.isArray then
    if object.type.abi.byteLength * object.arrayCount < 2 ^ 64 then
      object.type.abi.byteLength * object.arrayCount
    else 0
  else object.type.abi.byteLength

def scalar (kind : CAbiValueKind) (byteLength : Nat) (isSigned : Bool) (coreTemplate : String) :
    TypeInfo :=
  ⟨⟨kind, byteLength, isSigned, ""⟩, coreTemplate, none⟩

def isAggregate (type : TypeInfo) : Bool := type.abi.kind = .aggregate

def isVoid (type : TypeInfo) : Bool := type.abi.kind = .void

/-- The tables of a lowering: the typedefs that resolve, with their objects, and the byte lengths of
the structs that do. -/
structure Declarations where
  pointerByteLength : Nat
  aliases : String → Option ObjectInfo
  structs : String → Option Nat

structure Declarator where
  pointerDepth : Nat
  arrayCount : Option Nat

def sameAbi (left right : CAbiType) : Bool :=
  left.kind = right.kind ∧ left.byteLength = right.byteLength ∧ left.isSigned = right.isSigned ∧
    left.aggregateName = right.aggregateName

def sameType : TypeInfo → TypeInfo → Bool
  | ⟨leftAbi, _, none⟩, ⟨rightAbi, _, none⟩ => sameAbi leftAbi rightAbi
  | ⟨leftAbi, _, some left⟩, ⟨rightAbi, _, some right⟩ =>
      sameAbi leftAbi rightAbi && sameType left right
  | _, _ => false

namespace Declarations
variable (declarations : Declarations)

def makePointer (pointee : TypeInfo) : TypeInfo :=
  ⟨⟨.pointer, declarations.pointerByteLength, false, ""⟩, "addr", some pointee⟩

def resolveAlias (name : String) : Option TypeInfo :=
  match declarations.aliases name with
  | none => none
  | some object => if object.isArray then none else some object.type

def resolveBaseType (type : CType) : Option TypeInfo :=
  if type.isConst ∨ type.isVolatile then none
  else
    match type.base with
    | .char => some (scalar .integer 1 false "u8")
    | .signedChar => some (scalar .integer 1 true "i8")
    | .unsignedChar => some (scalar .integer 1 false "u8")
    | .short => some (scalar .integer 2 true "i16")
    | .unsignedShort => some (scalar .integer 2 false "u16")
    | .int => some (scalar .integer 4 true "i32")
    | .unsignedInt => some (scalar .integer 4 false "u32")
    | .long => some (scalar .integer 8 true "i64")
    | .unsignedLong => some (scalar .integer 8 false "u64")
    | .longLong => some (scalar .integer 8 true "i64")
    | .unsignedLongLong => some (scalar .integer 8 false "u64")
    | .float => some (scalar .floating 4 true "f32")
    | .double => some (scalar .floating 8 true "f64")
    | .void => some (scalar .void 0 false "")
    | .struct => some ⟨⟨.aggregate, 0, false, type.name⟩, type.name, none⟩
    | .typedefName => declarations.resolveAlias type.name

def resolveType (type : CType) (pointerDepth : Nat) : Option TypeInfo :=
  (declarations.resolveBaseType type).map (declarations.makePointer^[pointerDepth])

/-- The description of a struct is replaced by that of its layout. -/
def ensureStructComplete : TypeInfo → Option TypeInfo
  | ⟨abi, coreTemplate, pointee⟩ =>
      if abi.kind = .aggregate then
        match declarations.structs abi.aggregateName with
        | none => none
        | some byteLength =>
            some ⟨⟨.aggregate, byteLength, false, abi.aggregateName⟩, coreTemplate, pointee⟩
      else some ⟨abi, coreTemplate, pointee⟩

/-- The rest of `resolveObject`, behind the typedefs of arrays. -/
def resolvePlainObject (type : CType) (declarator : Declarator) : Option ObjectInfo :=
  match declarations.resolveType type declarator.pointerDepth with
  | none => none
  | some resolved =>
      if isVoid resolved then none
      else
        match declarations.ensureStructComplete resolved with
        | none => none
        | some complete =>
            let object : ObjectInfo :=
              ⟨complete, declarator.arrayCount.isSome, declarator.arrayCount.getD 0⟩
            if object.isArray ∧ object.arrayCount = 0 then none
            else if object.byteLength = 0 then none
            else some object

def resolveObject (type : CType) (declarator : Declarator) : Option ObjectInfo :=
  if type.base = .typedefName then
    if type.isConst ∨ type.isVolatile then none
    else
      match declarations.aliases type.name with
      | none => none
      | some aliased =>
          if aliased.isArray then
            if declarator.pointerDepth ≠ 0 then none
            else if declarator.arrayCount.isSome then none
            else some aliased
          else declarations.resolvePlainObject type declarator
  else declarations.resolvePlainObject type declarator

/-! ### The types of expressions -/

def decayArray (value : ObjectInfo) : ObjectInfo :=
  if value.isArray then ⟨declarations.makePointer value.type, false, 0⟩ else value

def addressOf (operand : ObjectInfo) : Option ObjectInfo :=
  if operand.isArray then none
  else some ⟨declarations.makePointer operand.type, false, 0⟩

def dereference (operand : ObjectInfo) : Option ObjectInfo :=
  let decayed := declarations.decayArray operand
  if decayed.type.abi.kind = .pointer then
    match decayed.type.pointee with
    | none => none
    | some type =>
        if isVoid type then none
        else
          match declarations.ensureStructComplete type with
          | none => none
          | some complete => some ⟨complete, false, 0⟩
  else none

/-- The return type of a declared function, which a call takes over. -/
def returnType (type : CType) (pointerDepth : Nat) : Option ObjectInfo :=
  match declarations.resolveType type pointerDepth with
  | none => none
  | some resolved =>
      match declarations.ensureStructComplete resolved with
      | none => none
      | some complete => some ⟨complete, false, 0⟩

end Declarations

end HitSimple.CCompat

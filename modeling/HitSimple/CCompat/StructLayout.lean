import HitSimple.CCompat.TypeInfo
import HitSimple.Placement.Sequence
import HitSimple.Sema.Layouts

namespace HitSimple.CCompat

def TypeInfo.coreTemplate : TypeInfo → String
  | ⟨_, coreTemplate, _⟩ => coreTemplate

structure Field where
  name : String
  type : CType
  declarator : Declarator

/-- The alignment is that of the object's type. -/
structure FieldInfo where
  name : String
  object : ObjectInfo
  alignment : Nat
  offset : Nat

structure StructInfo where
  fields : List FieldInfo
  alignment : Nat
  byteLength : Nat

/-- The struct and typedef declarations of a unit, a typedef with its type and declarator. -/
structure DeclaredTypes where
  pointerByteLength : Nat
  structs : String → Option (List Field)
  typedefs : String → Option (CType × Declarator)

/-- Nothing where the result is no `size_t`. -/
def alignUp (value alignment : Nat) : Option Nat :=
  if alignment = 0 then none
  else
    let remainder := value % alignment
    if remainder = 0 then some value
    else
      let adjustment := alignment - remainder
      if value + adjustment > 2 ^ 64 - 1 then none else some ((value + adjustment) % 2 ^ 64)

/-- What resolves, with the layouts of the structs. -/
structure Resolved where
  declarations : Declarations
  layouts : String → Option StructInfo

/-- Scalars and pointers are aligned to their length, a struct to its strictest field. -/
def Resolved.alignment (resolved : Resolved) (type : TypeInfo) : Nat :=
  if type.abi.kind = .aggregate then
    ((resolved.layouts type.abi.aggregateName).map StructInfo.alignment).getD 0
  else type.abi.byteLength

/-- A struct whose fields are being placed. -/
structure Placing where
  fields : List FieldInfo
  offset : Nat
  aggregateAlignment : Nat

def placeField (resolved : Resolved) (placing : Placing) (field : Field) : Option Placing := do
  let object ← resolved.declarations.resolveObject field.type field.declarator
  let byteLength := object.byteLength
  let fieldAlignment := resolved.alignment object.type
  if byteLength = 0 ∨ fieldAlignment = 0 then none
  else
    let offset ← alignUp placing.offset fieldAlignment
    if offset + byteLength > 2 ^ 64 - 1 then none
    else some {
      fields := placing.fields ++ [⟨field.name, object, fieldAlignment, offset⟩]
      offset := (offset + byteLength) % 2 ^ 64
      aggregateAlignment := max placing.aggregateAlignment fieldAlignment }

def layoutFields (resolved : Resolved) (fields : List Field) : Option StructInfo := do
  let placed ← fields.foldlM (placeField resolved) ⟨[], 0, 1⟩
  let byteLength ← alignUp placed.offset placed.aggregateAlignment
  some ⟨placed.fields, placed.aggregateAlignment, byteLength⟩

/-- `resolveStruct` and `resolveAliasObject`, as far as a depth of nesting, with the names that are
being resolved.  What they cache is what they find. -/
def DeclaredTypes.resolve (unit : DeclaredTypes) : Nat → List String → List String → Resolved
  | 0, _, _ => ⟨⟨unit.pointerByteLength, fun _ => none, fun _ => none⟩, fun _ => none⟩
  | depth + 1, structs, typedefs =>
      let layouts := fun name =>
        if name ∈ structs then none
        else do
          let fields ← unit.structs name
          layoutFields (unit.resolve depth (name :: structs) typedefs) fields
      let aliases := fun name =>
        if name ∈ typedefs then none
        else do
          let (type, declarator) ← unit.typedefs name
          (unit.resolve depth structs (name :: typedefs)).declarations.resolveObject type declarator
      { declarations := {
          pointerByteLength := unit.pointerByteLength
          aliases := aliases
          structs := fun name => (layouts name).map StructInfo.byteLength }
        layouts := layouts }

/-! ### The core template -/

def paddingMember (paddingIndex byteLength : Nat) : Ast.TemplateMember :=
  ⟨"__hitsimple_c_padding_" ++ toString paddingIndex, toString byteLength, "bytes"⟩

abbrev FieldInfo.byteLength (field : FieldInfo) : Nat := field.object.byteLength

def FieldInfo.member (field : FieldInfo) : Ast.TemplateMember :=
  ⟨field.name, toString field.byteLength,
    if field.object.isArray then "bytes" else field.object.type.coreTemplate⟩

/-- The members from an offset on, the padding in front of a field where it begins later. -/
def lowerFields (byteLength : Nat) : List FieldInfo → Nat → Nat → List Ast.TemplateMember
  | [], offset, paddingIndex =>
      if byteLength > offset then [paddingMember paddingIndex (byteLength - offset)] else []
  | field :: fields, offset, paddingIndex =>
      if field.offset > offset then
        paddingMember paddingIndex (field.offset - offset) :: field.member ::
          lowerFields byteLength fields ((field.offset + field.byteLength) % 2 ^ 64) (paddingIndex + 1)
      else
        field.member ::
          lowerFields byteLength fields ((offset + field.byteLength) % 2 ^ 64) paddingIndex

def StructInfo.lower (info : StructInfo) (name : String) : Ast.TemplateDecl :=
  ⟨name, lowerFields info.byteLength info.fields 0 0⟩

end HitSimple.CCompat

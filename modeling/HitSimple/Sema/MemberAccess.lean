import HitSimple.Sema.ImplOps
import HitSimple.Sema.Layouts

namespace HitSimple.Ast

/-- The expressions a member access is made of; every other expression is `other`. -/
inductive Reference
  | identifier (name : String)
  | asView (operand : Reference) (templateName : String)
  | index (base index : Reference)
  | member (base : Reference) (member : String)
  | other
  deriving DecidableEq, Repr

end HitSimple.Ast

namespace HitSimple.Sema.Declarations

structure Symbol where
  name : String
  binding : Hir.Binding
  byteLength : Nat
  templateName : String
  deriving DecidableEq, Repr

structure MemoryReference where
  name : String
  binding : Hir.Binding
  byteLength : Nat
  offset : Nat
  templateName : String
  deriving DecidableEq, Repr

/-- The parts of a member access; the View is the innermost one. -/
structure Access where
  objectName : String
  instanceIndex : Nat
  baseViewTemplate : Option String
  memberPath : List String
  deriving DecidableEq, Repr

/-- `scopes_` and `memberTemplateOverrides_`. -/
structure Objects where
  lookup : String → Option Symbol
  memberTemplateOverrides : String → Option (Option String)

/-- Nothing is reported where the expression is no member access. -/
abbrev Resolution := Except (Option Diagnostic)

def structIndex : Ast.Reference → Option Nat
  | .identifier name =>
      match name.toList with
      | 's' :: count => parseUnsignedDecimal count
      | _ => none
  | _ => none

def memberPath : Ast.Reference → List String × Ast.Reference
  | .member base name => ((memberPath base).1 ++ [name], (memberPath base).2)
  | base => ([], base)

def baseView : Ast.Reference → Option String × Ast.Reference
  | .asView operand templateName => ((baseView operand).1.or (some templateName), (baseView operand).2)
  | base => (none, base)

def accessOf (expr : Ast.Reference) : Resolution Access :=
  match expr with
  | .member _ _ =>
      let (memberPath, base) := memberPath expr
      let (baseViewTemplate, base) := baseView base
      match base with
      | .identifier name => .ok ⟨name, 0, baseViewTemplate, memberPath⟩
      | .index base index =>
          match structIndex index with
          | none => .error (some "struct index must use [sN]")
          | some instanceIndex =>
              match base with
              | .identifier name => .ok ⟨name, instanceIndex, baseViewTemplate, memberPath⟩
              | _ => .error (some "member access base must be an identifier")
      | _ => .error (some "member access base must be an identifier")
  | _ => .error none

variable (declared : Declarations)

def layoutFor (templateName : String) : Option StructInfo :=
  (declared.findStruct templateName).or (declared.findTemplate templateName)

def layoutTemplateName (symbol : Symbol) : Option String → Resolution String
  | none => .ok symbol.templateName
  | some view =>
      if view = "none" ∨ view = "bytes" ∨ view = "cstr" ∨ declared.findTemplate view = none then
        .error (some "member access requires a user template View")
      else if declared.templateByteLength view ≠ some symbol.byteLength then
        .error (some "member access View byte length does not match its source")
      else .ok view

/-- The loop over the member path, from an offset on: the member, and where it begins. -/
def resolvePath (accessed : String) (byteLength : Nat) (layout : StructInfo) (offset : Nat) :
    List String → Resolution (Nat × StructMemberInfo)
  | [] => .error none
  | name :: rest =>
      match layout.members.find? (·.name = name) with
      | none => .error (some ("unknown member '" ++ name ++ "' in struct '" ++ layout.name ++ "'"))
      | some member =>
          let offset := (offset + member.offset) % 2 ^ 64
          match rest with
          | [] =>
              if byteLength < (offset + member.byteLength) % 2 ^ 64 then
                .error (some ("member access '" ++ accessed ++ "' is out of bounds"))
              else .ok (offset, member)
          | _ :: _ =>
              if declared.findTemplate member.templateName = none then
                .error (some ("member '" ++ name ++
                  "' must use a user template for nested member access"))
              else
                match declared.layoutFor member.templateName with
                | none => .error (some ("unknown struct template '" ++ member.templateName ++ "'"))
                | some layout => resolvePath accessed byteLength layout offset rest

def overrideKey (symbol : Symbol) (memberPath : List String) : String :=
  memberPath.foldl (fun key segment => key ++ "\x1f" ++ segment) symbol.binding.bindingName

def resolveMemoryReference (objects : Objects) (expr : Ast.Reference) :
    Resolution MemoryReference := do
  let access ← accessOf expr
  match objects.lookup access.objectName with
  | none => .error (some ("use of undeclared variable '" ++ access.objectName ++ "'"))
  | some symbol =>
      if symbol.templateName = "" then
        .error (some ("member access requires a struct template for '" ++ access.objectName ++ "'"))
      else
        let layoutName ← declared.layoutTemplateName symbol access.baseViewTemplate
        match declared.layoutFor layoutName with
        | none => .error (some ("unknown struct template '" ++ layoutName ++ "'"))
        | some layout =>
            let (offset, member) ← declared.resolvePath
              (access.objectName ++ "." ++ access.memberPath.getLastD "") symbol.byteLength layout
              (access.instanceIndex * layout.byteLength % 2 ^ 64) access.memberPath
            .ok {
              name := symbol.name
              binding := symbol.binding
              byteLength := member.byteLength
              offset := offset
              templateName :=
                match objects.memberTemplateOverrides (overrideKey symbol access.memberPath) with
                | none => member.templateName
                | some templateName => templateName.getD "" }

/-! ### Declared objects -/

/-- The byte length of a declaration; an omitted one is the template's, and else what the
initializer gives. -/
def declaredByteLength (length templateName : String) (initializer : Option Nat) : Option Nat :=
  if length ≠ "" then
    match declared.parseDeclaredLength length templateName with
    | .error _ | .ok 0 => none
    | .ok byteLength => some byteLength
  else
    match (declared.templateByteLength templateName).getD 0 with
    | 0 => initializer.filter (· ≠ 0)
    | byteLength => some byteLength

/-- `sizeof` in exact arithmetic. -/
def exactTemplateByteLength (templateName : String) : Option Nat :=
  if ¬isSizedTemplateName templateName then none
  else
    (standardTemplateByteLength templateName).or
      ((declared.layoutFor templateName).map fun info => exactByteLength info.members)

/-- The bytes and the instances that an object is declared with. -/
structure Extent where
  byteLength : Nat
  instances : Nat
  deriving DecidableEq, Repr

/-- A count of instances is exact, and so is an omitted length. An explicit length holds as many
instances as begin in it. -/
def declaredExtent (length templateName : String) (byteLength : Nat) : Extent :=
  let size := (declared.exactTemplateByteLength templateName).getD 0
  match length.toList with
  | [] => if size = 0 then ⟨byteLength, 1⟩ else ⟨size, 1⟩
  | 's' :: count =>
      let count := (parseUnsignedDecimal count).getD 0
      ⟨count * size, count⟩
  | _ => ⟨byteLength, if size = 0 then 1 else (byteLength + size - 1) / size⟩

/-- The objects of a program: an object keeps its extent where `set` gives it another template,
which is one of its byte length or has no layout. -/
inductive IsDeclared : Symbol → Extent → Prop
  | declared (name : String) (binding : Hir.Binding) (length templateName : String)
      (initializer : Option Nat) (byteLength : Nat)
      (small : ∀ inferred, initializer = some inferred → inferred < 2 ^ 64)
      (sized : declared.declaredByteLength length templateName initializer = some byteLength) :
      IsDeclared ⟨name, binding, byteLength, templateName⟩
        (declared.declaredExtent length templateName byteLength)
  | set (symbol : Symbol) (extent : Extent) (templateName : String)
      (object : IsDeclared symbol extent)
      (same : declared.templateByteLength templateName = some symbol.byteLength) :
      IsDeclared { symbol with templateName := templateName } extent
  | reset (symbol : Symbol) (extent : Extent) (templateName : String)
      (object : IsDeclared symbol extent) (plain : declared.layoutFor templateName = none) :
      IsDeclared { symbol with templateName := templateName } extent

/-- Where a member begins in its layout and how long it is. -/
def exactMember (members : List StructMemberInfo) : List String → Option (Nat × Nat)
  | [] => none
  | name :: rest =>
      match members.find? (·.name = name) with
      | none => none
      | some member =>
          let offset := exactByteLength (members.takeWhile (·.name ≠ name))
          match rest with
          | [] => some (offset, member.byteLength)
          | _ :: _ =>
              match declared.layoutFor member.templateName with
              | none => none
              | some layout =>
                  (exactMember layout.members rest).map fun (inner, length) =>
                    (offset + inner, length)

end HitSimple.Sema.Declarations

import HitSimple.Sema.Scope

namespace HitSimple.Ast

/-- The length is empty where the source omits it, and so is the template name. -/
structure TemplateMember where
  name : String
  length : String
  templateName : String
  deriving DecidableEq, Repr

structure TemplateDecl where
  name : String
  members : List TemplateMember
  deriving DecidableEq, Repr

end HitSimple.Ast

namespace HitSimple.Sema

structure StructMemberInfo where
  name : String
  byteLength : Nat
  offset : Nat
  templateName : String
  deriving DecidableEq, Repr

structure StructInfo where
  name : String
  members : List StructMemberInfo
  byteLength : Nat
  deriving DecidableEq, Repr

abbrev TemplateInfo := StructInfo

/-- What `std::from_chars` reads of an unsigned 64-bit number that fills the whole text. -/
def parseUnsignedDecimal (text : List Char) : Option Nat :=
  let value := text.foldl (fun value digit => 10 * value + (digit.toNat - '0'.toNat)) 0
  if text ≠ [] ∧ text.all Char.isDigit ∧ value < 2 ^ 64 then some value else none

def standardTemplateByteLength (name : String) : Option Nat :=
  if name = "bool" then some 1
  else if name = "addr" ∨ name = "handle" then some pointerByteLength
  else
    match name.toList with
    | [] => none
    | kind :: digits =>
        if kind = 'i' ∨ kind = 'u' ∨ kind = 'f' then
          match parseUnsignedDecimal digits with
          | none => none
          | some bits =>
              if bits = 0 ∨ bits % 8 ≠ 0 then none
              else
                let bytes := bits / 8
                if kind = 'f' ∧ bytes ≠ 2 ∧ bytes ≠ 4 ∧ bytes ≠ 8 ∧ bytes ≠ 16 then none
                else some bytes
        else none

def isVariableLengthStandardTemplate (name : String) : Bool :=
  name == "bytes" || name == "cstr"

def isReservedIdentifier (name : String) : Bool :=
  if name = "_" then true
  else
    match name.toList with
    | 't' :: digit :: digits => (digit :: digits).all Char.isDigit
    | _ => false

/-- The names that the generated library manifest implements, and whether the module is its own. -/
structure ModuleOptions where
  isStandardLibraryImplementationSymbol : String → Bool
  internalStandardModule : Bool

/-- `structs_`, `templates_` and `topLevelNames_`, with the diagnostics so far. -/
structure Declarations where
  structs : List StructInfo
  templates : List TemplateInfo
  topLevelNames : List String
  diagnostics : List Diagnostic
  deriving DecidableEq, Repr

namespace Declarations

/-- Zero stands for a text that is no length. -/
def parseByteLength (text : String) : Nat :=
  if text = "P" then pointerByteLength else (parseUnsignedDecimal text.toList).getD 0

def addDiagnostic (declared : Declarations) (message : Diagnostic) : Declarations :=
  { declared with diagnostics := declared.diagnostics ++ [message] }

def findStruct (declared : Declarations) (name : String) : Option StructInfo :=
  declared.structs.find? (·.name == name)

def findTemplate (declared : Declarations) (name : String) : Option TemplateInfo :=
  declared.templates.find? (·.name == name)

def templateByteLength (declared : Declarations) (templateName : String) : Option Nat :=
  if templateName = "" ∨ templateName = "none" ∨ isVariableLengthStandardTemplate templateName then
    none
  else
    match standardTemplateByteLength templateName with
    | some byteLength => some byteLength
    | none =>
        match declared.findStruct templateName with
        | some info => some info.byteLength
        | none => (declared.findTemplate templateName).map (·.byteLength)

/-- The declarations afterwards, and whether the name was free. -/
def registerTopLevelName (options : ModuleOptions) (declared : Declarations) (name : String) :
    Declarations × Bool :=
  if !options.internalStandardModule && options.isStandardLibraryImplementationSymbol name then
    (declared.addDiagnostic ("reserved standard library implementation symbol '" ++ name ++
      "' cannot be declared by user code"), false)
  else if name ∈ declared.topLevelNames then
    (declared.addDiagnostic ("duplicate top-level declaration '" ++ name ++ "'"), false)
  else ({ declared with topLevelNames := declared.topLevelNames ++ [name] }, true)

end Declarations

/-- A template whose members are being laid out. -/
structure TemplateLayout where
  memberNames : List String
  members : List StructMemberInfo
  offset : Nat
  diagnostics : List Diagnostic
  deriving DecidableEq, Repr

def TemplateLayout.addDiagnostic (layout : TemplateLayout) (message : Diagnostic) :
    TemplateLayout :=
  { layout with diagnostics := layout.diagnostics ++ [message] }

/-- The template names whose length a member has to agree with. -/
def isSizedTemplateName (name : String) : Bool :=
  name != "" && name != "none" && !isVariableLengthStandardTemplate name

def memberByteLength (declared : Declarations) (member : Ast.TemplateMember) : Nat :=
  if member.length ≠ "" then Declarations.parseByteLength member.length
  else if member.templateName ≠ "" then
    (declared.templateByteLength member.templateName).getD 0
  else 0

def hasFixedByteLength (declared : Declarations) (templateName : String) : Bool :=
  (standardTemplateByteLength templateName).isSome || (declared.findTemplate templateName).isSome

def layoutMember (declared : Declarations) (declName : String) (layout : TemplateLayout)
    (member : Ast.TemplateMember) : TemplateLayout :=
  if isReservedIdentifier member.name then
    layout.addDiagnostic ("reserved identifier '" ++ member.name ++
      "' cannot be used as a member name")
  else if member.name ∈ layout.memberNames then
    layout.addDiagnostic ("duplicate member '" ++ member.name ++ "' in template '" ++ declName ++
      "'")
  else
    let layout := { layout with memberNames := layout.memberNames ++ [member.name] }
    let length := memberByteLength declared member
    if length = 0 then
      layout.addDiagnostic ("invalid member byte length for '" ++ member.name ++
        "' in template '" ++ declName ++ "'")
    else if isSizedTemplateName member.templateName ∧
        declared.templateByteLength member.templateName = none then
      layout.addDiagnostic ("unknown template '" ++ member.templateName ++ "' for member '" ++
        member.name ++ "'")
    else if isSizedTemplateName member.templateName ∧
        hasFixedByteLength declared member.templateName ∧
        declared.templateByteLength member.templateName ≠ some length then
      layout.addDiagnostic ("member byte length '[" ++ member.length ++
        "]' does not match fixed template '" ++ member.templateName ++ "'")
    else
      { layout with
        members := layout.members ++ [{
          name := member.name, byteLength := length, offset := layout.offset,
          templateName := member.templateName }]
        offset := (layout.offset + length) % 2 ^ 64 }

def emptyLayout : TemplateLayout where
  memberNames := []
  members := []
  offset := 0
  diagnostics := []

def layoutTemplate (declared : Declarations) (decl : Ast.TemplateDecl) : TemplateLayout :=
  decl.members.foldl (layoutMember declared decl.name) emptyLayout

def TemplateLayout.info (layout : TemplateLayout) (name : String) : TemplateInfo where
  name := name
  members := layout.members
  byteLength := layout.offset

def collectViewTemplate (options : ModuleOptions) (declared : Declarations)
    (decl : Ast.TemplateDecl) : Declarations :=
  if isReservedIdentifier decl.name then
    declared.addDiagnostic ("reserved identifier '" ++ decl.name ++
      "' cannot be used as a template name")
  else
    match declared.registerTopLevelName options decl.name with
    | (declared, false) => declared
    | (declared, true) =>
        if (declared.findTemplate decl.name).isSome || (declared.findStruct decl.name).isSome then
          declared.addDiagnostic ("duplicate top-level declaration '" ++ decl.name ++ "'")
        else
          let layout := layoutTemplate declared decl
          { declared with
            templates := declared.templates ++ [layout.info decl.name]
            diagnostics := declared.diagnostics ++ layout.diagnostics }

/-- The templates of a unit in the order of their declarations. -/
def collectViewTemplates (options : ModuleOptions) (declared : Declarations)
    (decls : List Ast.TemplateDecl) : Declarations :=
  decls.foldl (collectViewTemplate options) declared

end HitSimple.Sema

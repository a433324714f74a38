import HitSimple.Placement.Sequence
import HitSimple.Sema.TemplateOrder

namespace HitSimple.Ast

structure StructMember where
  name : String
  length : String
  deriving DecidableEq, Repr

structure StructDecl where
  name : String
  members : List StructMember
  deriving DecidableEq, Repr

end HitSimple.Ast

namespace HitSimple.Sema

def layoutStructMember (declName : String) (layout : TemplateLayout) (member : Ast.StructMember) :
    TemplateLayout :=
  if isReservedIdentifier member.name then
    layout.addDiagnostic ("reserved identifier '" ++ member.name ++
      "' cannot be used as a member name")
  else if member.name ∈ layout.memberNames then
    layout.addDiagnostic ("duplicate member '" ++ member.name ++ "' in struct '" ++ declName ++ "'")
  else
    let layout := { layout with memberNames := layout.memberNames ++ [member.name] }
    let length := Declarations.parseByteLength member.length
    if length = 0 then
      layout.addDiagnostic ("invalid member byte length for '" ++ member.name ++
        "' in struct '" ++ declName ++ "'")
    else
      { layout with
        members := layout.members ++ [{
          name := member.name, byteLength := length, offset := layout.offset, templateName := "" }]
        offset := (layout.offset + length) % 2 ^ 64 }

def layoutStruct (decl : Ast.StructDecl) : TemplateLayout :=
  decl.members.foldl (layoutStructMember decl.name) emptyLayout

def collectStructLayout (options : ModuleOptions) (declared : Declarations)
    (decl : Ast.StructDecl) : Declarations :=
  if isReservedIdentifier decl.name then
    declared.addDiagnostic ("reserved identifier '" ++ decl.name ++
      "' cannot be used as a struct name")
  else
    match declared.registerTopLevelName options decl.name with
    | (declared, false) => declared
    | (declared, true) =>
        if (declared.findStruct decl.name).isSome then
          declared.addDiagnostic ("duplicate top-level declaration '" ++ decl.name ++ "'")
        else
          let layout := layoutStruct decl
          { declared with
            structs := declared.structs ++ [layout.info decl.name]
            diagnostics := declared.diagnostics ++ layout.diagnostics }

def collectStructLayouts (options : ModuleOptions) (declared : Declarations)
    (decls : List Ast.StructDecl) : Declarations :=
  decls.foldl (collectStructLayout options) declared

def noDeclarations : Declarations :=
  precedingDeclarations [] []

/-- The layouts of a unit: its structs come before its templates. -/
def collectLayouts (options : ModuleOptions) (structs : List Ast.StructDecl)
    (templates : List Ast.TemplateDecl) : Declarations :=
  collectViewTemplates options (collectStructLayouts options noDeclarations structs) templates

/-! ### Exact layouts -/

def Apart (left right : StructMemberInfo) : Prop :=
  left.offset + left.byteLength ≤ right.offset ∨ right.offset + right.byteLength ≤ left.offset

def exactByteLength (members : List StructMemberInfo) : Nat :=
  Placement.span StructMemberInfo.byteLength members

structure StructInfo.IsExact (info : StructInfo) : Prop where
  byteLength : info.byteLength = exactByteLength info.members
  offsets : ∀ before member behind, info.members = before ++ member :: behind →
    member.offset = exactByteLength before
  apart : info.members.Pairwise Apart
  inside : ∀ member ∈ info.members, member.offset + member.byteLength ≤ info.byteLength

/-- What every recorded layout is: its members have a length, and the sums wrap around. -/
structure StructInfo.IsRecorded (info : StructInfo) : Prop where
  placed : Placement.Wrapped StructMemberInfo.byteLength StructMemberInfo.offset (2 ^ 64)
    info.members info.byteLength
  positive : ∀ member ∈ info.members, 0 < member.byteLength

theorem StructInfo.IsRecorded.isExact_iff {info : StructInfo} (recorded : info.IsRecorded) :
    info.IsExact ↔ exactByteLength info.members < 2 ^ 64 := by
  have exact_iff := recorded.placed.exact_iff (by decide)
  constructor
  · intro exact
    exact exact_iff.mp ⟨exact.offsets, exact.byteLength⟩
  · intro bound
    have exact := exact_iff.mpr bound
    exact ⟨exact.total, exact.offsets, exact.ordered.imp .inl, fun member => exact.inside⟩

section
variable {layout : TemplateLayout} {declared : Declarations} {declName : String}

/-- The members placed so far. -/
abbrev TemplateLayout.IsRecorded (layout : TemplateLayout) : Prop :=
  (layout.info "").IsRecorded

theorem emptyLayout_isRecorded : emptyLayout.IsRecorded :=
  ⟨.nil, fun _ listed => by cases listed⟩

/-- Placing a member behind the others. -/
theorem TemplateLayout.IsRecorded.snoc (recorded : layout.IsRecorded) {member : StructMemberInfo}
    (here : member.offset = layout.offset) (positive : member.byteLength ≠ 0) {name : String} :
    StructInfo.IsRecorded {
      name := name
      members := layout.members ++ [member]
      byteLength := (layout.offset + member.byteLength) % 2 ^ 64 } := by
  refine ⟨recorded.placed.snoc here, fun other listed => ?_⟩
  rcases List.mem_append.mp listed with earlier | last
  · exact recorded.positive other earlier
  · rw [List.mem_singleton.mp last]
    exact Nat.pos_of_ne_zero positive

/-- What a member adds to a layout without a diagnostic. -/
def Places (layout : TemplateLayout) (name : String) (length : Nat) (after : TemplateLayout) :
    Prop :=
  after.diagnostics = layout.diagnostics ∧
    ∃ member : StructMemberInfo, member.name = name ∧ member.byteLength = length ∧
      after.members = layout.members ++ [member]

theorem layoutMember_cases (layout : TemplateLayout) (member : Ast.TemplateMember) :
    let after := layoutMember declared declName layout member
    (layout.IsRecorded → after.IsRecorded) ∧
      ((∃ message, after.diagnostics = layout.diagnostics ++ [message]) ∨
        Places layout member.name (memberByteLength declared member) after) := by
  dsimp only
  unfold layoutMember
  split
  · exact ⟨id, .inl ⟨_, rfl⟩⟩
  split
  · exact ⟨id, .inl ⟨_, rfl⟩⟩
  dsimp only
  split
  · exact ⟨id, .inl ⟨_, rfl⟩⟩
  next positive =>
    split
    · exact ⟨id, .inl ⟨_, rfl⟩⟩
    split
    · exact ⟨id, .inl ⟨_, rfl⟩⟩
    · exact ⟨fun recorded => recorded.snoc rfl positive, .inr ⟨rfl, _, rfl, rfl, rfl⟩⟩

theorem layoutStructMember_cases (layout : TemplateLayout) (member : Ast.StructMember) :
    let after := layoutStructMember declName layout member
    (layout.IsRecorded → after.IsRecorded) ∧
      ((∃ message, after.diagnostics = layout.diagnostics ++ [message]) ∨
        Places layout member.name (Declarations.parseByteLength member.length) after) := by
  dsimp only
  unfold layoutStructMember
  split
  · exact ⟨id, .inl ⟨_, rfl⟩⟩
  split
  · exact ⟨id, .inl ⟨_, rfl⟩⟩
  dsimp only
  split
  · exact ⟨id, .inl ⟨_, rfl⟩⟩
  next positive =>
    exact ⟨fun recorded => recorded.snoc rfl positive, .inr ⟨rfl, _, rfl, rfl, rfl⟩⟩

end

/-! ### Runs over the members -/

section
variable {member : Type} {step : TemplateLayout → member → TemplateLayout}
  {name : member → String} {length : member → Nat}

theorem foldl_isRecorded
    (keeps : ∀ layout next, layout.IsRecorded → (step layout next).IsRecorded)
    (members : List member) {layout : TemplateLayout} (recorded : layout.IsRecorded) :
    (members.foldl step layout).IsRecorded := by
  induction members generalizing layout with
  | nil => exact recorded
  | cons first rest ih => exact ih (keeps layout first recorded)

theorem foldl_diagnostics
    (cases : ∀ layout next, (∃ message, (step layout next).diagnostics =
      layout.diagnostics ++ [message]) ∨ Places layout (name next) (length next) (step layout next))
    (members : List member) (layout : TemplateLayout) :
    layout.diagnostics <+: (members.foldl step layout).diagnostics := by
  induction members generalizing layout with
  | nil => exact List.prefix_refl _
  | cons first rest ih =>
      refine List.IsPrefix.trans ?_ (ih (step layout first))
      rcases cases layout first with ⟨message, added⟩ | ⟨kept, _⟩
      · exact ⟨[message], added.symm⟩
      · rw [kept]

/-- Without a diagnostic every member is placed under its name with its length. -/
theorem foldl_members
    (cases : ∀ layout next, (∃ message, (step layout next).diagnostics =
      layout.diagnostics ++ [message]) ∨ Places layout (name next) (length next) (step layout next))
    (members : List member) {layout : TemplateLayout}
    (clean : (members.foldl step layout).diagnostics = []) :
    (members.foldl step layout).members.map (fun info => (info.name, info.byteLength)) =
      layout.members.map (fun info => (info.name, info.byteLength)) ++
        members.map fun next => (name next, length next) := by
  induction members generalizing layout with
  | nil => rw [List.map_nil, List.append_nil, List.foldl_nil]
  | cons first rest ih =>
      rw [List.foldl_cons] at clean ⊢
      rcases cases layout first with ⟨message, added⟩ | ⟨_, placed, named, sized, members⟩
      · have remains := foldl_diagnostics cases rest (step layout first)
        rw [clean, added] at remains
        simp at remains
      · rw [ih clean, members]
        simp [named, sized]

end

theorem layoutTemplate_isRecorded (declared : Declarations) (decl : Ast.TemplateDecl) :
    (layoutTemplate declared decl).IsRecorded :=
  foldl_isRecorded (fun layout next => (layoutMember_cases layout next).1) _ emptyLayout_isRecorded

theorem layoutStruct_isRecorded (decl : Ast.StructDecl) : (layoutStruct decl).IsRecorded :=
  foldl_isRecorded (fun layout next => (layoutStructMember_cases layout next).1) _
    emptyLayout_isRecorded

theorem TemplateLayout.IsRecorded.info {layout : TemplateLayout} (recorded : layout.IsRecorded)
    (name : String) : (layout.info name).IsRecorded :=
  ⟨recorded.placed, recorded.positive⟩

/-! ### Runs over the declarations -/

def Declarations.IsRecorded (declared : Declarations) : Prop :=
  ∀ info ∈ declared.structs ++ declared.templates, info.IsRecorded

section
variable {options : ModuleOptions} {declared : Declarations}

theorem collectStructLayout_of_clean {decl : Ast.StructDecl}
    (clean : (collectStructLayout options declared decl).diagnostics = []) :
    declared.diagnostics = [] ∧ (layoutStruct decl).diagnostics = [] ∧
      declared.findStruct decl.name = none ∧
      collectStructLayout options declared decl =
        { declared with
          structs := declared.structs ++ [(layoutStruct decl).info decl.name]
          topLevelNames := declared.topLevelNames ++ [decl.name] } := by
  unfold collectStructLayout at clean ⊢
  split at clean
  · simp [Declarations.addDiagnostic] at clean
  next unreserved =>
    rcases registerTopLevelName_cases options declared decl.name with
      ⟨message, taken⟩ | ⟨_, _, free⟩
    · simp [taken, Declarations.addDiagnostic] at clean
    · rw [free] at clean
      dsimp only at clean
      split at clean
      · simp [Declarations.addDiagnostic] at clean
      next new =>
        obtain ⟨earlier, laidOut⟩ := List.append_eq_nil_iff.mp clean
        refine ⟨earlier, laidOut, Option.not_isSome_iff_eq_none.mp new, ?_⟩
        rw [if_neg unreserved, free]
        dsimp only
        rw [if_neg new, laidOut, List.append_nil]

theorem collectStructLayout_diagnostics (decl : Ast.StructDecl) :
    declared.diagnostics <+: (collectStructLayout options declared decl).diagnostics := by
  unfold collectStructLayout
  split
  · exact ⟨[_], rfl⟩
  rcases registerTopLevelName_cases options declared decl.name with ⟨message, taken⟩ | ⟨_, _, free⟩
  · rw [taken]
    exact ⟨[message], rfl⟩
  · rw [free]
    dsimp only
    split
    · exact ⟨[_], rfl⟩
    · exact ⟨_, rfl⟩

theorem collectStructLayouts_cons {decl : Ast.StructDecl} {decls : List Ast.StructDecl}
    (clean : (collectStructLayouts options declared (decl :: decls)).diagnostics = []) :
    (collectStructLayout options declared decl).diagnostics = [] ∧
      (collectStructLayouts options
        (collectStructLayout options declared decl) decls).diagnostics = [] := by
  have remains (decls : List Ast.StructDecl) (declared : Declarations) :
      declared.diagnostics <+: (collectStructLayouts options declared decls).diagnostics := by
    induction decls generalizing declared with
    | nil => exact List.prefix_refl _
    | cons decl decls ih => exact (collectStructLayout_diagnostics decl).trans (ih _)
  have first := remains decls (collectStructLayout options declared decl)
  rw [show (collectStructLayouts options _ decls).diagnostics = [] from clean,
    List.prefix_nil] at first
  exact ⟨first, clean⟩

theorem findStruct_of_append {structs : List StructInfo} {name : String} {info : StructInfo}
    (found : declared.findStruct name = some info) :
    { declared with structs := declared.structs ++ structs }.findStruct name = some info := by
  unfold Declarations.findStruct at found ⊢
  rw [List.find?_append, found, Option.some_or]

theorem collectStructLayouts_keep {decls : List Ast.StructDecl}
    (clean : (collectStructLayouts options declared decls).diagnostics = []) {name : String}
    {info : StructInfo} (found : declared.findStruct name = some info) :
    (collectStructLayouts options declared decls).findStruct name = some info := by
  induction decls generalizing declared with
  | nil => exact found
  | cons decl decls ih =>
      obtain ⟨first, rest⟩ := collectStructLayouts_cons clean
      obtain ⟨_, _, _, taken⟩ := collectStructLayout_of_clean first
      refine ih rest ?_
      rw [taken]
      exact findStruct_of_append found

theorem collectStructLayouts_find {decls : List Ast.StructDecl}
    (clean : (collectStructLayouts options declared decls).diagnostics = []) {decl : Ast.StructDecl}
    (listed : decl ∈ decls) :
    (layoutStruct decl).diagnostics = [] ∧
      (collectStructLayouts options declared decls).findStruct decl.name =
        some ((layoutStruct decl).info decl.name) := by
  induction decls generalizing declared with
  | nil => cases listed
  | cons first decls ih =>
      obtain ⟨clean, rest⟩ := collectStructLayouts_cons clean
      cases listed with
      | tail _ listed => exact ih rest listed
      | head =>
          obtain ⟨_, laidOut, new, taken⟩ := collectStructLayout_of_clean clean
          refine ⟨laidOut, collectStructLayouts_keep rest ?_⟩
          rw [taken]
          unfold Declarations.findStruct at new ⊢
          rw [List.find?_append, new, Option.none_or]
          exact List.find?_cons_of_pos (beq_self_eq_true _)

theorem collectStructLayouts_isRecorded {decls : List Ast.StructDecl}
    (clean : (collectStructLayouts options declared decls).diagnostics = [])
    (recorded : declared.IsRecorded) :
    (collectStructLayouts options declared decls).IsRecorded := by
  induction decls generalizing declared with
  | nil => exact recorded
  | cons decl decls ih =>
      obtain ⟨first, rest⟩ := collectStructLayouts_cons clean
      obtain ⟨_, _, _, taken⟩ := collectStructLayout_of_clean first
      refine ih rest fun info listed => ?_
      rw [taken] at listed
      rcases List.mem_append.mp listed with inStructs | inTemplates
      · rcases List.mem_append.mp inStructs with earlier | last
        · exact recorded info (List.mem_append_left _ earlier)
        · rw [List.mem_singleton.mp last]
          exact (layoutStruct_isRecorded decl).info decl.name
      · exact recorded info (List.mem_append_right _ inTemplates)

theorem collectViewTemplates_structs {decls : List Ast.TemplateDecl}
    (clean : (collectViewTemplates options declared decls).diagnostics = []) :
    (collectViewTemplates options declared decls).structs = declared.structs := by
  induction decls generalizing declared with
  | nil => rfl
  | cons decl decls ih =>
      obtain ⟨taken, rest⟩ := collectViewTemplates_cons clean
      refine (ih rest).trans ?_
      rw [collectViewTemplate_of_isCollected taken]

theorem collectViewTemplates_keep {decls : List Ast.TemplateDecl}
    (clean : (collectViewTemplates options declared decls).diagnostics = []) {name : String}
    {info : TemplateInfo} (found : declared.findTemplate name = some info) :
    (collectViewTemplates options declared decls).findTemplate name = some info := by
  induction decls generalizing declared with
  | nil => exact found
  | cons decl decls ih =>
      obtain ⟨taken, rest⟩ := collectViewTemplates_cons clean
      refine ih rest ?_
      rw [collectViewTemplate_of_isCollected taken]
      unfold Declarations.findTemplate at found ⊢
      rw [List.find?_append, found, Option.some_or]

theorem collectViewTemplates_find {before behind : List Ast.TemplateDecl} {decl : Ast.TemplateDecl}
    (clean : (collectViewTemplates options declared (before ++ decl :: behind)).diagnostics = []) :
    let layout := layoutTemplate (collectViewTemplates options declared before) decl
    layout.diagnostics = [] ∧
      (collectViewTemplates options declared (before ++ decl :: behind)).findTemplate decl.name =
        some (layout.info decl.name) := by
  unfold collectViewTemplates at clean ⊢
  rw [List.foldl_append] at clean ⊢
  obtain ⟨taken, rest⟩ := collectViewTemplates_cons clean
  refine ⟨taken.laidOut, collectViewTemplates_keep rest ?_⟩
  rw [collectViewTemplate_of_isCollected taken]
  have new := taken.undeclared
  unfold Declarations.findTemplate at new ⊢
  rw [List.find?_append, new, Option.none_or]
  exact List.find?_cons_of_pos (beq_self_eq_true _)

theorem collectViewTemplates_isRecorded {decls : List Ast.TemplateDecl}
    (clean : (collectViewTemplates options declared decls).diagnostics = [])
    (recorded : declared.IsRecorded) :
    (collectViewTemplates options declared decls).IsRecorded := by
  induction decls generalizing declared with
  | nil => exact recorded
  | cons decl decls ih =>
      obtain ⟨taken, rest⟩ := collectViewTemplates_cons clean
      refine ih rest fun info listed => ?_
      rw [collectViewTemplate_of_isCollected taken, ← List.append_assoc] at listed
      rcases List.mem_append.mp listed with earlier | last
      · exact recorded info earlier
      · rw [List.mem_singleton.mp last]
        exact (layoutTemplate_isRecorded declared decl).info decl.name

end

/-! ### The layouts of a unit -/

section
variable {options : ModuleOptions} {structs : List Ast.StructDecl}
  {templates : List Ast.TemplateDecl}

theorem collectStructLayouts_clean
    (clean : (collectLayouts options structs templates).diagnostics = []) :
    (collectStructLayouts options noDeclarations structs).diagnostics = [] := by
  have remains := collectViewTemplates_diagnostics options
    (collectStructLayouts options noDeclarations structs) templates
  rw [show (collectViewTemplates options _ templates).diagnostics = [] from clean] at remains
  exact List.prefix_nil.mp remains

theorem collectLayouts_isRecorded
    (clean : (collectLayouts options structs templates).diagnostics = []) :
    (collectLayouts options structs templates).IsRecorded :=
  collectViewTemplates_isRecorded clean
    (collectStructLayouts_isRecorded (collectStructLayouts_clean clean) fun _ listed => by
      cases listed)

/-- A layout with the names and lengths it is declared with, which is exact just when their sum
fits. -/
def IsExactIffSumFits (declared : List (String × Nat)) (recorded : Option StructInfo) : Prop :=
  ∃ info, recorded = some info ∧
    info.members.map (fun member => (member.name, member.byteLength)) = declared ∧
    (info.IsExact ↔ (declared.map Prod.snd).sum < 2 ^ 64)

theorem isExactIffSumFits {layout : TemplateLayout} {declared : List (String × Nat)}
    {recorded : Option StructInfo} (kept : layout.IsRecorded) (name : String)
    (found : recorded = some (layout.info name))
    (members : layout.members.map (fun member => (member.name, member.byteLength)) = declared) :
    IsExactIffSumFits declared recorded := by
  refine ⟨_, found, members, ?_⟩
  rw [(kept.info name).isExact_iff, ← members, List.map_map]
  rfl

/-- The lengths of a template's members are read where the templates in front of it are known. -/
theorem layouts_exact_iff (clean : (collectLayouts options structs templates).diagnostics = []) :
    (∀ decl ∈ structs, IsExactIffSumFits
        (decl.members.map fun member =>
          (member.name, Declarations.parseByteLength member.length))
        ((collectLayouts options structs templates).findStruct decl.name)) ∧
      ∀ before decl behind, templates = before ++ decl :: behind → IsExactIffSumFits
        (decl.members.map fun member =>
          (member.name, memberByteLength (collectLayouts options structs before) member))
        ((collectLayouts options structs templates).findTemplate decl.name) := by
  constructor
  · intro decl listed
    obtain ⟨laidOut, found⟩ := collectStructLayouts_find (collectStructLayouts_clean clean) listed
    refine isExactIffSumFits (layoutStruct_isRecorded decl) decl.name ?_ ?_
    · rw [← found]
      unfold Declarations.findStruct
      rw [collectLayouts, collectViewTemplates_structs clean]
    · exact foldl_members (fun layout next => (layoutStructMember_cases layout next).2) _ laidOut
  · rintro before decl behind rfl
    obtain ⟨laidOut, found⟩ := collectViewTemplates_find clean
    refine isExactIffSumFits (layoutTemplate_isRecorded _ decl) _ found ?_
    exact foldl_members (fun layout next => (layoutMember_cases layout next).2) _ laidOut

end

def pairTemplate : Ast.TemplateDecl where
  name := "Pair"
  members := [⟨"left", "8", ""⟩, ⟨"right", "8", ""⟩]

/-- Its second member would begin at the last byte that a 64-bit offset reaches. -/
def wideTemplate : Ast.TemplateDecl where
  name := "Wide"
  members := [⟨"first", "18446744073709551615", ""⟩, ⟨"second", "2", ""⟩]

theorem layouts_exact_of_pair :
    IsExactIffSumFits [("left", 8), ("right", 8)]
      ((collectLayouts userOptions [] [pairTemplate]).findTemplate "Pair") := by
  have clean : (collectLayouts userOptions [] [pairTemplate]).diagnostics = [] := by decide
  exact (layouts_exact_iff clean).2 [] pairTemplate [] rfl

theorem wide_layout_wraps :
    (collectLayouts userOptions [] [wideTemplate]).diagnostics = [] ∧
      ∃ info, (collectLayouts userOptions [] [wideTemplate]).findTemplate "Wide" = some info ∧
        info.byteLength = 1 ∧ ¬info.IsExact := by
  refine ⟨by decide, _, rfl, by decide, ?_⟩
  rintro ⟨exact, _, _, _⟩
  exact absurd exact (by decide)

end HitSimple.Sema

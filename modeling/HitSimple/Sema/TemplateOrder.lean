import HitSimple.Sema.Declarations
import Mathlib.Data.List.Nodup
import Mathlib.Logic.Relation

namespace HitSimple.Sema

section Layout

@[simp] theorem addDiagnostic_diagnostics (layout : TemplateLayout) (message : Diagnostic) :
    (layout.addDiagnostic message).diagnostics = layout.diagnostics ++ [message] := rfl

theorem layoutMember_diagnostics (declared : Declarations) (declName : String)
    (layout : TemplateLayout) (member : Ast.TemplateMember) :
    layout.diagnostics <+: (layoutMember declared declName layout member).diagnostics := by
  unfold layoutMember
  split
  · simp
  · split
    · simp
    · dsimp only
      split_ifs <;> simp

theorem layoutMembers_diagnostics (declared : Declarations) (declName : String)
    (members : List Ast.TemplateMember) (layout : TemplateLayout) :
    layout.diagnostics <+:
      (members.foldl (layoutMember declared declName) layout).diagnostics := by
  induction members generalizing layout with
  | nil => exact List.prefix_refl _
  | cons member members ih => exact (layoutMember_diagnostics _ _ _ _).trans (ih _)

/-- A member whose template is unknown is diagnosed, whatever else is wrong with it. -/
theorem layoutMember_resolved {declared : Declarations} {declName : String}
    {layout : TemplateLayout} {member : Ast.TemplateMember}
    (clean : (layoutMember declared declName layout member).diagnostics = [])
    (sized : isSizedTemplateName member.templateName = true) :
    declared.templateByteLength member.templateName ≠ none := by
  intro unknown
  unfold layoutMember at clean
  split at clean
  · simp at clean
  · split at clean
    · simp at clean
    · simp [sized, unknown] at clean
      split at clean <;> simp at clean

theorem layoutTemplate_resolved {declared : Declarations} {decl : Ast.TemplateDecl}
    (clean : (layoutTemplate declared decl).diagnostics = []) {member : Ast.TemplateMember}
    (inside : member ∈ decl.members) (sized : isSizedTemplateName member.templateName = true) :
    declared.templateByteLength member.templateName ≠ none := by
  obtain ⟨before, after, split⟩ := List.append_of_mem inside
  rw [layoutTemplate, split, List.foldl_append, List.foldl_cons] at clean
  have remains := layoutMembers_diagnostics declared decl.name after
    (layoutMember declared decl.name (before.foldl (layoutMember declared decl.name) emptyLayout)
      member)
  rw [clean] at remains
  exact layoutMember_resolved (List.prefix_nil.mp remains) sized

/-- The names that only a declaration of the unit can give a length. -/
def IsUserTemplateName (name : String) : Prop :=
  isSizedTemplateName name = true ∧ standardTemplateByteLength name = none

theorem isSizedTemplateName_false {name : String} (unsized : isSizedTemplateName name = false) :
    name = "" ∨ name = "none" ∨ isVariableLengthStandardTemplate name = true := by
  simp [isSizedTemplateName] at unsized
  grind

theorem templateByteLength_congr {left right : Declarations}
    (structs : left.structs = right.structs) {name : String} (agree : IsUserTemplateName name → left.findTemplate name =
      right.findTemplate name) :
    left.templateByteLength name = right.templateByteLength name := by
  unfold Declarations.templateByteLength Declarations.findStruct
  rw [structs]
  by_cases sized : isSizedTemplateName name = true
  · cases standard : standardTemplateByteLength name with
    | some byteLength => rfl
    | none => rw [agree ⟨sized, standard⟩]
  · have unsized := isSizedTemplateName_false (Bool.eq_false_iff.mpr sized)
    rw [if_pos unsized, if_pos unsized]

theorem hasFixedByteLength_congr {left right : Declarations} {name : String}
    (sized : isSizedTemplateName name = true)
    (agree : IsUserTemplateName name → left.findTemplate name = right.findTemplate name) :
    hasFixedByteLength left name = hasFixedByteLength right name := by
  unfold hasFixedByteLength
  cases standard : standardTemplateByteLength name with
  | some byteLength => rfl
  | none => rw [agree ⟨sized, standard⟩]

theorem layoutMember_congr {left right : Declarations} (structs : left.structs = right.structs)
    (declName : String) (layout : TemplateLayout) {member : Ast.TemplateMember}
    (agree : IsUserTemplateName member.templateName →
      left.findTemplate member.templateName = right.findTemplate member.templateName) :
    layoutMember left declName layout member = layoutMember right declName layout member := by
  have lengths := templateByteLength_congr structs agree
  unfold layoutMember memberByteLength
  rw [lengths]
  by_cases sized : isSizedTemplateName member.templateName = true
  · rw [hasFixedByteLength_congr sized agree]
  · simp [sized]

theorem layoutTemplate_congr {left right : Declarations} (structs : left.structs = right.structs)
    {decl : Ast.TemplateDecl}
    (agree : ∀ member ∈ decl.members, IsUserTemplateName member.templateName →
      left.findTemplate member.templateName = right.findTemplate member.templateName) :
    layoutTemplate left decl = layoutTemplate right decl := by
  unfold layoutTemplate
  generalize emptyLayout = layout
  revert agree layout
  induction decl.members with
  | nil =>
    intro agree layout
    rfl
  | cons member members ih =>
    intro agree layout
    rw [List.foldl_cons, List.foldl_cons,
      layoutMember_congr structs _ _ (agree member List.mem_cons_self)]
    exact ih (fun other inside => agree other (List.mem_cons_of_mem _ inside)) _

end Layout

section Acceptance
variable {options : ModuleOptions} {declared : Declarations} {decl : Ast.TemplateDecl}
  {order : List Ast.TemplateDecl}

/-- A declaration that is collected without a diagnostic. -/
structure IsCollected (options : ModuleOptions) (declared : Declarations) (decl : Ast.TemplateDecl) :
    Prop where
  unreserved : isReservedIdentifier decl.name = false
  nonstandard : (!options.internalStandardModule &&
    options.isStandardLibraryImplementationSymbol decl.name) = false
  unregistered : decl.name ∉ declared.topLevelNames
  undeclared : declared.findTemplate decl.name = none
  structless : declared.findStruct decl.name = none
  laidOut : (layoutTemplate declared decl).diagnostics = []

theorem collectViewTemplate_of_isCollected (taken : IsCollected options declared decl) :
    collectViewTemplate options declared decl =
      { declared with
        topLevelNames := declared.topLevelNames ++ [decl.name]
        templates := declared.templates ++ [(layoutTemplate declared decl).info decl.name] } := by
  have sameLayout :
      layoutTemplate { declared with topLevelNames := declared.topLevelNames ++ [decl.name] } decl =
        layoutTemplate declared decl :=
    layoutTemplate_congr rfl fun _ _ _ => rfl
  have undeclared := taken.undeclared
  have structless := taken.structless
  simp only [Declarations.findTemplate, Declarations.findStruct] at undeclared structless
  simp [collectViewTemplate, Declarations.registerTopLevelName, Declarations.findTemplate,
    Declarations.findStruct, taken.unreserved, taken.nonstandard, taken.unregistered,
    undeclared, structless, sameLayout, taken.laidOut]

/-- Registering a name diagnoses it unless the name is free. -/
theorem registerTopLevelName_cases (options : ModuleOptions) (declared : Declarations)
    (name : String) :
    (∃ message, declared.registerTopLevelName options name =
        (declared.addDiagnostic message, false)) ∨
      (!options.internalStandardModule &&
          options.isStandardLibraryImplementationSymbol name) = false ∧
        name ∉ declared.topLevelNames ∧ declared.registerTopLevelName options name =
          ({ declared with topLevelNames := declared.topLevelNames ++ [name] }, true) := by
  unfold Declarations.registerTopLevelName
  split
  · exact .inl ⟨_, rfl⟩
  · rename_i nonstandard
    split
    · exact .inl ⟨_, rfl⟩
    · rename_i unregistered
      exact .inr ⟨Bool.eq_false_iff.mpr nonstandard, unregistered, rfl⟩

theorem isCollected_of_clean (clean : (collectViewTemplate options declared decl).diagnostics = []) :
    declared.diagnostics = [] ∧ IsCollected options declared decl := by
  unfold collectViewTemplate at clean
  split at clean
  · simp [Declarations.addDiagnostic] at clean
  · rename_i unreserved
    rcases registerTopLevelName_cases options declared decl.name with
      ⟨message, taken⟩ | ⟨nonstandard, unregistered, free⟩
    · simp [taken, Declarations.addDiagnostic] at clean
    · rw [free] at clean
      dsimp only at clean
      split at clean
      · simp [Declarations.addDiagnostic] at clean
      · rename_i new
        rw [Bool.or_eq_true, not_or, Option.not_isSome_iff_eq_none,
          Option.not_isSome_iff_eq_none] at new
        obtain ⟨earlier, laidOut⟩ := List.append_eq_nil_iff.mp clean
        exact ⟨earlier, Bool.eq_false_iff.mpr unreserved, nonstandard, unregistered, new.1, new.2,
          laidOut⟩

theorem collectViewTemplate_diagnostics (options : ModuleOptions) (declared : Declarations)
    (decl : Ast.TemplateDecl) :
    declared.diagnostics <+: (collectViewTemplate options declared decl).diagnostics := by
  unfold collectViewTemplate
  split
  · simp [Declarations.addDiagnostic]
  · rcases registerTopLevelName_cases options declared decl.name with
      ⟨message, taken⟩ | ⟨-, -, free⟩
    · simp [taken, Declarations.addDiagnostic]
    · rw [free]
      dsimp only
      split_ifs <;> simp [Declarations.addDiagnostic]

theorem collectViewTemplates_diagnostics (options : ModuleOptions) (declared : Declarations)
    (order : List Ast.TemplateDecl) :
    declared.diagnostics <+: (collectViewTemplates options declared order).diagnostics := by
  induction order generalizing declared with
  | nil => exact List.prefix_refl _
  | cons decl order ih => exact (collectViewTemplate_diagnostics _ _ _).trans (ih _)

theorem collectViewTemplates_cons (clean :
      (collectViewTemplates options declared (decl :: order)).diagnostics = []) :
    IsCollected options declared decl ∧
      (collectViewTemplates options
        (collectViewTemplate options declared decl) order).diagnostics = [] := by
  have first := collectViewTemplates_diagnostics options
    (collectViewTemplate options declared decl) order
  rw [show (collectViewTemplates options (collectViewTemplate options declared decl)
    order).diagnostics = [] from clean, List.prefix_nil] at first
  exact ⟨(isCollected_of_clean first).2, clean⟩

end Acceptance

section Order
variable {options : ModuleOptions} {declared : Declarations} {order : List Ast.TemplateDecl}

/-- A member of the template takes its length from the named one. -/
def Mentions (decl : Ast.TemplateDecl) (name : String) : Prop :=
  IsUserTemplateName name ∧ ∃ member ∈ decl.members, member.templateName = name

theorem findTemplate_of_append {name : String} {templates : List TemplateInfo}
    (absent : (declared.templates ++ templates).find? (·.name == name) = none) :
    declared.findTemplate name = none := by
  rw [List.find?_append, Option.or_eq_none_iff] at absent
  exact absent.1

/-- Templates collected together have names that were free before. -/
theorem undeclared_of_clean
    (clean : (collectViewTemplates options declared order).diagnostics = []) :
    ∀ decl ∈ order, decl.name ∉ declared.topLevelNames ∧
      declared.findTemplate decl.name = none ∧ declared.findStruct decl.name = none := by
  induction order generalizing declared with
  | nil =>
    intro decl member
    cases member
  | cons first order ih =>
    obtain ⟨taken, rest⟩ := collectViewTemplates_cons clean
    intro decl member
    cases member with
    | head => exact ⟨taken.unregistered, taken.undeclared, taken.structless⟩
    | tail _ member =>
      rw [collectViewTemplate_of_isCollected taken] at rest
      obtain ⟨unregistered, undeclared, structless⟩ := ih rest decl member
      exact ⟨fun registered => unregistered (List.mem_append_left _ registered),
        findTemplate_of_append undeclared, structless⟩

theorem not_mentions_of_isCollected {decl : Ast.TemplateDecl} (taken : IsCollected options declared decl)
    {name : String} (undeclared : declared.findTemplate name = none)
    (structless : declared.findStruct name = none) : ¬Mentions decl name := by
  rintro ⟨⟨sized, nonstandard⟩, member, inside, rfl⟩
  apply layoutTemplate_resolved taken.laidOut inside sized
  simp [Declarations.templateByteLength, nonstandard, undeclared, structless]

/-- Without a diagnostic every template is mentioned only after its declaration. -/
theorem pairwise_of_clean
    (clean : (collectViewTemplates options declared order).diagnostics = []) :
    (∀ decl ∈ order, ¬Mentions decl decl.name) ∧
      order.Pairwise fun earlier later =>
        earlier.name ≠ later.name ∧ ¬Mentions earlier later.name := by
  induction order generalizing declared with
  | nil => simp
  | cons first order ih =>
    obtain ⟨taken, rest⟩ := collectViewTemplates_cons clean
    obtain ⟨selfless, pairwise⟩ := ih rest
    rw [List.forall_mem_cons, List.pairwise_cons]
    refine ⟨⟨not_mentions_of_isCollected taken taken.undeclared taken.structless, selfless⟩,
      fun later member => ?_, pairwise⟩
    obtain ⟨-, undeclared, structless⟩ :=
      undeclared_of_clean clean later (List.mem_cons_of_mem _ member)
    rw [collectViewTemplate_of_isCollected taken] at rest
    have unregistered := (undeclared_of_clean rest later member).1
    refine ⟨fun same => unregistered ?_, not_mentions_of_isCollected taken undeclared structless⟩
    simp [same]

/-- The size of the first template depends on the second, both being templates of the unit. -/
def Uses (decls : List Ast.TemplateDecl) (user used : String) : Prop :=
  used ∈ decls.map (·.name) ∧ ∃ decl ∈ decls, decl.name = user ∧ Mentions decl used

def IsAcyclic (decls : List Ast.TemplateDecl) : Prop :=
  ∀ name, ¬Relation.TransGen (Uses decls) name name

theorem uses_congr {left right : List Ast.TemplateDecl} (same : left.Perm right) :
    Uses left = Uses right := by
  funext user used
  simp only [Uses, same.mem_iff, (same.map _).mem_iff]

/-- In the order of the declarations each use goes back. -/
theorem idxOf_lt_of_uses
    (clean : (collectViewTemplates options declared order).diagnostics = []) {user used : String}
    (uses : Uses order user used) :
    (order.map (·.name)).idxOf used < (order.map (·.name)).idxOf user := by
  obtain ⟨selfless, pairwise⟩ := pairwise_of_clean clean
  have distinct : (order.map (·.name)).Nodup :=
    List.pairwise_map.mpr (pairwise.imp fun apart => apart.1)
  obtain ⟨present, decl, member, rfl, mentions⟩ := uses
  obtain ⟨later, member', rfl⟩ := List.mem_map.mp present
  obtain ⟨i, below, rfl⟩ := List.getElem_of_mem member
  obtain ⟨j, below', rfl⟩ := List.getElem_of_mem member'
  have position (k : Nat) (bound : k < order.length) :
      (order.map (·.name)).idxOf order[k].name = k := by
    have located := distinct.idxOf_getElem k (by simpa using bound)
    simpa using located
  rw [position i below, position j below']
  by_contra ahead
  rcases Nat.lt_or_eq_of_le (Nat.le_of_not_lt ahead) with before | same
  · exact (List.pairwise_iff_getElem.mp pairwise i j below below' before).2 mentions
  · subst same
    exact selfless _ (List.getElem_mem below) mentions

theorem isAcyclic_of_clean
    (clean : (collectViewTemplates options declared order).diagnostics = []) :
    IsAcyclic order := by
  have descends {first last : String} (path : Relation.TransGen (Uses order) first last) :
      (order.map (·.name)).idxOf last < (order.map (·.name)).idxOf first := by
    induction path with
    | single uses => exact idxOf_lt_of_uses clean uses
    | tail _ uses ih => exact (idxOf_lt_of_uses clean uses).trans ih
  intro name cycle
  exact absurd (descends cycle) (lt_irrefl _)

end Order

section OrderFreedom
variable {options : ModuleOptions} {structs : List StructInfo} {topLevelNames : List String}
  {decls : List Ast.TemplateDecl}

/-- What is declared before the templates of a unit are collected. -/
def precedingDeclarations (structs : List StructInfo) (topLevelNames : List String) :
    Declarations where
  structs := structs
  templates := []
  topLevelNames := topLevelNames
  diagnostics := []

/-- The templates of the unit have new and distinct names, each can be laid out once the layouts
of all are known, and no size depends on itself. -/
structure IsAdmissibleUnit (options : ModuleOptions) (structs : List StructInfo)
    (topLevelNames : List String) (decls : List Ast.TemplateDecl) : Prop where
  distinct : (decls.map (·.name)).Nodup
  unreserved : ∀ decl ∈ decls, isReservedIdentifier decl.name = false
  nonstandard : ∀ decl ∈ decls, (!options.internalStandardModule &&
    options.isStandardLibraryImplementationSymbol decl.name) = false
  unregistered : ∀ decl ∈ decls, decl.name ∉ topLevelNames
  structless : ∀ decl ∈ decls,
    (precedingDeclarations structs topLevelNames).findStruct decl.name = none
  resolvable : ∃ layout : Ast.TemplateDecl → TemplateLayout, ∀ decl ∈ decls,
    layoutTemplate { precedingDeclarations structs topLevelNames with
      templates := decls.map fun decl => (layout decl).info decl.name } decl = layout decl ∧
    (layout decl).diagnostics = []
  acyclic : IsAcyclic decls

/-- Admissible templates get the same layouts in every order, and cyclic ones a diagnostic. -/
def IsOrderFree (options : ModuleOptions) (structs : List StructInfo)
    (topLevelNames : List String) (decls : List Ast.TemplateDecl) : Prop :=
  let collect := collectViewTemplates options (precedingDeclarations structs topLevelNames)
  (IsAdmissibleUnit options structs topLevelNames decls →
    ∀ left right : List Ast.TemplateDecl, left.Perm decls → right.Perm decls →
      (collect left).diagnostics = [] ∧ (collect right).diagnostics = [] ∧
        ∀ name, (collect left).findTemplate name = (collect right).findTemplate name) ∧
  (¬IsAcyclic decls → ∀ order : List Ast.TemplateDecl, order.Perm decls →
    (collect order).diagnostics ≠ [])

theorem find?_key_of_mem {α : Type} {key : α → String} {elements : List α}
    (distinct : (elements.map key).Nodup) {element : α} (member : element ∈ elements) :
    elements.find? (key · == key element) = some element := by
  induction elements with
  | nil => cases member
  | cons first elements ih =>
    obtain ⟨new, distinct⟩ := List.nodup_cons.mp distinct
    cases member with
    | head => simp
    | tail _ member =>
      have apart : key first ≠ key element := fun same =>
        new (same ▸ List.mem_map_of_mem member)
      rw [List.find?_cons_of_neg (by simpa using apart)]
      exact ih distinct member

theorem find?_key_perm {α : Type} {key : α → String} {left right : List α}
    (same : left.Perm right) (distinct : (left.map key).Nodup) (name : String) :
    left.find? (key · == name) = right.find? (key · == name) := by
  by_cases present : ∃ element ∈ left, key element = name
  · obtain ⟨element, member, rfl⟩ := present
    rw [find?_key_of_mem distinct member,
      find?_key_of_mem ((same.map key).nodup distinct) (same.mem_iff.mp member)]
  · have absent (elements : List α) (subset : ∀ element ∈ elements, element ∈ left) :
        elements.find? (key · == name) = none := by
      rw [List.find?_eq_none]
      intro element member
      simpa using fun found => present ⟨element, subset element member, found⟩
    rw [absent left fun _ member => member, absent right fun _ member => same.mem_iff.mpr member]

theorem findTemplate_of_notMem {declared : Declarations} {name : String}
    (absent : name ∉ declared.templates.map (·.name)) : declared.findTemplate name = none := by
  rw [Declarations.findTemplate, List.find?_eq_none]
  intro info member
  have apart : info.name ≠ name := fun same => absent (same ▸ List.mem_map_of_mem member)
  simpa using apart

/-- The layouts of a unit none of whose templates uses another. -/
theorem collectViewTemplates_independent
    (admissible : IsAdmissibleUnit options structs topLevelNames decls)
    (independent : ∀ user used, ¬Uses decls user used) :
    ∃ layout : Ast.TemplateDecl → TemplateInfo, (∀ decl, (layout decl).name = decl.name) ∧
      ∀ order : List Ast.TemplateDecl, order.Perm decls →
        collectViewTemplates options (precedingDeclarations structs topLevelNames) order =
          { structs, topLevelNames := topLevelNames ++ order.map (·.name)
            templates := order.map layout, diagnostics := [] } := by
  obtain ⟨layout, resolved⟩ := admissible.resolvable
  let info (decl : Ast.TemplateDecl) : TemplateInfo := (layout decl).info decl.name
  let after (done : List Ast.TemplateDecl) : Declarations :=
    { structs, topLevelNames := topLevelNames ++ done.map (·.name)
      templates := done.map info, diagnostics := [] }
  have run (pending done : List Ast.TemplateDecl) (all : (done ++ pending).Perm decls) :
      collectViewTemplates options (after done) pending = after (done ++ pending) := by
    induction pending generalizing done with
    | nil => simp [collectViewTemplates]
    | cons decl pending ih =>
      have member : decl ∈ decls := all.mem_iff.mp (by simp)
      have distinct : ((done ++ decl :: pending).map (·.name)).Nodup :=
        ((all.map _).nodup_iff).mpr admissible.distinct
      have new : decl.name ∉ done.map (·.name) := by
        intro earlier
        rw [List.map_append, List.map_cons, List.nodup_append] at distinct
        exact distinct.2.2 _ earlier _ List.mem_cons_self rfl
      have laidOut : layoutTemplate (after done) decl = layout decl := by
        rw [← (resolved decl member).1]
        apply layoutTemplate_congr
        · rfl
        intro item inside userName
        have foreign : item.templateName ∉ decls.map (·.name) := fun present =>
          independent decl.name item.templateName
            ⟨present, decl, member, rfl, userName, item, inside, rfl⟩
        rw [findTemplate_of_notMem, findTemplate_of_notMem]
        · simpa [TemplateLayout.info] using foreign
        · intro earlier
          apply foreign
          obtain ⟨other, inside', same⟩ := List.mem_map.mp earlier
          obtain ⟨source, inside'', rfl⟩ := List.mem_map.mp inside'
          rw [← same]
          exact List.mem_map_of_mem (all.mem_iff.mp (List.mem_append_left _ inside''))
      have taken : IsCollected options (after done) decl := by
        constructor
        · exact admissible.unreserved decl member
        · exact admissible.nonstandard decl member
        · rw [List.mem_append, not_or]
          exact ⟨admissible.unregistered decl member, new⟩
        · apply findTemplate_of_notMem
          simpa [after, info, TemplateLayout.info] using new
        · exact admissible.structless decl member
        · rw [laidOut]
          exact (resolved decl member).2
      have step : collectViewTemplate options (after done) decl = after (done ++ [decl]) := by
        rw [collectViewTemplate_of_isCollected taken, laidOut]
        simp [after, info]
      calc collectViewTemplates options (after done) (decl :: pending)
          = collectViewTemplates options (after (done ++ [decl])) pending := by
            rw [← step]
            rfl
        _ = after (done ++ decl :: pending) := by
            rw [ih (done ++ [decl]) (by simpa using all), List.append_assoc, List.singleton_append]
  refine ⟨info, fun decl => rfl, fun order all => ?_⟩
  have whole := run order [] (by simpa using all)
  simpa [after, precedingDeclarations] using whole

/-- A template that uses another is diagnosed when it is declared first. -/
theorem diagnostics_of_uses (options : ModuleOptions) (declared : Declarations)
    {user used : String} (uses : Uses decls user used) :
    ∃ order : List Ast.TemplateDecl, order.Perm decls ∧
      (collectViewTemplates options declared order).diagnostics ≠ [] := by
  obtain ⟨present, decl, member, rfl, mentions⟩ := uses
  have reordered : (decl :: decls.erase decl).Perm decls := (List.perm_cons_erase member).symm
  refine ⟨decl :: decls.erase decl, reordered, fun clean => ?_⟩
  obtain ⟨selfless, pairwise⟩ := pairwise_of_clean clean
  obtain ⟨later, inside, rfl⟩ := List.mem_map.mp present
  cases reordered.mem_iff.mpr inside with
  | head => exact selfless decl List.mem_cons_self mentions
  | tail _ inside => exact ((List.pairwise_cons.mp pairwise).1 later inside).2 mentions

theorem collectViewTemplates_orderFree_iff (options : ModuleOptions) (structs : List StructInfo)
    (topLevelNames : List String) (decls : List Ast.TemplateDecl) :
    IsOrderFree options structs topLevelNames decls ↔
      (IsAdmissibleUnit options structs topLevelNames decls →
        ∀ user used, ¬Uses decls user used) := by
  constructor
  · rintro ⟨accepted, -⟩ admissible user used uses
    obtain ⟨order, reordered, diagnosed⟩ := diagnostics_of_uses options
      (precedingDeclarations structs topLevelNames) uses
    exact diagnosed (accepted admissible order order reordered reordered).1
  · intro independent
    constructor
    · intro admissible left right leftPerm rightPerm
      obtain ⟨layout, named, collected⟩ :=
        collectViewTemplates_independent admissible (independent admissible)
      rw [collected left leftPerm, collected right rightPerm]
      refine ⟨rfl, rfl, fun name => ?_⟩
      apply find?_key_perm ((leftPerm.trans rightPerm.symm).map layout)
      rw [List.map_map, show (·.name) ∘ layout = (·.name) from funext named]
      exact ((leftPerm.map _).nodup_iff).mpr admissible.distinct
    · intro cyclic order reordered clean
      apply cyclic
      have acyclic := isAcyclic_of_clean clean
      rwa [IsAcyclic, uses_congr reordered] at acyclic

def userOptions : ModuleOptions where
  isStandardLibraryImplementationSymbol := fun _ => false
  internalStandardModule := false

def innerTemplate : Ast.TemplateDecl where
  name := "Inner"
  members := [{ name := "value", length := "4", templateName := "i32" }]

def outerTemplate : Ast.TemplateDecl where
  name := "Outer"
  members := [{ name := "inner", length := "4", templateName := "Inner" }]

/-- A template declared before the template of its member is rejected. -/
theorem forwardReference_not_orderFree :
    ¬IsOrderFree userOptions [] [] [outerTemplate, innerTemplate] := by
  rintro ⟨accepted, -⟩
  have clean : (collectViewTemplates userOptions (precedingDeclarations [] [])
      [innerTemplate, outerTemplate]).diagnostics = [] := by decide
  have admissible : IsAdmissibleUnit userOptions [] [] [outerTemplate, innerTemplate] := by
    refine ⟨by decide, by decide, by decide, by decide, by decide,
      ⟨fun decl => layoutTemplate { precedingDeclarations [] [] with
        templates := [{
          name := "Inner", byteLength := 4
          members := [{ name := "value", byteLength := 4, offset := 0, templateName := "i32" }]
          }] } decl, by decide⟩, ?_⟩
    rw [IsAcyclic, uses_congr (List.Perm.swap innerTemplate outerTemplate [])]
    exact isAcyclic_of_clean clean
  have rejected : (collectViewTemplates userOptions (precedingDeclarations [] [])
      [outerTemplate, innerTemplate]).diagnostics ≠ [] := by decide
  exact rejected (accepted admissible _ _ (List.Perm.refl _) (List.Perm.refl _)).1

end OrderFreedom

end HitSimple.Sema

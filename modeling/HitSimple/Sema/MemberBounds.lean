import HitSimple.Sema.MemberAccess
import Mathlib.Data.Nat.ModEq

namespace HitSimple.Sema.Declarations

/-! ### Recorded layouts -/

theorem split_of_find {α : Type} {accepts : α → Bool} {elements : List α} {element : α}
    (found : elements.find? accepts = some element) :
    ∃ behind, elements = elements.takeWhile (!accepts ·) ++ element :: behind := by
  induction elements with
  | nil => cases found
  | cons first rest ih =>
      by_cases here : accepts first
      · rw [List.find?_cons_of_pos here] at found
        cases found
        exact ⟨rest, by simp [here]⟩
      · rw [List.find?_cons_of_neg here] at found
        obtain ⟨behind, split⟩ := ih found
        refine ⟨behind, ?_⟩
        rw [List.takeWhile_cons_of_pos (by simp [here]), List.cons_append, ← split]

theorem parseUnsignedDecimal_lt {text : List Char} {value : Nat}
    (parsed : parseUnsignedDecimal text = some value) : value < 2 ^ 64 := by
  unfold parseUnsignedDecimal at parsed
  dsimp only at parsed
  split at parsed
  next read =>
    cases parsed
    exact read.2.2
  next => cases parsed

theorem parseByteLength_lt (text : String) : parseByteLength text < 2 ^ 64 := by
  unfold parseByteLength
  split
  · decide
  cases parsed : parseUnsignedDecimal text.toList with
  | none => decide
  | some value => exact parseUnsignedDecimal_lt parsed

theorem standardTemplateByteLength_lt {name : String} {byteLength : Nat}
    (standard : standardTemplateByteLength name = some byteLength) : byteLength < 2 ^ 64 := by
  unfold standardTemplateByteLength at standard
  split at standard
  · cases standard
    decide
  split at standard
  · cases standard
    decide
  split at standard
  · cases standard
  split at standard
  · split at standard
    · cases standard
    next bits parsed =>
      split at standard
      · cases standard
      dsimp only at standard
      split at standard
      · cases standard
      · cases standard
        exact Nat.lt_of_le_of_lt (Nat.div_le_self _ _) (parseUnsignedDecimal_lt parsed)
  · cases standard

section
variable {declared : Declarations} {layout : StructInfo} {name : String}

theorem isRecorded_of_layoutFor (recorded : declared.IsRecorded)
    (found : declared.layoutFor name = some layout) : layout.IsRecorded := by
  refine recorded layout (List.mem_append.mpr ?_)
  rcases Option.or_eq_some_iff.mp found with inStructs | ⟨_, inTemplates⟩
  · exact .inl (List.mem_of_find?_eq_some inStructs)
  · exact .inr (List.mem_of_find?_eq_some inTemplates)

theorem byteLength_eq (recorded : layout.IsRecorded) :
    layout.byteLength = exactByteLength layout.members % 2 ^ 64 :=
  recorded.placed.total

theorem member_of_find (recorded : layout.IsRecorded) {member : StructMemberInfo}
    (found : layout.members.find? (·.name = name) = some member) :
    0 < member.byteLength ∧
      exactByteLength (layout.members.takeWhile (·.name ≠ name)) + member.byteLength ≤
        exactByteLength layout.members ∧
      member.offset = exactByteLength (layout.members.takeWhile (·.name ≠ name)) % 2 ^ 64 := by
  obtain ⟨behind, split⟩ := split_of_find found
  have same : layout.members.takeWhile (fun member => !decide (member.name = name)) =
      layout.members.takeWhile (·.name ≠ name) := by simp
  rw [same] at split
  refine ⟨recorded.positive _ (List.mem_of_find?_eq_some found), ?_,
    recorded.placed.offsets _ _ behind split⟩
  conv_rhs => rw [split]
  simp only [exactByteLength, Placement.span_append, Placement.span_cons]
  omega

/-- A resolved path is an exact one, but for the wrapping of its offset. -/
theorem resolvePath_exact (recorded : declared.IsRecorded) (kept : layout.IsRecorded)
    {accessed : String} {byteLength start offset : Nat} {member : StructMemberInfo}
    {path : List String}
    (resolved : declared.resolvePath accessed byteLength layout start path = .ok (offset, member)) :
    ∃ inner, declared.exactMember layout.members path = some (inner, member.byteLength) ∧
      offset ≡ start + inner [MOD 2 ^ 64] ∧ 0 < exactByteLength layout.members ∧
      (offset + member.byteLength) % 2 ^ 64 ≤ byteLength ∧ 0 < member.byteLength := by
  induction path generalizing layout start with
  | nil => cases resolved
  | cons name rest ih =>
      unfold resolvePath at resolved
      split at resolved
      · cases resolved
      next here found =>
        obtain ⟨positive, inside, place⟩ := member_of_find kept found
        have moved : (start + here.offset) % 2 ^ 64 ≡
            start + exactByteLength (layout.members.takeWhile (·.name ≠ name)) [MOD 2 ^ 64] := by
          rw [place]
          exact (Nat.mod_modEq _ _).trans ((Nat.ModEq.refl start).add (Nat.mod_modEq _ _))
        cases rest with
        | nil =>
            dsimp only at resolved
            split at resolved
            · cases resolved
            next bound =>
              cases resolved
              refine ⟨_, ?_, moved, by omega, Nat.le_of_not_lt bound, positive⟩
              rw [exactMember, found]
        | cons next rest =>
            dsimp only at resolved
            split at resolved
            · cases resolved
            split at resolved
            · cases resolved
            next nested =>
              obtain ⟨inner, exact, congruent, _, bound, filled⟩ :=
                ih (isRecorded_of_layoutFor recorded nested) resolved
              refine ⟨exactByteLength (layout.members.takeWhile (·.name ≠ name)) + inner, ?_, ?_,
                by omega, bound, filled⟩
              · rw [exactMember, found]
                dsimp only
                rw [nested]
                dsimp only
                rw [exact]
                rfl
              · rw [← Nat.add_assoc]
                exact congruent.trans (moved.add_right inner)

/-! ### Declared objects -/

/-- The recorded size of a template is its exact size, wrapped around. -/
theorem templateByteLength_eq (recorded : declared.IsRecorded) :
    declared.templateByteLength name =
      (declared.exactTemplateByteLength name).map (· % 2 ^ 64) := by
  unfold templateByteLength exactTemplateByteLength
  split
  next unsized =>
    have isSized : ¬isSizedTemplateName name = true := by
      rcases unsized with rfl | rfl | variableLength
      · decide
      · decide
      · simp [isSizedTemplateName, variableLength]
    rw [if_pos isSized]
    rfl
  next named =>
    have isSized : isSizedTemplateName name = true := by
      simp only [not_or, Bool.not_eq_true] at named
      simp [isSizedTemplateName, named]
    rw [if_neg (not_not.mpr isSized)]
    cases standard : standardTemplateByteLength name with
    | some byteLength =>
        exact congrArg some (Nat.mod_eq_of_lt (standardTemplateByteLength_lt standard)).symm
    | none =>
        dsimp only
        rw [Option.none_or, Option.map_map]
        cases inStructs : declared.findStruct name with
        | some info =>
            have found : declared.layoutFor name = some info := by
              rw [layoutFor, inStructs, Option.some_or]
            rw [found]
            exact congrArg some (byteLength_eq (isRecorded_of_layoutFor recorded found))
        | none =>
            dsimp only
            rw [layoutFor, inStructs, Option.none_or]
            cases inTemplates : declared.findTemplate name with
            | none => rfl
            | some info =>
                have found : declared.layoutFor name = some info := by
                  rw [layoutFor, inStructs, Option.none_or, inTemplates]
                exact congrArg some (byteLength_eq (isRecorded_of_layoutFor recorded found))

theorem exactTemplateByteLength_of_user (user : IsUserTemplateName name)
    (found : declared.layoutFor name = some layout) :
    declared.exactTemplateByteLength name = some (exactByteLength layout.members) := by
  rw [exactTemplateByteLength, if_neg (not_not.mpr user.1), user.2, found]
  rfl

variable {symbol : Symbol} {extent : Extent}

/-- What is known of every object: its recorded length is the declared one where that fits. -/
structure Fits (symbol : Symbol) (extent : Extent) : Prop where
  bound : symbol.byteLength < 2 ^ 64
  instances : 0 < extent.instances
  exact : extent.byteLength < 2 ^ 64 → symbol.byteLength = extent.byteLength

theorem instances_pos {byteLength size : Nat} (positive : 0 < byteLength) :
    0 < if size = 0 then 1 else (byteLength + size - 1) / size := by
  split
  · exact Nat.one_pos
  · exact Nat.div_pos (by omega) (by omega)

/-- An explicit length is either a count of instances or its own byte length. -/
theorem parseDeclaredLength_cases {length templateName : String} {byteLength : Nat}
    (parsed : declared.parseDeclaredLength length templateName = .ok byteLength) :
    (∃ digits size count, length.toList = 's' :: digits ∧
        declared.templateByteLength templateName = some size ∧
        parseUnsignedDecimal digits = some count ∧ count ≠ 0 ∧
        byteLength = size * count % 2 ^ 64) ∨
      ((∀ digits, length.toList ≠ 's' :: digits) ∧ byteLength < 2 ^ 64 ∧
        (isSizedTemplateName templateName = true → hasFixedByteLength declared templateName = true →
          declared.templateByteLength templateName = some byteLength)) := by
  unfold parseDeclaredLength at parsed
  split at parsed
  next digits counted =>
    split at parsed
    · cases parsed
    split at parsed
    · cases parsed
    next size sized =>
      split at parsed
      · cases parsed
      · cases parsed
      next count nonzero read =>
        cases parsed
        exact .inl ⟨digits, size, count, counted, sized, read, by simpa using nonzero, rfl⟩
  next explicit =>
    dsimp only at parsed
    split at parsed
    · cases parsed
    split at parsed
    · cases parsed
    split at parsed
    · cases parsed
    next matches_ =>
      cases parsed
      refine .inr ⟨explicit, parseByteLength_lt length, fun isSized fixed => ?_⟩
      by_contra other
      exact matches_ ⟨isSized, fixed, other⟩

theorem declaredExtent_of_explicit {length templateName : String} {byteLength : Nat}
    (given : length ≠ "") (explicit : ∀ digits, length.toList ≠ 's' :: digits) :
    declared.declaredExtent length templateName byteLength =
      ⟨byteLength, if (declared.exactTemplateByteLength templateName).getD 0 = 0 then 1
        else (byteLength + (declared.exactTemplateByteLength templateName).getD 0 - 1) /
          (declared.exactTemplateByteLength templateName).getD 0⟩ := by
  unfold declaredExtent
  dsimp only
  split
  next empty => exact absurd (String.toList_eq_nil_iff.mp empty) given
  next digits counted => exact absurd counted (explicit digits)
  next => rfl

theorem declaredExtent_of_counted {length templateName : String} {byteLength count : Nat}
    {digits : List Char} (counted : length.toList = 's' :: digits)
    (read : parseUnsignedDecimal digits = some count) :
    declared.declaredExtent length templateName byteLength =
      ⟨count * (declared.exactTemplateByteLength templateName).getD 0, count⟩ := by
  unfold declaredExtent
  rw [counted]
  change Extent.mk ((parseUnsignedDecimal digits).getD 0 * _) _ = _
  rw [read]
  rfl

theorem declaredExtent_of_omitted {templateName : String} {byteLength : Nat} :
    declared.declaredExtent "" templateName byteLength =
      if (declared.exactTemplateByteLength templateName).getD 0 = 0 then ⟨byteLength, 1⟩
      else ⟨(declared.exactTemplateByteLength templateName).getD 0, 1⟩ := rfl

section
variable {length templateName : String} {initializer : Option Nat} {byteLength : Nat}

/-- The three ways a declaration gets its length. -/
theorem declaredByteLength_cases (recorded : declared.IsRecorded)
    (sized : declared.declaredByteLength length templateName initializer = some byteLength) :
    (∃ digits size count, length.toList = 's' :: digits ∧
        declared.exactTemplateByteLength templateName = some size ∧
        parseUnsignedDecimal digits = some count ∧ 0 < count ∧
        byteLength = count * size % 2 ^ 64) ∨
      (length ≠ "" ∧ (∀ digits, length.toList ≠ 's' :: digits) ∧ byteLength < 2 ^ 64 ∧
        0 < byteLength ∧
        (isSizedTemplateName templateName = true → hasFixedByteLength declared templateName = true →
          declared.templateByteLength templateName = some byteLength)) ∨
      (length = "" ∧
        (((declared.exactTemplateByteLength templateName).getD 0 % 2 ^ 64 = 0 ∧
          initializer = some byteLength) ∨
        (0 < byteLength ∧
          byteLength = (declared.exactTemplateByteLength templateName).getD 0 % 2 ^ 64))) := by
  unfold declaredByteLength at sized
  split at sized
  next given =>
    split at sized
    · cases sized
    · cases sized
    next found nonzero parsed =>
      cases sized
      rcases parseDeclaredLength_cases parsed with
        ⟨digits, size, count, counted, found, read, filled, rfl⟩ | ⟨explicit, bound, fixed⟩
      · rw [templateByteLength_eq recorded, Option.map_eq_some_iff] at found
        obtain ⟨exact, exactly, rfl⟩ := found
        refine .inl ⟨digits, exact, count, counted, exactly, read, Nat.pos_of_ne_zero filled, ?_⟩
        rw [Nat.mod_mul_mod, Nat.mul_comm]
      · refine .inr (.inl ⟨given, explicit, bound, Nat.pos_of_ne_zero ?_, fixed⟩)
        exact fun zero => nonzero zero
  next omitted =>
    have modular : (declared.templateByteLength templateName).getD 0 =
        (declared.exactTemplateByteLength templateName).getD 0 % 2 ^ 64 := by
      rw [templateByteLength_eq recorded]
      cases declared.exactTemplateByteLength templateName <;> rfl
    rw [modular] at sized
    refine .inr (.inr ⟨not_not.mp omitted, ?_⟩)
    split at sized
    next zero =>
      rw [Option.filter_eq_some_iff] at sized
      exact .inl ⟨zero, sized.1⟩
    next nonzero =>
      cases sized
      exact .inr ⟨Nat.pos_of_ne_zero nonzero, rfl⟩

theorem fits_of_declared (recorded : declared.IsRecorded) {objectName : String}
    {binding : Hir.Binding}
    (small : ∀ inferred, initializer = some inferred → inferred < 2 ^ 64)
    (sized : declared.declaredByteLength length templateName initializer = some byteLength) :
    Fits ⟨objectName, binding, byteLength, templateName⟩
      (declared.declaredExtent length templateName byteLength) := by
  rcases declaredByteLength_cases recorded sized with
    ⟨digits, size, count, counted, found, read, filled, rfl⟩ |
    ⟨given, explicit, bound, positive, _⟩ | ⟨rfl, ⟨zero, inferred⟩ | ⟨positive, rfl⟩⟩
  · rw [declaredExtent_of_counted counted read, found]
    exact ⟨Nat.mod_lt _ (by decide), filled, fun fits => Nat.mod_eq_of_lt fits⟩
  · rw [declaredExtent_of_explicit given explicit]
    exact ⟨bound, instances_pos positive, fun _ => rfl⟩
  · rw [declaredExtent_of_omitted]
    split
    · exact ⟨small _ inferred, Nat.one_pos, fun _ => rfl⟩
    next large =>
      refine ⟨small _ inferred, Nat.one_pos, fun fits => absurd ?_ large⟩
      rwa [Nat.mod_eq_of_lt fits] at zero
  · rw [declaredExtent_of_omitted, if_neg (by omega)]
    exact ⟨Nat.mod_lt _ (by decide), Nat.one_pos, fun fits => Nat.mod_eq_of_lt fits⟩

end

theorem IsDeclared.fits (recorded : declared.IsRecorded)
    (object : declared.IsDeclared symbol extent) : Fits symbol extent := by
  induction object with
  | declared objectName binding length templateName initializer byteLength small sized =>
      exact fits_of_declared recorded small sized
  | set symbol extent templateName object same ih => exact ⟨ih.bound, ih.instances, ih.exact⟩
  | reset symbol extent templateName object plain ih => exact ⟨ih.bound, ih.instances, ih.exact⟩

/-- A template with the object's recorded length has one instance in it. -/
theorem index_eq_zero {templateName : String} {byteLength index : Nat}
    (recorded : declared.IsRecorded) (user : IsUserTemplateName templateName)
    (found : declared.layoutFor templateName = some layout)
    (same : declared.templateByteLength templateName = some byteLength)
    (inside : index * exactByteLength layout.members < byteLength) : index = 0 := by
  rw [templateByteLength_eq recorded, exactTemplateByteLength_of_user user found] at same
  have wrapped : exactByteLength layout.members % 2 ^ 64 = byteLength := Option.some_inj.mp same
  have small := Nat.mod_le (exactByteLength layout.members) (2 ^ 64)
  by_contra positive
  have grows := Nat.le_mul_of_pos_left (exactByteLength layout.members)
    (Nat.pos_of_ne_zero positive)
  omega

theorem index_lt_of_declared (recorded : declared.IsRecorded) {length templateName : String}
    {initializer : Option Nat} {byteLength index : Nat}
    (sized : declared.declaredByteLength length templateName initializer = some byteLength)
    (user : IsUserTemplateName templateName)
    (found : declared.layoutFor templateName = some layout)
    (filled : 0 < exactByteLength layout.members)
    (inside : index * exactByteLength layout.members <
      (declared.declaredExtent length templateName byteLength).byteLength) :
    index < (declared.declaredExtent length templateName byteLength).instances := by
  have exactly := exactTemplateByteLength_of_user user found
  rcases declaredByteLength_cases recorded sized with
    ⟨digits, size, count, counted, _, read, _, rfl⟩ | ⟨given, explicit, _⟩ | ⟨rfl, _⟩
  · rw [declaredExtent_of_counted counted read, exactly] at inside ⊢
    exact Nat.lt_of_mul_lt_mul_right inside
  · rw [declaredExtent_of_explicit given explicit, exactly] at inside ⊢
    simp only [Option.getD_some] at inside ⊢
    rw [if_neg (by omega)]
    refine (Nat.le_div_iff_mul_le filled).mpr ?_
    rw [Nat.succ_mul]
    omega
  · rw [declaredExtent_of_omitted, exactly, Option.getD_some, if_neg (by omega)] at inside ⊢
    dsimp only at inside ⊢
    by_contra positive
    have grows := Nat.le_mul_of_pos_left (exactByteLength layout.members)
      (Nat.lt_of_lt_of_le Nat.one_pos (Nat.le_of_not_lt positive))
    omega

theorem IsDeclared.index_lt (recorded : declared.IsRecorded)
    (object : declared.IsDeclared symbol extent) (user : IsUserTemplateName symbol.templateName)
    (found : declared.layoutFor symbol.templateName = some layout)
    (filled : 0 < exactByteLength layout.members) (fits : extent.byteLength < 2 ^ 64) {index : Nat}
    (inside : index * exactByteLength layout.members < extent.byteLength) :
    index < extent.instances := by
  cases object with
  | declared objectName binding length templateName initializer byteLength small sized =>
      exact index_lt_of_declared recorded sized user found filled inside
  | set symbol extent templateName object same =>
      have fitting := object.fits recorded
      rw [← fitting.exact fits] at inside
      rw [index_eq_zero recorded user found same inside]
      exact fitting.instances
  | reset symbol extent templateName object plain =>
      rw [plain] at found
      cases found

/-! ### Member accesses -/

section
variable {objects : Objects} {expr : Ast.Reference} {access : Access} {reference : MemoryReference}

/-- The object has its declared length, and the access is to one of its instances and to bytes
inside it. -/
structure Access.Inside (access : Access) (symbol : Symbol) (extent : Extent) (size offset : Nat)
    (length : Nat) : Prop where
  declared : symbol.byteLength = extent.byteLength
  instance_ : access.instanceIndex < extent.instances
  bytes : access.instanceIndex * size + offset + length ≤ extent.byteLength

theorem resolveMemoryReference_cases (parsed : accessOf expr = .ok access)
    (looked : objects.lookup access.objectName = some symbol)
    (accepted : declared.resolveMemoryReference objects expr = .ok reference) :
    ∃ layoutName layout member,
      declared.layoutTemplateName symbol access.baseViewTemplate = .ok layoutName ∧
      declared.layoutFor layoutName = some layout ∧
      declared.resolvePath (access.objectName ++ "." ++ access.memberPath.getLastD "")
        symbol.byteLength layout (access.instanceIndex * layout.byteLength % 2 ^ 64)
        access.memberPath = .ok (reference.offset, member) ∧
      reference.byteLength = member.byteLength := by
  unfold resolveMemoryReference at accepted
  rw [parsed] at accepted
  simp only [bind, Except.bind, looked] at accepted
  split at accepted
  · cases accepted
  split at accepted
  · cases accepted
  next layoutName named =>
    split at accepted
    · cases accepted
    next layout found =>
      split at accepted
      · cases accepted
      next resolved walked =>
        cases accepted
        exact ⟨layoutName, layout, resolved.2, named, found, walked, rfl⟩

/-- Where the layout's own template is meant, an access inside the declared bytes is to one of the
instances. -/
theorem index_lt_of_inside (recorded : declared.IsRecorded)
    (object : declared.IsDeclared symbol extent) {layoutName : String} {index : Nat}
    (named : declared.layoutTemplateName symbol access.baseViewTemplate = .ok layoutName)
    (user : IsUserTemplateName layoutName) (found : declared.layoutFor layoutName = some layout)
    (filled : 0 < exactByteLength layout.members) (fits : extent.byteLength < 2 ^ 64)
    (inside : index * exactByteLength layout.members < extent.byteLength) :
    index < extent.instances := by
  unfold layoutTemplateName at named
  split at named
  · cases named
    exact object.index_lt recorded user found filled fits inside
  next view _ =>
    split at named
    · cases named
    split at named
    · cases named
    next same =>
      cases named
      have fitting := object.fits recorded
      rw [← fitting.exact fits] at inside
      rw [index_eq_zero recorded user found (not_not.mp same) inside]
      exact fitting.instances

/-- An accepted access is inside its object just when neither the object's length nor the end of
the access reaches the modulus, and the template does not share its name with a standard one, or
the index is below the count all the same. -/
theorem memberAccess_inside_iff {options : ModuleOptions} {structs : List Ast.StructDecl}
    {templates : List Ast.TemplateDecl} (units : collectLayouts options structs templates = declared)
    (clean : declared.diagnostics = []) (object : declared.IsDeclared symbol extent)
    (parsed : accessOf expr = .ok access)
    (looked : objects.lookup access.objectName = some symbol)
    (accepted : declared.resolveMemoryReference objects expr = .ok reference) :
    ∃ layoutName layout offset,
      declared.layoutTemplateName symbol access.baseViewTemplate = .ok layoutName ∧
      declared.layoutFor layoutName = some layout ∧
      declared.exactMember layout.members access.memberPath =
        some (offset, reference.byteLength) ∧
      (access.Inside symbol extent (exactByteLength layout.members) offset reference.byteLength ↔
        extent.byteLength < 2 ^ 64 ∧
          access.instanceIndex * exactByteLength layout.members + offset + reference.byteLength <
            2 ^ 64 ∧
          (IsUserTemplateName layoutName ∨ access.instanceIndex < extent.instances)) := by
  have recorded : declared.IsRecorded := units ▸ collectLayouts_isRecorded (units ▸ clean)
  obtain ⟨layoutName, layout, member, named, found, walked, length⟩ :=
    resolveMemoryReference_cases parsed looked accepted
  have kept := isRecorded_of_layoutFor recorded found
  obtain ⟨offset, exact, congruent, filled, bound, positive⟩ :=
    resolvePath_exact recorded kept walked
  have fitting := object.fits recorded
  rw [← length] at exact bound positive
  refine ⟨layoutName, layout, offset, named, found, exact, ?_⟩
  have wrapped : access.instanceIndex * layout.byteLength % 2 ^ 64 ≡
      access.instanceIndex * exactByteLength layout.members [MOD 2 ^ 64] := by
    rw [byteLength_eq kept]
    exact (Nat.mod_modEq _ _).trans ((Nat.ModEq.refl _).mul (Nat.mod_modEq _ _))
  have ends : reference.offset + reference.byteLength ≡
      access.instanceIndex * exactByteLength layout.members + offset + reference.byteLength
        [MOD 2 ^ 64] :=
    (congruent.trans (wrapped.add_right offset)).add_right reference.byteLength
  constructor
  · rintro ⟨declared, instance_, bytes⟩
    have := fitting.bound
    exact ⟨by omega, by omega, .inr instance_⟩
  · rintro ⟨fits, small, meant⟩
    have exactly := fitting.exact fits
    have bytes : access.instanceIndex * exactByteLength layout.members + offset +
        reference.byteLength ≤ extent.byteLength := by
      rw [← exactly, ← Nat.mod_eq_of_lt small, ← ends]
      exact bound
    refine ⟨exactly, ?_, bytes⟩
    rcases meant with user | below
    · exact index_lt_of_inside recorded object named user found filled fits (by omega)
    · exact below

end

end

/-! ### Two pairs -/

def pairs : Declarations :=
  collectLayouts userOptions [] [pairTemplate]

/-- `new p[s2] as Pair`. -/
def pairSymbol : Symbol where
  name := "p"
  binding := ⟨"p", .local⟩
  byteLength := 32
  templateName := "Pair"

def pairObjects : Objects where
  lookup name := if name = "p" then some pairSymbol else none
  memberTemplateOverrides _ := none

theorem pairSymbol_isDeclared : pairs.IsDeclared pairSymbol ⟨32, 2⟩ := by
  have object : pairs.IsDeclared ⟨"p", ⟨"p", .local⟩, 32, "Pair"⟩
      (pairs.declaredExtent "s2" "Pair" 32) :=
    .declared "p" ⟨"p", .local⟩ "s2" "Pair" none 32 (fun _ absent => by cases absent) (by decide)
  exact (show pairs.declaredExtent "s2" "Pair" 32 = ⟨32, 2⟩ by decide) ▸ object

def pairAccess (index : String) : Ast.Reference :=
  .member (.index (.identifier "p") (.identifier index)) "right"

theorem memberAccess_inside_of_pair :
    ∃ layoutName layout offset,
      pairs.layoutTemplateName pairSymbol none = .ok layoutName ∧
      pairs.layoutFor layoutName = some layout ∧
      pairs.exactMember layout.members ["right"] = some (offset, 8) ∧
      (Access.Inside ⟨"p", 1, none, ["right"]⟩ pairSymbol ⟨32, 2⟩ (exactByteLength layout.members)
          offset 8 ↔
        32 < 2 ^ 64 ∧ 1 * exactByteLength layout.members + offset + 8 < 2 ^ 64 ∧
          (IsUserTemplateName layoutName ∨ 1 < 2)) := by
  have units : collectLayouts userOptions [] [pairTemplate] = pairs := rfl
  have parsed : accessOf (pairAccess "s1") = .ok ⟨"p", 1, none, ["right"]⟩ := rfl
  have looked : pairObjects.lookup "p" = some pairSymbol := rfl
  have accepted : pairs.resolveMemoryReference pairObjects (pairAccess "s1") =
      .ok ⟨"p", ⟨"p", .local⟩, 8, 24, ""⟩ := rfl
  exact memberAccess_inside_iff units (by decide) pairSymbol_isDeclared parsed looked accepted

/-- The instance 2^60 begins 2^64 bytes behind the object, and is taken to be its first one. -/
theorem wrapped_instance_is_accepted :
    pairs.diagnostics = [] ∧ pairs.IsDeclared pairSymbol ⟨32, 2⟩ ∧
      accessOf (pairAccess "s1152921504606846976") =
        .ok ⟨"p", 1152921504606846976, none, ["right"]⟩ ∧
      pairs.resolveMemoryReference pairObjects (pairAccess "s1152921504606846976") =
        .ok ⟨"p", ⟨"p", .local⟩, 8, 8, ""⟩ ∧
      ¬Access.Inside ⟨"p", 1152921504606846976, none, ["right"]⟩ pairSymbol ⟨32, 2⟩ 16 8 8 := by
  refine ⟨by decide, pairSymbol_isDeclared, rfl, rfl, ?_⟩
  rintro ⟨_, below, _⟩
  exact absurd below (by decide)

end HitSimple.Sema.Declarations

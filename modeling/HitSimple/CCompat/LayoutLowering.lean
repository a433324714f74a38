import HitSimple.CCompat.LayoutAgreement

namespace HitSimple.CCompat
open Placement (FirstAligned Natural Strictest ending span)

/-! ### The members of the template -/

/-- The length that the core reads of a member's text. -/
abbrev memberLength (member : Ast.TemplateMember) : Nat :=
  Sema.Declarations.parseByteLength member.length

theorem parseByteLength_toString {byteLength : Nat} (bound : byteLength < 2 ^ 64) :
    Sema.Declarations.parseByteLength (toString byteLength) = byteLength := by
  have spelled : (toString byteLength).toList = Nat.toDigits 10 byteLength := by
    simp
  have digits : ∀ ch ∈ Nat.toDigits 10 byteLength, ch.isDigit = true :=
    fun ch => Nat.isDigit_of_mem_toDigits (by decide) (by decide)
  have noPointer : toString byteLength ≠ "P" := by
    intro same
    rw [same] at spelled
    have digit := digits 'P' (by rw [← spelled]; decide)
    cases digit
  have value : (Nat.toDigits 10 byteLength).foldl
      (fun value digit => 10 * value + (digit.toNat - '0'.toNat)) 0 = byteLength := by
    rw [← Nat.ofDigitChars_eq_foldl]
    exact Nat.ofDigitChars_ten_toDigits
  unfold Sema.Declarations.parseByteLength Sema.parseUnsignedDecimal
  rw [if_neg noPointer, spelled, value,
    if_pos ⟨Nat.toDigits_ne_nil, List.all_eq_true.mpr digits, bound⟩]
  rfl

theorem memberByteLength_toString {declared : Sema.Declarations} {name templateName : String}
    {byteLength : Nat} :
    Sema.memberByteLength declared ⟨name, toString byteLength, templateName⟩ =
      memberLength ⟨name, toString byteLength, templateName⟩ := by
  have nonempty : toString byteLength ≠ "" := by
    intro same
    have spelled : (toString byteLength).toList = Nat.toDigits 10 byteLength := by
      simp
    rw [same] at spelled
    exact Nat.toDigits_ne_nil spelled.symm
  exact if_pos nonempty

/-- The fields stand in order from an offset on, and within a length. -/
def Ordered (byteLength : Nat) : List FieldInfo → Nat → Prop
  | [], offset => offset ≤ byteLength
  | field :: fields, offset =>
      offset ≤ field.offset ∧ Ordered byteLength fields (field.offset + field.byteLength)

theorem Ordered.le {byteLength offset : Nat} {fields : List FieldInfo}
    (ordered : Ordered byteLength fields offset) : offset ≤ byteLength := by
  induction fields generalizing offset with
  | nil => exact ordered
  | cons field fields ih =>
      have below := ih ordered.2
      have first := ordered.1
      omega

theorem ordered_of_natural {byteLength : Nat} {before fields : List FieldInfo}
    (natural : Natural FieldInfo.byteLength FieldInfo.offset FieldInfo.alignment (before ++ fields))
    (inside : ending FieldInfo.byteLength FieldInfo.offset (before ++ fields) ≤ byteLength) :
    Ordered byteLength fields (ending FieldInfo.byteLength FieldInfo.offset before) := by
  induction fields generalizing before with
  | nil => rwa [List.append_nil] at inside
  | cons field fields ih =>
      refine ⟨(natural.offsets before field fields rfl).le, ?_⟩
      rw [List.append_cons] at natural inside
      have rest := ih natural inside
      rwa [Placement.ending_snoc] at rest

/-- Padding fills what lies between the fields. -/
theorem span_lowerFields {byteLength : Nat} (bound : byteLength < 2 ^ 64) {fields : List FieldInfo}
    {offset : Nat} (paddingIndex : Nat) (ordered : Ordered byteLength fields offset) :
    offset + span memberLength (lowerFields byteLength fields offset paddingIndex) = byteLength ∧
      ∀ field ∈ fields, ∃ before behind,
        lowerFields byteLength fields offset paddingIndex = before ++ field.member :: behind ∧
          offset + span memberLength before = field.offset ∧
          memberLength field.member = field.byteLength := by
  induction fields generalizing offset paddingIndex with
  | nil =>
      have below : offset ≤ byteLength := ordered
      refine ⟨?_, fun _ listed => by cases listed⟩
      unfold lowerFields
      split
      · have padding : memberLength (paddingMember paddingIndex (byteLength - offset)) =
            byteLength - offset := parseByteLength_toString (by omega)
        rw [Placement.span_cons, padding, Placement.span_nil]
        omega
      · rw [Placement.span_nil]
        omega
  | cons field fields ih =>
      obtain ⟨here, rest⟩ := ordered
      have inside := rest.le
      have length : memberLength field.member = field.byteLength :=
        parseByteLength_toString (by omega)
      unfold lowerFields
      split
      next later =>
        have padding : memberLength (paddingMember paddingIndex (field.offset - offset)) =
            field.offset - offset := parseByteLength_toString (by omega)
        rw [Nat.mod_eq_of_lt (by omega)]
        obtain ⟨total, placed⟩ := ih (paddingIndex + 1) rest
        refine ⟨?_, ?_⟩
        · rw [Placement.span_cons, Placement.span_cons, padding, length]
          omega
        · intro other listed
          rcases List.mem_cons.mp listed with rfl | listed
          · refine ⟨[_], _, rfl, ?_, length⟩
            rw [Placement.span_cons, padding, Placement.span_nil]
            omega
          · obtain ⟨before, behind, split, ends, same⟩ := placed other listed
            refine ⟨_ :: _ :: before, behind, by rw [split]; rfl, ?_, same⟩
            rw [Placement.span_cons, Placement.span_cons, padding, length]
            omega
      next notLater =>
        obtain rfl : offset = field.offset := by omega
        rw [Nat.mod_eq_of_lt (by omega)]
        obtain ⟨total, placed⟩ := ih paddingIndex rest
        refine ⟨?_, ?_⟩
        · rw [Placement.span_cons, length]
          omega
        · intro other listed
          rcases List.mem_cons.mp listed with rfl | listed
          · exact ⟨[], _, rfl, by rw [Placement.span_nil, Nat.add_zero], length⟩
          · obtain ⟨before, behind, split, ends, same⟩ := placed other listed
            refine ⟨_ :: before, behind, by rw [split]; rfl, ?_, same⟩
            rw [Placement.span_cons, length]
            omega

/-! ### The template in the core -/

section
variable {declared : Sema.Declarations} {declName : String}

theorem memberNames_of_clean {layout : Sema.TemplateLayout} {member : Ast.TemplateMember}
    (distinct : layout.memberNames.Nodup)
    (names : layout.members.map Sema.StructMemberInfo.name = layout.memberNames)
    (clean : (Sema.layoutMember declared declName layout member).diagnostics = layout.diagnostics) :
    let after := Sema.layoutMember declared declName layout member
    after.memberNames.Nodup ∧ after.members.map Sema.StructMemberInfo.name = after.memberNames := by
  unfold Sema.layoutMember at clean ⊢
  dsimp only at clean ⊢
  split at clean
  · simp [Sema.TemplateLayout.addDiagnostic] at clean
  next regular =>
    rw [if_neg regular]
    split at clean
    · simp [Sema.TemplateLayout.addDiagnostic] at clean
    next fresh =>
      rw [if_neg fresh]
      split at clean
      · simp [Sema.TemplateLayout.addDiagnostic] at clean
      next sized =>
        rw [if_neg sized]
        split at clean
        · simp [Sema.TemplateLayout.addDiagnostic] at clean
        next known =>
          rw [if_neg known]
          split at clean
          · simp [Sema.TemplateLayout.addDiagnostic] at clean
          next agrees =>
            rw [if_neg agrees]
            refine ⟨List.nodup_append.mpr ⟨distinct, by simp, ?_⟩, by simp [names]⟩
            rintro name listed other last rfl
            rw [List.mem_singleton] at last
            exact fresh (last ▸ listed)

/-- The names of the members of a template without a diagnostic differ. -/
theorem foldl_distinct {members : List Ast.TemplateMember} {layout : Sema.TemplateLayout}
    (distinct : layout.memberNames.Nodup)
    (names : layout.members.map Sema.StructMemberInfo.name = layout.memberNames)
    (clean : (members.foldl (Sema.layoutMember declared declName) layout).diagnostics = []) :
    ((members.foldl (Sema.layoutMember declared declName) layout).members.map
      Sema.StructMemberInfo.name).Nodup := by
  induction members generalizing layout with
  | nil => rwa [List.foldl_nil, names]
  | cons member members ih =>
      rw [List.foldl_cons] at clean ⊢
      have grows := Sema.foldl_diagnostics (fun layout next =>
        (@Sema.layoutMember_cases declared declName layout next).2) members
        (Sema.layoutMember declared declName layout member)
      rw [clean, List.prefix_nil] at grows
      have unchanged : (Sema.layoutMember declared declName layout member).diagnostics =
          layout.diagnostics := by
        rcases (Sema.layoutMember_cases layout member).2 with ⟨message, added⟩ | placed
        · rw [added] at grows
          simp at grows
        · exact placed.1
      obtain ⟨distinct, names⟩ := memberNames_of_clean distinct names unchanged
      exact ih distinct names clean

end

/-- The layout that the C ABI prescribes. -/
structure StructInfo.IsNatural (info : StructInfo) : Prop where
  offsets : Natural FieldInfo.byteLength FieldInfo.offset FieldInfo.alignment info.fields
  alignment : Strictest FieldInfo.alignment info.fields info.alignment
  byteLength : FirstAligned (ending FieldInfo.byteLength FieldInfo.offset info.fields)
    info.alignment info.byteLength

/-- Members one behind another place the fields. -/
structure StructInfo.IsPacked (info : StructInfo) (members : List Ast.TemplateMember) : Prop where
  byteLength : span memberLength members = info.byteLength
  fields : ∀ field ∈ info.fields, ∃ before behind, members = before ++ field.member :: behind ∧
    span memberLength before = field.offset ∧ memberLength field.member = field.byteLength

/-- The fields are found under their names where they have been placed. -/
structure StructInfo.IsKept (info : StructInfo) (layout : Sema.TemplateLayout) : Prop where
  byteLength : layout.offset = info.byteLength
  fields : ∀ field ∈ info.fields, ∃ member,
    layout.members.find? (fun member => member.name == field.name) = some member ∧
      member.offset = field.offset ∧ member.byteLength = field.byteLength

theorem length_of_lowerFields {byteLength : Nat} {fields : List FieldInfo} {offset : Nat}
    {paddingIndex : Nat} {member : Ast.TemplateMember}
    (listed : member ∈ lowerFields byteLength fields offset paddingIndex) :
    ∃ length : Nat, member.length = toString length := by
  induction fields generalizing offset paddingIndex with
  | nil =>
      unfold lowerFields at listed
      split at listed
      · rw [List.mem_singleton.mp listed]
        exact ⟨_, rfl⟩
      · cases listed
  | cons field fields ih =>
      unfold lowerFields at listed
      split at listed
      · rcases List.mem_cons.mp listed with rfl | listed
        · exact ⟨_, rfl⟩
        rcases List.mem_cons.mp listed with rfl | listed
        · exact ⟨_, rfl⟩
        · exact ih listed
      · rcases List.mem_cons.mp listed with rfl | listed
        · exact ⟨_, rfl⟩
        · exact ih listed

theorem isPacked_lower {info : StructInfo} (isNatural : info.IsNatural)
    (bound : info.byteLength < 2 ^ 64) (name : String) :
    info.IsPacked (info.lower name).members := by
  have ordered : Ordered info.byteLength info.fields 0 :=
    @ordered_of_natural _ [] _ isNatural.offsets isNatural.byteLength.le
  obtain ⟨total, placed⟩ := span_lowerFields bound 0 ordered
  rw [Nat.zero_add] at total
  refine ⟨total, fun field listed => ?_⟩
  obtain ⟨before, behind, split, ends, same⟩ := placed field listed
  rw [Nat.zero_add] at ends
  exact ⟨before, behind, split, ends, same⟩

theorem isKept_of_clean {info : StructInfo} {declared : Sema.Declarations} {name : String}
    (packed : info.IsPacked (info.lower name).members) (bound : info.byteLength < 2 ^ 64)
    (clean : (Sema.layoutTemplate declared (info.lower name)).diagnostics = []) :
    info.IsKept (Sema.layoutTemplate declared (info.lower name)) := by
  have recorded := Sema.layoutTemplate_isRecorded declared (info.lower name)
  have distinct := @foldl_distinct declared name _ Sema.emptyLayout List.nodup_nil rfl clean
  have same := Sema.foldl_members (fun layout next =>
    (@Sema.layoutMember_cases declared name layout next).2) (info.lower name).members clean
  change (Sema.layoutTemplate declared (info.lower name)).members.map _ =
    (info.lower name).members.map _ at same
  change ((Sema.layoutTemplate declared (info.lower name)).members.map _).Nodup at distinct
  generalize Sema.layoutTemplate declared (info.lower name) = layout at recorded distinct same ⊢
  have lengths : ∀ member ∈ (info.lower name).members,
      Sema.memberByteLength declared member = memberLength member := by
    intro member listed
    obtain ⟨length, text⟩ := length_of_lowerFields listed
    obtain ⟨memberName, _, templateName⟩ := member
    cases text
    exact memberByteLength_toString
  have sameMembers : (info.lower name).members.map
      (fun member => (member.name, Sema.memberByteLength declared member)) =
      (info.lower name).members.map fun member => (member.name, memberLength member) :=
    List.map_congr_left fun member listed => by rw [lengths member listed]
  rw [sameMembers] at same
  have spans {left : List Sema.StructMemberInfo} {right : List Ast.TemplateMember}
      (alike : left.map (fun member => (member.name, member.byteLength)) =
        right.map fun member => (member.name, memberLength member)) :
      span Sema.StructMemberInfo.byteLength left = span memberLength right := by
    have lengths := congrArg (List.map Prod.snd) alike
    rw [List.map_map, List.map_map] at lengths
    exact congrArg List.sum lengths
  have total := (spans same).trans packed.byteLength
  have exact_ := (recorded.placed.exact_iff (by decide)).mpr
    (show span Sema.StructMemberInfo.byteLength layout.members < 2 ^ 64 by omega)
  refine ⟨exact_.total.trans total, fun field listed => ?_⟩
  obtain ⟨before, behind, split, ends, length⟩ := packed.fields field listed
  rw [split, List.map_append, List.map_cons] at same
  obtain ⟨first, rest, members, sameBefore, sameRest⟩ := List.map_eq_append_iff.mp same
  obtain ⟨member, last, rfl, named, sameLast⟩ := List.map_eq_cons_iff.mp sameRest
  obtain ⟨sameName, sameLength⟩ := Prod.mk.inj named
  refine ⟨member, ?_, ?_, sameLength.trans length⟩
  · rw [members, List.map_append, List.map_cons, List.nodup_append] at distinct
    refine List.find?_eq_some_iff_append.mpr ⟨beq_iff_eq.mpr sameName, first, last, members, ?_⟩
    intro other listed
    rw [Bool.not_eq_true', beq_eq_false_iff_ne]
    rintro clash
    exact distinct.2.2 other.name (List.mem_map_of_mem listed) member.name (by simp)
      (clash.trans sameName.symm)
  · rw [exact_.offsets first member last members, spans sameBefore, ends]

/-- Every struct that resolves has the layout of the C ABI, exactly and within the address space, and
its template keeps that layout. -/
theorem struct_layouts_agree {unit : DeclaredTypes} {name : String} {info : StructInfo}
    (laysOut : unit.LaysOut name info) :
    (info.IsNatural ∧ info.byteLength < 2 ^ 64) ∧
      (∃ fields, unit.structs name = some fields ∧
        info.fields.map FieldInfo.name = fields.map Field.name) ∧
      (∀ field ∈ info.fields, 0 < field.byteLength ∧ field.IsTyped unit) ∧
      info.IsPacked (info.lower name).members ∧
      ∀ declared, (Sema.layoutTemplate declared (info.lower name)).diagnostics = [] →
        info.IsKept (Sema.layoutTemplate declared (info.lower name)) := by
  obtain ⟨depth, structs, typedefs, found⟩ := laysOut
  cases depth with
  | zero => cases found
  | succ depth =>
      unfold DeclaredTypes.resolve at found
      dsimp only at found
      split at found
      · cases found
      obtain ⟨fields, declared, laidOut⟩ := Option.bind_eq_some_iff.mp found
      obtain ⟨placed, places, rest⟩ := Option.bind_eq_some_iff.mp laidOut
      obtain ⟨byteLength, aligned, done⟩ := Option.bind_eq_some_iff.mp rest
      cases done
      have isNatural := foldlM_isNatural ⟨.nil, rfl, Placement.strictest_nil, by decide,
        fun _ listed => by cases listed⟩ places
      obtain ⟨typed, names⟩ := foldlM_isTyped (fun _ listed => by cases listed) places
      obtain ⟨first, bound⟩ := alignUp_firstAligned isNatural.bound aligned
      rw [isNatural.ending] at first
      have natural : StructInfo.IsNatural ⟨placed.fields, placed.aggregateAlignment, byteLength⟩ :=
        ⟨isNatural.natural, isNatural.strictest, first⟩
      have packed := isPacked_lower natural bound name
      exact ⟨⟨natural, bound⟩, ⟨fields, declared, names⟩,
        fun field listed => ⟨isNatural.positive field listed, typed field listed⟩, packed,
        fun declared clean => isKept_of_clean packed bound clean⟩

/-- A character, a struct of its own and an array, with padding in front of the struct and at the
end. -/
def nestedStructs : DeclaredTypes where
  pointerByteLength := 8
  structs := fun name =>
    if name = "Inner" then
      some [⟨"tag", ⟨.char, "", false, false⟩, ⟨0, none⟩⟩, ⟨"value", ⟨.double, "", false, false⟩, ⟨0, none⟩⟩]
    else if name = "Outer" then
      some [⟨"kind", ⟨.char, "", false, false⟩, ⟨0, none⟩⟩,
        ⟨"inner", ⟨.struct, "Inner", false, false⟩, ⟨0, none⟩⟩,
        ⟨"counts", ⟨.short, "", false, false⟩, ⟨0, some 3⟩⟩]
    else none
  typedefs := fun _ => none

def innerDeclared : Sema.Declarations where
  structs := []
  templates := [⟨"Inner", [], 16⟩]
  topLevelNames := []
  diagnostics := []

theorem struct_layouts_agree_nested : ∃ info, nestedStructs.LaysOut "Outer" info ∧
    info.fields.map FieldInfo.offset = [0, 8, 24] ∧ info.alignment = 8 ∧ info.byteLength = 32 ∧
    info.IsNatural ∧ info.IsKept (Sema.layoutTemplate innerDeclared (info.lower "Outer")) := by
  have laysOut : nestedStructs.LaysOut "Outer" _ := ⟨3, [], [], rfl⟩
  obtain ⟨⟨natural, _⟩, _, _, _, kept⟩ := struct_layouts_agree laysOut
  exact ⟨_, laysOut, rfl, rfl, rfl, natural, kept innerDeclared (by decide)⟩

end HitSimple.CCompat

import HitSimple.CCompat.TypeInfo

namespace HitSimple.CCompat

/-- A type of C; the scalars are the bases without a name. -/
inductive TypeTerm where
  | scalar (base : BaseType)
  | struct (name : String)
  | pointer (pointee : TypeTerm)
  | array (element : TypeTerm) (count : Nat)
  deriving DecidableEq

/-- The scalar that has the representation of another one, in place of it: plain `char` is unsigned,
and `long long` as wide as `long`. -/
def BaseType.representation : BaseType → BaseType
  | .char => .unsignedChar
  | .longLong => .long
  | .unsignedLongLong => .unsignedLong
  | base => base

namespace TypeTerm

def representation : TypeTerm → TypeTerm
  | .scalar base => .scalar base.representation
  | .struct name => .struct name
  | .pointer pointee => .pointer pointee.representation
  | .array element count => .array element.representation count

def isArray : TypeTerm → Bool
  | .array _ _ => true
  | _ => false

def element : TypeTerm → TypeTerm
  | .array element _ => element
  | term => term

def decayed : TypeTerm → TypeTerm
  | .array element _ => .pointer element
  | term => term

/-- What a value of the type points to once it has decayed. -/
def pointed : TypeTerm → Option TypeTerm
  | .pointer pointee => some pointee
  | .array element _ => some element
  | _ => none

end TypeTerm

/-! ### Derivations -/

section
variable (typedefs : String → Option TypeTerm)

def denoteBase (type : CType) : Option TypeTerm :=
  match type.base with
  | .struct => some (.struct type.name)
  | .typedefName => typedefs type.name
  | base => some (.scalar base)

def denoteType (type : CType) (pointerDepth : Nat) : Option TypeTerm :=
  (denoteBase typedefs type).map (TypeTerm.pointer^[pointerDepth])

/-- The term that a declaration stands for. -/
def denote (type : CType) (declarator : Declarator) : Option TypeTerm :=
  (denoteType typedefs type declarator.pointerDepth).map fun term =>
    match declarator.arrayCount with
    | none => term
    | some count => .array term count

/-- The ways in which the front end comes to the type of a value, beside the term it is of. The
object of a typedef comes from a declaration of its own. -/
inductive Derives (declarations : Declarations) : TypeTerm → ObjectInfo → Prop where
  | declared {type : CType} {declarator : Declarator} {term : TypeTerm} {object : ObjectInfo}
      (resolved : declarations.resolveObject type declarator = some object)
      (denoted : denote typedefs type declarator = some term)
      (aliased : ∀ source meaning, type.base = .typedefName →
        declarations.aliases type.name = some source → typedefs type.name = some meaning →
        Derives declarations meaning source) :
      Derives declarations term object
  | returned {type : CType} {pointerDepth : Nat} {term : TypeTerm} {value : ObjectInfo}
      (resolved : declarations.returnType type pointerDepth = some value)
      (denoted : denoteType typedefs type pointerDepth = some term)
      (aliased : ∀ source meaning, type.base = .typedefName →
        declarations.aliases type.name = some source → typedefs type.name = some meaning →
        Derives declarations meaning source) :
      Derives declarations term value
  | decayed {term : TypeTerm} {value : ObjectInfo} (derived : Derives declarations term value) :
      Derives declarations term.decayed (declarations.decayArray value)
  | addressed {term : TypeTerm} {operand value : ObjectInfo}
      (derived : Derives declarations term operand)
      (address : declarations.addressOf operand = some value) :
      Derives declarations (.pointer term) value
  | dereferenced {term result : TypeTerm} {operand value : ObjectInfo}
      (derived : Derives declarations term operand)
      (content : declarations.dereference operand = some value)
      (pointed : term.pointed = some result) :
      Derives declarations result value

end

/-! ### Descriptions -/

def scalarAbi : BaseType → Option CAbiType
  | .char | .unsignedChar => some ⟨.integer, 1, false, ""⟩
  | .signedChar => some ⟨.integer, 1, true, ""⟩
  | .short => some ⟨.integer, 2, true, ""⟩
  | .unsignedShort => some ⟨.integer, 2, false, ""⟩
  | .int => some ⟨.integer, 4, true, ""⟩
  | .unsignedInt => some ⟨.integer, 4, false, ""⟩
  | .long | .longLong => some ⟨.integer, 8, true, ""⟩
  | .unsignedLong | .unsignedLongLong => some ⟨.integer, 8, false, ""⟩
  | .float => some ⟨.floating, 4, true, ""⟩
  | .double => some ⟨.floating, 8, true, ""⟩
  | .void => some ⟨.void, 0, false, ""⟩
  | .struct | .typedefName => none

/-- A description of a type: that of a struct has its length only where it is complete. -/
inductive Describes (declarations : Declarations) : TypeTerm → TypeInfo → Prop where
  | scalar {base : BaseType} {abi : CAbiType} {coreTemplate : String}
      (isScalar : scalarAbi base = some abi) :
      Describes declarations (.scalar base) ⟨abi, coreTemplate, none⟩
  | incomplete {name : String} :
      Describes declarations (.struct name) ⟨⟨.aggregate, 0, false, name⟩, name, none⟩
  | complete {name : String} {byteLength : Nat}
      (laidOut : declarations.structs name = some byteLength) :
      Describes declarations (.struct name) ⟨⟨.aggregate, byteLength, false, name⟩, name, none⟩
  | pointer {term : TypeTerm} {info : TypeInfo} (describes : Describes declarations term info) :
      Describes declarations (.pointer term) (declarations.makePointer info)

section
variable {declarations : Declarations} {typedefs : String → Option TypeTerm}

theorem Describes.pointers {term : TypeTerm} {info : TypeInfo}
    (describes : Describes declarations term info) (depth : Nat) :
    Describes declarations (TypeTerm.pointer^[depth] term)
      (declarations.makePointer^[depth] info) := by
  induction depth with
  | zero => exact describes
  | succ depth ih =>
      rw [Function.iterate_succ_apply', Function.iterate_succ_apply']
      exact .pointer ih

theorem Describes.not_aggregate {base : BaseType} {abi : CAbiType}
    (isScalar : scalarAbi base = some abi) : abi.kind ≠ .aggregate := by
  cases base <;> simp [scalarAbi] at isScalar <;> simp [← isScalar]

theorem Describes.completed {term : TypeTerm} {info complete : TypeInfo}
    (describes : Describes declarations term info)
    (completes : declarations.ensureStructComplete info = some complete) :
    Describes declarations term complete := by
  cases describes with
  | scalar isScalar =>
      rw [Declarations.ensureStructComplete, if_neg (Describes.not_aggregate isScalar)] at completes
      obtain rfl := Option.some_inj.mp completes
      exact .scalar isScalar
  | incomplete =>
      rw [Declarations.ensureStructComplete, if_pos rfl] at completes
      split at completes
      · cases completes
      next laidOut =>
        obtain rfl := Option.some_inj.mp completes
        exact .complete laidOut
  | complete laidOut =>
      rw [Declarations.ensureStructComplete, if_pos rfl, laidOut] at completes
      obtain rfl := Option.some_inj.mp completes
      exact .complete laidOut
  | pointer describes =>
      rw [Declarations.makePointer, Declarations.ensureStructComplete, if_neg (by simp)] at completes
      obtain rfl := Option.some_inj.mp completes
      exact .pointer describes

/-- What a derivation makes of a value: a description of its term, or of the elements of an array. -/
structure Described (declarations : Declarations) (term : TypeTerm) (value : ObjectInfo) : Prop where
  describes : Describes declarations term.element value.type
  shape : value.isArray = term.isArray

theorem Described.plain {term : TypeTerm} {info : TypeInfo}
    (describes : Describes declarations term info) :
    Described declarations term ⟨info, false, 0⟩ := by
  cases describes with
  | scalar isScalar => exact ⟨.scalar isScalar, rfl⟩
  | incomplete => exact ⟨.incomplete, rfl⟩
  | complete laidOut => exact ⟨.complete laidOut, rfl⟩
  | pointer describes => exact ⟨.pointer describes, rfl⟩

theorem Described.describes_of_not {term : TypeTerm} {value : ObjectInfo}
    (described : Described declarations term value) (single : value.isArray = false) :
    Describes declarations term value.type := by
  have notArray := described.shape.symm.trans single
  cases term with
  | array => cases notArray
  | scalar | struct | pointer => exact described.describes

theorem resolveBaseType_describes {type : CType} {info : TypeInfo} {term : TypeTerm}
    (resolved : declarations.resolveBaseType type = some info)
    (denoted : denoteBase typedefs type = some term)
    (aliased : ∀ source meaning, type.base = .typedefName →
      declarations.aliases type.name = some source → typedefs type.name = some meaning →
      Described declarations meaning source) :
    Describes declarations term info := by
  unfold Declarations.resolveBaseType at resolved
  split at resolved
  · cases resolved
  unfold denoteBase at denoted
  cases base : type.base <;> rw [base] at resolved denoted <;>
    dsimp only at resolved denoted
  case struct =>
    obtain rfl := Option.some_inj.mp resolved
    obtain rfl := Option.some_inj.mp denoted
    exact .incomplete
  case typedefName =>
    unfold Declarations.resolveAlias at resolved
    split at resolved
    · cases resolved
    next source isSource =>
      split at resolved
      · cases resolved
      next single =>
        obtain rfl := Option.some_inj.mp resolved
        exact (aliased source term base isSource denoted).describes_of_not
          (Bool.eq_false_iff.mpr single)
  all_goals
    obtain rfl := Option.some_inj.mp resolved
    obtain rfl := Option.some_inj.mp denoted
    exact .scalar rfl

theorem resolveType_describes {type : CType} {pointerDepth : Nat} {info : TypeInfo}
    {term : TypeTerm} (resolved : declarations.resolveType type pointerDepth = some info)
    (denoted : denoteType typedefs type pointerDepth = some term)
    (aliased : ∀ source meaning, type.base = .typedefName →
      declarations.aliases type.name = some source → typedefs type.name = some meaning →
      Described declarations meaning source) :
    Describes declarations term info := by
  obtain ⟨baseInfo, isBase, rfl⟩ := Option.map_eq_some_iff.mp resolved
  obtain ⟨baseTerm, isTerm, rfl⟩ := Option.map_eq_some_iff.mp denoted
  exact (resolveBaseType_describes isBase isTerm aliased).pointers pointerDepth

theorem resolvePlainObject_described {type : CType} {declarator : Declarator}
    {object : ObjectInfo} {term : TypeTerm}
    (resolved : declarations.resolvePlainObject type declarator = some object)
    (denoted : denote typedefs type declarator = some term)
    (aliased : ∀ source meaning, type.base = .typedefName →
      declarations.aliases type.name = some source → typedefs type.name = some meaning →
      Described declarations meaning source) :
    Described declarations term object := by
  unfold Declarations.resolvePlainObject at resolved
  split at resolved
  · cases resolved
  next info isType =>
    split at resolved
    · cases resolved
    split at resolved
    · cases resolved
    next complete completes =>
      obtain ⟨base, isBase, rfl⟩ := Option.map_eq_some_iff.mp denoted
      have describes := (resolveType_describes isType isBase aliased).completed completes
      dsimp only at resolved
      split at resolved
      · cases resolved
      split at resolved
      · cases resolved
      obtain rfl := Option.some_inj.mp resolved
      cases declarator.arrayCount with
      | none => exact ⟨(Described.plain describes).describes, (Described.plain describes).shape⟩
      | some count => exact ⟨describes, rfl⟩

theorem resolveObject_described {type : CType} {declarator : Declarator} {object : ObjectInfo}
    {term : TypeTerm} (resolved : declarations.resolveObject type declarator = some object)
    (denoted : denote typedefs type declarator = some term)
    (aliased : ∀ source meaning, type.base = .typedefName →
      declarations.aliases type.name = some source → typedefs type.name = some meaning →
      Described declarations meaning source) :
    Described declarations term object := by
  unfold Declarations.resolveObject at resolved
  split at resolved
  next isAlias =>
    split at resolved
    · cases resolved
    split at resolved
    · cases resolved
    next source isSource =>
      split at resolved
      next isArray =>
        split at resolved
        · cases resolved
        next shallow =>
          split at resolved
          · cases resolved
          next single =>
            obtain rfl := Option.some_inj.mp resolved
            have depth : declarator.pointerDepth = 0 := not_not.mp shallow
            have count : declarator.arrayCount = none := by simpa using single
            have meaning : typedefs type.name = some term := by
              simpa [denote, denoteType, denoteBase, isAlias, depth, count] using denoted
            exact aliased source term isAlias isSource meaning
      · exact resolvePlainObject_described resolved denoted aliased
  · exact resolvePlainObject_described resolved denoted aliased

theorem Described.decayed {term : TypeTerm} {value : ObjectInfo}
    (described : Described declarations term value) :
    Described declarations term.decayed (declarations.decayArray value) := by
  unfold Declarations.decayArray
  split
  next isArray =>
    have shape := described.shape.symm.trans isArray
    cases term with
    | array element count => exact .plain (.pointer described.describes)
    | scalar | struct | pointer => cases shape
  next single =>
    have shape := described.shape.symm.trans (Bool.eq_false_iff.mpr single)
    cases term with
    | array => cases shape
    | scalar | struct | pointer => exact described

theorem Derives.described {term : TypeTerm} {value : ObjectInfo}
    (derives : Derives typedefs declarations term value) : Described declarations term value := by
  induction derives with
  | declared resolved denoted _ ih => exact resolveObject_described resolved denoted ih
  | returned resolved denoted _ ih =>
      unfold Declarations.returnType at resolved
      split at resolved
      · cases resolved
      next info isType =>
        split at resolved
        · cases resolved
        next complete completes =>
          obtain rfl := Option.some_inj.mp resolved
          exact .plain ((resolveType_describes isType denoted ih).completed completes)
  | decayed _ ih => exact ih.decayed
  | addressed _ address ih =>
      unfold Declarations.addressOf at address
      split at address
      · cases address
      next single =>
        obtain rfl := Option.some_inj.mp address
        exact .plain (.pointer (ih.describes_of_not (Bool.eq_false_iff.mpr single)))
  | @dereferenced term result operand value _ content pointed ih =>
      have isPointer : Describes declarations (.pointer result)
          (declarations.decayArray operand).type := by
        cases term with
        | pointer | array =>
            obtain rfl := Option.some_inj.mp pointed
            exact ih.decayed.describes
        | scalar | struct => cases pointed
      unfold Declarations.dereference at content
      dsimp only at content
      generalize (declarations.decayArray operand).type = info at content isPointer
      cases isPointer with
      | pointer describes =>
          simp only [Declarations.makePointer, TypeInfo.abi, TypeInfo.pointee, if_true] at content
          split at content
          · cases content
          split at content
          · cases content
          next complete completes =>
            obtain rfl := Option.some_inj.mp content
            exact .plain (describes.completed completes)

/-! ### Identity -/

/-- The description at the end of the pointers. -/
def TypeInfo.innermost : TypeInfo → CAbiType
  | ⟨abi, _, none⟩ => abi
  | ⟨_, _, some pointee⟩ => pointee.innermost

/-- Two descriptions that end in one struct have the same length for it: both were made before its
completion, or both behind it. -/
def SameStage (left right : TypeInfo) : Prop :=
  left.innermost.kind = .aggregate → right.innermost.kind = .aggregate →
    left.innermost.aggregateName = right.innermost.aggregateName →
    left.innermost.byteLength = right.innermost.byteLength

theorem sameAbi_scalar_iff {base other : BaseType} {left right : CAbiType}
    (isLeft : scalarAbi base = some left) (isRight : scalarAbi other = some right) :
    sameAbi left right = true ↔ base.representation = other.representation := by
  cases base <;> cases other <;> simp [scalarAbi] at isLeft isRight <;>
    subst isLeft <;> subst isRight <;> decide

theorem sameAbi_kind {left right : CAbiType} (same : sameAbi left right = true) :
    left.kind = right.kind := by
  simp only [sameAbi, decide_eq_true_eq] at same
  exact same.1

theorem Describes.innermost_struct {name : String} {info : TypeInfo}
    (describes : Describes declarations (.struct name) info) :
    ∃ byteLength coreTemplate, info = ⟨⟨.aggregate, byteLength, false, name⟩, coreTemplate, none⟩ := by
  cases describes with
  | incomplete => exact ⟨0, name, rfl⟩
  | complete => exact ⟨_, name, rfl⟩

theorem sameType_struct {name : String} {right : TypeTerm} {leftInfo rightInfo : TypeInfo}
    (isLeft : Describes declarations (.struct name) leftInfo)
    (isRight : Describes declarations right rightInfo) (stage : SameStage leftInfo rightInfo) :
    sameType leftInfo rightInfo = true ↔ .struct name = right.representation := by
  obtain ⟨byteLength, coreTemplate, rfl⟩ := isLeft.innermost_struct
  cases right with
  | struct other =>
      obtain ⟨otherLength, otherTemplate, rfl⟩ := isRight.innermost_struct
      have lengths : name = other → byteLength = otherLength := stage rfl rfl
      simp only [sameType, sameAbi, decide_eq_true_eq, true_and, TypeTerm.representation,
        TypeTerm.struct.injEq]
      exact ⟨fun same => same.2, fun same => ⟨lengths same, same⟩⟩
  | scalar base =>
      cases isRight with
      | scalar isScalar =>
          refine iff_of_false (fun same => ?_) (by simp [TypeTerm.representation])
          exact Describes.not_aggregate isScalar (sameAbi_kind same).symm
  | pointer pointee =>
      cases isRight
      exact iff_of_false (by simp [sameType, Declarations.makePointer])
        (by simp [TypeTerm.representation])
  | array => cases isRight

theorem sameType_describes {left right : TypeTerm} {leftInfo rightInfo : TypeInfo}
    (isLeft : Describes declarations left leftInfo)
    (isRight : Describes declarations right rightInfo) (stage : SameStage leftInfo rightInfo) :
    sameType leftInfo rightInfo = true ↔ left.representation = right.representation := by
  induction isLeft generalizing right rightInfo with
  | incomplete => exact sameType_struct .incomplete isRight stage
  | complete laidOut => exact sameType_struct (.complete laidOut) isRight stage
  | scalar isScalar =>
      cases isRight with
      | scalar isOther =>
          rw [sameType, sameAbi_scalar_iff isScalar isOther, TypeTerm.representation,
            TypeTerm.representation, TypeTerm.scalar.injEq]
      | incomplete | complete =>
          refine iff_of_false (fun same => ?_) (by simp [TypeTerm.representation])
          exact Describes.not_aggregate isScalar (sameAbi_kind same)
      | pointer =>
          exact iff_of_false (by simp [sameType, Declarations.makePointer])
            (by simp [TypeTerm.representation])
  | pointer _ ih =>
      cases isRight with
      | pointer isPointee =>
          have pointers : sameAbi ⟨.pointer, declarations.pointerByteLength, false, ""⟩
              ⟨.pointer, declarations.pointerByteLength, false, ""⟩ = true := by
            simp [sameAbi]
          rw [Declarations.makePointer, Declarations.makePointer, sameType, pointers, Bool.true_and,
            ih isPointee stage, TypeTerm.representation, TypeTerm.representation,
            TypeTerm.pointer.injEq]
      | scalar | incomplete | complete =>
          exact iff_of_false (by simp [sameType, Declarations.makePointer])
            (by simp [TypeTerm.representation])

end

/-- Two derived types are the same exactly where their terms have one representation, once their
descriptions of a struct are of one stage. -/
theorem sameType_iff {declarations : Declarations} {typedefs : String → Option TypeTerm}
    {first second : TypeTerm} {left right : ObjectInfo}
    (isLeft : Derives typedefs declarations first left)
    (isRight : Derives typedefs declarations second right)
    (leftSingle : left.isArray = false) (rightSingle : right.isArray = false)
    (stage : SameStage left.type right.type) :
    sameType left.type right.type = true ↔ first.representation = second.representation :=
  sameType_describes (isLeft.described.describes_of_not leftSingle)
    (isRight.described.describes_of_not rightSingle) stage

/-! ### A file with one struct -/

def nodeFile : Declarations where
  pointerByteLength := 8
  aliases _ := none
  structs name := if name = "node" then some 8 else none

def plain (base : BaseType) (name : String) : CType :=
  ⟨base, name, false, false⟩

theorem derives_plain (base : BaseType) (name : String) (declarator : Declarator) {term : TypeTerm}
    {object : ObjectInfo} (named : base ≠ .typedefName)
    (resolved : nodeFile.resolveObject (plain base name) declarator = some object)
    (denoted : denote (fun _ => none) (plain base name) declarator = some term) :
    Derives (fun _ => none) nodeFile term object :=
  .declared resolved denoted fun _ _ isName => absurd isName named

/-- The type of a `struct node *p`. -/
def nodePointer : ObjectInfo :=
  ⟨nodeFile.makePointer ⟨⟨.aggregate, 0, false, "node"⟩, "node", none⟩, false, 0⟩

theorem nodePointer_derives :
    Derives (fun _ => none) nodeFile (.pointer (.struct "node")) nodePointer :=
  derives_plain .struct "node" ⟨1, none⟩ (by decide) rfl rfl

theorem sameType_iff_of_node :
    sameType nodePointer.type nodePointer.type = true ↔
      (TypeTerm.pointer (.struct "node")).representation =
        (TypeTerm.pointer (.struct "node")).representation :=
  sameType_iff nodePointer_derives nodePointer_derives rfl rfl fun _ _ _ => rfl

/-- `struct node *p` and `&s` of a `struct node s` have one type, and `long *` and `long long *` have
two. -/
theorem types_not_identified :
    (∃ address : ObjectInfo,
      Derives (fun _ => none) nodeFile (.pointer (.struct "node")) nodePointer ∧
      Derives (fun _ => none) nodeFile (.pointer (.struct "node")) address ∧
      sameType nodePointer.type address.type = false) ∧
    ∃ long longLong : ObjectInfo,
      Derives (fun _ => none) nodeFile (.pointer (.scalar .long)) long ∧
      Derives (fun _ => none) nodeFile (.pointer (.scalar .longLong)) longLong ∧
      sameType long.type longLong.type = true := by
  constructor
  · have node : Derives (fun _ => none) nodeFile (.struct "node")
        ⟨⟨⟨.aggregate, 8, false, "node"⟩, "node", none⟩, false, 0⟩ :=
      derives_plain .struct "node" ⟨0, none⟩ (by decide) rfl rfl
    exact ⟨_, nodePointer_derives, .addressed node rfl, by decide⟩
  · exact ⟨_, _, derives_plain .long "" ⟨1, none⟩ (by decide) rfl rfl,
      derives_plain .longLong "" ⟨1, none⟩ (by decide) rfl rfl, by decide⟩

end HitSimple.CCompat

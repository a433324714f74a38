import HitSimple.Codegen.ViewReading

namespace HitSimple.Codegen
open FixedWidth Sema

/-- The storage of every name and of every member is as long as its declaration says. -/
structure Places (scope : Scope) (context : Context) : Prop where
  symbol : ∀ name symbol storage, scope.lookup name = some symbol →
    context.storage symbol.binding.bindingName = some storage →
      symbol.byteLength ≤ storage.byteLength
  member : ∀ object path reference storage, scope.resolveMember object path = .ok reference →
    context.storage reference.binding.bindingName = some storage →
      reference.offset + reference.byteLength ≤ storage.byteLength

/-- The bytes at an offset of a name lie in its storage. -/
def Context.Holds (context : Context) (binding : Hir.Binding) (byteLength offset : Nat) : Prop :=
  ∀ storage, context.storage binding.bindingName = some storage →
    offset + byteLength ≤ storage.byteLength

theorem Places.holds {scope : Scope} {context : Context} (places : Places scope context) :
    HoldsOfReferences scope context.Holds := by
  intro source reference resolved
  induction source generalizing reference with
  | identifier name =>
      unfold resolveAddressableReference at resolved
      split at resolved
      · cases resolved
      next symbol found =>
        cases resolved
        intro storage kept
        rw [Nat.zero_add]
        exact places.symbol name symbol storage found kept
  | asView operand templateName ih =>
      unfold resolveAddressableReference at resolved
      split at resolved
      · cases resolved
      · cases resolved
      next found =>
        have held := ih _ found
        split at resolved
        · cases resolved
          exact held
        split at resolved
        · cases resolved
        split at resolved
        · cases resolved
        · cases resolved
          exact held
  | member object path =>
      unfold resolveAddressableReference at resolved
      split at resolved
      · cases resolved
      next found =>
        cases resolved
        exact fun storage kept => places.member object path reference storage found kept
  | _ => cases resolved

/-! ### Constant offsets -/

/-- The length of the View an expression is read from. -/
def viewByteLength : Hir.Expr → Nat
  | .templateView operand _ => viewByteLength operand
  | expression => expression.byteLength

/-- Whether a View keeps the number it was built from when it is extended to another length. -/
def KeepsNumber (number : Option Int) (byteLength requested : Nat) (isUnsigned : Bool) : Prop :=
  requested ≤ byteLength ∨
    ∀ value, number = some value → reading isUnsigned (BitVec.ofInt (byteLength * 8) value) = value

/-- Whether the code of a constant offset, requested at a length, computes the number of its text:
no literal and no negation of one is extended as another number. -/
def ReadsOffset : Hir.Expr → Nat → Bool → Prop
  | .integerLiteral text result, requested, isUnsigned =>
      KeepsNumber (knownSignedAddressOffset (.integerLiteral text result)) result.staticByteLength
        requested isUnsigned
  | .unary op operand result, requested, isUnsigned =>
      ReadsOffset operand result.staticByteLength isUnsigned ∧
        KeepsNumber (knownSignedAddressOffset (.unary op operand result)) result.staticByteLength
          requested isUnsigned
  | .templateView operand _, requested, isUnsigned =>
      ReadsOffset operand (viewByteLength operand) operand.result.sourceUsesZeroExtension ∧
        KeepsNumber (knownSignedAddressOffset operand) (viewByteLength operand) requested isUnsigned
  | _, _, _ => True

section Offsets
variable {context : Context}

theorem KeepsNumber.resize_eq {byteLength requested : Nat} {isUnsigned : Bool} {value : Int}
    (keeps : KeepsNumber (some value) byteLength requested isUnsigned) :
    resize isUnsigned (requested * 8) (BitVec.ofInt (byteLength * 8) value) =
      BitVec.ofInt (requested * 8) value := by
  rcases keeps with shorter | same
  · have narrower : requested * 8 ≤ byteLength * 8 := Nat.mul_le_mul_right 8 shorter
    rw [resize_of_le isUnsigned _ narrower, setWidth_ofInt_of_le value narrower]
  · rw [resize_eq_ofInt, same value rfl]

theorem KeepsNumber.ofInt_of_empty {requested : Nat} {isUnsigned : Bool} {value : Int}
    (keeps : KeepsNumber (some value) 0 requested isUnsigned) :
    BitVec.ofInt (requested * 8) value = 0#_ := by
  have empty : BitVec.ofInt (0 * 8) value = 0#_ := BitVec.of_length_zero
  have zero : reading isUnsigned (0#(0 * 8)) = 0 := by cases isUnsigned <;> rfl
  rw [← keeps.resize_eq, empty, resize_eq_ofInt, zero, BitVec.ofInt_ofNat]

/-- The code that computes a number at a length. -/
def numberCode (value : Int) (byteLength : Nat) : IntegerCode where
  width := byteLength * 8
  run := return BitVec.ofInt (byteLength * 8) value

theorem KeepsNumber.resize_code {byteLength requested : Nat} {isUnsigned : Bool} {value : Int}
    (keeps : KeepsNumber (some value) byteLength requested isUnsigned) :
    (numberCode value byteLength).resize isUnsigned (requested * 8) =
      numberCode value requested := by
  simp only [IntegerCode.resize, numberCode, map_pure, keeps.resize_eq]

/-- What is known of the code of an offset: its integers and its View hold the number. -/
structure ComputesNumber (context : Context) (expression : Hir.Expr) (value : Int) : Prop where
  integer : ∀ requested isUnsigned code, ReadsOffset expression requested isUnsigned →
    (exprCode context expression).integer requested isUnsigned = .ok code →
      code = numberCode value requested
  view : ∀ view,
    ReadsOffset expression (viewByteLength expression) expression.result.sourceUsesZeroExtension →
    (exprCode context expression).view = .ok view →
      view.byteLength = viewByteLength expression ∧
        loadView context view (viewByteLength expression) =
          return BitVec.ofInt (viewByteLength expression * 8) value

theorem view_of_materialize {value : Emission IntegerCode} {byteLength : Nat} {view : ViewCode}
    (emitted : materialize context value byteLength = .ok view) :
    ∃ code, value = .ok code ∧ view.byteLength = byteLength ∧
      view = {
        byteLength
        requiresAccessCheck := false
        run := do return .temporary (byteAt (← code.run)) } := by
  obtain ⟨⟨⟩, -, rest⟩ := emission_bind_eq_ok emitted
  obtain ⟨code, found, built⟩ := emission_bind_eq_ok rest
  cases built
  exact ⟨code, found, rfl, rfl⟩

/-- The View of a node that is only an integer is built from the integer at its own length. -/
theorem ComputesNumber.of_integer {expression : Hir.Expr} {value : Int}
    {integer : Nat → Bool → Emission IntegerCode}
    (code : exprCode context expression = integerExprCode context expression integer)
    (own : viewByteLength expression = expression.byteLength)
    (computes : ∀ requested isUnsigned code, ReadsOffset expression requested isUnsigned →
      integer requested isUnsigned = .ok code → code = numberCode value requested) :
    ComputesNumber context expression value where
  integer := by
    rw [code]
    exact computes
  view := by
    intro view reads emitted
    rw [own] at reads ⊢
    simp only [code, integerExprCode] at emitted
    split at emitted
    · cases emitted
    · obtain ⟨word, found, length, rfl⟩ := view_of_materialize emitted
      obtain rfl := computes _ _ _ reads found
      exact ⟨length, loadView_temporary _ _⟩

theorem computesNumber_literal {text : Literal.Spelling} {result : ViewSemantics} {value : Int}
    (known : knownSignedAddressOffset (.integerLiteral text result) = some value) :
    ComputesNumber context (.integerLiteral text result) value := by
  refine .of_integer rfl rfl fun requested isUnsigned code reads emitted => ?_
  simp only [ReadsOffset, known] at reads
  obtain ⟨⟨⟩, -, rest⟩ := emission_bind_eq_ok emitted
  simp only [knownSignedAddressOffset] at known
  cases parsed : Literal.parseUnsignedIntegerLiteral text with
  | none =>
      rw [parsed] at known
      cases known
  | some magnitude =>
      simp only [parsed] at known rest
      split at known
      · cases known
      · cases known
        cases rest
        rw [← reads.resize_code]
        simp only [numberCode, BitVec.ofInt_natCast]

theorem computesNumber_unary {op : Hir.UnaryOperator} {operand : Hir.Expr}
    {result : ViewSemantics} {value : Int}
    (ih : ∀ inner, knownSignedAddressOffset operand = some inner →
      ComputesNumber context operand inner)
    (known : knownSignedAddressOffset (.unary op operand result) = some value) :
    ComputesNumber context (.unary op operand result) value := by
  refine .of_integer rfl rfl fun requested isUnsigned code reads emitted => ?_
  obtain ⟨operandReads, keeps⟩ := reads
  rw [known] at keeps
  simp only [knownSignedAddressOffset] at known
  split at known
  · cases known
  next inner found =>
    split at known
    next negated =>
      obtain ⟨rfl, -⟩ := negated
      cases known
      obtain ⟨⟨⟩, -, rest⟩ := emission_bind_eq_ok emitted
      rw [if_neg (by decide)] at rest
      obtain ⟨operandCode, operandEmitted, built⟩ := emission_bind_eq_ok rest
      obtain rfl := (ih inner found).integer _ _ _ operandReads operandEmitted
      cases built
      rw [← keeps.resize_code]
      simp only [numberCode, if_pos, map_pure, BitVec.ofInt_neg]
      rfl
    · cases known

theorem computesNumber_templateView {operand : Hir.Expr} {result : ViewSemantics} {value : Int}
    (ih : ComputesNumber context operand value)
    (known : knownSignedAddressOffset operand = some value) :
    ComputesNumber context (.templateView operand result) value := by
  have view : (exprCode context (.templateView operand result)).view =
      (exprCode context operand).view := by
    simp only [exprCode, templateViewExprCode]
    split <;> rfl
  have integer (byteLength : Nat) (isUnsigned : Bool) :
      (exprCode context (.templateView operand result)).integer byteLength isUnsigned = (do
        context.integerType byteLength
        integerOfView context (exprCode context operand).view byteLength isUnsigned) := by
    simp only [exprCode, templateViewExprCode]
    split <;> rfl
  constructor
  · intro requested isUnsigned code reads emitted
    obtain ⟨operandReads, keeps⟩ := reads
    rw [integer] at emitted
    obtain ⟨⟨⟩, -, read⟩ := emission_bind_eq_ok emitted
    obtain ⟨source, found, rest⟩ := emission_bind_eq_ok read
    obtain ⟨length, contents⟩ := ih.view source operandReads found
    rw [known] at keeps
    obtain ⟨own, isRequired, run⟩ := source
    obtain rfl : own = viewByteLength operand := length
    split at rest
    next empty =>
      cases rest
      rw [show viewByteLength operand = 0 from empty] at keeps
      rw [numberCode, keeps.ofInt_of_empty]
    next =>
      obtain ⟨⟨⟩, -, built⟩ := emission_bind_eq_ok rest
      cases built
      rw [contents]
      exact keeps.resize_code
  · intro source reads emitted
    rw [view] at emitted
    exact ih.view source reads.1 emitted

/-- Every known offset is computed by its code, as far as that reads it as it stands. -/
theorem computesNumber_of_known : ∀ {expression : Hir.Expr} {value : Int},
    knownSignedAddressOffset expression = some value → ComputesNumber context expression value
  | .integerLiteral .., _, known => computesNumber_literal known
  | .unary .., _, known => computesNumber_unary (fun _ found => computesNumber_of_known found) known
  | .templateView .., _, known => computesNumber_templateView (computesNumber_of_known known) known
  | .characterLiteral .., _, known | .stringLiteral .., _, known | .floatLiteral .., _, known
  | .variableRef .., _, known | .addressOf .., _, known | .deref .., _, known
  | .booleanTest .., _, known | .binary .., _, known | .ternary .., _, known
  | .unsigned .., _, known | .integerCast .., _, known | .toFloat .., _, known
  | .floatBinary .., _, known | .floatCompare .., _, known | .call .., _, known
  | .assignment .., _, known => by cases known

end Offsets

/-! ### Address chains -/

/-- The operation an address is computed with as an integer: an addition, or a subtraction of
zero. -/
def AddsOffset (op : BinaryOperator) (value : Int) : Prop :=
  op = .add ∨ (op = .subtract ∧ value = 0)

/-- Whether the code of an address adds the offsets that its text shows.  As an integer an address
is computed by the plain operation, whose right operand a subtraction has negated before. -/
def OffsetsRead : Hir.Expr → Bool → Prop
  | .addressOf _ _ offset _, _ => offset < 2 ^ 63
  | .unsigned operand _, _ | .integerCast operand _ _, _ => OffsetsRead operand true
  | .templateView operand _, asInteger =>
      OffsetsRead operand (asInteger || operand.result.category != .address)
  | .binary left _ right result _ (some _), asInteger =>
      OffsetsRead left false ∧
        (asInteger = true → pointerByteLength ≤ result.staticByteLength) ∧
        ReadsOffset right right.byteLength right.result.sourceUsesZeroExtension ∧
        ∀ value, knownSignedAddressOffset right = some value →
          0 ≤ (BitVec.ofInt (right.byteLength * 8) value).toInt →
            (BitVec.ofInt (right.byteLength * 8) value).toInt = value
  | .binary left _ right _ _ none, false =>
      OffsetsRead left false ∧
        ReadsOffset right pointerByteLength right.result.sourceUsesZeroExtension
  | .binary left op right result _ none, true =>
      OffsetsRead left true ∧ pointerByteLength ≤ result.staticByteLength ∧
        (∀ value, knownSignedAddressOffset right = some value → AddsOffset op.symbol value) ∧
        ReadsOffset right result.staticByteLength right.isUnsigned
  | _, _ => True

/-- Every word that a run returns holds the location in its low bits. -/
def Locates (location : BitVec 64) {width : Nat} (run : Run (BitVec width)) : Prop :=
  ∀ before word after, run before = .ok (word, after) → word.setWidth 64 = location

section Locations
variable {context : Context} {location : BitVec 64}

theorem bits_of_pointerByteLength {byteLength : Nat} (wide : pointerByteLength ≤ byteLength) :
    64 ≤ byteLength * 8 :=
  Nat.mul_le_mul_right 8 wide

theorem Locates.resize {width newWidth : Nat} {run : Run (BitVec width)}
    (located : Locates location run) (wide : 64 ≤ width) (isUnsigned : Bool)
    (kept : 64 ≤ newWidth) :
    Locates location (FixedWidth.resize isUnsigned newWidth <$> run) := by
  intro before word after ran
  rw [map_run] at ran
  cases inner : run before with
  | error fault =>
      rw [inner] at ran
      cases ran
  | ok outcome =>
      rw [inner] at ran
      cases ran
      rw [setWidth_resize isUnsigned _ wide kept]
      exact located before outcome.1 outcome.2 inner

theorem Locates.typed {code : IntegerCode} (located : Locates location code.run) {width : Nat}
    {run : Run (BitVec width)} (emitted : code.typed width = .ok run) : Locates location run := by
  obtain ⟨own, inner⟩ := code
  unfold IntegerCode.typed at emitted
  split at emitted
  next same =>
    subst same
    cases emitted
    exact located
  · cases emitted

theorem locates_pointerOfInteger {value : Emission IntegerCode}
    (located : ∀ code, value = .ok code → Locates location code.run)
    {run : Run (BitVec 64)} (emitted : pointerOfInteger value = .ok run) :
    Locates location run := by
  obtain ⟨code, found, typed⟩ := emission_bind_eq_ok emitted
  exact (located code found).typed typed

/-- The sum of two located words, at any width that holds an address. -/
theorem Locates.add {width : Nat} (wide : 64 ≤ width) {offset : BitVec 64}
    {left right : Run (BitVec width)} (leftLocated : Locates location left)
    (rightLocated : Locates offset right) :
    Locates (location + offset) (do return (← left) + (← right)) := by
  intro before word after ran
  obtain ⟨first, middle, leftRan, rest⟩ := run_bind_eq_ok ran
  obtain ⟨second, last, rightRan, sum⟩ := run_bind_eq_ok rest
  cases sum
  rw [BitVec.setWidth_add _ _ wide, leftLocated before first middle leftRan,
    rightLocated middle second after rightRan]

/-- The code of an address, where its integer and its View are asked for. -/
structure LocatesInteger (context : Context) (location : BitVec 64) (expression : Hir.Expr) :
    Prop where
  integer : ∀ requested isUnsigned code, pointerByteLength ≤ requested →
    (exprCode context expression).integer requested isUnsigned = .ok code →
      Locates location code.run
  view : ∀ view, (exprCode context expression).view = .ok view →
    pointerByteLength ≤ view.byteLength ∧ Locates location (loadView context view view.byteLength)

def LocatesPointer (context : Context) (location : BitVec 64) (expression : Hir.Expr) : Prop :=
  ∀ run, (exprCode context expression).pointer = .ok run → Locates location run

/-- The code of an address in one of the two ways it is asked for. -/
def LocatesAs (context : Context) (location : BitVec 64) (expression : Hir.Expr) : Bool → Prop
  | true => LocatesInteger context location expression
  | false => LocatesPointer context location expression

theorem locatesAs_of_both {expression : Hir.Expr}
    (pointer : LocatesPointer context location expression)
    (integer : LocatesInteger context location expression) (asInteger : Bool) :
    LocatesAs context location expression asInteger := by
  cases asInteger with
  | true => exact integer
  | false => exact pointer

theorem width_of_integer {expression : Hir.Expr} {requested : Nat} {isUnsigned : Bool}
    {code : IntegerCode}
    (emitted : (exprCode context expression).integer requested isUnsigned = .ok code) :
    code.width = requested * 8 :=
  (exprCode_meetsRequests context expression).width requested isUnsigned code emitted

/-- A node whose View is built from its integer. -/
theorem LocatesInteger.of_integer {expression : Hir.Expr}
    (wide : pointerByteLength ≤ expression.byteLength)
    (view : (exprCode context expression).view =
      if expression.byteLength = 0 then unsupported "cannot materialize a zero-length fixed View"
      else materialize context ((exprCode context expression).integer expression.byteLength
        expression.result.sourceUsesZeroExtension) expression.byteLength)
    (integer : ∀ requested isUnsigned code, pointerByteLength ≤ requested →
      (exprCode context expression).integer requested isUnsigned = .ok code →
        Locates location code.run) :
    LocatesInteger context location expression where
  integer := integer
  view := by
    intro source emitted
    rw [view] at emitted
    split at emitted
    · cases emitted
    · obtain ⟨code, found, length, rfl⟩ := view_of_materialize emitted
      refine ⟨wide, ?_⟩
      have located := integer _ _ code wide found
      have width := width_of_integer found
      obtain ⟨own, run⟩ := code
      obtain rfl : own = expression.byteLength * 8 := width
      rw [loadView_temporary]
      exact located

theorem locates_integerOfView {view : Emission ViewCode}
    (located : ∀ source, view = .ok source → pointerByteLength ≤ source.byteLength ∧
      Locates location (loadView context source source.byteLength))
    {requested : Nat} (wide : pointerByteLength ≤ requested) {isUnsigned : Bool}
    {code : IntegerCode}
    (emitted : integerOfView context view requested isUnsigned = .ok code) :
    Locates location code.run := by
  obtain ⟨source, found, rest⟩ := emission_bind_eq_ok emitted
  obtain ⟨length, contents⟩ := located source found
  have positive : 0 < pointerByteLength := by decide
  rw [if_neg (by omega)] at rest
  obtain ⟨⟨⟩, -, built⟩ := emission_bind_eq_ok rest
  cases built
  exact contents.resize (bits_of_pointerByteLength length) isUnsigned
    (bits_of_pointerByteLength wide)

end Locations

section Chains
variable {context : Context} {location : BitVec 64}

/-- The storage of a name whose access is not checked is at its definition address. -/
theorem locates_bindingPointer {storage : Storage} (internal : storage.requiresAccessCheck = false)
    (name : String) (offset : Nat) :
    Locates (storage.address + BitVec.ofInt 64 (toInt64 offset))
      (bindingPointer storage name offset) := by
  have notRebound : storage.isRebound = false := (Bool.or_eq_false_iff.mp internal).1
  intro before word after ran
  rw [bindingPointer, notRebound] at ran
  cases ran
  rw [toInt64, BitVec.ofInt_toInt]
  exact BitVec.setWidth_eq _

theorem locates_addressOf {binding : Hir.Binding} {targetByteLength offset : Nat}
    {result : ViewSemantics} {storage : Storage}
    (found : context.storage binding.bindingName = some storage)
    (internal : storage.requiresAccessCheck = false)
    (length : result.staticByteLength = pointerByteLength) (asInteger : Bool) :
    LocatesAs context (storage.address + BitVec.ofInt 64 (toInt64 offset))
      (.addressOf binding targetByteLength offset result) asInteger := by
  have emission : emitAddressOf context binding offset =
      .ok (bindingPointer storage binding.bindingName offset) := by
    simp only [emitAddressOf, Context.findStorage, found, emission_ok_bind, emission_pure]
  have located := locates_bindingPointer internal binding.bindingName offset
  have wide : pointerByteLength ≤
      (Hir.Expr.addressOf binding targetByteLength offset result).byteLength := length.ge
  refine locatesAs_of_both ?_ (.of_integer wide rfl ?_) asInteger
  · intro run emitted
    rw [show (exprCode context (.addressOf binding targetByteLength offset result)).pointer =
      emitAddressOf context binding offset from rfl, emission] at emitted
    cases emitted
    exact located
  · intro requested isUnsigned code wide emitted
    obtain ⟨⟨⟩, -, rest⟩ := emission_bind_eq_ok emitted
    rw [emission] at rest
    cases rest
    exact located.resize le_rfl true (bits_of_pointerByteLength wide)

theorem locates_unsigned {operand : Hir.Expr} {result : ViewSemantics}
    (located : LocatesInteger context location operand) (asInteger : Bool) :
    LocatesAs context location (.unsigned operand result) asInteger := by
  have view (source : ViewCode)
      (emitted : (exprCode context (.unsigned operand result)).view = .ok source) :
      pointerByteLength ≤ source.byteLength ∧
        Locates location (loadView context source source.byteLength) := by
    obtain ⟨inner, found, copied⟩ := emission_bind_eq_ok emitted
    cases copied
    rw [copyView, loadView_temporary]
    exact located.view inner found
  refine locatesAs_of_both ?_ ⟨?_, view⟩ asInteger
  · intro run emitted
    refine locates_pointerOfInteger (fun code found => ?_) emitted
    obtain ⟨⟨⟩, -, rest⟩ := emission_bind_eq_ok found
    exact locates_integerOfView view le_rfl rest
  · intro requested isUnsigned code wide emitted
    obtain ⟨⟨⟩, -, rest⟩ := emission_bind_eq_ok emitted
    exact locates_integerOfView view wide rest

theorem locates_templateView {operand : Hir.Expr} {result : ViewSemantics} {asInteger : Bool}
    (located : LocatesAs context location operand
      (asInteger || operand.result.category != .address)) :
    LocatesAs context location (.templateView operand result) asInteger := by
  have code : exprCode context (.templateView operand result) =
      templateViewExprCode context (.templateView operand result) operand
        (exprCode context operand) := by rw [exprCode]
  have view : (exprCode context (.templateView operand result)).view =
      (exprCode context operand).view := by
    rw [code, templateViewExprCode]
    split <;> rfl
  have integer (byteLength : Nat) (isUnsigned : Bool) :
      (exprCode context (.templateView operand result)).integer byteLength isUnsigned = (do
        context.integerType byteLength
        integerOfView context (exprCode context operand).view byteLength isUnsigned) := by
    rw [code, templateViewExprCode]
    split <;> rfl
  cases asInteger with
  | true =>
      have located : LocatesInteger context location operand := located
      refine ⟨fun requested isUnsigned code wide emitted => ?_, ?_⟩
      · rw [integer] at emitted
        obtain ⟨⟨⟩, -, rest⟩ := emission_bind_eq_ok emitted
        exact locates_integerOfView located.view wide rest
      · rw [view]
        exact located.view
  | false =>
      intro run emitted
      rw [code, templateViewExprCode] at emitted
      split at emitted
      next address =>
        have same : (operand.result.category != .address) = false := by simp [address]
        rw [Bool.false_or, same] at located
        exact located run emitted
      next other =>
        have different : (operand.result.category != .address) = true := by simp [other]
        rw [Bool.false_or, different] at located
        have located : LocatesInteger context location operand := located
        refine locates_pointerOfInteger (fun code found => ?_) emitted
        obtain ⟨⟨⟩, -, rest⟩ := emission_bind_eq_ok found
        exact locates_integerOfView located.view le_rfl rest

theorem locates_integerCast {operand : Hir.Expr} {isSigned : Bool} {result : ViewSemantics}
    (length : result.staticByteLength = pointerByteLength)
    (operandLength : operand.byteLength = pointerByteLength)
    (located : LocatesInteger context location operand) (asInteger : Bool) :
    LocatesAs context location (.integerCast operand isSigned result) asInteger := by
  have integer (requested : Nat) (isUnsigned : Bool) (code : IntegerCode)
      (wide : pointerByteLength ≤ requested)
      (emitted : (exprCode context (.integerCast operand isSigned result)).integer requested
        isUnsigned = .ok code) : Locates location code.run := by
    obtain ⟨⟨⟩, -, rest⟩ := emission_bind_eq_ok emitted
    obtain ⟨source, found, resized⟩ := emission_bind_eq_ok rest
    obtain ⟨⟨⟩, -, built⟩ := emission_bind_eq_ok resized
    cases built
    have width : 64 ≤ source.width := by
      rw [width_of_integer found]
      exact bits_of_pointerByteLength operandLength.ge
    have inner := located.integer _ _ _ operandLength.ge found
    have own := bits_of_pointerByteLength length.ge
    exact (inner.resize width _ own).resize own _ (bits_of_pointerByteLength wide)
  have wide : pointerByteLength ≤ (Hir.Expr.integerCast operand isSigned result).byteLength :=
    length.ge
  refine locatesAs_of_both ?_ (.of_integer wide rfl integer) asInteger
  intro run emitted
  have emitted : pointerOfInteger ((exprCode context (.integerCast operand isSigned result)).integer
      pointerByteLength result.sourceUsesZeroExtension) = .ok run := emitted
  exact locates_pointerOfInteger (fun code found => integer _ _ code le_rfl found) emitted

/-- An offset without bounds is its number as an address. -/
theorem locates_plainOffset {right : Hir.Expr} {value : Int}
    (known : knownSignedAddressOffset right = some value)
    (reads : ReadsOffset right pointerByteLength right.result.sourceUsesZeroExtension)
    {offset : Run (BitVec 64)}
    (emitted : emitByteOffset context right (exprCode context right) none = .ok offset) :
    Locates (BitVec.ofInt 64 value) offset := by
  obtain ⟨code, found, typed⟩ := emission_bind_eq_ok emitted
  obtain rfl := (computesNumber_of_known known).integer _ _ _ reads found
  rw [show numberCode value pointerByteLength = IntegerCode.mk 64 (return BitVec.ofInt 64 value)
    from rfl, IntegerCode.typed_self] at typed
  cases typed
  intro before word after ran
  cases ran
  exact BitVec.setWidth_eq _

/-- An offset with bounds passes their check as it is read at its own length. -/
theorem locates_boundedOffset (checked : context.checked = true) {right : Hir.Expr}
    {bounds : Hir.ViewOffsetBounds} {value : Int}
    (known : knownSignedAddressOffset right = some value)
    (reads : ReadsOffset right right.byteLength right.result.sourceUsesZeroExtension)
    (keeps : 0 ≤ (BitVec.ofInt (right.byteLength * 8) value).toInt →
      (BitVec.ofInt (right.byteLength * 8) value).toInt = value)
    {offset : Run (BitVec 64)}
    (emitted : emitByteOffset context right (exprCode context right) (some bounds) = .ok offset) :
    Locates (BitVec.ofInt 64 value) offset := by
  obtain ⟨code, found, built⟩ := emission_bind_eq_ok emitted
  obtain rfl := (computesNumber_of_known known).integer _ _ _ reads found
  cases built
  intro before word after ran
  obtain ⟨pattern, middle, read, rest⟩ := run_bind_eq_ok ran
  cases read
  rw [checked] at rest
  simp only [Bool.true_and] at rest
  split at rest
  · cases rest
  next passed =>
    cases rest
    have wide : right.byteLength * 8 ≤ max 64 (right.byteLength * 8) := le_max_right _ _
    have signed : (resize false (max 64 (right.byteLength * 8))
        (BitVec.ofInt (right.byteLength * 8) value)).toInt =
          (BitVec.ofInt (right.byteLength * 8) value).toInt := reading_resize_of_le false _ wide
    have number : resize false (max 64 (right.byteLength * 8))
        (BitVec.ofInt (right.byteLength * 8) value) =
          BitVec.ofInt (max 64 (right.byteLength * 8)) value := by
      rw [resize_eq_ofInt, reading_false, keeps]
      rw [← signed]
      simp only [Bool.not_eq_true', Bool.not_eq_false, Bool.and_eq_true, decide_eq_true_eq]
        at passed
      exact passed.1.2
    rw [if_pos trivial, BitVec.setWidth_eq]
    exact (congrArg (BitVec.setWidth 64) number).trans
      (setWidth_ofInt_of_le value (le_max_left _ _))

end Chains

section Binary
variable {context : Context} {location : BitVec 64} {left right : Hir.Expr} {op : OperatorSpelling}
  {result : ViewSemantics} {bounds : Option Hir.ViewOffsetBounds}

theorem locates_addressOffset {offset : BitVec 64}
    (leftLocated : LocatesPointer context location left)
    (rightLocated : ∀ run,
      emitByteOffset context right (exprCode context right) bounds = .ok run → Locates offset run)
    {run : Run (BitVec 64)}
    (emitted : emitAddressOffset context right (exprCode context left) (exprCode context right)
      bounds = .ok run) : Locates (location + offset) run := by
  obtain ⟨base, baseFound, rest⟩ := emission_bind_eq_ok emitted
  obtain ⟨moved, movedFound, built⟩ := emission_bind_eq_ok rest
  cases built
  exact (leftLocated base baseFound).add le_rfl (rightLocated moved movedFound)

theorem AddsOffset.integerInstruction_eq {symbol : BinaryOperator} {value : Int}
    (adds : AddsOffset symbol value) (checked rightUnsigned isUnsigned : Bool) {width : Nat}
    (base : BitVec width) :
    integerInstruction checked rightUnsigned symbol isUnsigned base (BitVec.ofInt width value) =
      .ok (base + BitVec.ofInt width value) := by
  rcases adds with rfl | ⟨rfl, rfl⟩
  · simp [integerInstruction, checkOperand, arithmetic, BinaryOperator.isDivision]
  · simp [integerInstruction, checkOperand, arithmetic, BinaryOperator.isDivision]

theorem AddsOffset.not_isLogical {symbol : BinaryOperator} {value : Int}
    (adds : AddsOffset symbol value) : symbol.isLogical = false := by
  rcases adds with rfl | ⟨rfl, -⟩ <;> rfl

theorem AddsOffset.not_isComparison {symbol : BinaryOperator} {value : Int}
    (adds : AddsOffset symbol value) : symbol.isComparison = false := by
  rcases adds with rfl | ⟨rfl, -⟩ <;> rfl

theorem AddsOffset.locates {symbol : BinaryOperator} {value : Int} (adds : AddsOffset symbol value)
    {width : Nat} (wide : 64 ≤ width) {base : Run (BitVec width)} (located : Locates location base)
    (checked rightUnsigned isUnsigned : Bool) :
    Locates (location + BitVec.ofInt 64 value) (do
      let left ← base
      let rightOperand ← pure (BitVec.ofInt width value)
      liftM (integerInstruction checked rightUnsigned symbol isUnsigned left rightOperand)) := by
  intro before word after ran
  obtain ⟨pattern, middle, leftRan, rest⟩ := run_bind_eq_ok ran
  rw [pure_bind, adds.integerInstruction_eq] at rest
  cases rest
  rw [BitVec.setWidth_add _ _ wide, located before pattern _ leftRan, setWidth_ofInt_of_le _ wide]

theorem locates_integerBinary {value : Int} (known : knownSignedAddressOffset right = some value)
    (adds : AddsOffset op.symbol value)
    (wide : pointerByteLength ≤ result.staticByteLength)
    (reads : ReadsOffset right result.staticByteLength right.isUnsigned)
    (located : LocatesInteger context location left) {requested : Nat}
    (requestedWide : pointerByteLength ≤ requested) {code : IntegerCode}
    (emitted : emitIntegerBinary context op left right (exprCode context left)
      (exprCode context right) result requested = .ok code) :
    Locates (location + BitVec.ofInt 64 value) code.run := by
  have width : operationByteLength op left right result = result.staticByteLength := by
    rw [operationByteLength, adds.not_isComparison]
    rfl
  unfold emitIntegerBinary at emitted
  dsimp only at emitted
  rw [width, adds.not_isComparison] at emitted
  obtain ⟨⟨⟩, -, rest⟩ := emission_bind_eq_ok emitted
  obtain ⟨leftCode, leftFound, rest⟩ := emission_bind_eq_ok rest
  obtain ⟨leftRun, leftTyped, rest⟩ := emission_bind_eq_ok rest
  obtain ⟨rightCode, rightFound, rest⟩ := emission_bind_eq_ok rest
  obtain ⟨rightRun, rightTyped, built⟩ := emission_bind_eq_ok rest
  obtain rfl := (computesNumber_of_known known).integer _ _ _ reads rightFound
  rw [numberCode, IntegerCode.typed_self] at rightTyped
  cases rightTyped
  have base := (located.integer _ _ _ wide leftFound).typed leftTyped
  cases built
  have own := bits_of_pointerByteLength wide
  have sum := adds.locates own base context.checked right.isUnsigned
    (unsignedOperation op left right)
  exact sum.resize own _ (bits_of_pointerByteLength requestedWide)

theorem addKnownAddressOffset_eq {first second sum : Int}
    (added : addKnownAddressOffset first second = some sum) : sum = first + second := by
  unfold addKnownAddressOffset at added
  split at added
  · cases added
  · cases added
    rfl

/-- A chain is known where its base and its last offset are. -/
theorem knownAddressRange_binary {range : KnownAddressRange}
    (known : knownAddressRange context (.binary left op right result .addressOffset bounds) =
      some range) :
    ∃ inner value, knownAddressRange context left = some inner ∧
      knownSignedAddressOffset right = some value ∧
      addKnownAddressOffset inner.offset value = some (inner.offset + value) ∧
      range = { inner with offset := inner.offset + value } := by
  simp only [knownAddressRange] at known
  split at known
  next contradictory => exact absurd trivial contradictory.1
  · split at known
    next inner value leftKnown rightKnown =>
      rw [if_neg (fun contradictory => contradictory.1 trivial), Option.map_eq_some_iff] at known
      obtain ⟨sum, added, rfl⟩ := known
      have exact := addKnownAddressOffset_eq added
      exact ⟨inner, value, leftKnown, rightKnown, exact ▸ added, by rw [exact]⟩
    · cases known

theorem addressOffset_code :
    exprCode context (.binary left op right result .addressOffset bounds) =
      { integerExprCode context (.binary left op right result .addressOffset bounds)
          (fun byteLength _ => emitBinary context left op right result .addressOffset bounds
            (exprCode context left) (exprCode context right) byteLength) with
        pointer := emitAddressOffset context right (exprCode context left)
          (exprCode context right) bounds } := by
  rw [exprCode, binaryExprCode, if_pos rfl]

theorem OffsetsRead.of_binary {kind : Hir.StandardOperationKind} {asInteger : Bool}
    (reads : OffsetsRead (.binary left op right result kind bounds) asInteger) :
    OffsetsRead left (asInteger && bounds.isNone) := by
  cases bounds with
  | some bounds =>
      rw [Option.isNone_some, Bool.and_false]
      exact reads.1
  | none =>
      cases asInteger with
      | true => exact reads.1
      | false => exact reads.1

/-- One offset of a chain moves the location by its number. -/
theorem locates_binary (checked : context.checked = true) {value : Int}
    (known : knownSignedAddressOffset right = some value) {asInteger : Bool}
    (reads : OffsetsRead (.binary left op right result .addressOffset bounds) asInteger)
    (located : LocatesAs context location left (asInteger && bounds.isNone)) :
    LocatesAs context (location + BitVec.ofInt 64 value)
      (.binary left op right result .addressOffset bounds) asInteger := by
  cases bounds with
  | some bounds =>
      rw [Option.isNone_some, Bool.and_false] at located
      obtain ⟨-, wide, offsetReads, keeps⟩ := reads
      have pointer (run : Run (BitVec 64))
          (emitted : emitAddressOffset context right (exprCode context left)
            (exprCode context right) (some bounds) = .ok run) :
          Locates (location + BitVec.ofInt 64 value) run :=
        locates_addressOffset located (fun _ offset =>
          locates_boundedOffset checked known offsetReads (keeps value known) offset) emitted
      cases asInteger with
      | false =>
          intro run emitted
          rw [addressOffset_code] at emitted
          exact pointer run emitted
      | true =>
          refine .of_integer (wide rfl) (by rw [addressOffset_code]; rfl) ?_
          intro requested isUnsigned code requestedWide emitted
          rw [addressOffset_code] at emitted
          obtain ⟨⟨⟩, -, rest⟩ := emission_bind_eq_ok emitted
          rw [Option.isSome_some, if_pos rfl, if_pos rfl] at rest
          obtain ⟨run, found, built⟩ := emission_bind_eq_ok rest
          cases built
          exact (pointer run found).resize le_rfl true (bits_of_pointerByteLength requestedWide)
  | none =>
      cases asInteger with
      | false =>
          intro run emitted
          rw [addressOffset_code] at emitted
          exact locates_addressOffset located
            (fun _ offset => locates_plainOffset known reads.2 offset) emitted
      | true =>
          obtain ⟨-, wide, adds, offsetReads⟩ := reads
          refine .of_integer wide (by rw [addressOffset_code]; rfl) ?_
          intro requested isUnsigned code requestedWide emitted
          rw [addressOffset_code] at emitted
          obtain ⟨⟨⟩, -, rest⟩ := emission_bind_eq_ok emitted
          have adds := adds value known
          rw [Option.isSome_none, if_neg Bool.false_ne_true, adds.not_isLogical,
            if_neg Bool.false_ne_true, if_neg (by decide)] at rest
          exact locates_integerBinary known adds wide offsetReads located requestedWide rest

end Binary

/-! ### Elided checks -/

/-- The name whose bytes an address is built on. -/
def namedBinding : Hir.Expr → Option String
  | .addressOf binding _ _ _ => some binding.bindingName
  | .unsigned operand _ | .integerCast operand _ _ | .templateView operand _ =>
      namedBinding operand
  | .binary left _ _ _ _ _ => namedBinding left
  | _ => none

/-- The bytes at a location lie in a storage object. -/
def Storage.Contains (storage : Storage) (location : BitVec 64) (byteLength : Nat) : Prop :=
  ∃ offset, location = storage.address + BitVec.ofNat 64 offset ∧
    offset + byteLength ≤ storage.byteLength

/-- What the elision test knows of an address: an internal object, and bounds on the offset. -/
structure IsKnown (context : Context) (expression : Hir.Expr) (range : KnownAddressRange)
    (storage : Storage) : Prop where
  named : namedBinding expression = some range.bindingName
  stored : context.storage range.bindingName = some storage
  internal : storage.requiresAccessCheck = false
  lower : 0 ≤ range.lowerBound
  upper : range.upperBound ≤ storage.byteLength
  small : range.offset ≤ int64Max

section Elision
variable {context : Context}

theorem addKnownAddressOffset_le {first second sum : Int} (bounded : first ≤ int64Max)
    (added : addKnownAddressOffset first second = some sum) : sum ≤ int64Max := by
  unfold addKnownAddressOffset at added
  split at added
  · cases added
  · cases added
    omega

theorem isKnown_addressOf {binding : Hir.Binding} {targetByteLength offset : Nat}
    {result : ViewSemantics} {range : KnownAddressRange}
    (known : knownAddressRange context (.addressOf binding targetByteLength offset result) =
      some range)
    (internal : targetsRegisteredInternalObject context
      (.addressOf binding targetByteLength offset result) = true)
    (holds : context.Holds binding targetByteLength offset) (below : offset < 2 ^ 63) :
    range = {
        bindingName := binding.bindingName
        offset := toInt64 offset
        lowerBound := toInt64 offset
        upperBound := (offset + targetByteLength) % 2 ^ 64 } ∧
      ∃ storage, IsKnown context (.addressOf binding targetByteLength offset result) range
        storage := by
  simp only [knownAddressRange] at known
  split at known
  · cases known
  cases known
  simp only [targetsRegisteredInternalObject] at internal
  split at internal
  next storage stored =>
    simp only [Bool.and_eq_true, Bool.not_eq_true'] at internal
    have number : toInt64 offset = offset := by
      have own : (BitVec.ofNat 64 offset).toNat = offset := Nat.mod_eq_of_lt (by omega)
      rw [toInt64, BitVec.toInt_eq_toNat_of_lt (by rw [own]; omega), own]
    refine ⟨rfl, storage, rfl, stored, internal.1, ?_, ?_, ?_⟩
    · show 0 ≤ toInt64 offset
      omega
    · exact (Nat.mod_le _ _).trans (holds storage stored)
    · show toInt64 offset ≤ int64Max
      rw [number, int64Max]
      omega
  · cases internal

/-- A node that only passes an address on. -/
theorem IsKnown.of_operand {expression operand : Hir.Expr} {range : KnownAddressRange}
    {storage : Storage} (isKnown : IsKnown context operand range storage)
    (same : namedBinding expression = namedBinding operand) :
    IsKnown context expression range storage :=
  { isKnown with named := same.trans isKnown.named }

/-- A known address is located where the elision test takes it to be. -/
theorem locates_of_known (checked : context.checked = true) :
    ∀ {expression : Hir.Expr} {asInteger : Bool} {range : KnownAddressRange},
      knownAddressRange context expression = some range →
      targetsRegisteredInternalObject context expression = true →
      AddressesSatisfy context.Holds expression → OffsetsRead expression asInteger →
      ∃ storage, IsKnown context expression range storage ∧
        LocatesAs context (storage.address + BitVec.ofInt 64 range.offset) expression asInteger
  | .addressOf binding targetByteLength offset result, asInteger, range, known, internal,
      ⟨length, holds⟩, below => by
      obtain ⟨rfl, storage, isKnown⟩ := isKnown_addressOf known internal holds below
      exact ⟨storage, isKnown, locates_addressOf isKnown.stored isKnown.internal length asInteger⟩
  | .unsigned operand result, asInteger, range, known, internal, satisfied, reads => by
      have known : knownAddressRange context operand = some range := known
      obtain ⟨storage, isKnown, located⟩ := locates_of_known checked known internal satisfied reads
      exact ⟨storage, isKnown.of_operand rfl, locates_unsigned located asInteger⟩
  | .integerCast operand isSigned result, asInteger, range, known, internal, satisfied, reads => by
      simp only [knownAddressRange] at known
      split at known
      · cases known
      next lengths =>
        rw [not_or, not_not, not_not] at lengths
        obtain ⟨storage, isKnown, located⟩ :=
          locates_of_known checked known internal satisfied reads
        have operandLength : operand.byteLength = pointerByteLength := by
          rw [Hir.Expr.byteLength, ViewSemantics.staticByteLength, lengths.2]
        exact ⟨storage, isKnown.of_operand rfl,
          locates_integerCast lengths.1 operandLength located asInteger⟩
  | .templateView operand result, asInteger, range, known, internal, satisfied, reads => by
      have known : knownAddressRange context operand = some range := known
      obtain ⟨storage, isKnown, located⟩ := locates_of_known checked known internal satisfied reads
      exact ⟨storage, isKnown.of_operand rfl, locates_templateView located⟩
  | .binary left op right result kind bounds, asInteger, range, known, internal, satisfied,
      reads => by
      have targets :
          kind = .addressOffset ∧ targetsRegisteredInternalObject context left = true := by
        simpa [targetsRegisteredInternalObject] using internal
      obtain ⟨rfl, leftInternal⟩ := targets
      obtain ⟨inner, value, leftKnown, rightKnown, added, rfl⟩ := knownAddressRange_binary known
      obtain ⟨storage, isKnown, located⟩ :=
        locates_of_known checked leftKnown leftInternal satisfied reads.of_binary
      have moved := locates_binary checked rightKnown reads located
      rw [BitVec.add_assoc, ← BitVec.ofInt_add] at moved
      exact ⟨storage, ⟨isKnown.named, isKnown.stored, isKnown.internal, isKnown.lower,
        isKnown.upper, addKnownAddressOffset_le isKnown.small added⟩, moved⟩
  | .integerLiteral .., _, _, known, _, _, _ | .characterLiteral .., _, _, known, _, _, _
  | .stringLiteral .., _, _, known, _, _, _ | .floatLiteral .., _, _, known, _, _, _
  | .variableRef .., _, _, known, _, _, _ | .deref .., _, _, known, _, _, _
  | .booleanTest .., _, _, known, _, _, _ | .unary .., _, _, known, _, _, _
  | .ternary .., _, _, known, _, _, _ | .toFloat .., _, _, known, _, _, _
  | .floatBinary .., _, _, known, _, _, _ | .floatCompare .., _, _, known, _, _, _
  | .call .., _, _, known, _, _, _ | .assignment .., _, _, known, _, _, _ => by cases known

/-- A check that is left out would have passed: the emitted address is that of bytes in the named
object, provided that the code of every offset computes the number of its text. -/
theorem elided_access_isContained {scope : Scope} {source : Ast.Expr} {address : Hir.Expr}
    {byteLength : Nat} (checked : context.checked = true) (places : Places scope context)
    (analyzed : analyze scope source = .ok address)
    (elided : hasKnownStaticAddressRange context address byteLength = true)
    (reads : OffsetsRead address false) (fits : byteLength ≤ 2 ^ 63)
    {run : Run (BitVec 64)} (emitted : emitPointerValue context address = .ok run)
    {before after : Machine} {location : BitVec 64} (ran : run before = .ok (location, after)) :
    ∃ name storage, namedBinding address = some name ∧ context.storage name = some storage ∧
      storage.requiresAccessCheck = false ∧ storage.Contains location byteLength := by
  unfold hasKnownStaticAddressRange at elided
  split at elided
  · cases elided
  next range known =>
    split at elided
    · cases elided
    next passed =>
      rw [not_or, Bool.not_eq_true', Bool.not_eq_false] at passed
      obtain ⟨aboveLower, internal⟩ := passed
      obtain ⟨storage, isKnown, located⟩ :=
        locates_of_known checked known internal (analyze_satisfies places.holds analyzed) reads
      refine ⟨range.bindingName, storage, isKnown.named, isKnown.stored, isKnown.internal, ?_⟩
      have lower := isKnown.lower
      have upper := isKnown.upper
      have small := isKnown.small
      simp only [int64Max] at small
      obtain ⟨offset, number⟩ := Int.eq_ofNat_of_zero_le (show 0 ≤ range.offset by omega)
      refine ⟨offset, ?_, ?_⟩
      · have location_eq := located run emitted before location after ran
        rw [BitVec.setWidth_eq, number] at location_eq
        rw [location_eq, BitVec.ofInt_natCast]
      · have own : (range.offset % 2 ^ 64).toNat = offset := by omega
        rw [own, decide_eq_true_eq, Nat.mod_eq_of_lt (by omega)] at elided
        omega

end Elision

/-- `&x? + offset`. -/
def addressPlus (offset : Ast.Expr) : Ast.Expr :=
  .binary (.unsigned (.addressOf (.identifier "x")) 0) (.ordinary .add) offset

theorem places_ofObject (address : BitVec 64) (byteLength : Nat) :
    Places (.ofObject .bytes byteLength) (.ofObject address byteLength) where
  symbol := by
    intro name symbol storage found stored
    cases found
    cases stored
    exact le_rfl
  member := by
    intro object path reference storage resolved
    cases resolved

theorem elided_access_isContained_near :
    ∃ address, analyze (.ofObject .bytes 256) (addressPlus (.integerLiteral ['5'])) = .ok address ∧
      ∃ name storage, namedBinding address = some name ∧
        (Context.ofObject 0x1000 256).storage name = some storage ∧
        storage.requiresAccessCheck = false ∧ storage.Contains 0x1005 1 := by
  have emission : ∃ address run,
      analyze (.ofObject .bytes 256) (addressPlus (.integerLiteral ['5'])) = .ok address ∧
        hasKnownStaticAddressRange (.ofObject 0x1000 256) address 1 = true ∧
        OffsetsRead address false ∧ emitPointerValue (.ofObject 0x1000 256) address = .ok run ∧
        run (.filledWith 0) = .ok (0x1005, .filledWith 0) := by
    refine ⟨_, _, rfl, by decide, ⟨show 0 < 2 ^ 63 by decide, .inr fun value same => ?_⟩, rfl, rfl⟩
    obtain rfl : 5 = value := Option.some_inj.mp same
    decide
  obtain ⟨address, run, analyzed, elided, reads, emitted, ran⟩ := emission
  exact ⟨address, analyzed, elided_access_isContained rfl (places_ofObject 0x1000 256) analyzed
    elided reads (by decide) emitted ran⟩

/-- `100 + 100` is folded to the text `200` of a signed View of one byte: the elision test adds
200, the emitted code subtracts 56. -/
theorem foldedOffset_isNotContained :
    ∃ address view, analyze (.ofObject .bytes 256) (.deref 1 (addressPlus
        (.binary (.integerLiteral ['1', '0', '0']) (.ordinary .add)
          (.integerLiteral ['1', '0', '0'])))) = .ok (.deref address view) ∧
      hasKnownStaticAddressRange (.ofObject 0x1000 256) address 1 = true ∧
      namedBinding address = some "x" ∧
      ∃ run storage, emitPointerValue (.ofObject 0x1000 256) address = .ok run ∧
        run (.filledWith 0) = .ok (0xfc8, .filledWith 0) ∧
        (Context.ofObject 0x1000 256).storage "x" = some storage ∧
        ¬ storage.Contains 0xfc8 1 := by
  refine ⟨_, _, rfl, by decide, rfl, _, _, rfl, rfl, rfl, ?_⟩
  rintro ⟨offset, location, inside⟩
  have distance : 0xfc8 = (0x1000 + offset) % 2 ^ 64 := by
    simpa [BitVec.toNat_add] using congrArg BitVec.toNat location
  have inside : offset + 1 ≤ 256 := inside
  omega

end HitSimple.Codegen

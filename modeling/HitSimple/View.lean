namespace HitSimple

/-- Template of a View; the length of a numeric template is counted in bytes, so `i32` is
`signedInteger 4`. -/
inductive TemplateName where
  | none
  | signedInteger (byteLength : Nat)
  | unsignedInteger (byteLength : Nat)
  | floating (byteLength : Nat)
  | bool
  | addr
  | handle
  | bytes
  | cstr
  | user (name : String)
  deriving DecidableEq, Repr

inductive ViewCategory where
  | signedInteger | unsignedInteger | untemplatedInteger | floating | boolean | address | handle
  | bytes | cString | userTemplate | rawBytes
  deriving DecidableEq, Repr

inductive IntegerInterpretation where
  | none | signed | unsigned | rawOnly
  deriving DecidableEq, Repr

inductive ViewLength where
  | static (byteLength : Nat)
  | dynamic
  deriving DecidableEq, Repr

structure ViewSemantics where
  category : ViewCategory
  integerInterpretation : IntegerInterpretation
  length : ViewLength
  templateName : TemplateName
  isAddressable : Bool
  isMutableLValue : Bool
  deriving DecidableEq, Repr

namespace ViewSemantics

def staticByteLength (view : ViewSemantics) : Nat :=
  match view.length with
  | .static byteLength => byteLength
  | .dynamic => 0

def isDynamic (view : ViewSemantics) : Bool :=
  view.length == .dynamic

def isIntegerNumeric (view : ViewSemantics) : Bool :=
  view.category == .signedInteger || view.category == .unsignedInteger ||
    view.category == .untemplatedInteger

def isBooleanTestable (view : ViewSemantics) : Bool :=
  view.isDynamic || view.staticByteLength != 0

def isUnsigned (view : ViewSemantics) : Bool :=
  view.category == .unsignedInteger || view.integerInterpretation == .unsigned

def isIntegerExpression (view : ViewSemantics) : Bool :=
  view.isIntegerNumeric || view.category == .boolean || view.category == .address

def sourceUsesZeroExtension (view : ViewSemantics) : Bool :=
  view.isUnsigned || view.category == .boolean

end ViewSemantics

namespace TemplateName

def isStandardInteger : TemplateName → Bool
  | .signedInteger byteLength | .unsignedInteger byteLength =>
      byteLength == 1 || byteLength == 2 || byteLength == 4 || byteLength == 8
  | _ => false

def isUser : TemplateName → Bool
  | .user _ => true
  | _ => false

def isFloat : TemplateName → Bool
  | .floating byteLength => byteLength != 0
  | _ => false

def isSigned : TemplateName → Bool
  | .signedInteger byteLength => byteLength != 0
  | _ => false

def isUnsigned : TemplateName → Bool
  | .unsignedInteger byteLength => byteLength != 0
  | _ => false

def text : TemplateName → String
  | .none => "none"
  | .signedInteger byteLength => "i" ++ toString (byteLength * 8)
  | .unsignedInteger byteLength => "u" ++ toString (byteLength * 8)
  | .floating byteLength => "f" ++ toString (byteLength * 8)
  | .bool => "bool"
  | .addr => "addr"
  | .handle => "handle"
  | .bytes => "bytes"
  | .cstr => "cstr"
  | .user name => name

end TemplateName

def pointerByteLength : Nat := 8

def staticViewSemantics (category : ViewCategory) (interpretation : IntegerInterpretation)
    (byteLength : Nat) (templateName : TemplateName) (isAddressable isMutableLValue : Bool) :
    ViewSemantics :=
  { category, integerInterpretation := interpretation, length := .static byteLength,
    templateName, isAddressable, isMutableLValue }

/-- `i24` and the like are accepted as templates but belong to no standard category. -/
def viewSemanticsForTemplate (templateName : TemplateName) (byteLength : Nat)
    (isAddressable isMutableLValue : Bool) : ViewSemantics :=
  let view (category : ViewCategory) (interpretation : IntegerInterpretation) :=
    staticViewSemantics category interpretation byteLength templateName isAddressable
      isMutableLValue
  match templateName with
  | .signedInteger size =>
      if size = 1 ∨ size = 2 ∨ size = 4 ∨ size = 8 then view .signedInteger .signed
      else view .userTemplate .none
  | .unsignedInteger size =>
      if size = 1 ∨ size = 2 ∨ size = 4 ∨ size = 8 then view .unsignedInteger .unsigned
      else view .userTemplate .none
  | .floating size =>
      if size = 2 ∨ size = 4 ∨ size = 8 ∨ size = 16 then view .floating .none
      else view .userTemplate .none
  | .bool => view .boolean .none
  | .addr => view .address .none
  | .handle => view .handle .none
  | .bytes => view .bytes .none
  | .cstr => view .cString .none
  | .none => view .untemplatedInteger .signed
  | .user _ => view .userTemplate .none

abbrev fixedResult (templateName : TemplateName) (byteLength : Nat) : ViewSemantics :=
  viewSemanticsForTemplate templateName byteLength false false

def mutableResult (templateName : TemplateName) (byteLength : Nat) : ViewSemantics :=
  viewSemanticsForTemplate templateName byteLength true true

def signedIntegerResult (byteLength : Nat) : ViewSemantics :=
  staticViewSemantics .untemplatedInteger .signed byteLength .none false false

def unsignedIntegerResult (byteLength : Nat) : ViewSemantics :=
  staticViewSemantics .untemplatedInteger .unsigned byteLength .none false false

def rawBytesResult (byteLength : Nat) : ViewSemantics :=
  staticViewSemantics .rawBytes .rawOnly byteLength .none false false

def booleanResult : ViewSemantics :=
  staticViewSemantics .boolean .none 1 .bool false false

/-- An integer View as the analyser builds it: untemplated, or with a standard integer template that
settles its interpretation. -/
structure ViewSemantics.IsInteger (view : ViewSemantics) : Prop where
  numeric : view.isIntegerNumeric = true
  static : view.isDynamic = false
  positive : 0 < view.staticByteLength
  template : view.templateName = .none ∨
    (view.templateName.isStandardInteger = true ∧ view.isUnsigned = view.templateName.isUnsigned)

namespace ViewSemantics.IsInteger

theorem category_ne_floating {view : ViewSemantics} (integer : view.IsInteger) :
    view.category ≠ .floating := by
  intro floating
  have numeric := integer.numeric
  simp [isIntegerNumeric, floating] at numeric

theorem isUser_eq_false {view : ViewSemantics} (integer : view.IsInteger) :
    view.templateName.isUser = false := by
  rcases integer.template with untemplated | ⟨standard, -⟩
  · rw [untemplated]
    rfl
  · cases name : view.templateName with
    | user => simp [name, TemplateName.isStandardInteger] at standard
    | _ => rfl

theorem untemplated (byteLength : Nat) (isUnsigned isAddressable isMutableLValue : Bool)
    (positive : 0 < byteLength) :
    IsInteger (staticViewSemantics .untemplatedInteger
      (if isUnsigned then .unsigned else .signed) byteLength .none isAddressable
      isMutableLValue) where
  numeric := rfl
  static := rfl
  positive := positive
  template := .inl rfl

end ViewSemantics.IsInteger

end HitSimple

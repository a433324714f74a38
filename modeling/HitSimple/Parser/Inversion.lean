import HitSimple.Brackets.Counting
import HitSimple.Parser.Printing

namespace HitSimple.Parser
open Brackets

def role : Token → Role
  | .lparen => .opening
  | .rparen => .closing
  | _ => .other

@[simp] theorem role_bracket : role .lparen = .opening ∧ role .rparen = .closing :=
  ⟨rfl, rfl⟩

@[simp] theorem role_fixed :
    role .self = .other ∧ role .trueKeyword = .other ∧ role .falseKeyword = .other ∧
      role .as = .other ∧ role .sizeof = .other ∧ role .dot = .other ∧ role .colon = .other ∧
      role .comma = .other ∧ role .plus = .other ∧ role .star = .other ∧ role .question = .other ∧
      role .unsignedQuestion = .other ∧ role .lbracket = .other ∧ role .rbracket = .other := by
  decide

@[simp] theorem role_word (text : String) :
    role (.identifier text) = .other ∧ role (.integer text) = .other ∧
      role (.float text) = .other ∧ role (.char text) = .other ∧ role (.string text) = .other :=
  ⟨rfl, rfl, rfl, rfl, rfl⟩

@[simp] theorem enclose_weight (bound row : Nat) (tokens : List Token) :
    weight role (enclose bound row tokens) = weight role tokens := by
  unfold enclose
  split <;> simp

@[simp] theorem enclose_depth (bound row : Nat) (tokens : List Token) :
    depth role (enclose bound row tokens) = depth role tokens := by
  unfold enclose
  split <;> simp

theorem enclose_eq_wrap (bound row : Nat) (tokens : List Token) :
    ∃ count, enclose bound row tokens = wrap .lparen .rparen count tokens ∧
      (row ≤ bound → count = 0) := by
  unfold enclose
  split
  · exact ⟨0, by simp, fun _ => rfl⟩
  · next loose => exact ⟨1, by simp, fun bare => absurd bare loose⟩

theorem operator_role {level : BinaryLevel} {token : Token} {op : BinaryOperator}
    (found : level.operator token = some op) : role token = .other := by
  cases token <;> first | rfl | (cases level <;> cases found)

theorem powerOperator_role {token : Token} {op : BinaryOperator}
    (found : powerOperator token = some op) : role token = .other := by
  cases token <;> first | rfl | cases found

theorem unaryOperator_role {token : Token} {op : UnaryOperator}
    (found : unaryOperator token = some op) : role token = .other := by
  cases token <;> first | rfl | cases found

theorem postOperator_role {token : Token} {op : PostOperator}
    (found : postOperator token = some op) : role token = .other := by
  cases token <;> first | rfl | cases found

theorem assignmentOperator_role {token : Token} {op : AssignmentOperator}
    (found : assignmentOperator token = some op) : role token = .other := by
  cases token <;> first | rfl | cases found

theorem templateName_role {token : Token} {name : String}
    (found : templateName token = some name) : role token = .other := by
  cases token <;> first | rfl | cases found

@[simp] theorem BinaryOperator.token_role (op : BinaryOperator) : role op.token = .other := by
  cases op <;> rfl

@[simp] theorem UnaryOperator.token_role (op : UnaryOperator) : role op.token = .other := by
  cases op <;> rfl

@[simp] theorem PostOperator.token_role (op : PostOperator) : role op.token = .other := by
  cases op <;> rfl

@[simp] theorem AssignmentOperator.token_role (op : AssignmentOperator) :
    role op.token = .other := by
  cases op <;> rfl

@[simp] theorem templateToken_role (name : String) : role (templateToken name) = .other :=
  templateName_role (templateName_token name)

@[simp] theorem DerefLength.tokens_depth (length : DerefLength) : depth role length.tokens = 0 := by
  cases length <;> rfl

theorem printArguments_depth {list : List Expr}
    (balanced : ∀ argument ∈ list, depth role argument.print = 0) :
    depth role (printArguments list) = 0 := by
  induction list with
  | nil => rfl
  | cons argument rest ih =>
      have first := balanced argument (by simp)
      have others := ih (fun other inside => balanced other (by simp [inside]))
      cases rest with
      | nil => exact first
      | cons second tail =>
          simp only [printArguments] at others ⊢
          simp [first, others]

theorem print_depth (expr : Expr) : depth role expr.print = 0 := by
  induction expr using Expr.inductOn with
  | boolLiteral value => cases value <;> rfl
  | call callee arguments ihCallee ihArguments =>
      simp [ihCallee, printArguments_depth ihArguments]
  | methodCall receiver method arguments ihReceiver ihArguments =>
      simp [ihReceiver, printArguments_depth ihArguments]
  | slice base start stop lengthMode ihBase ihStart ihStop =>
      cases lengthMode <;> simp [ihBase, ihStart, ihStop]
  | _ => simp_all

def Value.print : Value → List Token
  | .expression expr => expr.print
  | .arguments list => printArguments list

theorem Derives.arguments_ne_nil {symbol : Nonterminal} {tokens : List Token} {value : Value}
    (derivation : Derives symbol tokens value) (arguments : symbol = .argumentList) :
    value ≠ .arguments [] := by
  cases derivation <;> cases arguments <;> simp

/-- A word has the tokens of the printed tree in number, parentheses apart, and balances them. -/
theorem Derives.weight_eq {symbol : Nonterminal} {tokens : List Token} {value : Value}
    (derivation : Derives symbol tokens value) :
    weight role tokens = weight role value.print ∧ depth role tokens = 0 := by
  induction derivation with
  | assign _ found _ ihTarget ihValue =>
      simp [Value.print, assignmentOperator_role found, ihTarget, ihValue]
  | assignDeref _ found _ ihAddress ihValue =>
      simp [Value.print, assignmentOperator_role found, ihAddress, ihValue, DerefLength.tokens]
      omega
  | binary _ found _ ihLeft ihRight =>
      simp [Value.print, operator_role found, ihLeft, ihRight]
  | power _ found _ ihLeft ihRight =>
      simp [Value.print, powerOperator_role found, ihLeft, ihRight]
  | prefixed found _ ih => simp [Value.print, unaryOperator_role found, ih]
  | deref _ ih => simp [Value.print, ih, DerefLength.tokens]
  | asTemplate _ found ih => simp [Value.print, templateName_role found, ih]
  | post _ found ih => simp [Value.print, postOperator_role found, ih]
  | nextArgument derivation _ ihList ihArgument =>
      have nonempty := derivation.arguments_ne_nil rfl
      simp only [ne_eq, Value.arguments.injEq] at nonempty
      simp [Value.print, printArguments_concat nonempty] at ihList ihArgument ⊢
      simp [ihList, ihArgument]
  | @token token expr found =>
      cases token <;> first | (cases found; exact ⟨rfl, rfl⟩) | cases found
  | _ => simp_all [Value.print]

/-- The row of Standard 3.7 that the symbol is written for. -/
def Nonterminal.rank : Nonterminal → Nat
  | .expression | .assignmentExpr => 16
  | .conditionalExpr => 15
  | .binaryExpr level => level.rank
  | .powerExpr => 4
  | .unaryExpr => 2
  | _ => 1

/-- The production that builds the tree, with its rank, takes the tokens. -/
def Built : Expr → Nat → List Token → Prop
  | .sizeof name, rank, tokens =>
      rank = 2 ∧ tokens = [.sizeof, .lparen, .identifier name, .rparen]
  | .call callee list, rank, tokens => rank = 1 ∧ ∃ name inner, callee = .identifier name ∧
      tokens = .identifier name :: .lparen :: (inner ++ [.rparen]) ∧
      Derives .optionalArgumentList inner (.arguments list)
  | .methodCall receiver method list, rank, tokens => rank = 1 ∧ ∃ first second,
      tokens = first ++ .dot :: .identifier method :: .lparen :: (second ++ [.rparen]) ∧
      Derives .postfixExpr first (.expression receiver) ∧
      Derives .optionalArgumentList second (.arguments list)
  | .member base name, rank, tokens => rank = 1 ∧ ∃ first,
      tokens = first ++ [.dot, .identifier name] ∧ Derives .postfixExpr first (.expression base)
  | .index base index, rank, tokens => rank = 1 ∧ ∃ first second,
      tokens = first ++ .lbracket :: (second ++ [.rbracket]) ∧
      Derives .postfixExpr first (.expression base) ∧
      Derives .expression second (.expression index)
  | .slice base start stop false, rank, tokens => rank = 1 ∧ ∃ first second third,
      tokens = first ++ .lbracket :: (second ++ .colon :: (third ++ [.rbracket])) ∧
      Derives .postfixExpr first (.expression base) ∧
      Derives .expression second (.expression start) ∧
      Derives .expression third (.expression stop)
  | .slice base start stop true, rank, tokens => rank = 1 ∧ ∃ first second third,
      tokens = first ++ .lbracket :: (second ++ .colon :: .plus :: (third ++ [.rbracket])) ∧
      Derives .postfixExpr first (.expression base) ∧
      Derives .expression second (.expression start) ∧
      Derives .expression third (.expression stop)
  | .unsigned operand, rank, tokens => rank = 1 ∧ ∃ first,
      tokens = first ++ [.unsignedQuestion] ∧ Derives .postfixExpr first (.expression operand)
  | .asTemplate operand _, rank, tokens => rank = 1 ∧ ∃ first token,
      tokens = first ++ [.as, token] ∧ Derives .postfixExpr first (.expression operand)
  | .post op operand, rank, tokens => rank = 1 ∧ ∃ first token,
      tokens = first ++ [token] ∧ postOperator token = some op ∧
      Derives .postfixExpr first (.expression operand)
  | .unary op operand, rank, tokens => rank = 2 ∧ ∃ token inner,
      tokens = token :: inner ∧ unaryOperator token = some op ∧
      Derives .unaryExpr inner (.expression operand)
  | .deref length address, rank, tokens => rank = 2 ∧ ∃ text inner, length = .integer text ∧
      tokens = .lbracket :: .integer text :: .rbracket :: .star :: inner ∧
      Derives .unaryExpr inner (.expression address)
  | .binary op left right, rank, tokens => ∃ first token second,
      tokens = first ++ token :: second ∧
      ((∃ level : BinaryLevel, rank = level.rank ∧ level.operator token = some op ∧
          Derives (.binaryExpr level) first (.expression left) ∧
          Derives level.operand second (.expression right)) ∨
        (rank = 4 ∧ powerOperator token = some op ∧
          Derives .unaryExpr first (.expression left) ∧
          Derives .powerExpr second (.expression right)))
  | .ternary condition thenExpr elseExpr, rank, tokens => rank = 15 ∧ ∃ first second third,
      tokens = first ++ .question :: (second ++ .colon :: third) ∧
      Derives (.binaryExpr .logicalOrExpr) first (.expression condition) ∧
      Derives .expression second (.expression thenExpr) ∧
      Derives .conditionalExpr third (.expression elseExpr)
  | .assignment target op value, rank, tokens => rank = 16 ∧ ∃ symbol first token second,
      tokens = first ++ token :: second ∧ assignmentOperator token = some op ∧
      symbol.rank ≤ 2 ∧ Derives symbol first (.expression target) ∧
      Derives .assignmentExpr second (.expression value)
  | expr, rank, tokens => rank = 1 ∧ ∃ token, tokens = [token] ∧ primary token = some expr

/-- A word is some pairs of parentheses around a word of the production that builds its tree. -/
def IsWrapped (symbol : Nonterminal) (tokens : List Token) : Value → Prop
  | .arguments _ => True
  | .expression expr => ∃ count rank core, tokens = wrap .lparen .rparen count core ∧
      Built expr rank core ∧ (count = 0 → rank ≤ symbol.rank)

theorem IsWrapped.unit {symbol looser : Nonterminal} {tokens : List Token} {value : Value}
    (wrapped : IsWrapped symbol tokens value) (bound : symbol.rank ≤ looser.rank) :
    IsWrapped looser tokens value := by
  cases value with
  | arguments list => trivial
  | expression expr =>
      obtain ⟨count, rank, core, same, built, bare⟩ := wrapped
      exact ⟨count, rank, core, same, built, fun zero => Nat.le_trans (bare zero) bound⟩

theorem Built.isWrapped {symbol : Nonterminal} {rank : Nat} {tokens : List Token} {expr : Expr}
    (built : Built expr rank tokens) (bound : rank ≤ symbol.rank) :
    IsWrapped symbol tokens (.expression expr) :=
  ⟨0, rank, tokens, by simp, built, fun _ => bound⟩

theorem Derives.isWrapped {symbol : Nonterminal} {tokens : List Token} {value : Value}
    (derivation : Derives symbol tokens value) : IsWrapped symbol tokens value := by
  induction derivation with
  | expression _ ih => exact ih
  | conditional _ ih => exact ih.unit (by decide)
  | assign target found last _ _ =>
      exact Built.isWrapped ⟨rfl, .postfixExpr, _, _, _, rfl, found, by decide, target, last⟩
        (by decide)
  | @assignDeref text first second token op address value derivation found last _ _ =>
      exact Built.isWrapped ⟨rfl, .unaryExpr, _, _, _,
        (by simp : _ = (.lbracket :: .integer text :: .rbracket :: .star :: first) ++
          token :: second), found, by decide, .deref derivation, last⟩ (by decide)
  | logicalOr _ ih => exact ih.unit (by decide)
  | ternary condition thenExpr elseExpr =>
      exact Built.isWrapped ⟨rfl, _, _, _, rfl, condition, thenExpr, elseExpr⟩ (by decide)
  | @operand level _ _ _ ih => exact ih.unit (by cases level <;> decide)
  | @binary level _ _ _ _ _ _ left found right =>
      exact Built.isWrapped ⟨_, _, _, rfl, .inl ⟨level, rfl, found, left, right⟩⟩ (Nat.le_refl _)
  | unary _ ih => exact ih.unit (by decide)
  | power left found right =>
      exact Built.isWrapped ⟨_, _, _, rfl, .inr ⟨rfl, found, left, right⟩⟩ (Nat.le_refl _)
  | suffixed _ ih => exact ih.unit (by decide)
  | prefixed found operand => exact Built.isWrapped ⟨rfl, _, _, rfl, found, operand⟩ (by decide)
  | deref address => exact Built.isWrapped ⟨rfl, _, _, rfl, rfl, address⟩ (by decide)
  | sizeof => exact Built.isWrapped ⟨rfl, rfl⟩ (by decide)
  | called _ ih => exact ih
  | primary _ ih => exact ih
  | index base index => exact Built.isWrapped ⟨rfl, _, _, rfl, base, index⟩ (by decide)
  | slice base start stop =>
      exact Built.isWrapped ⟨rfl, _, _, _, rfl, base, start, stop⟩ (by decide)
  | sliceLength base start stop =>
      exact Built.isWrapped ⟨rfl, _, _, _, rfl, base, start, stop⟩ (by decide)
  | member base => exact Built.isWrapped ⟨rfl, _, rfl, base⟩ (by decide)
  | methodCall receiver list =>
      exact Built.isWrapped ⟨rfl, _, _, rfl, receiver, list⟩ (by decide)
  | unsigned operand => exact Built.isWrapped ⟨rfl, _, rfl, operand⟩ (by decide)
  | asTemplate operand => exact Built.isWrapped ⟨rfl, _, _, rfl, operand⟩ (by decide)
  | post operand found => exact Built.isWrapped ⟨rfl, _, _, rfl, found, operand⟩ (by decide)
  | call list => exact Built.isWrapped ⟨rfl, _, _, rfl, rfl, list⟩ (by decide)
  | noArguments => trivial
  | arguments => trivial
  | firstArgument => trivial
  | nextArgument => trivial
  | @token token expr found =>
      cases token <;> first
        | (cases found; exact Built.isWrapped ⟨rfl, _, rfl, rfl⟩ (by decide))
        | cases found
  | parenthesized _ ih =>
      obtain ⟨count, rank, core, rfl, built, _⟩ := ih
      exact ⟨count + 1, rank, core, by simp, built, fun zero => absurd zero (by omega)⟩

/-- The number of tokens, parentheses apart, before the first that belongs to the tree's root. -/
def Expr.anchor : Expr → Nat
  | .methodCall receiver _ _ => weight role receiver.print
  | .member base _ => weight role base.print
  | .index base _ => weight role base.print
  | .slice base _ _ _ => weight role base.print
  | .unsigned operand => weight role operand.print
  | .asTemplate operand _ => weight role operand.print
  | .post _ operand => weight role operand.print
  | .binary _ left _ => weight role left.print
  | .ternary condition _ _ => weight role condition.print
  | .assignment target _ _ => weight role target.print
  | _ => 0

theorem Derives.anchored {symbol : Nonterminal} {first rest : List Token} {token : Token}
    {expr : Expr} (derivation : Derives symbol first (.expression expr))
    (plain : role token = .other) :
    Anchored role (weight role expr.print) (first ++ token :: rest) :=
  ⟨first, token, rest, rfl, plain, derivation.weight_eq.1, derivation.weight_eq.2⟩

theorem anchored_head {token : Token} (rest : List Token) (plain : role token = .other) :
    Anchored role 0 (token :: rest) :=
  ⟨[], token, rest, rfl, plain, rfl, rfl⟩

theorem Built.anchored {expr : Expr} {rank : Nat} {tokens : List Token}
    (built : Built expr rank tokens) : Anchored role expr.anchor tokens := by
  cases expr with
  | sizeof name =>
      obtain ⟨-, rfl⟩ := built
      exact anchored_head _ rfl
  | call callee list =>
      obtain ⟨-, name, inner, -, rfl, -⟩ := built
      exact anchored_head _ rfl
  | methodCall receiver method list =>
      obtain ⟨-, first, second, rfl, derivation, -⟩ := built
      exact derivation.anchored rfl
  | member base name =>
      obtain ⟨-, first, rfl, derivation⟩ := built
      exact derivation.anchored rfl
  | index base index =>
      obtain ⟨-, first, second, rfl, derivation, -⟩ := built
      exact derivation.anchored rfl
  | slice base start stop lengthMode =>
      cases lengthMode <;>
        (obtain ⟨-, first, second, third, rfl, derivation, -⟩ := built
         exact derivation.anchored rfl)
  | unsigned operand =>
      obtain ⟨-, first, rfl, derivation⟩ := built
      exact derivation.anchored rfl
  | asTemplate operand name =>
      obtain ⟨-, first, token, rfl, derivation⟩ := built
      exact derivation.anchored rfl
  | post op operand =>
      obtain ⟨-, first, token, rfl, found, derivation⟩ := built
      exact derivation.anchored (postOperator_role found)
  | unary op operand =>
      obtain ⟨-, token, inner, rfl, found, -⟩ := built
      exact anchored_head _ (unaryOperator_role found)
  | deref length address =>
      obtain ⟨-, text, inner, -, rfl, -⟩ := built
      exact anchored_head _ rfl
  | binary op left right =>
      obtain ⟨first, token, second, rfl, ⟨level, -, found, derivation, -⟩ |
        ⟨-, found, derivation, -⟩⟩ := built
      · exact derivation.anchored (operator_role found)
      · exact derivation.anchored (powerOperator_role found)
  | ternary condition thenExpr elseExpr =>
      obtain ⟨-, first, second, third, rfl, derivation, -⟩ := built
      exact derivation.anchored rfl
  | assignment target op value =>
      obtain ⟨-, symbol, first, token, second, rfl, found, -, derivation, -⟩ := built
      exact derivation.anchored (assignmentOperator_role found)
  | _ =>
      obtain ⟨-, token, rfl, found⟩ := built
      refine anchored_head _ ?_
      cases token <;> first | rfl | cases found

theorem print_anchored {expr : Expr}
    (callee : ∀ inner list, expr = .call inner list → ∃ name, inner = .identifier name) :
    Anchored role expr.anchor expr.print := by
  have bound (bound row : Nat) (first : Expr) {token : Token} (rest : List Token)
      (plain : role token = .other) : Anchored role (weight role first.print)
        (enclose bound row first.print ++ token :: rest) :=
    ⟨_, token, rest, rfl, plain, by simp, by simp [print_depth]⟩
  cases expr with
  | call inner list =>
      obtain ⟨name, rfl⟩ := callee inner list rfl
      exact anchored_head _ rfl
  | methodCall receiver method list => exact bound _ _ receiver _ rfl
  | member base name => exact bound _ _ base _ rfl
  | index base index => exact bound _ _ base _ rfl
  | slice base start stop lengthMode => cases lengthMode <;> exact bound _ _ base _ rfl
  | unsigned operand => exact bound _ _ operand _ rfl
  | asTemplate operand name => exact bound _ _ operand _ rfl
  | post op operand => exact bound _ _ operand _ (by simp)
  | unary op operand => exact anchored_head _ (by simp)
  | binary op left right => exact bound _ _ left _ (by simp)
  | ternary condition thenExpr elseExpr => exact bound _ _ condition _ rfl
  | assignment target op value => exact bound _ _ target _ (by simp)
  | boolLiteral value => cases value <;> exact anchored_head _ rfl
  | _ => exact anchored_head _ rfl

end HitSimple.Parser

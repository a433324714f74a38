import HitSimple.Parser.Precedence
import HitSimple.Parser.Unambiguity
import Mathlib.Data.List.Induction

namespace HitSimple.Parser

/-- Parser.y takes every `TYPED_BITWISE_OPERATOR` at `bitwise_or_expr`. -/
def TypedSymbol.level : TypedSymbol → Nat
  | .bitAnd | .bitXor => 12
  | symbol => symbol.row

/-- The row of Standard 3.7 whose nonterminal Parser.y takes the operator at. -/
def BinaryOperator.level : BinaryOperator → Nat
  | .typed operator => operator.symbol.level
  | op => op.row

/-- The rank of the tightest symbol of Parser.y that builds the tree. -/
def Expr.level : Expr → Nat
  | .sizeof _ | .unary _ _ | .deref _ _ => 2
  | .binary op _ _ => op.level
  | .ternary _ _ _ => 15
  | .assignment _ _ _ => 16
  | _ => 1

/-- The symbol of Parser.y for each row, from `postfix_expr` to `expression`. -/
def symbolAt : Nat → Nonterminal
  | 0 | 1 => .postfixExpr
  | 2 | 3 => .unaryExpr
  | 4 => .powerExpr
  | 5 => .binaryExpr .multiplicativeExpr
  | 6 => .binaryExpr .additiveExpr
  | 7 => .binaryExpr .shiftExpr
  | 8 => .binaryExpr .relationalExpr
  | 9 => .binaryExpr .equalityExpr
  | 10 => .binaryExpr .bitwiseAndExpr
  | 11 => .binaryExpr .bitwiseXorExpr
  | 12 => .binaryExpr .bitwiseOrExpr
  | 13 => .binaryExpr .logicalAndExpr
  | 14 => .binaryExpr .logicalOrExpr
  | 15 => .conditionalExpr
  | 16 => .assignmentExpr
  | _ => .expression

theorem symbolAt_rank (level : BinaryLevel) : symbolAt level.rank = .binaryExpr level := by
  cases level <;> rfl

theorem symbolAt_operand (level : BinaryLevel) : symbolAt (level.rank - 1) = level.operand := by
  cases level <;> rfl

theorem Derives.loosen_one {rank : Nat} {tokens : List Token} {expr : Expr}
    (derivation : Derives (symbolAt rank) tokens (.expression expr)) :
    Derives (symbolAt (rank + 1)) tokens (.expression expr) := by
  match rank with
  | 0 | 2 => exact derivation
  | 1 => exact .suffixed derivation
  | 3 => exact .unary derivation
  | 4 => exact .operand derivation
  | 5 => exact .operand derivation
  | 6 => exact .operand derivation
  | 7 => exact .operand derivation
  | 8 => exact .operand derivation
  | 9 => exact .operand derivation
  | 10 => exact .operand derivation
  | 11 => exact .operand derivation
  | 12 => exact .operand derivation
  | 13 => exact .operand derivation
  | 14 => exact .logicalOr derivation
  | 15 => exact .conditional derivation
  | 16 => exact .expression derivation
  | rank + 17 => exact derivation

theorem Derives.loosen {rank looser : Nat} {tokens : List Token} {expr : Expr}
    (derivation : Derives (symbolAt rank) tokens (.expression expr)) (bound : rank ≤ looser) :
    Derives (symbolAt looser) tokens (.expression expr) := by
  induction bound with
  | refl => exact derivation
  | step _ ih => exact ih.loosen_one

theorem Derives.parenthesize {rank : Nat} {tokens : List Token} {expr : Expr}
    (derivation : Derives (symbolAt rank) tokens (.expression expr)) (looser : Nat) :
    Derives (symbolAt looser) (.lparen :: (tokens ++ [.rparen])) (.expression expr) := by
  have whole : Derives .expression tokens (.expression expr) :=
    derivation.loosen (Nat.le_add_right rank 17)
  have closed : Derives (symbolAt 0) (.lparen :: (tokens ++ [.rparen])) (.expression expr) :=
    .primary (.parenthesized whole)
  exact closed.loosen (Nat.zero_le looser)

/-- A printed operand is a word of a symbol that takes it whenever the table leaves it bare. -/
theorem Derives.enclosed {expr : Expr} {tokens : List Token} {bound row : Nat}
    (derivation : Derives (symbolAt expr.level) tokens (.expression expr)) (looser : Nat)
    (fits : row ≤ bound → expr.level ≤ looser) :
    Derives (symbolAt looser) (enclose bound row tokens) (.expression expr) := by
  unfold enclose
  split
  · next bare => exact derivation.loosen (fits bare)
  · exact derivation.parenthesize looser

namespace Expr

theorem isTyped_bitAnd {expr : Expr} (typed : expr.isTyped .bitAnd = true) :
    expr.row = 10 ∧ expr.level = 12 := by
  cases expr with
  | binary op left right =>
      cases op with
      | typed operator =>
          have symbol : operator.symbol = .bitAnd := by simpa [isTyped] using typed
          simp [row, level, BinaryOperator.row, BinaryOperator.level, symbol, TypedSymbol.row,
            TypedSymbol.level]
      | _ => cases typed
  | _ => cases typed

theorem isTyped_bitXor {expr : Expr} (typed : expr.isTyped .bitXor = true) :
    expr.row = 11 ∧ expr.level = 12 := by
  cases expr with
  | binary op left right =>
      cases op with
      | typed operator =>
          have symbol : operator.symbol = .bitXor := by simpa [isTyped] using typed
          simp [row, level, BinaryOperator.row, BinaryOperator.level, symbol, TypedSymbol.row,
            TypedSymbol.level]
      | _ => cases typed
  | _ => cases typed

theorem level_le_row {expr : Expr} (notAnd : expr.isTyped .bitAnd = false)
    (notXor : expr.isTyped .bitXor = false) : expr.level ≤ expr.row := by
  cases expr with
  | binary op left right =>
      cases op with
      | typed operator =>
          simp only [isTyped, decide_eq_false_iff_not] at notAnd notXor
          simp only [row, level, BinaryOperator.row, BinaryOperator.level]
          cases symbol : operator.symbol <;> first
            | exact absurd symbol notAnd
            | exact absurd symbol notXor
            | exact Nat.le_refl _
      | _ => exact Nat.le_refl _
  | asTemplate operand name => simp [row, level]
  | _ => exact Nat.le_refl _

/-- The three ways a tree's symbol compares with its row. -/
theorem level_cases (expr : Expr) :
    (expr.isTyped .bitAnd = true ∧ expr.isTyped .bitXor = false ∧ expr.row = 10 ∧
        expr.level = 12) ∨
      (expr.isTyped .bitAnd = false ∧ expr.isTyped .bitXor = true ∧ expr.row = 11 ∧
        expr.level = 12) ∨
      (expr.isTyped .bitAnd = false ∧ expr.isTyped .bitXor = false ∧ expr.level ≤ expr.row) := by
  cases isAnd : expr.isTyped .bitAnd with
  | true =>
      obtain ⟨row, level⟩ := isTyped_bitAnd isAnd
      cases isXor : expr.isTyped .bitXor with
      | true => have := isTyped_bitXor isXor; omega
      | false => exact .inl ⟨rfl, rfl, row, level⟩
  | false =>
      cases isXor : expr.isTyped .bitXor with
      | true => exact .inr (.inl ⟨rfl, rfl, isTyped_bitXor isXor⟩)
      | false => exact .inr (.inr ⟨rfl, rfl, level_le_row isAnd isXor⟩)

/-- The condition on a left operand says that Parser.y takes it wherever the table bares it. -/
theorem leftGroups_iff (left : Expr) (op : BinaryOperator) (leftRecursive : op.row ≠ 4) :
    left.leftGroups op = true ↔ (left.row ≤ op.leftRow → left.level ≤ op.level) := by
  have rows : op.leftRow = op.row := by simp [BinaryOperator.leftRow, leftRecursive]
  rw [rows]
  obtain ⟨isAnd, isXor, row, level⟩ | ⟨isAnd, isXor, row, level⟩ | ⟨isAnd, isXor, bound⟩ :=
    left.level_cases
  all_goals
    cases op with
    | typed operator =>
        simp only [leftGroups, BinaryOperator.row, BinaryOperator.level, true_iff]
        cases operator.symbol <;> simp only [TypedSymbol.row, TypedSymbol.level] <;> omega
    | _ =>
        simp [leftGroups, BinaryOperator.row, BinaryOperator.level, isAnd, isXor]
        omega

/-- The condition on a right operand says the same of the next tighter symbol. -/
theorem rightGroups_iff (right : Expr) (op : BinaryOperator) (leftRecursive : op.row ≠ 4) :
    right.rightGroups op = true ↔ (right.row ≤ op.rightRow → right.level ≤ op.level - 1) := by
  have rows : op.rightRow = op.row - 1 := by simp [BinaryOperator.rightRow, leftRecursive]
  rw [rows]
  obtain ⟨isAnd, isXor, row, level⟩ | ⟨isAnd, isXor, row, level⟩ | ⟨isAnd, isXor, bound⟩ :=
    right.level_cases
  all_goals
    cases op with
    | typed operator =>
        simp only [rightGroups, BinaryOperator.row, BinaryOperator.level]
        cases operator.symbol <;>
          simp [TypedSymbol.row, TypedSymbol.level, isAnd, isXor] <;> omega
    | _ =>
        simp [rightGroups, BinaryOperator.row, BinaryOperator.level, isAnd, isXor]
        omega

end Expr

/-- Each operator is either a power or an operator of the left-recursive level of its rank. -/
theorem BinaryOperator.level_or_power (op : BinaryOperator) :
    (op.row = 4 ∧ op.level = 4 ∧ powerOperator op.token = some op) ∨
      (op.row ≠ 4 ∧ ∃ level : BinaryLevel, level.rank = op.level ∧
        level.operator op.token = some op) := by
  cases op with
  | logicalOr => exact .inr ⟨by decide, .logicalOrExpr, rfl, rfl⟩
  | logicalAnd => exact .inr ⟨by decide, .logicalAndExpr, rfl, rfl⟩
  | bitOr => exact .inr ⟨by decide, .bitwiseOrExpr, rfl, rfl⟩
  | bitXor => exact .inr ⟨by decide, .bitwiseXorExpr, rfl, rfl⟩
  | bitAnd => exact .inr ⟨by decide, .bitwiseAndExpr, rfl, rfl⟩
  | equal | notEqual => exact .inr ⟨by decide, .equalityExpr, rfl, rfl⟩
  | less | greater | lessEqual | greaterEqual => exact .inr ⟨by decide, .relationalExpr, rfl, rfl⟩
  | shiftLeft | shiftRight => exact .inr ⟨by decide, .shiftExpr, rfl, rfl⟩
  | add | subtract => exact .inr ⟨by decide, .additiveExpr, rfl, rfl⟩
  | multiply | divide | remainder => exact .inr ⟨by decide, .multiplicativeExpr, rfl, rfl⟩
  | power => exact .inl ⟨rfl, rfl, rfl⟩
  | typed operator =>
      simp only [token, row, level, typedToken_kind]
      cases symbol : operator.symbol with
      | power => exact .inl ⟨rfl, rfl, rfl⟩
      | bitAnd | bitOr | bitXor => exact .inr ⟨by decide, .bitwiseOrExpr, rfl, rfl⟩
      | shiftLeft | shiftRight => exact .inr ⟨by decide, .shiftExpr, rfl, rfl⟩
      | add | subtract => exact .inr ⟨by decide, .additiveExpr, rfl, rfl⟩
      | multiply | divide | remainder => exact .inr ⟨by decide, .multiplicativeExpr, rfl, rfl⟩

theorem unaryOperator_token (op : UnaryOperator) : unaryOperator op.token = some op := by
  cases op <;> rfl

theorem postOperator_token (op : PostOperator) : postOperator op.token = some op := by
  cases op <;> rfl

theorem assignmentOperator_token (op : AssignmentOperator) :
    assignmentOperator op.token = some op := by
  cases op <;> rfl

theorem templateName_token (name : String) : templateName (templateToken name) = some name := by
  unfold templateToken
  split
  · next none => rw [none]; rfl
  · rfl

/-- Outside the rows of `&` and `^` the table bounds the symbols of Parser.y too. -/
theorem Expr.level_le_of_row_le {expr : Expr} {bound : Nat} (outside : bound < 10 ∨ 12 ≤ bound)
    (bare : expr.row ≤ bound) : expr.level ≤ bound := by
  obtain ⟨_, _, row, _⟩ | ⟨_, _, row, _⟩ | ⟨_, _, _⟩ := expr.level_cases <;> omega

theorem Expr.level_of_row_three {expr : Expr} (bare : expr.row ≤ 3) : expr.level ≤ 2 := by
  cases expr with
  | binary op left right =>
      cases op with
      | typed operator =>
          simp only [row, BinaryOperator.row] at bare
          cases symbol : operator.symbol <;> simp [symbol, TypedSymbol.row] at bare
      | _ => simp [row, BinaryOperator.row] at bare
  | ternary => simp [row] at bare
  | assignment => simp [row] at bare
  | _ => simp [level]

theorem Expr.level_of_not_isPrefixed {expr : Expr} (plain : expr.isPrefixed = false)
    (bare : expr.row ≤ 2) : expr.level ≤ 1 := by
  cases expr with
  | binary op left right =>
      cases op with
      | typed operator =>
          simp only [row, BinaryOperator.row] at bare
          cases symbol : operator.symbol <;> simp [symbol, TypedSymbol.row] at bare
      | _ => simp [row, BinaryOperator.row] at bare
  | sizeof | unary | deref => simp [isPrefixed] at plain
  | ternary => simp [row] at bare
  | assignment => simp [row] at bare
  | _ => exact Nat.le_refl 1

theorem Expr.level_le (expr : Expr) : expr.level ≤ 16 := by
  have rows : expr.row ≤ 16 := by
    cases expr with
    | binary op left right =>
        cases op with
        | typed operator =>
            simp only [row, BinaryOperator.row]
            cases operator.symbol <;> simp [TypedSymbol.row]
        | _ => simp [row, BinaryOperator.row]
    | _ => simp [row]
  obtain ⟨_, _, _, level⟩ | ⟨_, _, _, level⟩ | ⟨_, _, bound⟩ := expr.level_cases <;> omega

theorem printArguments_concat {list : List Expr} (nonempty : list ≠ []) (last : Expr) :
    printArguments (list ++ [last]) = printArguments list ++ .comma :: last.print := by
  induction list with
  | nil => exact absurd rfl nonempty
  | cons argument rest ih =>
      cases rest with
      | nil => rfl
      | cons second tail =>
          have tailPrinted := ih (by simp)
          simp only [List.cons_append] at tailPrinted
          simp only [List.cons_append, printArguments, tailPrinted, List.append_assoc]

theorem derives_printArguments {list : List Expr} (nonempty : list ≠ [])
    (derivations : ∀ argument ∈ list, Derives .expression argument.print (.expression argument)) :
    Derives .argumentList (printArguments list) (.arguments list) := by
  induction list using List.reverseRecOn with
  | nil => exact absurd rfl nonempty
  | append_singleton list last ih =>
      have final := derivations last (by simp)
      cases empty : list with
      | nil => exact .firstArgument final
      | cons argument rest =>
          rw [← empty]
          have full : list ≠ [] := by simp [empty]
          rw [printArguments_concat full]
          exact .nextArgument
            (ih full (fun argument inside => derivations argument (by simp [inside]))) final

theorem derives_optionalArguments {list : List Expr}
    (derivations : ∀ argument ∈ list, Derives .expression argument.print (.expression argument)) :
    Derives .optionalArgumentList (printArguments list) (.arguments list) := by
  cases list with
  | nil => exact .noArguments
  | cons argument rest => exact .arguments (derives_printArguments (by simp) derivations)

theorem Derives.address {text : String} {tokens : List Token} {address : Expr}
    (derivation : Derives .unaryExpr (.lbracket :: .integer text :: .rbracket :: .star :: tokens)
      (.expression (.deref (.integer text) address))) :
    Derives .unaryExpr tokens (.expression address) := by
  cases derivation with
  | suffixed inner =>
      obtain ⟨token, rest, same, starts⟩ := inner.startsWell
      obtain ⟨rfl, _⟩ := List.cons.inj same
      cases starts
  | deref inner => exact inner

/-- A printed target of an assignment: a postfix form, or a dereference taken by itself. -/
theorem derives_assignment {target value : Expr} {token : Token} {op : AssignmentOperator}
    {tokens : List Token} (groups : target.groupsAsTable = true)
    (derivation : Derives (symbolAt target.level) target.print (.expression target))
    (found : assignmentOperator token = some op)
    (last : Derives .assignmentExpr tokens (.expression value)) :
    Derives .assignmentExpr (enclose 3 target.targetRow target.print ++ token :: tokens)
      (.expression (.assignment target op value)) := by
  cases target with
  | deref length address =>
      cases length with
      | integer text => exact .assignDeref derivation.address found last
      | _ => simp at groups
  | binary op left right =>
      have loose : ¬ (Expr.binary op left right).targetRow ≤ 3 := by
        cases op with
        | typed operator =>
            simp only [Expr.targetRow, Expr.row, BinaryOperator.row]
            cases operator.symbol <;> simp [TypedSymbol.row]
        | _ => simp [Expr.targetRow, Expr.row, BinaryOperator.row]
      exact .assign (derivation.enclosed 1 (fun bare => absurd bare loose)) found last
  | _ =>
      refine .assign (derivation.enclosed 1 ?_) found last
      simp [Expr.targetRow, Expr.row, Expr.level]

/-- Where the condition holds, Parser.y takes the printed tokens to the tree they print. -/
theorem derives_print (expr : Expr) (groups : expr.groupsAsTable = true) :
    Derives (symbolAt expr.level) expr.print (.expression expr) := by
  have row_one {base : Expr}
      (derivation : Derives (symbolAt base.level) base.print (.expression base)) :
      Derives .postfixExpr (enclose 1 base.row base.print) (.expression base) :=
    derivation.enclosed 1 (Expr.level_le_of_row_le (.inl (by decide)))
  have row_two {operand : Expr}
      (derivation : Derives (symbolAt operand.level) operand.print (.expression operand)) :
      Derives .unaryExpr (enclose 2 operand.row operand.print) (.expression operand) :=
    derivation.enclosed 2 (Expr.level_le_of_row_le (.inl (by decide)))
  have whole {inner : Expr}
      (derivation : Derives (symbolAt inner.level) inner.print (.expression inner)) :
      Derives .expression inner.print (.expression inner) :=
    .expression (derivation.loosen inner.level_le)
  induction expr using Expr.inductOn with
  | identifier name => exact .primary (.token rfl)
  | integerLiteral value => exact .primary (.token rfl)
  | floatLiteral value => exact .primary (.token rfl)
  | charLiteral value => exact .primary (.token rfl)
  | stringLiteral value => exact .primary (.token rfl)
  | boolLiteral value => cases value <;> exact .primary (.token rfl)
  | sizeof name => exact .sizeof
  | call callee arguments _ ihArguments =>
      cases callee with
      | identifier name =>
          simp only [Expr.groupsAsTable, argumentsGroup_iff] at groups
          exact .called (.call (derives_optionalArguments fun argument inside =>
            whole (ihArguments argument inside (groups argument inside))))
      | _ => simp at groups
  | methodCall receiver method arguments ihReceiver ihArguments =>
      simp only [Expr.groupsAsTable, Bool.and_eq_true, argumentsGroup_iff] at groups
      exact .methodCall (row_one (ihReceiver groups.1))
        (derives_optionalArguments fun argument inside =>
          whole (ihArguments argument inside (groups.2 argument inside)))
  | member base name ih => exact .member (row_one (ih groups))
  | index base index ihBase ihIndex =>
      simp only [Expr.groupsAsTable, Bool.and_eq_true] at groups
      exact .index (row_one (ihBase groups.1)) (whole (ihIndex groups.2))
  | slice base start stop lengthMode ihBase ihStart ihStop =>
      simp only [Expr.groupsAsTable, Bool.and_eq_true] at groups
      cases lengthMode with
      | false =>
          exact .slice (row_one (ihBase groups.1.1)) (whole (ihStart groups.1.2))
            (whole (ihStop groups.2))
      | true =>
          exact .sliceLength (row_one (ihBase groups.1.1)) (whole (ihStart groups.1.2))
            (whole (ihStop groups.2))
  | unsigned operand ih => exact .unsigned (row_one (ih groups))
  | asTemplate operand name ih =>
      simp only [Expr.groupsAsTable, Bool.and_eq_true, Bool.not_eq_true'] at groups
      refine .asTemplate ((ih groups.2).enclosed 1 ?_) (templateName_token name)
      intro bare
      exact Expr.level_of_not_isPrefixed groups.1 bare
  | post op operand ih => exact .post (row_one (ih groups)) (postOperator_token op)
  | unary op operand ih => exact .prefixed (unaryOperator_token op) (row_two (ih groups))
  | deref length address ih =>
      cases length with
      | integer text => exact .deref (row_two (ih groups))
      | _ => simp at groups
  | binary op left right ihLeft ihRight =>
      simp only [Expr.groupsAsTable, Bool.and_eq_true] at groups
      obtain ⟨⟨⟨leftBare, rightBare⟩, leftGroups⟩, rightGroups⟩ := groups
      obtain ⟨row, level, found⟩ | ⟨row, level, rank, found⟩ := op.level_or_power
      · have leftRow : op.leftRow = 3 := by simp [BinaryOperator.leftRow, row]
        have rightRow : op.rightRow = 4 := by simp [BinaryOperator.rightRow, row]
        simp only [Expr.level, level, Expr.print, leftRow, rightRow]
        exact .power ((ihLeft leftGroups).enclosed 2 Expr.level_of_row_three) found
          ((ihRight rightGroups).enclosed 4 (Expr.level_le_of_row_le (.inl (by decide))))
      · have leftTaken := (ihLeft leftGroups).enclosed op.level
          ((left.leftGroups_iff op row).mp leftBare)
        have rightTaken := (ihRight rightGroups).enclosed (op.level - 1)
          ((right.rightGroups_iff op row).mp rightBare)
        rw [← rank, symbolAt_rank] at leftTaken
        rw [← rank, symbolAt_operand] at rightTaken
        simp only [Expr.level, ← rank, symbolAt_rank, Expr.print]
        exact .binary leftTaken found rightTaken
  | ternary condition thenExpr elseExpr ihCondition ihThen ihElse =>
      simp only [Expr.groupsAsTable, Bool.and_eq_true] at groups
      exact .ternary
        ((ihCondition groups.1.1).enclosed 14
          (Expr.level_le_of_row_le (.inr (by decide))))
        (whole (ihThen groups.1.2))
        ((ihElse groups.2).enclosed 15 (Expr.level_le_of_row_le (.inr (by decide))))
  | assignment target op value ihTarget ihValue =>
      simp only [Expr.groupsAsTable, Bool.and_eq_true] at groups
      have last : Derives .assignmentExpr value.print (.expression value) :=
        (ihValue groups.2).loosen value.level_le
      exact derives_assignment groups.1 (ihTarget groups.1) (assignmentOperator_token op) last

end HitSimple.Parser

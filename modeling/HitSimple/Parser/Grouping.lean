import HitSimple.Parser.Inversion

namespace HitSimple.Parser
open Brackets

/-- A printed operand is taken bare only by a symbol of at least its own rank. -/
theorem Derives.built {symbol : Nonterminal} {bound row : Nat} {expr : Expr}
    (derivation : Derives symbol (enclose bound row expr.print) (.expression expr)) :
    ∃ rank, Built expr rank expr.print ∧ (row ≤ bound → rank ≤ symbol.rank) := by
  obtain ⟨count, rank, core, same, built, bare⟩ := derivation.isWrapped
  obtain ⟨pairs, printed, zero⟩ := enclose_eq_wrap bound row expr.print
  rw [printed] at same
  have callee : ∀ inner list, expr = .call inner list → ∃ name, inner = .identifier name := by
    rintro inner list rfl
    obtain ⟨-, name, -, found, -, -⟩ := built
    exact ⟨name, found⟩
  obtain ⟨counts, rfl⟩ := wrap_unique rfl (print_anchored callee) built.anchored same
  exact ⟨rank, built, fun tight => bare (counts ▸ zero tight)⟩

theorem Derives.built_bare {symbol : Nonterminal} {expr : Expr}
    (derivation : Derives symbol expr.print (.expression expr)) :
    ∃ rank, Built expr rank expr.print := by
  have enclosed : enclose expr.row expr.row expr.print = expr.print := by simp [enclose]
  rw [← enclosed] at derivation
  obtain ⟨rank, built, -⟩ := derivation.built
  exact ⟨rank, built⟩

theorem operator_token {level : BinaryLevel} {op found : BinaryOperator}
    (same : level.operator op.token = some found) : op.row ≠ 4 ∧ level.rank = op.level := by
  have strength := operator_strength same
  rcases op.level_or_power with ⟨-, -, isPower⟩ | ⟨row, own, rank, reads⟩
  · rw [powerOperator_strength isPower] at strength
    cases level <;> cases strength
  · exact ⟨row, by rw [← strength, operator_strength reads, rank]⟩

theorem powerOperator_token {op found : BinaryOperator}
    (same : powerOperator op.token = some found) : op.row = 4 ∧ op.level = 4 := by
  cases op with
  | typed operator =>
      simp only [BinaryOperator.token, typedToken_kind] at same
      simp only [BinaryOperator.row, BinaryOperator.level]
      cases symbol : operator.symbol <;> rw [symbol] at same <;>
        first | exact ⟨rfl, rfl⟩ | cases same
  | _ => first | exact ⟨rfl, rfl⟩ | cases same

theorem power_groups {op : BinaryOperator} (row : op.row = 4) (left right : Expr) :
    left.leftGroups op = true ∧ right.rightGroups op = true := by
  cases op with
  | typed operator =>
      simp only [BinaryOperator.row] at row
      simp only [Expr.leftGroups, Expr.rightGroups, true_and]
      cases symbol : operator.symbol <;> simp [symbol, TypedSymbol.row] at row ⊢
  | power => exact ⟨rfl, rfl⟩
  | _ => cases row

theorem Expr.isPrefixed_tight {expr : Expr} (looser : expr.isPrefixed = true) :
    expr.row = 2 ∧ expr.level = 2 := by
  cases expr <;> first | exact ⟨rfl, rfl⟩ | cases looser

theorem operand_rank (level : BinaryLevel) : level.operand.rank = level.rank - 1 := by
  cases level <;> rfl

/-- The words of an argument list split where its printed arguments do. -/
theorem Derives.arguments_group {list : List Expr} {tokens : List Token}
    (derivation : Derives .argumentList tokens (.arguments list))
    (printed : tokens = printArguments list)
    (holds : ∀ argument ∈ list, ∀ rank, Built argument rank argument.print →
      argument.groupsAsTable = true) :
    ∀ argument ∈ list, argument.groupsAsTable = true := by
  induction list using List.reverseRecOn generalizing tokens with
  | nil => simp
  | append_singleton list last ih =>
      generalize whole : list ++ [last] = all at derivation
      cases derivation with
      | @firstArgument _ argument inner =>
          obtain ⟨rfl, rfl⟩ : list = [] ∧ last = argument := by
            simpa [List.append_eq_singleton_iff] using whole
          subst printed
          obtain ⟨rank, built⟩ := inner.built_bare
          simpa using holds last (by simp) rank built
      | @nextArgument first second initial argument earlier inner =>
          obtain ⟨rfl, same⟩ := List.append_inj' whole rfl
          obtain rfl : last = argument := by simpa using same
          have nonempty : list ≠ [] := by
            have := earlier.arguments_ne_nil rfl
            simpa using this
          rw [printArguments_concat nonempty] at printed
          obtain ⟨rfl, -, rfl⟩ := split_unique role printed rfl rfl earlier.weight_eq.1
          obtain ⟨rank, built⟩ := inner.built_bare
          have final := holds last (by simp) rank built
          have others := ih earlier rfl (fun argument inside => holds argument (by simp [inside]))
          intro argument inside
          rcases List.mem_append.mp inside with inside | inside
          · exact others argument inside
          · obtain rfl := List.mem_singleton.mp inside
            exact final

theorem Derives.optional_group {list : List Expr}
    (derivation : Derives .optionalArgumentList (printArguments list) (.arguments list))
    (holds : ∀ argument ∈ list, ∀ rank, Built argument rank argument.print →
      argument.groupsAsTable = true) : argumentsGroup list = true := by
  rw [argumentsGroup_iff]
  generalize printed : printArguments list = tokens at derivation
  cases derivation with
  | noArguments => simp
  | arguments inner => exact inner.arguments_group printed.symm holds

/-- A tree that Parser.y builds from its printed tokens meets the condition. -/
theorem Built.groups {expr : Expr} {rank : Nat} (built : Built expr rank expr.print) :
    rank = expr.level ∧ expr.groupsAsTable = true := by
  have child {symbol : Nonterminal} {bound row : Nat} {inner : Expr}
      (ih : ∀ rank, Built inner rank inner.print →
        rank = inner.level ∧ inner.groupsAsTable = true)
      (derivation : Derives symbol (enclose bound row inner.print) (.expression inner)) :
      (row ≤ bound → inner.level ≤ symbol.rank) ∧ inner.groupsAsTable = true := by
    obtain ⟨rank, built, bare⟩ := derivation.built
    obtain ⟨rfl, groups⟩ := ih rank built
    exact ⟨bare, groups⟩
  have bareChild {symbol : Nonterminal} {inner : Expr}
      (ih : ∀ rank, Built inner rank inner.print →
        rank = inner.level ∧ inner.groupsAsTable = true)
      (derivation : Derives symbol inner.print (.expression inner)) :
      inner.groupsAsTable = true := by
    obtain ⟨rank, built⟩ := derivation.built_bare
    exact (ih rank built).2
  induction expr using Expr.inductOn generalizing rank with
  | sizeof name => exact ⟨built.1, rfl⟩
  | call callee list _ ihArguments =>
      obtain ⟨rfl, name, inner, rfl, printed, derivation⟩ := built
      refine ⟨rfl, ?_⟩
      obtain rfl : printArguments list = inner := by
        simpa [Expr.calleeRow, Expr.row, enclose] using printed
      exact derivation.optional_group fun argument inside rank built =>
        (ihArguments argument inside built).2
  | methodCall receiver method list ihReceiver ihArguments =>
      obtain ⟨rfl, first, second, printed, base, derivation⟩ := built
      obtain ⟨rfl, -, rest⟩ := split_unique role printed rfl rfl
        (by simp [base.weight_eq.1, Value.print])
      obtain rfl : printArguments list = second := by simpa using rest
      refine ⟨rfl, ?_⟩
      simp only [Expr.groupsAsTable, Bool.and_eq_true]
      exact ⟨(child (fun _ => ihReceiver) base).2, derivation.optional_group
        fun argument inside rank built => (ihArguments argument inside built).2⟩
  | member base name ih =>
      obtain ⟨rfl, first, printed, derivation⟩ := built
      obtain ⟨rfl, -, -⟩ := split_unique role printed rfl rfl
        (by simp [derivation.weight_eq.1, Value.print])
      exact ⟨rfl, (child (fun _ => ih) derivation).2⟩
  | index base index ihBase ihIndex =>
      obtain ⟨rfl, first, second, printed, left, inner⟩ := built
      obtain ⟨rfl, -, rest⟩ := split_unique role printed rfl rfl
        (by simp [left.weight_eq.1, Value.print])
      obtain rfl := List.append_cancel_right rest
      refine ⟨rfl, ?_⟩
      simp only [Expr.groupsAsTable, Bool.and_eq_true]
      exact ⟨(child (fun _ => ihBase) left).2, bareChild (fun _ => ihIndex) inner⟩
  | slice base start stop lengthMode ihBase ihStart ihStop =>
      cases lengthMode with
      | false =>
          obtain ⟨rfl, first, second, third, printed, left, begun, ended⟩ := built
          obtain ⟨rfl, -, rest⟩ := split_unique role printed rfl rfl
            (by simp [left.weight_eq.1, Value.print])
          obtain ⟨rfl, -, rest⟩ := split_unique role rest rfl rfl
            (by simp [begun.weight_eq.1, Value.print])
          obtain rfl := List.append_cancel_right rest
          refine ⟨rfl, ?_⟩
          simp only [Expr.groupsAsTable, Bool.and_eq_true]
          exact ⟨⟨(child (fun _ => ihBase) left).2, bareChild (fun _ => ihStart) begun⟩,
            bareChild (fun _ => ihStop) ended⟩
      | true =>
          obtain ⟨rfl, first, second, third, printed, left, begun, ended⟩ := built
          obtain ⟨rfl, -, rest⟩ := split_unique role printed rfl rfl
            (by simp [left.weight_eq.1, Value.print])
          obtain ⟨rfl, -, rest⟩ := split_unique role rest rfl rfl
            (by simp [begun.weight_eq.1, Value.print])
          obtain rfl := List.append_cancel_right (List.cons.inj rest).2
          refine ⟨rfl, ?_⟩
          simp only [Expr.groupsAsTable, Bool.and_eq_true]
          exact ⟨⟨(child (fun _ => ihBase) left).2, bareChild (fun _ => ihStart) begun⟩,
            bareChild (fun _ => ihStop) ended⟩
  | unsigned operand ih =>
      obtain ⟨rfl, first, printed, derivation⟩ := built
      obtain ⟨rfl, -, -⟩ := split_unique role printed rfl rfl
        (by simp [derivation.weight_eq.1, Value.print])
      exact ⟨rfl, (child (fun _ => ih) derivation).2⟩
  | asTemplate operand name ih =>
      obtain ⟨rfl, first, token, printed, derivation⟩ := built
      obtain ⟨rfl, -, -⟩ := split_unique role printed rfl rfl
        (by simp [derivation.weight_eq.1, Value.print])
      obtain ⟨bare, groups⟩ := child (fun _ => ih) derivation
      refine ⟨rfl, ?_⟩
      simp only [Expr.groupsAsTable, groups, Bool.and_true, Bool.not_eq_true']
      by_contra looser
      obtain ⟨row, level⟩ := Expr.isPrefixed_tight (Bool.not_eq_false _ ▸ looser)
      have bound := bare (Nat.le_of_eq row)
      simp only [Nonterminal.rank, level] at bound
      omega
  | post op operand ih =>
      obtain ⟨rfl, first, token, printed, found, derivation⟩ := built
      obtain ⟨rfl, -, -⟩ := split_unique role printed (by simp) (postOperator_role found)
        (by simp [derivation.weight_eq.1, Value.print])
      exact ⟨rfl, (child (fun _ => ih) derivation).2⟩
  | unary op operand ih =>
      obtain ⟨rfl, token, inner, printed, found, derivation⟩ := built
      obtain ⟨rfl, rfl⟩ := List.cons.inj printed
      exact ⟨rfl, (child (fun _ => ih) derivation).2⟩
  | deref length address ih =>
      obtain ⟨rfl, text, inner, rfl, printed, derivation⟩ := built
      obtain rfl : enclose 2 address.row address.print = inner := by
        simpa [DerefLength.tokens] using printed
      exact ⟨rfl, (child (fun _ => ih) derivation).2⟩
  | binary op left right ihLeft ihRight =>
      obtain ⟨first, token, second, printed, ⟨level, rfl, found, begun, ended⟩ |
        ⟨rfl, found, begun, ended⟩⟩ := built
      · obtain ⟨rfl, rfl, rfl⟩ := split_unique role printed (by simp) (operator_role found)
          (by simp [begun.weight_eq.1, Value.print])
        obtain ⟨row, same⟩ := operator_token found
        obtain ⟨leftBare, leftGroups⟩ := child (fun _ => ihLeft) begun
        obtain ⟨rightBare, rightGroups⟩ := child (fun _ => ihRight) ended
        rw [operand_rank] at rightBare
        refine ⟨same, ?_⟩
        simp only [Expr.groupsAsTable, Bool.and_eq_true]
        exact ⟨⟨⟨(left.leftGroups_iff op row).mpr (same ▸ leftBare),
          (right.rightGroups_iff op row).mpr (same ▸ rightBare)⟩, leftGroups⟩, rightGroups⟩
      · obtain ⟨rfl, rfl, rfl⟩ := split_unique role printed (by simp) (powerOperator_role found)
          (by simp [begun.weight_eq.1, Value.print])
        obtain ⟨row, level⟩ := powerOperator_token found
        refine ⟨level.symm, ?_⟩
        simp only [Expr.groupsAsTable, Bool.and_eq_true]
        exact ⟨⟨power_groups row left right, (child (fun _ => ihLeft) begun).2⟩,
          (child (fun _ => ihRight) ended).2⟩
  | ternary condition thenExpr elseExpr ihCondition ihThen ihElse =>
      obtain ⟨rfl, first, second, third, printed, begun, middle, ended⟩ := built
      obtain ⟨rfl, -, rest⟩ := split_unique role printed rfl rfl
        (by simp [begun.weight_eq.1, Value.print])
      obtain ⟨rfl, -, rfl⟩ := split_unique role rest rfl rfl
        (by simp [middle.weight_eq.1, Value.print])
      refine ⟨rfl, ?_⟩
      simp only [Expr.groupsAsTable, Bool.and_eq_true]
      exact ⟨⟨(child (fun _ => ihCondition) begun).2, bareChild (fun _ => ihThen) middle⟩,
        (child (fun _ => ihElse) ended).2⟩
  | assignment target op value ihTarget ihValue =>
      obtain ⟨rfl, symbol, first, token, second, printed, found, -, begun, ended⟩ := built
      obtain ⟨rfl, rfl, rfl⟩ := split_unique role printed (by simp) (assignmentOperator_role found)
        (by simp [begun.weight_eq.1, Value.print])
      refine ⟨rfl, ?_⟩
      simp only [Expr.groupsAsTable, Bool.and_eq_true]
      exact ⟨(child (fun _ => ihTarget) begun).2, bareChild (fun _ => ihValue) ended⟩
  | _ => exact ⟨built.1, rfl⟩

theorem derives_print_iff (expr : Expr) :
    Derives .expression expr.print (.expression expr) ↔ expr.groupsAsTable = true := by
  constructor
  · intro derivation
    obtain ⟨rank, built⟩ := derivation.built_bare
    exact built.groups.2
  · intro groups
    exact .expression ((derives_print expr groups).loosen expr.level_le)

/-- The printed tokens of a tree are taken to that tree exactly where the condition holds. -/
theorem Expr.parses_print_iff (expr : Expr) :
    Parses expr.print expr ↔ expr.groupsAsTable = true :=
  parses_iff.trans (derives_print_iff expr)

/-- `%d|` and `%d&`. -/
def typedBitOr : TypedOperator := ⟨[], false, .bitOr, rfl, nofun⟩

def typedBitAnd : TypedOperator := ⟨[], false, .bitAnd, rfl, nofun⟩

/-- `a %d| b %d& c` as Standard 3.7 groups it. -/
def typedBitwise : Expr :=
  .binary (.typed typedBitOr) (.identifier "a")
    (.binary (.typed typedBitAnd) (.identifier "b") (.identifier "c"))

/-- `-x as T` as Standard 3.7 groups it. -/
def negatedView : Expr := .asTemplate (.unary .minus (.identifier "x")) "T"

/-- The two are taken as `(a %d| b) %d& c` and as `-(x as T)`. -/
theorem printed_not_parses :
    ¬ Parses typedBitwise.print typedBitwise ∧
      Parses typedBitwise.print (.binary (.typed typedBitAnd)
        (.binary (.typed typedBitOr) (.identifier "a") (.identifier "b")) (.identifier "c")) ∧
      ¬ Parses negatedView.print negatedView ∧
      Parses negatedView.print (.unary .minus (.asTemplate (.identifier "x") "T")) := by
  have atom (symbol : Nat) (name : String) :
      Derives (symbolAt symbol) [.identifier name] (.expression (.identifier name)) :=
    (show Derives (symbolAt 0) _ _ from .primary (.token rfl)).loosen (Nat.zero_le symbol)
  have bitwise : Derives (symbolAt 12)
      (([.identifier "a"] ++ typedToken typedBitOr :: [.identifier "b"]) ++
        typedToken typedBitAnd :: [.identifier "c"])
      (.expression (.binary (.typed typedBitAnd)
        (.binary (.typed typedBitOr) (.identifier "a") (.identifier "b")) (.identifier "c"))) :=
    .binary (.binary (atom 12 "a") (by rfl) (atom 11 "b")) (by rfl)
      (atom 11 "c")
  have negated : Derives (symbolAt 2) (.minus :: ([.identifier "x"] ++ [.as, .identifier "T"]))
      (.expression (.unary .minus (.asTemplate (.identifier "x") "T"))) :=
    .prefixed rfl (.suffixed (.asTemplate (atom 1 "x") rfl))
  have bitwiseTaken := bitwise.loosen (show 12 ≤ 16 by decide)
  have negatedTaken := negated.loosen (show 2 ≤ 16 by decide)
  refine ⟨?_, parses_iff.mpr (.expression bitwiseTaken), ?_,
    parses_iff.mpr (.expression negatedTaken)⟩
  · intro parses
    have same := parses.2 _ (.expression bitwiseTaken)
    simp [typedBitwise] at same
  · intro parses
    have same := parses.2 _ (.expression negatedTaken)
    simp [negatedView] at same

end HitSimple.Parser

import HitSimple.Parser.Reader

namespace HitSimple.Parser

def startsPrimary : Token → Bool
  | .lparen => true
  | token => (primary token).isSome

def startsExpression : Token → Bool
  | .lbracket => true
  | .sizeof => true
  | token => startsPrimary token || (unaryOperator token).isSome

/-- What the first token of a word can be. -/
def StartsWell : Nonterminal → List Token → Prop
  | .optionalArgumentList, _ => True
  | .postfixExpr, tokens => ∃ token rest, tokens = token :: rest ∧ startsPrimary token = true
  | .callExpr, tokens => ∃ token rest, tokens = token :: rest ∧ startsPrimary token = true
  | .primaryExpr, tokens => ∃ token rest, tokens = token :: rest ∧ startsPrimary token = true
  | _, tokens => ∃ token rest, tokens = token :: rest ∧ startsExpression token = true

theorem startsExpression_of_startsPrimary {token : Token}
    (starts : startsPrimary token = true) : startsExpression token = true := by
  cases token <;> first | rfl | exact starts

theorem StartsWell.append {symbol : Nonterminal} {first : List Token}
    (starts : StartsWell symbol first) (rest : List Token) : StartsWell symbol (first ++ rest) := by
  cases symbol <;> first
    | trivial
    | (obtain ⟨token, tail, rfl, well⟩ := starts; exact ⟨token, tail ++ rest, rfl, well⟩)

theorem StartsWell.exists_startsExpression {symbol : Nonterminal} {tokens : List Token}
    (starts : StartsWell symbol tokens) (nonempty : symbol ≠ .optionalArgumentList) :
    ∃ token rest, tokens = token :: rest ∧ startsExpression token = true := by
  cases symbol with
  | optionalArgumentList => exact absurd rfl nonempty
  | postfixExpr | callExpr | primaryExpr =>
      obtain ⟨token, rest, rfl, well⟩ := starts
      exact ⟨token, rest, rfl, startsExpression_of_startsPrimary well⟩
  | _ => exact starts

theorem Derives.startsWell {symbol : Nonterminal} {tokens : List Token} {value : Value}
    (derivation : Derives symbol tokens value) : StartsWell symbol tokens := by
  induction derivation with
  | expression _ ih => exact ih
  | conditional _ ih => exact ih
  | assign _ _ _ ih _ =>
      exact (ih.append _).exists_startsExpression (by simp)
  | assignDeref => exact ⟨_, _, rfl, rfl⟩
  | logicalOr _ ih => exact ih
  | ternary _ _ _ ih _ _ => exact ih.append _
  | @operand level _ _ _ ih =>
      exact ih.exists_startsExpression (by cases level <;> simp [BinaryLevel.operand])
  | binary _ _ _ ih _ => exact ih.append _
  | unary _ ih => exact ih
  | power _ _ _ ih _ => exact ih.append _
  | suffixed _ ih => exact ih.exists_startsExpression (by simp)
  | @prefixed token op tokens operand found _ _ =>
      refine ⟨token, tokens, rfl, ?_⟩
      cases token <;> first | rfl | cases found
  | deref => exact ⟨_, _, rfl, rfl⟩
  | sizeof => exact ⟨_, _, rfl, rfl⟩
  | called _ ih => exact ih
  | primary _ ih => exact ih
  | index _ _ ih _ => exact ih.append _
  | slice _ _ _ ih _ _ => exact ih.append _
  | sliceLength _ _ _ ih _ _ => exact ih.append _
  | member _ ih => exact ih.append _
  | methodCall _ _ ih _ => exact ih.append _
  | unsigned _ ih => exact ih.append _
  | asTemplate _ _ ih => exact ih.append _
  | post _ _ ih => exact ih.append _
  | call => exact ⟨_, _, rfl, rfl⟩
  | noArguments => trivial
  | arguments => trivial
  | firstArgument _ ih => exact ih
  | nextArgument _ _ ih _ => exact ih.append _
  | @token token expr found =>
      refine ⟨token, [], rfl, ?_⟩
      cases token <;> first | rfl | cases found
  | parenthesized => exact ⟨_, _, rfl, rfl⟩

/-- Reading the symbol passes over the word and goes on after its value. -/
def Completes (symbol : Nonterminal) (tokens : List Token) (value : Value) : Prop :=
  ∀ rest, symbol.follow ≤ strength rest → ∃ added least, ∀ fuel, least ≤ fuel →
    read (fuel + added) (.parse symbol) (tokens ++ rest) = read fuel (.extend symbol value) rest

/-- Reading the symbol passes over the word and stops with its value. -/
def ReadsTo (symbol : Nonterminal) (tokens : List Token) (value : Value) : Prop :=
  ∀ rest, symbol.stop ≤ strength rest → ∃ least, ∀ fuel, least ≤ fuel →
    read fuel (.parse symbol) (tokens ++ rest) = some (value, rest)

theorem Completes.readsTo {symbol : Nonterminal} {tokens : List Token} {value : Value}
    (complete : Completes symbol tokens value) : ReadsTo symbol tokens value := by
  intro rest next
  obtain ⟨added, least, reads⟩ := complete rest (Nat.le_trans symbol.follow_le_stop next)
  refine ⟨least + 1 + added, ?_⟩
  intro fuel bound
  obtain ⟨spare, rfl⟩ := Nat.exists_eq_add_of_le bound
  have rearranged : least + 1 + added + spare = (least + spare + 1) + added := by omega
  rw [rearranged, reads _ (by omega), read_extend_stop _ _ _ _ next]

theorem ReadsTo.completes {symbol : Nonterminal} {tokens : List Token} {value : Value}
    (reads : ReadsTo symbol tokens value) (closed : symbol.follow = symbol.stop) :
    Completes symbol tokens value := by
  intro rest next
  rw [closed] at next
  obtain ⟨least, reads⟩ := reads rest next
  refine ⟨0, least + 1, ?_⟩
  intro fuel bound
  obtain ⟨spare, rfl⟩ := Nat.exists_eq_add_of_le bound
  have rearranged : least + 1 + spare = least + spare + 1 := by omega
  rw [Nat.add_zero, reads _ (by omega), rearranged, read_extend_stop _ _ _ _ next]

theorem readsTo_unary_of_suffixed {tokens : List Token} {value : Value}
    (starts : StartsWell .postfixExpr tokens) (reads : ReadsTo .postfixExpr tokens value) :
    ReadsTo .unaryExpr tokens value := by
  intro rest next
  obtain ⟨least, reads⟩ := reads rest next
  obtain ⟨token, tail, rfl, well⟩ := starts
  refine ⟨least + 1, ?_⟩
  intro fuel bound
  obtain ⟨spare, rfl⟩ := Nat.exists_eq_add_of_le' bound
  rw [← reads (spare + least) (by omega), ← Nat.add_assoc]
  cases token <;> first | rfl | cases well

theorem readsTo_power_of_unary {tokens : List Token} {expr : Expr}
    (reads : ReadsTo .unaryExpr tokens (.expression expr)) :
    ReadsTo .powerExpr tokens (.expression expr) := by
  intro rest next
  simp only [Nonterminal.stop] at next
  obtain ⟨least, reads⟩ := reads rest (by simp only [Nonterminal.stop]; omega)
  refine ⟨least + 1, ?_⟩
  intro fuel bound
  obtain ⟨spare, rfl⟩ := Nat.exists_eq_add_of_le' bound
  rw [← Nat.add_assoc]
  show withExpression _ _ = _
  rw [reads _ (by omega), withExpression_some]
  cases rest with
  | nil => rfl
  | cons token after =>
      cases found : powerOperator token with
      | none => simp only [found]
      | some op =>
          have := powerOperator_strength found
          simp only [strength_cons] at next
          omega

theorem completes_of_operand (level : BinaryLevel) {tokens : List Token} {expr : Expr}
    (reads : ReadsTo level.operand tokens (.expression expr)) :
    Completes (.binaryExpr level) tokens (.expression expr) := by
  intro rest next
  have bounded : level.operand.stop ≤ strength rest := by
    cases level <;> exact next
  obtain ⟨least, reads⟩ := reads rest bounded
  refine ⟨1, least, ?_⟩
  intro fuel bound
  show withExpression _ _ = _
  rw [reads _ bound, withExpression_some]

theorem readsTo_conditional_of_logicalOr {tokens : List Token} {expr : Expr}
    (reads : ReadsTo (.binaryExpr .logicalOrExpr) tokens (.expression expr)) :
    ReadsTo .conditionalExpr tokens (.expression expr) := by
  intro rest next
  simp only [Nonterminal.stop] at next
  obtain ⟨least, reads⟩ := reads rest (by simp only [Nonterminal.stop, BinaryLevel.rank]; omega)
  refine ⟨least + 1, ?_⟩
  intro fuel bound
  obtain ⟨spare, rfl⟩ := Nat.exists_eq_add_of_le' bound
  rw [← Nat.add_assoc]
  show withExpression _ _ = _
  rw [reads _ (by omega), withExpression_some]
  cases rest with
  | nil => rfl
  | cons token after =>
      cases token <;> first | rfl | (simp [Token.strength] at next)

theorem readsTo_conditional_of_unary {tokens : List Token} {expr : Expr}
    (reads : ReadsTo .unaryExpr tokens (.expression expr)) :
    ReadsTo .conditionalExpr tokens (.expression expr) := by
  have multiplicative :=
    (completes_of_operand .multiplicativeExpr (readsTo_power_of_unary reads)).readsTo
  have shift := (completes_of_operand .shiftExpr
    (completes_of_operand .additiveExpr multiplicative).readsTo).readsTo
  have equality := (completes_of_operand .equalityExpr
    (completes_of_operand .relationalExpr shift).readsTo).readsTo
  have bitwiseOr := (completes_of_operand .bitwiseOrExpr
    (completes_of_operand .bitwiseXorExpr
      (completes_of_operand .bitwiseAndExpr equality).readsTo).readsTo).readsTo
  exact readsTo_conditional_of_logicalOr (completes_of_operand .logicalOrExpr
    (completes_of_operand .logicalAndExpr bitwiseOr).readsTo).readsTo

theorem readsTo_assignment {first second : List Token} {token : Token} {op : AssignmentOperator}
    {target value : Expr} (left : ReadsTo .conditionalExpr first (.expression target))
    (found : assignmentOperator token = some op)
    (right : ReadsTo .assignmentExpr second (.expression value)) :
    ReadsTo .assignmentExpr (first ++ token :: second)
      (.expression (.assignment target op value)) := by
  intro rest next
  obtain ⟨leastRight, right⟩ := right rest next
  obtain ⟨leastLeft, left⟩ := left (token :: (second ++ rest))
    (by simp [Nonterminal.stop, assignmentOperator_strength found])
  refine ⟨leastLeft + leastRight + 1, ?_⟩
  intro fuel bound
  obtain ⟨spare, rfl⟩ := Nat.exists_eq_add_of_le' bound
  rw [← Nat.add_assoc]
  show withExpression _ _ = _
  rw [List.append_assoc, List.cons_append, left _ (by omega),
    withExpression_some]
  simp only [found]
  rw [right _ (by omega), withExpression_some]

theorem readsTo_deref (text : String) {tokens : List Token} {address : Expr}
    (reads : ReadsTo .unaryExpr tokens (.expression address)) :
    ReadsTo .unaryExpr (.lbracket :: .integer text :: .rbracket :: .star :: tokens)
      (.expression (.deref (.integer text) address)) := by
  intro rest next
  obtain ⟨least, reads⟩ := reads rest next
  refine ⟨least + 1, ?_⟩
  intro fuel bound
  obtain ⟨spare, rfl⟩ := Nat.exists_eq_add_of_le' bound
  simp only [List.cons_append]
  rw [← Nat.add_assoc]
  show withExpression _ _ = _
  rw [reads _ (by omega), withExpression_some]

theorem readsTo_argument_end {tokens : List Token} {list : List Expr}
    (reads : ReadsTo .argumentList tokens (.arguments list))
    (starts : StartsWell .argumentList tokens) :
    ReadsTo .optionalArgumentList tokens (.arguments list) := by
  intro rest next
  simp only [Nonterminal.stop] at next
  obtain ⟨least, reads⟩ := reads rest (by simp only [Nonterminal.stop]; omega)
  obtain ⟨token, tail, rfl, well⟩ := starts
  refine ⟨least + 1, ?_⟩
  intro fuel bound
  obtain ⟨spare, rfl⟩ := Nat.exists_eq_add_of_le' bound
  rw [← reads (spare + least) (by omega), ← Nat.add_assoc]
  cases token <;> first | rfl | cases well

/-- A suffix whose reading is one step of `extend` continues the word. -/
theorem Completes.suffix {first second : List Token} {base expr : Expr}
    (complete : Completes .postfixExpr first (.expression base))
    (strong : ∀ rest, 1 ≤ strength (second ++ rest))
    (step : ∀ rest, 1 ≤ strength rest → ∃ least, ∀ fuel, least ≤ fuel →
      read (fuel + 1) (.extend .postfixExpr (.expression base)) (second ++ rest) =
        read fuel (.extend .postfixExpr (.expression expr)) rest) :
    Completes .postfixExpr (first ++ second) (.expression expr) := by
  intro rest next
  obtain ⟨added, least, reads⟩ := complete (second ++ rest) (strong rest)
  obtain ⟨leastStep, step⟩ := step rest next
  refine ⟨added + 1, least + leastStep, ?_⟩
  intro fuel bound
  have rearranged : fuel + (added + 1) = (fuel + 1) + added := by omega
  rw [List.append_assoc, rearranged, reads _ (by omega), step _ (by omega)]

theorem Derives.completes {symbol : Nonterminal} {tokens : List Token} {value : Value}
    (derivation : Derives symbol tokens value) : Completes symbol tokens value := by
  induction derivation with
  | expression _ ih =>
      refine ReadsTo.completes ?_ rfl
      intro rest next
      obtain ⟨least, reads⟩ := ih.readsTo rest next
      refine ⟨least + 1, ?_⟩
      intro fuel bound
      obtain ⟨spare, rfl⟩ := Nat.exists_eq_add_of_le' bound
      rw [← Nat.add_assoc, read, reads _ (by omega)]
  | conditional _ ih =>
      refine ReadsTo.completes ?_ rfl
      intro rest next
      simp only [Nonterminal.stop] at next
      obtain ⟨least, reads⟩ := ih.readsTo rest (by simp only [Nonterminal.stop]; omega)
      refine ⟨least + 1, ?_⟩
      intro fuel bound
      obtain ⟨spare, rfl⟩ := Nat.exists_eq_add_of_le' bound
      rw [← Nat.add_assoc, read, reads _ (by omega), withExpression_some]
      cases rest with
      | nil => rfl
      | cons token after =>
          cases found : assignmentOperator token with
          | none => simp only [found]
          | some op =>
              have := assignmentOperator_strength found
              simp only [strength_cons] at next
              omega
  | assign target found _ left right =>
      have unary := readsTo_unary_of_suffixed target.startsWell left.readsTo
      exact (readsTo_assignment (readsTo_conditional_of_unary unary) found
        right.readsTo).completes rfl
  | @assignDeref text _ _ _ _ _ _ _ found _ left right =>
      have target := readsTo_conditional_of_unary (readsTo_deref text left.readsTo)
      exact (readsTo_assignment target found right.readsTo).completes rfl
  | logicalOr _ ih =>
      exact (readsTo_conditional_of_logicalOr ih.readsTo).completes rfl
  | @ternary first second third condition thenExpr elseExpr _ _ _ ihFirst ihSecond ihThird =>
      refine ReadsTo.completes ?_ rfl
      intro rest next
      obtain ⟨leastThird, readsThird⟩ := ihThird.readsTo rest next
      obtain ⟨leastSecond, readsSecond⟩ :=
        ihSecond.readsTo (.colon :: (third ++ rest)) (by simp [Nonterminal.stop, Token.strength])
      obtain ⟨leastFirst, readsFirst⟩ :=
        ihFirst.readsTo (.question :: (second ++ .colon :: (third ++ rest)))
          (by simp [Nonterminal.stop, Token.strength, BinaryLevel.rank])
      refine ⟨leastFirst + leastSecond + leastThird + 1, ?_⟩
      intro fuel bound
      obtain ⟨spare, rfl⟩ := Nat.exists_eq_add_of_le' bound
      simp only [List.append_assoc, List.cons_append]
      rw [← Nat.add_assoc, read, readsFirst _ (by omega), withExpression_some]
      simp only
      rw [readsSecond _ (by omega), withExpression_some]
      simp only
      rw [readsThird _ (by omega), withExpression_some]
  | operand _ ih => exact completes_of_operand _ ih.readsTo
  | @binary level first second token op left right _ found _ ihLeft ihRight =>
      intro rest next
      have bounded : level.operand.stop ≤ strength rest := by
        cases level <;> exact next
      obtain ⟨leastRight, readsRight⟩ := ihRight.readsTo rest bounded
      obtain ⟨added, leastLeft, readsLeft⟩ := ihLeft (token :: (second ++ rest))
        (by simp [Nonterminal.follow, operator_strength found])
      refine ⟨added + 1, leastLeft + leastRight, ?_⟩
      intro fuel bound
      have rearranged : fuel + (added + 1) = (fuel + 1) + added := by omega
      rw [List.append_assoc, List.cons_append, rearranged, readsLeft _ (by omega), read]
      simp only [found]
      rw [readsRight _ (by omega), withExpression_some]
  | unary _ ih => exact (readsTo_power_of_unary ih.readsTo).completes rfl
  | @power first second token op left right _ found _ ihLeft ihRight =>
      refine ReadsTo.completes ?_ rfl
      intro rest next
      obtain ⟨leastRight, readsRight⟩ := ihRight.readsTo rest next
      obtain ⟨leastLeft, readsLeft⟩ := ihLeft.readsTo (token :: (second ++ rest))
        (by simp [Nonterminal.stop, powerOperator_strength found])
      refine ⟨leastLeft + leastRight + 1, ?_⟩
      intro fuel bound
      obtain ⟨spare, rfl⟩ := Nat.exists_eq_add_of_le' bound
      rw [← Nat.add_assoc, read, List.append_assoc, List.cons_append, readsLeft _ (by omega),
        withExpression_some]
      simp only [found]
      rw [readsRight _ (by omega), withExpression_some]
  | suffixed operand ih =>
      exact (readsTo_unary_of_suffixed operand.startsWell ih.readsTo).completes rfl
  | @prefixed token op tokens operand found _ ih =>
      refine ReadsTo.completes ?_ rfl
      intro rest next
      obtain ⟨least, reads⟩ := ih.readsTo rest next
      refine ⟨least + 1, ?_⟩
      intro fuel bound
      obtain ⟨spare, rfl⟩ := Nat.exists_eq_add_of_le' bound
      have step : read (spare + least + 1) (.parse .unaryExpr) (token :: (tokens ++ rest)) =
          withExpression (read (spare + least) (.parse .unaryExpr) (tokens ++ rest))
            fun operand final => some (.expression (.unary op operand), final) := by
        cases token <;> first | (cases found; rfl) | cases found
      rw [← Nat.add_assoc, List.cons_append, step, reads _ (by omega), withExpression_some]
  | deref _ ih => exact (readsTo_deref _ ih.readsTo).completes rfl
  | sizeof =>
      refine ReadsTo.completes ?_ rfl
      intro rest next
      refine ⟨1, ?_⟩
      intro fuel bound
      obtain ⟨spare, rfl⟩ := Nat.exists_eq_add_of_le' bound
      rfl
  | called derivation ih =>
      intro rest next
      obtain ⟨least, reads⟩ := ih.readsTo rest next
      refine ⟨1, least, ?_⟩
      intro fuel bound
      cases derivation with
      | call => rw [List.cons_append, List.cons_append, read, ← List.cons_append,
          ← List.cons_append, reads _ bound, withExpression_some]
  | @primary tokens expr derivation ih =>
      intro rest next
      obtain ⟨least, reads⟩ := ih.readsTo rest next
      refine ⟨1, least, ?_⟩
      intro fuel bound
      have step : read (fuel + 1) (.parse .postfixExpr) (tokens ++ rest) =
          withExpression (read fuel (.parse .primaryExpr) (tokens ++ rest))
            fun base after => read fuel (.extend .postfixExpr (.expression base)) after := by
        cases derivation with
        | parenthesized => rfl
        | @token token _ found =>
            cases token with
            | identifier name =>
                cases rest with
                | nil => rfl
                | cons head after =>
                    have bound : 1 ≤ head.strength := next
                    cases head <;> first | rfl | exact absurd bound (by decide)
            | _ => rfl
      rw [step, reads _ bound, withExpression_some]
  | @index first second base index _ _ ihBase ihIndex =>
      refine ihBase.suffix (fun _ => Nat.le_refl 1) ?_
      intro rest next
      obtain ⟨least, reads⟩ := ihIndex.readsTo (.rbracket :: rest)
        (by simp [Nonterminal.stop, Token.strength])
      refine ⟨least, ?_⟩
      intro fuel bound
      simp only [List.cons_append, List.append_assoc, List.nil_append]
      rw [read, reads _ bound, withExpression_some]
  | @slice first second third base start stop _ _ ended ihBase ihStart ihStop =>
      refine ihBase.suffix (fun _ => Nat.le_refl 1) ?_
      intro rest next
      obtain ⟨leastStart, readsStart⟩ := ihStart.readsTo (.colon :: (third ++ .rbracket :: rest))
        (by simp [Nonterminal.stop, Token.strength])
      obtain ⟨leastStop, readsStop⟩ := ihStop.readsTo (.rbracket :: rest)
        (by simp [Nonterminal.stop, Token.strength])
      refine ⟨leastStart + leastStop, ?_⟩
      intro fuel bound
      simp only [List.cons_append, List.append_assoc, List.nil_append]
      rw [read, readsStart _ (by omega), withExpression_some]
      obtain ⟨token, tail, rfl, well⟩ := ended.startsWell
      have head : token ≠ .plus := by
        rintro rfl
        cases well
      have readStop := readsStop fuel (by omega)
      rw [List.cons_append] at readStop ⊢
      split
      · rename_i same
        cases same
      · rename_i same
        cases same
        exact absurd rfl head
      · rename_i same
        cases same
        rw [readStop, withExpression_some]
      · rename_i other
        exact absurd rfl (other _)
  | @sliceLength first second third base start stop _ _ _ ihBase ihStart ihStop =>
      refine ihBase.suffix (fun _ => Nat.le_refl 1) ?_
      intro rest next
      obtain ⟨leastStart, readsStart⟩ :=
        ihStart.readsTo (.colon :: .plus :: (third ++ .rbracket :: rest))
          (by simp [Nonterminal.stop, Token.strength])
      obtain ⟨leastStop, readsStop⟩ := ihStop.readsTo (.rbracket :: rest)
        (by simp [Nonterminal.stop, Token.strength])
      refine ⟨leastStart + leastStop, ?_⟩
      intro fuel bound
      simp only [List.cons_append, List.append_assoc, List.nil_append]
      rw [read, readsStart _ (by omega), withExpression_some]
      simp only
      rw [readsStop _ (by omega), withExpression_some]
  | member _ ih =>
      refine ih.suffix (fun _ => Nat.le_refl 1) ?_
      intro rest next
      refine ⟨0, ?_⟩
      intro fuel _
      cases rest with
      | nil => rfl
      | cons token after => cases token <;> first | rfl | (simp [Token.strength] at next)
  | @methodCall first second receiver method list _ _ ihReceiver ihList =>
      refine ihReceiver.suffix (fun _ => Nat.le_refl 1) ?_
      intro rest next
      obtain ⟨least, reads⟩ := ihList.readsTo (.rparen :: rest)
        (by simp [Nonterminal.stop, Token.strength])
      refine ⟨least, ?_⟩
      intro fuel bound
      simp only [List.cons_append, List.append_assoc, List.nil_append]
      rw [read, reads _ bound, withArguments_some]
  | unsigned _ ih =>
      refine ih.suffix (fun _ => Nat.le_refl 1) ?_
      intro rest next
      exact ⟨0, fun fuel _ => rfl⟩
  | asTemplate _ found ih =>
      refine ih.suffix (fun _ => Nat.le_refl 1) ?_
      intro rest next
      refine ⟨0, ?_⟩
      intro fuel _
      simp only [List.cons_append, List.nil_append]
      rw [read]
      simp only [found]
  | @post tokens token op operand _ found ih =>
      refine ih.suffix (fun _ => ?_) ?_
      · simp [postOperator_strength found]
      · intro rest next
        refine ⟨0, ?_⟩
        intro fuel _
        cases token <;> first | (cases found; rfl) | cases found
  | @call callee tokens list _ ih =>
      refine ReadsTo.completes ?_ rfl
      intro rest next
      obtain ⟨least, reads⟩ := ih.readsTo (.rparen :: rest)
        (by simp [Nonterminal.stop, Token.strength])
      refine ⟨least + 1, ?_⟩
      intro fuel bound
      obtain ⟨spare, rfl⟩ := Nat.exists_eq_add_of_le' bound
      simp only [List.cons_append, List.append_assoc, List.nil_append]
      rw [← Nat.add_assoc, read, reads _ (by omega), withArguments_some]
  | noArguments =>
      refine ReadsTo.completes ?_ rfl
      intro rest next
      refine ⟨1, ?_⟩
      intro fuel bound
      obtain ⟨spare, rfl⟩ := Nat.exists_eq_add_of_le' bound
      cases rest with
      | nil => simp [Nonterminal.stop] at next
      | cons token after =>
          cases token with
          | rparen => rfl
          | typed kind operator =>
              cases kind <;> simp [Nonterminal.stop, Token.strength] at next
          | _ => simp [Nonterminal.stop, Token.strength] at next
  | arguments derivation ih =>
      exact (readsTo_argument_end ih.readsTo derivation.startsWell).completes rfl
  | firstArgument _ ih =>
      intro rest next
      obtain ⟨least, reads⟩ := ih.readsTo rest next
      refine ⟨1, least, ?_⟩
      intro fuel bound
      rw [read, reads _ bound, withExpression_some]
  | @nextArgument first second list argument _ _ ihList ihArgument =>
      intro rest next
      obtain ⟨leastArgument, readsArgument⟩ := ihArgument.readsTo rest next
      obtain ⟨added, leastList, readsList⟩ := ihList (.comma :: (second ++ rest))
        (by simp [Nonterminal.follow, Token.strength])
      refine ⟨added + 1, leastList + leastArgument, ?_⟩
      intro fuel bound
      have rearranged : fuel + (added + 1) = (fuel + 1) + added := by omega
      rw [List.append_assoc, List.cons_append, rearranged, readsList _ (by omega), read,
        readsArgument _ (by omega), withExpression_some]
  | @token token expr found =>
      refine ReadsTo.completes ?_ rfl
      intro rest next
      refine ⟨1, ?_⟩
      intro fuel bound
      obtain ⟨spare, rfl⟩ := Nat.exists_eq_add_of_le' bound
      cases token <;> first | (cases found; rfl) | cases found
  | @parenthesized tokens expr _ ih =>
      refine ReadsTo.completes ?_ rfl
      intro rest next
      obtain ⟨least, reads⟩ := ih.readsTo (.rparen :: rest)
        (by simp [Nonterminal.stop, Token.strength])
      refine ⟨least + 1, ?_⟩
      intro fuel bound
      obtain ⟨spare, rfl⟩ := Nat.exists_eq_add_of_le' bound
      simp only [List.cons_append, List.append_assoc, List.nil_append]
      rw [← Nat.add_assoc, read, reads _ (by omega), withExpression_some]

/-- The productions give a word at most one tree. -/
theorem Derives.unique {tokens : List Token} {first second : Expr}
    (left : Derives .expression tokens (.expression first))
    (right : Derives .expression tokens (.expression second)) : first = second := by
  obtain ⟨leastLeft, readsLeft⟩ := left.completes.readsTo [] (by simp [Nonterminal.stop])
  obtain ⟨leastRight, readsRight⟩ := right.completes.readsTo [] (by simp [Nonterminal.stop])
  have same := (readsLeft (leastLeft + leastRight) (by omega)).symm.trans
    (readsRight (leastLeft + leastRight) (by omega))
  simpa using same

theorem parses_iff {tokens : List Token} {expr : Expr} :
    Parses tokens expr ↔ Derives .expression tokens (.expression expr) := by
  constructor
  · intro parses
    exact parses.1
  · intro derivation
    exact ⟨derivation, fun other reading => reading.unique derivation⟩

end HitSimple.Parser

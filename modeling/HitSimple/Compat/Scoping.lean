import HitSimple.Compat.BlockScope

namespace HitSimple.Compat

variable {Object : Type}

/-- An entry of `scopes_` holds what its block declares and what it has left. -/
structure Holds (entry : String → Option Object) (scope : BlockScope Object) : Prop where
  declared : ∀ name object, scope.declared name = some object → entry name = some object
  others : ∀ name, scope.declared name = none → (entry name).isSome = scope.left name

/-- A header or substatement together with the scope around it. -/
def BlockScope.within (inner scope : BlockScope Object) : BlockScope Object where
  declared := fun name => (inner.declared name).or (scope.declared name)
  parameters := scope.parameters
  left := fun name => inner.left name || scope.left name
  isSubstatement := scope.isSubstatement

def Apart (inner scope : BlockScope Object) : Prop :=
  ∀ name, (inner.declared name).isSome = true → scope.declared name = none

/-- `scopes_` has one entry for a block and the headers and substatements directly inside it. -/
inductive Simulates : Scopes Object → BlockScopes Object → Prop where
  | nil : Simulates [] []
  | block {entry scope outer scopes} (holds : Holds entry scope)
      (isBlock : scope.isSubstatement = false) (rest : Simulates outer scopes) :
      Simulates (entry :: outer) (scope :: scopes)
  | substatement {table inner scope scopes} (isSubstatement : inner.isSubstatement = true)
      (apart : Apart inner scope) (rest : Simulates table (inner.within scope :: scopes)) :
      Simulates table (inner :: scope :: scopes)

namespace Simulates
variable {table : Scopes Object} {scopes : BlockScopes Object}

theorem lookup (simulates : Simulates table scopes) {name : String}
    (unobscured : isUnobscured scopes name = true) :
    lookupObject table name = designated scopes name := by
  induction simulates with
  | nil => rfl
  | @block entry scope outer scopes holds isBlock rest ih =>
      rw [lookupObject, designated]
      cases found : scope.declared name with
      | some object => rw [holds.declared name object found]
      | none =>
          simp only [isUnobscured, found, Option.isSome_none, Bool.false_or, Bool.and_eq_true,
            Bool.not_eq_true'] at unobscured
          have absent : entry name = none := by
            rw [← Option.not_isSome_iff_eq_none, holds.others name found, unobscured.1]
            exact Bool.false_ne_true
          rw [absent]
          exact ih unobscured.2
  | @substatement table inner scope scopes isSubstatement apart rest ih =>
      have same : designated (inner :: scope :: scopes) name =
          designated (inner.within scope :: scopes) name := by
        simp only [designated, BlockScope.within]
        cases inner.declared name <;> rfl
      rw [same]
      apply ih
      simp only [isUnobscured, BlockScope.within] at unobscured ⊢
      cases found : inner.declared name with
      | some object => simp
      | none =>
          simp only [found, Option.isSome_none, Bool.false_or, Bool.and_eq_true,
            Bool.not_eq_true'] at unobscured
          simpa [found, unobscured.1] using unobscured.2

theorem declared_eq (simulates : Simulates table scopes) {name : String}
    (apart : isFreeAround scopes.tail name = true ∨
      ∀ scope ∈ scopes.head?, scope.isSubstatement = false)
    (kept : ∀ scope ∈ scopes.head?, scope.left name = false) :
    isDeclared table name = (scopes.head?.bind (·.declared name)).isSome := by
  induction simulates with
  | nil => rfl
  | @block entry scope outer scopes holds isBlock rest ih =>
      cases found : scope.declared name with
      | some object => simp [isDeclared, holds.declared name object found, found]
      | none => simp [isDeclared, holds.others name found, found, kept scope (by simp)]
  | @substatement table inner scope scopes isSubstatement disjoint rest ih =>
      have free : isFreeAround (scope :: scopes) name = true :=
        apart.resolve_right fun blocks => by simpa [isSubstatement] using blocks inner (by simp)
      simp only [isFreeAround, Bool.and_eq_true, Option.isNone_iff_eq_none, Bool.not_eq_true',
        Bool.or_eq_true] at free
      obtain ⟨⟨absent, notLeft⟩, around⟩ := free
      have innerKept := kept inner (by simp)
      rw [ih ?_ ?_]
      · simp [BlockScope.within, absent]
      · rcases around with isBlock | free
        · exact .inr fun found member => by
            obtain rfl : inner.within scope = found := by simpa using member
            exact isBlock
        · exact .inl free
      · intro found member
        obtain rfl : inner.within scope = found := by simpa using member
        simp [BlockScope.within, innerKept, notLeft]

theorem declare (simulates : Simulates table scopes) (nonempty : scopes ≠ []) {name : String}
    (apart : isFreeAround scopes.tail name = true ∨
      ∀ scope ∈ scopes.head?, scope.isSubstatement = false) (object : Object) :
    Simulates (bindObject table name object) (declareName scopes name object) := by
  induction simulates with
  | nil => exact absurd rfl nonempty
  | @block entry scope outer scopes holds isBlock rest ih =>
      refine .block ⟨?_, ?_⟩ isBlock rest
      · intro other found present
        by_cases same : other = name
        · subst same
          simpa using present
        · simp only [Function.update_of_ne same] at present ⊢
          exact holds.declared other found present
      · intro other absent
        by_cases same : other = name
        · subst same
          simp at absent
        · simp only [Function.update_of_ne same] at absent ⊢
          exact holds.others other absent
  | @substatement table inner scope scopes isSubstatement disjoint rest ih =>
      have free : isFreeAround (scope :: scopes) name = true :=
        apart.resolve_right fun blocks => by simpa [isSubstatement] using blocks inner (by simp)
      simp only [isFreeAround, Bool.and_eq_true, Option.isNone_iff_eq_none, Bool.not_eq_true',
        Bool.or_eq_true] at free
      obtain ⟨⟨absent, -⟩, around⟩ := free
      refine .substatement isSubstatement ?_ ?_
      · intro other present
        by_cases same : other = name
        · rw [same]
          exact absent
        · simp only [Function.update_of_ne same] at present
          exact disjoint other present
      · have merged := ih (by simp) (by
          rcases around with isBlock | free
          · exact .inr fun found member => by
              obtain rfl : inner.within scope = found := by simpa using member
              exact isBlock
          · exact .inl free)
        have same : declareName (inner.within scope :: scopes) name object =
            BlockScope.within { inner with
              declared := Function.update inner.declared name (some object) } scope :: scopes := by
          simp only [declareName, BlockScope.within, List.cons.injEq, BlockScope.mk.injEq,
            and_true]
          funext other
          by_cases same : other = name
          · simp [same]
          · simp [Function.update_of_ne same]
        rw [same] at merged
        exact merged

theorem push_block (simulates : Simulates table scopes) (parameters : String → Bool) :
    Simulates (pushScope table)
      ({ (BlockScope.empty false : BlockScope Object) with parameters } :: scopes) :=
  .block ⟨nofun, fun _ _ => rfl⟩ rfl simulates

theorem pop_block {scope : BlockScope Object} (isBlock : scope.isSubstatement = false)
    (simulates : Simulates table (scope :: scopes)) : Simulates (popScope table) scopes := by
  cases simulates with
  | block holds _ rest => exact rest
  | substatement isSubstatement => simp [isBlock] at isSubstatement

theorem push_substatement (simulates : Simulates table scopes) (nonempty : scopes ≠ []) :
    Simulates table (BlockScope.empty true :: scopes) := by
  cases scopes with
  | nil => exact absurd rfl nonempty
  | cons scope outer => exact .substatement rfl nofun simulates

/-- Declarations that a scope forgets stay in its entry. -/
theorem forget {scope forgetful : BlockScope Object}
    (simulates : Simulates table (scope :: scopes))
    (sameKind : forgetful.isSubstatement = scope.isSubstatement)
    (same : ∀ name, (forgetful.declared name = scope.declared name ∧
        forgetful.left name = scope.left name) ∨
      (forgetful.declared name = none ∧ forgetful.left name = true ∧
        (scope.declared name).isSome = true)) :
    Simulates table (forgetful :: scopes) := by
  generalize whole : scope :: scopes = all at simulates
  induction simulates generalizing scope forgetful scopes with
  | nil => cases whole
  | @block entry first outer rest' holds isBlock rest ih =>
      cases whole
      refine .block ⟨?_, ?_⟩ (sameKind.trans isBlock) rest
      · intro name object present
        rcases same name with ⟨declared, -⟩ | ⟨absent, -, -⟩
        · exact holds.declared name object (declared ▸ present)
        · rw [absent] at present
          cases present
      · intro name absent
        rcases same name with ⟨declared, left⟩ | ⟨-, left, forgotten⟩
        · rw [left, holds.others name (declared ▸ absent)]
        · obtain ⟨object, present⟩ := Option.isSome_iff_exists.mp forgotten
          rw [left, holds.declared name object present]
          rfl
  | @substatement table inner around outer isSubstatement disjoint rest ih =>
      cases whole
      refine .substatement (sameKind.trans isSubstatement) ?_ ?_
      · intro name present
        rcases same name with ⟨declared, -⟩ | ⟨absent, -, -⟩
        · exact disjoint name (declared ▸ present)
        · simp [absent] at present
      · have merged (name : String) :
            ((forgetful.within around).declared name = (inner.within around).declared name ∧
                (forgetful.within around).left name = (inner.within around).left name) ∨
              ((forgetful.within around).declared name = none ∧
                (forgetful.within around).left name = true ∧
                ((inner.within around).declared name).isSome = true) := by
          rcases same name with ⟨declared, left⟩ | ⟨absent, left, forgotten⟩
          · left
            simp [BlockScope.within, declared, left]
          · right
            simp [BlockScope.within, absent, left, forgotten, disjoint name forgotten]
        have kind : (forgetful.within around).isSubstatement =
            (inner.within around).isSubstatement := rfl
        exact ih kind merged rfl

theorem leave {inner : BlockScope Object} (isSubstatement : inner.isSubstatement = true)
    (simulates : Simulates table (inner :: scopes)) : Simulates table (leaveScope (inner :: scopes)) := by
  cases simulates with
  | block _ isBlock _ => simp [isSubstatement] at isBlock
  | @substatement _ _ scope outer _ disjoint rest =>
      refine rest.forget rfl fun name => ?_
      cases found : inner.declared name with
      | none =>
          left
          simp [BlockScope.within, found, Bool.or_comm]
      | some object =>
          right
          simp [BlockScope.within, found, disjoint name (by simp [found])]

end Simulates

/-- The lowering and the block scopes of C agree on a statement, and the scopes keep their kinds. -/
structure Agrees (lowered : Lowering (Scopes Object) Object)
    (resolved : Lowering (BlockScopes Object) Object) (scopes : BlockScopes Object) : Prop where
  events : lowered.events = resolved.events
  succeeded : lowered.succeeded = resolved.succeeded
  simulates : Simulates lowered.table resolved.table
  kinds : resolved.table.map BlockScope.isSubstatement = scopes.map BlockScope.isSubstatement

section Statements
variable {table : Scopes Object} {scopes : BlockScopes Object}

theorem lookups_agree (simulates : Simulates table scopes) (expression : Expr Object)
    (unobscured : exprIsUnobscured scopes expression = true) :
    lookups (lookupObject table) expression = lookups (designated scopes) expression := by
  induction expression with
  | lowered succeeds => rfl
  | identifier name next ih =>
      simp only [exprIsUnobscured, Bool.and_eq_true] at unobscured
      rw [lookups, lookups, simulates.lookup unobscured.1]
      cases found : designated scopes name with
      | none => rfl
      | some object =>
          simp only [found] at unobscured
          simp only [ih object unobscured.2]

theorem expr_agrees (simulates : Simulates table scopes) (expression : Expr Object)
    (unobscured : exprIsUnobscured scopes expression = true) :
    Agrees (lowerExpr table expression) (resolveExpr scopes expression) scopes := by
  have same := lookups_agree simulates expression unobscured
  exact ⟨congrArg Prod.fst same, congrArg Prod.snd same, simulates, rfl⟩

theorem optional_agrees (simulates : Simulates table scopes) (expression : Option (Expr Object))
    (unobscured : optionalIsUnobscured scopes expression = true) :
    Agrees (lowerOptional table expression) (resolveOptional scopes expression) scopes := by
  cases expression with
  | none => exact ⟨rfl, rfl, simulates, rfl⟩
  | some expression => exact expr_agrees simulates expression unobscured

theorem resolveOptional_table (scopes : BlockScopes Object) (expression : Option (Expr Object)) :
    (resolveOptional scopes expression).table = scopes := by
  cases expression with
  | none => rfl
  | some expression => rfl

theorem declaresApart_spec {name : String} (apart : declaresApart scopes name = true) :
    (∀ scope ∈ scopes.head?, scope.left name = false ∧ scope.parameters name = false) ∧
      (isFreeAround scopes.tail name = true ∨
        ∀ scope ∈ scopes.head?, scope.isSubstatement = false) := by
  cases scopes with
  | nil => exact ⟨nofun, .inl rfl⟩
  | cons scope outer =>
      simp only [declaresApart, Bool.and_eq_true, Bool.not_eq_true', Bool.or_eq_true] at apart
      obtain ⟨⟨left, parameters⟩, around⟩ := apart
      refine ⟨?_, ?_⟩
      · intro found member
        obtain rfl : scope = found := by simpa using member
        exact ⟨left, parameters⟩
      · rcases around with isBlock | free
        · right
          intro found member
          obtain rfl : scope = found := by simpa using member
          exact isBlock
        · exact .inl free

/-- A duplicate is reported if the scope declares the name already. -/
theorem isDeclared_eq_isRedeclaration (simulates : Simulates table scopes) {name : String}
    (apart : declaresApart scopes name = true) :
    isDeclared table name = isRedeclaration scopes name := by
  obtain ⟨kept, around⟩ := declaresApart_spec apart
  rw [simulates.declared_eq around fun scope member => (kept scope member).1]
  cases scopes with
  | nil => rfl
  | cons scope outer => simp [isRedeclaration, (kept scope (by simp)).2]

theorem declareName_kinds (nonempty : scopes ≠ []) (name : String) (object : Object) :
    (declareName scopes name object).map BlockScope.isSubstatement =
      scopes.map BlockScope.isSubstatement := by
  cases scopes with
  | nil => exact absurd rfl nonempty
  | cons scope outer => rfl

theorem declaration_agrees (simulates : Simulates table scopes) (nonempty : scopes ≠ [])
    (declaration : VarDecl Object) (apart : declarationIsApart scopes declaration = true) :
    Agrees (lowerLocalDeclaration table declaration) (resolveDeclaration scopes declaration)
      scopes := by
  obtain ⟨name, isExtern, object, acceptsInitializer, initializer⟩ := declaration
  cases isExtern with
  | true => exact ⟨rfl, rfl, simulates, rfl⟩
  | false =>
      cases object with
      | none => exact ⟨rfl, rfl, simulates, rfl⟩
      | some object =>
          simp only [declarationIsApart, Bool.and_eq_true, Bool.or_eq_true] at apart
          obtain ⟨apart, rest⟩ := apart
          simp only [lowerLocalDeclaration, resolveDeclaration,
            isDeclared_eq_isRedeclaration simulates apart]
          by_cases duplicate : isRedeclaration scopes name = true
          · rw [if_pos duplicate, if_pos duplicate]
            exact ⟨rfl, rfl, simulates, rfl⟩
          · rw [if_neg duplicate, if_neg duplicate]
            have bound := simulates.declare nonempty (declaresApart_spec apart).2 object
            have kinds := declareName_kinds nonempty name object
            by_cases refused : (initializer.isSome && !acceptsInitializer) = true
            · rw [if_pos refused, if_pos refused]
              exact ⟨rfl, rfl, bound, kinds⟩
            · rw [if_neg refused, if_neg refused]
              have unobscured := rest.resolve_left (by
                rintro (redeclared | refuses)
                · exact duplicate redeclared
                · exact refused (by simpa using refuses))
              have agrees := optional_agrees bound initializer unobscured
              exact ⟨congrArg _ agrees.events, agrees.succeeded, agrees.simulates,
                agrees.kinds.trans kinds⟩

theorem forInit_agrees (simulates : Simulates table scopes) (nonempty : scopes ≠ [])
    (init : ForInit Object) (apart : forInitIsApart scopes init = true) :
    Agrees (lowerForInit table init) (resolveForInit scopes init) scopes := by
  cases init with
  | none => exact ⟨rfl, rfl, simulates, rfl⟩
  | declaration declaration => exact declaration_agrees simulates nonempty declaration apart
  | expression expression => exact expr_agrees simulates expression apart

theorem Agrees.always {lowered : Lowering (Scopes Object) Object}
    {resolved : Lowering (BlockScopes Object) Object} (first : Agrees lowered resolved scopes)
    {lowerNext : Scopes Object → Lowering (Scopes Object) Object}
    {resolveNext : BlockScopes Object → Lowering (BlockScopes Object) Object}
    (next : Agrees (lowerNext lowered.table) (resolveNext resolved.table) resolved.table) :
    Agrees (lowered.always lowerNext) (resolved.always resolveNext) scopes where
  events := by rw [Lowering.always, Lowering.always, first.events, next.events]
  succeeded := by rw [Lowering.always, Lowering.always, first.succeeded, next.succeeded]
  simulates := next.simulates
  kinds := next.kinds.trans first.kinds

theorem Agrees.andThen {lowered : Lowering (Scopes Object) Object}
    {resolved : Lowering (BlockScopes Object) Object} (first : Agrees lowered resolved scopes)
    {lowerNext : Scopes Object → Lowering (Scopes Object) Object}
    {resolveNext : BlockScopes Object → Lowering (BlockScopes Object) Object}
    (next : resolved.succeeded = true →
      Agrees (lowerNext lowered.table) (resolveNext resolved.table) resolved.table) :
    Agrees (lowered.andThen lowerNext) (resolved.andThen resolveNext) scopes := by
  rw [Lowering.andThen, Lowering.andThen, first.succeeded]
  by_cases succeeded : resolved.succeeded = true
  · rw [if_pos succeeded, if_pos succeeded]
    exact first.always (next succeeded)
  · rw [if_neg succeeded, if_neg succeeded]
    exact first

theorem Agrees.nonempty {lowered : Lowering (Scopes Object) Object}
    {resolved : Lowering (BlockScopes Object) Object} (agrees : Agrees lowered resolved scopes)
    (nonempty : scopes ≠ []) : resolved.table ≠ [] := by
  intro empty
  have kinds := agrees.kinds
  rw [empty] at kinds
  exact nonempty (List.map_eq_nil_iff.mp kinds.symm)

theorem Agrees.leave {lowered : Lowering (Scopes Object) Object}
    {resolved : Lowering (BlockScopes Object) Object} (nonempty : scopes ≠ [])
    (agrees : Agrees lowered resolved (BlockScope.empty true :: scopes)) :
    Agrees lowered { resolved with table := leaveScope resolved.table } scopes := by
  obtain ⟨events, succeeded, simulates, kinds⟩ := agrees
  obtain ⟨left, happened, goesOn⟩ := resolved
  match left, simulates, kinds with
  | inner :: scope :: outer, simulates, kinds =>
      simp only [List.map_cons, List.cons.injEq] at kinds
      refine ⟨events, succeeded, simulates.leave kinds.1, ?_⟩
      rw [← kinds.2]
      rfl
  | [_], simulates, kinds =>
      simp only [List.map_cons, List.map_nil, List.cons.injEq] at kinds
      exact absurd (List.map_eq_nil_iff.mp kinds.2.symm) nonempty
  | [], simulates, kinds => simp at kinds

theorem Agrees.pop {lowered : Lowering (Scopes Object) Object}
    {resolved : Lowering (BlockScopes Object) Object} {block : BlockScope Object}
    (isBlock : block.isSubstatement = false)
    (agrees : Agrees lowered resolved (block :: scopes)) :
    Agrees { lowered with table := popScope lowered.table, succeeded := true }
      { resolved with table := resolved.table.tail, succeeded := true } scopes := by
  obtain ⟨events, succeeded, simulates, kinds⟩ := agrees
  obtain ⟨left, happened, goesOn⟩ := resolved
  match left, simulates, kinds with
  | inner :: outer, simulates, kinds =>
      simp only [List.map_cons, List.cons.injEq] at kinds
      exact ⟨events, rfl, simulates.pop_block (kinds.1.trans isBlock), kinds.2⟩
  | [], simulates, kinds => simp at kinds

/-- A branch without braces has a scope of its own, which `scopes_` merges with the one around. -/
theorem Agrees.branch (simulates : Simulates table scopes) (nonempty : scopes ≠ [])
    (branch : Stmt Object)
    (agrees : ∀ {table scopes}, Simulates table scopes → scopes ≠ [] →
      staysApart true scopes branch = true →
      Agrees (lowerStmt true table branch) (resolveStmt scopes branch) scopes)
    (apart : staysApart true (branchScopes branch scopes) branch = true) :
    Agrees (lowerStmt true table branch)
      (inBranch branch scopes fun scopes => resolveStmt scopes branch) scopes := by
  by_cases isBlock : branch.isBlock = true
  · rw [branchScopes, if_pos isBlock] at apart
    rw [inBranch, if_pos isBlock]
    exact agrees simulates nonempty apart
  · rw [branchScopes, if_neg isBlock] at apart
    rw [inBranch, if_neg isBlock]
    exact (agrees (simulates.push_substatement nonempty) (List.cons_ne_nil _ _) apart).leave nonempty

mutual

theorem stmt_agrees (isBranch : Bool) {table : Scopes Object} {scopes : BlockScopes Object}
    (simulates : Simulates table scopes) (nonempty : scopes ≠ []) :
    ∀ statement, staysApart isBranch scopes statement = true →
      Agrees (lowerStmt isBranch table statement) (resolveStmt scopes statement) scopes
  | .empty, _ | .jump, _ => ⟨rfl, rfl, simulates, rfl⟩
  | .declaration declaration, apart => declaration_agrees simulates nonempty declaration apart
  | .expression expression, apart => expr_agrees simulates expression apart
  | .returned value, apart => optional_agrees simulates value apart
  | .ifThen condition thenBranch, apart => by
      simp only [staysApart, Bool.and_eq_true] at apart
      refine (expr_agrees simulates condition apart.1).always ?_
      exact .branch simulates nonempty thenBranch
        (fun simulates nonempty => stmt_agrees true simulates nonempty thenBranch) apart.2
  | .ifElse condition thenBranch elseBranch, apart => by
      simp only [staysApart, Bool.and_eq_true] at apart
      obtain ⟨⟨condition, first⟩, second⟩ := apart
      have chosen := Agrees.branch simulates nonempty thenBranch
        (fun simulates nonempty => stmt_agrees true simulates nonempty thenBranch) first
      refine ((expr_agrees simulates _ condition).always chosen).always ?_
      exact .branch chosen.simulates (chosen.nonempty nonempty) elseBranch
        (fun simulates nonempty => stmt_agrees true simulates nonempty elseBranch) second
  | .whileLoop condition body, apart => by
      simp only [staysApart, Bool.and_eq_true] at apart
      refine (expr_agrees simulates condition apart.1).always ?_
      exact .branch simulates nonempty body
        (fun simulates nonempty => stmt_agrees true simulates nonempty body) apart.2
  | .forLoop init condition post body, apart => by
      simp only [staysApart, Bool.and_eq_true, Bool.or_eq_true, Bool.not_eq_true'] at apart
      obtain ⟨header, rest⟩ := apart
      refine Agrees.leave nonempty ?_
      have declared := forInit_agrees (simulates.push_substatement nonempty)
        (List.cons_ne_nil _ _) init header
      refine declared.andThen fun goesOn => ?_
      obtain ⟨tested, rest⟩ := rest.resolve_left (by simp [goesOn])
      have decides := optional_agrees declared.simulates condition tested
      refine decides.andThen fun goesOn => ?_
      obtain ⟨stepped, rest⟩ := rest.resolve_left (by simp [goesOn])
      rw [← resolveOptional_table (resolveForInit _ init).table condition] at stepped rest
      have steps := optional_agrees decides.simulates post stepped
      refine steps.andThen fun goesOn => ?_
      have body := rest.resolve_left (by simp [goesOn])
      rw [← resolveOptional_table (resolveOptional _ condition).table post] at body
      have around := declared.nonempty (List.cons_ne_nil _ _)
      exact .branch steps.simulates (steps.nonempty (decides.nonempty around)) _
        (fun simulates nonempty => stmt_agrees true simulates nonempty _) body
  | .label _ statement, apart => stmt_agrees false simulates nonempty statement apart
  | .block block, apart => by
      simp only [staysApart, Bool.and_eq_true] at apart
      obtain ⟨isBranch, apart⟩ := apart
      rw [lowerStmt, if_pos isBranch]
      exact (statements_agree (simulates.push_block fun _ => false) (List.cons_ne_nil _ _) block
        apart).pop rfl

theorem statements_agree {table : Scopes Object} {scopes : BlockScopes Object}
    (simulates : Simulates table scopes) (nonempty : scopes ≠ []) :
    ∀ block, statementsStayApart scopes block = true →
      Agrees (lowerStatements table block) (resolveStatements scopes block) scopes
  | .nil, _ => ⟨rfl, rfl, simulates, rfl⟩
  | .cons statement rest, apart => by
      simp only [statementsStayApart, Bool.and_eq_true] at apart
      have first := stmt_agrees false simulates nonempty statement apart.1
      exact first.always
        (statements_agree first.simulates (first.nonempty nonempty) rest apart.2)

end

theorem parameters_agree (parameters : List (Parameter Object)) {table : Scopes Object}
    {scope : BlockScope Object} {outer : BlockScopes Object}
    (isBlock : scope.isSubstatement = false) (simulates : Simulates table (scope :: outer))
    (distinct : parametersAreDistinct (scope :: outer) parameters = true) :
    Agrees (bindParameters table parameters) (resolveParameters (scope :: outer) parameters)
      (scope :: outer) := by
  induction parameters generalizing table scope with
  | nil => exact ⟨rfl, rfl, simulates, rfl⟩
  | cons parameter rest ih =>
      obtain ⟨name, object⟩ := parameter
      cases object with
      | none =>
          have agrees := ih isBlock simulates distinct
          exact ⟨agrees.events, rfl, agrees.simulates, agrees.kinds⟩
      | some object =>
          simp only [parametersAreDistinct, Bool.and_eq_true, Bool.not_eq_true'] at distinct
          have bound : Simulates (bindObject table name object)
              (declareName (scope :: outer) name object) :=
            simulates.declare (List.cons_ne_nil _ _) (.inr fun found member => by
              obtain rfl : scope = found := by simpa using member
              exact isBlock) object
          have stillBlock : BlockScope.isSubstatement { scope with
              declared := Function.update scope.declared name (some object) } = false := isBlock
          obtain ⟨events, succeeded, simulates, kinds⟩ := ih stillBlock bound distinct.2
          refine ⟨?_, succeeded, simulates, kinds⟩
          simp only [bindParameters, resolveParameters, distinct.1, Bool.false_eq_true, if_false]
          exact congrArg _ events

end Statements

theorem lowerFunction_follows_blockScopes (globals : String → Option Object)
    (function : FunctionDecl Object) (apart : functionStaysApart globals function = true) :
    lowerFunction globals function = resolveFunction globals function := by
  simp only [functionStaysApart, Bool.and_eq_true, Bool.or_eq_true, Bool.not_eq_true'] at apart
  obtain ⟨distinct, body⟩ := apart
  have initial : Simulates (pushScope [globals]) [BlockScope.empty false, globalScope globals] := by
    refine .block ⟨nofun, fun _ _ => rfl⟩ rfl (.block ⟨fun _ _ same => same, ?_⟩ rfl .nil)
    intro name absent
    exact congrArg Option.isSome absent
  obtain ⟨events, succeeded, simulates, kinds⟩ :=
    parameters_agree function.parameters rfl initial distinct
  simp only [lowerFunction, resolveFunction, Lowering.andThen, succeeded]
  split
  · rename_i valid
    have apart := body.resolve_left (by simpa using valid)
    have agrees := statements_agree (simulates.push_block _) (List.cons_ne_nil _ _) function.body
      apart
    exact congrArg₂ _ events agrees.events
  · exact events

def localVariable (name : String) (object : Nat) : VarDecl Nat where
  name := name
  isExtern := false
  object := some object
  acceptsInitializer := true
  initializer := none

/-- The body is `int n; for (int i; i; i) { int i; i; } n;`. -/
def shadowedHeader : FunctionDecl Nat where
  parameters := [{ name := "p", object := some 0 }]
  hasEnabledAbi := true
  body :=
    let reading (name : String) : Expr Nat := .identifier name fun _ => .lowered true
    .cons (.declaration (localVariable "n" 1))
      (.cons (.forLoop (.declaration (localVariable "i" 2)) (some (reading "i")) (some (reading "i"))
          (.block (.cons (.declaration (localVariable "i" 3))
            (.cons (.expression (reading "i")) .nil))))
        (.cons (.expression (reading "n")) .nil))

theorem lowerFunction_follows_blockScopes_shadowed :
    functionStaysApart (fun _ => none) shadowedHeader = true ∧
      lowerFunction (fun _ => none) shadowedHeader =
        resolveFunction (fun _ => none) shadowedHeader :=
  have apart : functionStaysApart (fun _ => none) shadowedHeader = true := by decide
  ⟨apart, lowerFunction_follows_blockScopes _ _ apart⟩

/-- The body is `for (int i; ; ) ; for (int i; ; ) ;`. -/
def siblingHeaders : FunctionDecl Nat where
  parameters := []
  hasEnabledAbi := true
  body :=
    let header : Stmt Nat := .forLoop (.declaration (localVariable "i" 4)) none none .empty
    .cons header (.cons header .nil)

theorem siblingHeaders_reported :
    resolveFunction (fun _ => none) siblingHeaders = [.bound "i" 4, .bound "i" 4] ∧
      lowerFunction (fun _ => none) siblingHeaders = [.bound "i" 4, .duplicate "i"] := by
  decide

end HitSimple.Compat

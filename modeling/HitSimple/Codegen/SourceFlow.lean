import HitSimple.Codegen.ControlFlow
import Mathlib.Data.Set.Basic

namespace HitSimple.ControlFlow

/-- Where control can go from a part of a function: behind it, or by a jump out of it. -/
structure Flow where
  falls : Prop
  breaks : Prop
  continues : Prop
  throws : Prop
  gotos : Set String

namespace Flow

def through (live : Prop) : Flow where
  falls := live
  breaks := False
  continues := False
  throws := False
  gotos := ∅

/-- The jumps of both parts; behind the second one, control goes on. -/
def followedBy (first second : Flow) : Flow where
  falls := second.falls
  breaks := first.breaks ∨ second.breaks
  continues := first.continues ∨ second.continues
  throws := first.throws ∨ second.throws
  gotos := first.gotos ∪ second.gotos

def jumpTo (label : String) (live : Prop) : Flow :=
  { through False with gotos := {target | live ∧ target = label} }

/-- The jumps of a part, with another end. -/
def endingIn (flow : Flow) (falls : Prop) : Flow :=
  { flow with falls }

end Flow

/-- The head of a loop is reached from before it or from its own end; `back` says what reaches the
end once the head is reached. -/
def loopEntry (live : Prop) (back : Prop → Prop) : Prop :=
  live ∨ back live

theorem loopEntry_closed {live : Prop} {back : Prop → Prop}
    (again : back (loopEntry live back)) : loopEntry live back := by
  by_contra never
  have dead : loopEntry live back = live :=
    propext (iff_of_false never fun entered => never (.inl entered))
  rw [dead] at again
  exact never (.inr again)

theorem loopEntry_least {live bound : Prop} {back : Prop → Prop} (enters : live → bound)
    (again : ∀ reached : Prop, (reached → bound) → back reached → bound)
    (entered : loopEntry live back) : bound :=
  entered.elim enters (again live enters)

mutual

/-- Whether the code ends in a jump after a statement, from whether it did before. -/
def Stmt.terminates : Stmt → (active terminated : Bool) → Bool
  | .simple emitsCode, _, terminated => terminated && !emitsCode
  | .statementList statements, active, terminated => statements.listTerminates active terminated
  | .staticInitialization statement, active, terminated =>
      if active then statement.terminates active terminated else false
  | .returnStmt, _, _ | .breakStmt, _, _ | .continueStmt, _, _ | .gotoStmt _, _, _
  | .throwStmt, _, _ => true
  | .ifThen _, _, _ | .ifElse _ _, _, _ | .whileStmt _, _, _ | .forStmt _ _ _ _, _, _
  | .tryCatch _ _, _, _ => false
  | .labelStmt _ statement, active, _ => statement.terminates active false

def Block.terminates : Block → (active terminated : Bool) → Bool
  | .nil, _, terminated => terminated
  | .cons statement rest, active, terminated =>
      if terminated && !statement.isLabel then rest.terminates active terminated
      else rest.terminates active (statement.terminates active terminated)

def Block.listTerminates : Block → (active terminated : Bool) → Bool
  | .nil, _, terminated => terminated
  | .cons statement rest, active, terminated =>
      rest.listTerminates active (statement.terminates active terminated)

def Block.postTerminates : Block → (active terminated : Bool) → Bool
  | .nil, _, terminated => terminated
  | .cons statement rest, active, terminated =>
      if statement.terminates active terminated then true
      else rest.postTerminates active false

end

section
variable (reached : Set String)

mutual

/-- Where control goes from a statement, when `live` says whether it comes to its beginning and
`reached` contains the labels it comes to, by a jump or from the statement before. -/
def Stmt.flow : Stmt → (active : Bool) → (live : Prop) → Flow
  | .simple _, _, live => .through live
  | .statementList statements, active, live => statements.listFlow active live
  | .staticInitialization statement, active, live =>
      if active then statement.flow active live
      else (statement.flow true live).endingIn (live ∨ (statement.flow true live).falls)
  | .returnStmt, _, _ => .through False
  | .ifThen thenBlock, active, live =>
      (thenBlock.flow active false live).endingIn ((thenBlock.flow active false live).falls ∨ live)
  | .ifElse thenBlock elseBlock, active, live =>
      ((thenBlock.flow active false live).followedBy (elseBlock.flow active false live)).endingIn
        ((thenBlock.flow active false live).falls ∨ (elseBlock.flow active false live).falls)
  | .whileStmt body, active, live =>
      let entry := loopEntry live fun entry =>
        (body.flow active false entry).falls ∨ (body.flow active false entry).continues
      { falls := entry ∨ (body.flow active false entry).breaks
        breaks := False
        continues := False
        throws := (body.flow active false entry).throws
        gotos := (body.flow active false entry).gotos }
  | .forStmt init hasCondition post body, active, live =>
      let postEntry (entry : Prop) := loopEntry
        ((body.flow active false entry).falls ∨ (body.flow active false entry).continues)
        fun reached => (post.postFlow active reached).continues
      let entry := loopEntry (init.flow active live).falls fun entry =>
        (post.postFlow active (postEntry entry)).falls
      let bodyFlow := body.flow active false entry
      let postFlow := post.postFlow active (postEntry entry)
      { falls := hasCondition = true ∧ entry ∨ bodyFlow.breaks ∨ postFlow.breaks
        breaks := (init.flow active live).breaks
        continues := (init.flow active live).continues
        throws := (init.flow active live).throws ∨ bodyFlow.throws ∨ postFlow.throws
        gotos := (init.flow active live).gotos ∪ bodyFlow.gotos ∪ postFlow.gotos }
  | .breakStmt, _, live => { Flow.through False with breaks := live }
  | .continueStmt, _, live => { Flow.through False with continues := live }
  | .gotoStmt label, _, live => .jumpTo label live
  | .labelStmt label statement, active, live =>
      (Flow.jumpTo label live).followedBy (statement.flow active (label ∈ reached))
  | .throwStmt, _, live => { Flow.through False with throws := live }
  | .tryCatch tryBlock catchBlock, active, live =>
      let tryFlow := tryBlock.flow active false live
      let catchFlow := catchBlock.flow active false tryFlow.throws
      { tryFlow.followedBy catchFlow with
        falls := tryFlow.falls ∨ catchFlow.falls
        throws := catchFlow.throws }

/-- After a jump, the statements up to the next label are left out. -/
def Block.flow : Block → (active terminated : Bool) → (live : Prop) → Flow
  | .nil, _, _, live => .through live
  | .cons statement rest, active, terminated, live =>
      if terminated && !statement.isLabel then rest.flow active terminated live
      else (statement.flow active live).followedBy
        (rest.flow active (statement.terminates active terminated)
          (statement.flow active live).falls)

def Block.listFlow : Block → (active : Bool) → (live : Prop) → Flow
  | .nil, _, live => .through live
  | .cons statement rest, active, live =>
      (statement.flow active live).followedBy
        (rest.listFlow active (statement.flow active live).falls)

def Block.postFlow : Block → (active : Bool) → (live : Prop) → Flow
  | .nil, _, live => .through live
  | .cons statement rest, active, live =>
      if statement.terminates active false then statement.flow active live
      else (statement.flow active live).followedBy
        (rest.postFlow active (statement.flow active live).falls)

end

end

/-- The last code of a body is a jump. -/
def Block.EndsInJump (body : Block) : Prop :=
  body.terminates false false = true

/-- Control can come to the end of a body: it does for every set of labels that contains those it
comes to. -/
def Block.EndReached (body : Block) : Prop :=
  ∀ reached : Set String, (body.flow reached false false True).gotos ⊆ reached →
    (body.flow reached false false True).falls

instance (body : Block) : Decidable body.EndsInJump :=
  inferInstanceAs (Decidable (_ = true))

end HitSimple.ControlFlow

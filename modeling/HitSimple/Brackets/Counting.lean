import Mathlib.Data.List.Basic
import Mathlib.Algebra.Order.Group.Int

namespace Brackets

inductive Role where
  | opening
  | closing
  | other
  deriving DecidableEq

namespace Role

def weight : Role → Nat
  | .opening => 0
  | .closing => 0
  | .other => 1

def depth : Role → Int
  | .opening => 1
  | .closing => -1
  | .other => 0

@[simp] theorem weight_opening : Role.opening.weight = 0 := rfl

@[simp] theorem weight_closing : Role.closing.weight = 0 := rfl

@[simp] theorem weight_other : Role.other.weight = 1 := rfl

@[simp] theorem depth_opening : Role.opening.depth = 1 := rfl

@[simp] theorem depth_closing : Role.closing.depth = -1 := rfl

@[simp] theorem depth_other : Role.other.depth = 0 := rfl

end Role

section
variable {α : Type} (role : α → Role)

/-- The number of tokens that are no bracket. -/
def weight : List α → Nat
  | [] => 0
  | token :: rest => (role token).weight + weight rest

/-- The opening brackets less the closing ones. -/
def depth : List α → Int
  | [] => 0
  | token :: rest => (role token).depth + depth rest

@[simp] theorem weight_nil : weight role [] = 0 := rfl

@[simp] theorem weight_cons (token : α) (rest : List α) :
    weight role (token :: rest) = (role token).weight + weight role rest := rfl

@[simp] theorem depth_nil : depth role [] = 0 := rfl

@[simp] theorem depth_cons (token : α) (rest : List α) :
    depth role (token :: rest) = (role token).depth + depth role rest := rfl

@[simp] theorem weight_append (first second : List α) :
    weight role (first ++ second) = weight role first + weight role second := by
  induction first with
  | nil => simp
  | cons token rest ih => simp [ih, Nat.add_assoc]

@[simp] theorem depth_append (first second : List α) :
    depth role (first ++ second) = depth role first + depth role second := by
  induction first with
  | nil => simp
  | cons token rest ih => simp [ih, Int.add_assoc]

theorem weight_replicate {token : α} (bracket : role token ≠ .other) (count : Nat) :
    weight role (List.replicate count token) = 0 := by
  have free : (role token).weight = 0 := by
    cases shape : role token with
    | other => exact absurd shape bracket
    | _ => rfl
  induction count with
  | zero => rfl
  | succ count ih => rw [List.replicate_succ, weight_cons, ih, free]

theorem depth_replicate {token : α} (opens : role token = .opening) (count : Nat) :
    depth role (List.replicate count token) = count := by
  induction count with
  | zero => rfl
  | succ count ih =>
      rw [List.replicate_succ, depth_cons, ih, opens, Role.depth]
      omega

/-- Two splits at tokens that are no bracket, with as many such tokens before, are the same. -/
theorem split_unique {first first' rest rest' : List α} {token token' : α}
    (same : first ++ token :: rest = first' ++ token' :: rest')
    (plain : role token = .other) (plain' : role token' = .other)
    (weights : weight role first = weight role first') :
    first = first' ∧ token = token' ∧ rest = rest' := by
  induction first generalizing first' with
  | nil =>
      cases first' with
      | nil => simpa using same
      | cons head tail =>
          obtain ⟨rfl, _⟩ := List.cons.inj same
          simp only [weight_nil, weight_cons, plain, Role.weight] at weights
          omega
  | cons head tail ih =>
      cases first' with
      | nil =>
          obtain ⟨rfl, _⟩ := List.cons.inj same
          simp only [weight_nil, weight_cons, plain', Role.weight] at weights
          omega
      | cons head' tail' =>
          obtain ⟨rfl, remaining⟩ := List.cons.inj same
          obtain ⟨rfl, rest⟩ := ih remaining (Nat.add_left_cancel weights)
          exact ⟨rfl, rest⟩

/-- The word has a token that is no bracket after a balanced part of the given weight. -/
def Anchored (count : Nat) (word : List α) : Prop :=
  ∃ first token rest, word = first ++ token :: rest ∧ role token = .other ∧
    weight role first = count ∧ depth role first = 0

def wrap (opening closing : α) (count : Nat) (word : List α) : List α :=
  List.replicate count opening ++ word ++ List.replicate count closing

@[simp] theorem wrap_zero (opening closing : α) (word : List α) :
    wrap opening closing 0 word = word := by
  simp [wrap]

@[simp] theorem wrap_succ (opening closing : α) (count : Nat) (word : List α) :
    wrap opening closing (count + 1) word =
      opening :: (wrap opening closing count word ++ [closing]) := by
  simp only [wrap, List.replicate_succ, List.cons_append, List.append_assoc, List.cons.injEq,
    List.append_cancel_left_eq, true_and]
  rw [← List.replicate_succ, List.replicate_succ']

variable {role}

/-- The pairs of brackets around an anchored word can be counted. -/
theorem wrap_unique {opening closing : α} {count count' anchor : Nat} {word word' : List α}
    (opens : role opening = .opening) (anchored : Anchored role anchor word)
    (anchored' : Anchored role anchor word')
    (same : wrap opening closing count word = wrap opening closing count' word') :
    count = count' ∧ word = word' := by
  obtain ⟨first, token, rest, rfl, plain, weights, balanced⟩ := anchored
  obtain ⟨first', token', rest', rfl, plain', weights', balanced'⟩ := anchored'
  have bracket : role opening ≠ .other := by simp [opens]
  simp only [wrap, List.append_assoc, List.cons_append] at same
  rw [← List.append_assoc, ← List.append_assoc (List.replicate count' opening)] at same
  obtain ⟨fronts, rfl, backs⟩ := split_unique role same plain plain'
    (by simp [weight_replicate role bracket, weights, weights'])
  have depths := congrArg (depth role) fronts
  simp only [depth_append, depth_replicate role opens, balanced, balanced'] at depths
  obtain rfl : count = count' := by omega
  obtain rfl := List.append_cancel_left fronts
  obtain rfl := List.append_cancel_right backs
  exact ⟨rfl, rfl⟩

end

end Brackets

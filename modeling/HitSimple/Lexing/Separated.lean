import Mathlib.Data.Nat.Digits.Defs

namespace Lexing

section
variable {α : Type} (separator : α) (digit : α → Prop)

/-- Digits with at most one separator between any two of them and none at either end. -/
inductive Separated : List α → Prop where
  | one {d : α} (valid : digit d) : Separated [d]
  | next {d : α} {rest : List α} (valid : digit d) (more : Separated rest) : Separated (d :: rest)
  | separated {d : α} {rest : List α} (valid : digit d) (more : Separated rest) :
      Separated (d :: separator :: rest)

end

namespace Separated
variable {α : Type} {separator : α} {digit : α → Prop} {text : List α}

theorem ne_nil (separated : Separated separator digit text) : text ≠ [] := by
  cases separated <;> exact List.cons_ne_nil _ _

theorem head (separated : Separated separator digit text) :
    ∃ d rest, text = d :: rest ∧ digit d := by
  cases separated with
  | one valid => exact ⟨_, _, rfl, valid⟩
  | next valid _ => exact ⟨_, _, rfl, valid⟩
  | separated valid _ => exact ⟨_, _, rfl, valid⟩

theorem mem (separated : Separated separator digit text) :
    ∀ d ∈ text, digit d ∨ d = separator := by
  induction separated with
  | one valid =>
      intro d member
      rw [List.mem_singleton] at member
      subst member
      exact .inl valid
  | next valid more ih =>
      intro d member
      rcases List.mem_cons.mp member with rfl | member
      · exact .inl valid
      · exact ih d member
  | separated valid more ih =>
      intro d member
      rcases List.mem_cons.mp member with rfl | member
      · exact .inl valid
      · rcases List.mem_cons.mp member with rfl | member
        · exact .inr rfl
        · exact ih d member

theorem cons_iff {d : α} {rest : List α} :
    Separated separator digit (d :: rest) ↔ digit d ∧ (rest = [] ∨ Separated separator digit rest ∨
      ∃ more, rest = separator :: more ∧ Separated separator digit more) := by
  constructor
  · intro separated
    cases separated with
    | one valid => exact ⟨valid, .inl rfl⟩
    | next valid more => exact ⟨valid, .inr (.inl more)⟩
    | separated valid more => exact ⟨valid, .inr (.inr ⟨_, rfl, more⟩)⟩
  · rintro ⟨valid, rfl | more | ⟨_, rfl, more⟩⟩
    · exact .one valid
    · exact .next valid more
    · exact .separated valid more

end Separated

/-- A run that a test accepts is taken whole, where what follows starts with nothing accepted. -/
theorem takeWhile_append {α : Type} {accepts : α → Bool} {run rest : List α}
    (accepted : ∀ d ∈ run, accepts d = true) (stops : ∀ d, rest.head? = some d → accepts d = false) :
    (run ++ rest).takeWhile accepts = run ∧ (run ++ rest).dropWhile accepts = rest := by
  rw [List.takeWhile_append_of_pos accepted, List.dropWhile_append_of_pos accepted]
  cases rest with
  | nil => simp
  | cons d rest =>
      have stopped := stops d rfl
      simp [stopped]

theorem head?_dropWhile {α : Type} {accepts : α → Bool} (text : List α) {d : α}
    (first : (text.dropWhile accepts).head? = some d) : accepts d = false := by
  induction text with
  | nil => cases first
  | cons c rest ih =>
      rw [List.dropWhile_cons] at first
      split at first
      · exact ih first
      · rename_i stopped
        cases first
        simpa using stopped

end Lexing

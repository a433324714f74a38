import Mathlib.Algebra.BigOperators.Group.List.Basic
import Mathlib.Algebra.GroupWithZero.Nat
import Mathlib.Order.Bounds.Basic

namespace Placement

section
variable {α : Type} (length offset : α → Nat) (modulus : Nat)

/-- The length of parts that stand one behind another. -/
def span (parts : List α) : Nat :=
  (parts.map length).sum

/-- Each part begins where those in front of it end. -/
structure Exact (parts : List α) (total : Nat) : Prop where
  offsets : ∀ before part behind, parts = before ++ part :: behind →
    offset part = span length before
  total : total = span length parts

/-- The same where sums are kept below a modulus. -/
structure Wrapped (parts : List α) (total : Nat) : Prop where
  offsets : ∀ before part behind, parts = before ++ part :: behind →
    offset part = span length before % modulus
  total : total = span length parts % modulus

end

section
variable {α : Type} {length offset : α → Nat} {modulus total : Nat} {parts before behind : List α}
  {part : α}

@[simp] theorem span_nil : span length [] = 0 := rfl

@[simp] theorem span_cons : span length (part :: parts) = length part + span length parts := by
  simp [span]

@[simp] theorem span_append : span length (before ++ behind) =
    span length before + span length behind := by
  simp [span]

theorem Wrapped.nil : Wrapped length offset modulus [] 0 where
  offsets before part behind split := by cases before <;> cases split
  total := (Nat.zero_mod modulus).symm

theorem Wrapped.snoc (placed : Wrapped length offset modulus parts total)
    (here : offset part = total) :
    Wrapped length offset modulus (parts ++ [part]) ((total + length part) % modulus) where
  offsets before other behind split := by
    rcases List.append_eq_append_iff.mp split with ⟨more, rfl, last⟩ | ⟨more, rfl, rest⟩
    · cases more with
      | nil =>
          cases last
          rw [here, placed.total, List.append_nil]
      | cons _ _ => simp at last
    · cases more with
      | nil =>
          cases rest
          rw [List.append_nil] at placed
          rw [here, placed.total]
      | cons first more =>
          cases rest
          exact placed.offsets before _ more rfl
  total := by
    rw [placed.total, span_append, span_cons, span_nil, Nat.mod_add_mod, Nat.add_zero]

/-- Sums below the modulus are the sums. -/
theorem Wrapped.exact_iff (placed : Wrapped length offset modulus parts total)
    (positive : 0 < modulus) :
    Exact length offset parts total ↔ span length parts < modulus := by
  constructor
  · intro exact
    rw [← exact.total, placed.total]
    exact Nat.mod_lt _ positive
  · intro bound
    refine ⟨fun before part behind split => ?_, ?_⟩
    · rw [placed.offsets before part behind split, Nat.mod_eq_of_lt]
      rw [split, span_append] at bound
      exact Nat.lt_of_le_of_lt (Nat.le_add_right _ _) bound
    · rw [placed.total, Nat.mod_eq_of_lt bound]

theorem Exact.inside (exact : Exact length offset parts total) (listed : part ∈ parts) :
    offset part + length part ≤ total := by
  obtain ⟨before, behind, rfl⟩ := List.append_of_mem listed
  rw [exact.offsets before part behind rfl, exact.total, span_append, span_cons]
  omega

/-- What stands behind a part begins behind its end. -/
theorem Exact.ordered (exact : Exact length offset parts total) :
    parts.Pairwise fun left right => offset left + length left ≤ offset right := by
  rw [List.pairwise_iff_forall_sublist]
  intro left right both
  obtain ⟨before, rest, rfl, isIn, listed⟩ := List.cons_sublist_iff.mp both
  obtain ⟨first, between, rfl⟩ := List.append_of_mem isIn
  obtain ⟨more, behind, rfl⟩ := List.append_of_mem (List.singleton_sublist.mp listed)
  rw [exact.offsets first left (between ++ (more ++ right :: behind)) (by simp),
    exact.offsets (first ++ left :: between ++ more) right behind (by simp)]
  simp only [span_append, span_cons]
  omega

end

/-- The first place from a position on that an alignment divides. -/
def FirstAligned (position alignment place : Nat) : Prop :=
  IsLeast {place | position ≤ place ∧ alignment ∣ place} place

section
variable {position alignment place : Nat}

theorem FirstAligned.le (first : FirstAligned position alignment place) : position ≤ place :=
  first.1.1

theorem firstAligned_self (aligned : position % alignment = 0) :
    FirstAligned position alignment position :=
  ⟨⟨le_rfl, Nat.dvd_of_mod_eq_zero aligned⟩, fun _ bound => bound.1⟩

theorem firstAligned_add (positive : 0 < alignment) (misaligned : position % alignment ≠ 0) :
    FirstAligned position alignment (position + (alignment - position % alignment)) := by
  have split := Nat.div_add_mod position alignment
  have below := Nat.mod_lt position positive
  have next : position + (alignment - position % alignment) =
      alignment * (position / alignment + 1) := by
    rw [Nat.mul_add_one]
    omega
  refine ⟨⟨Nat.le_add_right _ _, next ▸ Nat.dvd_mul_right _ _⟩, ?_⟩
  rintro other ⟨behind, multiple, rfl⟩
  rw [next]
  have above : position / alignment < multiple := by
    rw [Nat.div_lt_iff_lt_mul positive, Nat.mul_comm]
    rcases behind.lt_or_eq with strict | same
    · exact strict
    · rw [same, Nat.mul_mod_right] at misaligned
      exact absurd rfl misaligned
  exact Nat.mul_le_mul_left alignment above

end

section
variable {α : Type} (length offset alignment : α → Nat)

/-- Where the last of the parts ends. -/
def ending (parts : List α) : Nat :=
  (parts.getLast?.map fun last => offset last + length last).getD 0

/-- Each part stands at the first place behind the one in front of it that its alignment divides. -/
structure Natural (parts : List α) : Prop where
  offsets : ∀ before part behind, parts = before ++ part :: behind →
    FirstAligned (ending length offset before) (alignment part) (offset part)

/-- The strictest alignment of the parts, for no part `1`. -/
def Strictest (parts : List α) (strictest : Nat) : Prop :=
  IsGreatest (insert 1 {each | ∃ part ∈ parts, alignment part = each}) strictest

end

section
variable {α : Type} {length offset alignment : α → Nat} {parts before behind : List α} {part : α}
  {strictest : Nat}

@[simp] theorem ending_nil : ending length offset ([] : List α) = 0 := rfl

@[simp] theorem ending_snoc :
    ending length offset (parts ++ [part]) = offset part + length part := by
  simp [ending]

theorem Natural.nil : Natural length offset alignment [] where
  offsets before part behind split := by cases before <;> cases split

theorem Natural.snoc (natural : Natural length offset alignment parts)
    (here : FirstAligned (ending length offset parts) (alignment part) (offset part)) :
    Natural length offset alignment (parts ++ [part]) where
  offsets before other behind split := by
    rcases List.append_eq_append_iff.mp split with ⟨more, rfl, last⟩ | ⟨more, rfl, rest⟩
    · cases more with
      | nil =>
          cases last
          rwa [List.append_nil]
      | cons _ _ => simp at last
    · cases more with
      | nil =>
          cases rest
          rwa [List.append_nil] at here
      | cons first more =>
          cases rest
          exact natural.offsets before _ more rfl

theorem strictest_nil : Strictest alignment ([] : List α) 1 :=
  ⟨.inl rfl, by rintro each (rfl | ⟨_, listed, _⟩) <;> [exact le_rfl; cases listed]⟩

theorem Strictest.snoc (greatest : Strictest alignment parts strictest) :
    Strictest alignment (parts ++ [part]) (max strictest (alignment part)) := by
  constructor
  · rcases le_total strictest (alignment part) with above | below
    · rw [max_eq_right above]
      exact .inr ⟨part, by simp, rfl⟩
    · rw [max_eq_left below]
      rcases greatest.1 with one | ⟨other, listed, same⟩
      · exact .inl one
      · exact .inr ⟨other, List.mem_append_left _ listed, same⟩
  · rintro each (rfl | ⟨other, listed, rfl⟩)
    · exact le_trans (greatest.2 (.inl rfl)) (le_max_left _ _)
    · rcases List.mem_append.mp listed with earlier | last
      · exact le_trans (greatest.2 (.inr ⟨other, earlier, rfl⟩)) (le_max_left _ _)
      · rw [List.mem_singleton.mp last]
        exact le_max_right _ _

end

end Placement

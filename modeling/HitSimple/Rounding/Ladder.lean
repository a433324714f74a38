import Mathlib.Algebra.Order.Ring.Abs
import Mathlib.Algebra.Order.Field.Basic
import Mathlib.Algebra.Ring.Parity
import Mathlib.Order.Monotone.Basic
import Mathlib.Tactic.Linarith
import Mathlib.Tactic.Ring

namespace Rounding

section
variable {K : Type*} [Field K] [LinearOrder K]

/-- No rung of the ladder is nearer to the value, and where another one is as near the place of this
one is even. -/
structure Nearest (ladder : ℕ → K) (value : K) (place : ℕ) : Prop where
  least : ∀ other, |value - ladder place| ≤ |value - ladder other|
  even : ∀ other, other ≠ place → |value - ladder other| = |value - ladder place| → Even place

/-- The middle of two rungs was taken for the value, which lies on the side of the odd one. -/
structure MisledAt (ladder : ℕ → K) (value middle : K) (place : ℕ) : Prop where
  isMiddle : 2 * middle = ladder place + ladder (place + 1)
  side : value < middle ∧ ¬Even place ∨ middle < value ∧ Even place

end

section
variable {K : Type*} [Field K] [LinearOrder K] [IsStrictOrderedRing K]
variable {low high value : K}

theorem near_high_iff (order : low < high) :
    |value - high| ≤ |value - low| ↔ low + high ≤ 2 * value := by
  rw [← sq_le_sq]
  have factored : (value - low) ^ 2 - (value - high) ^ 2 =
      (high - low) * (2 * value - (low + high)) := by ring
  have gap : 0 < high - low := sub_pos.mpr order
  rw [← sub_nonneg, factored, mul_nonneg_iff_of_pos_left gap, sub_nonneg]

theorem near_low_iff (order : low < high) :
    |value - low| ≤ |value - high| ↔ 2 * value ≤ low + high := by
  rw [← sq_le_sq]
  have factored : (value - high) ^ 2 - (value - low) ^ 2 =
      (high - low) * (low + high - 2 * value) := by ring
  have gap : 0 < high - low := sub_pos.mpr order
  rw [← sub_nonneg, factored, mul_nonneg_iff_of_pos_left gap, sub_nonneg]

theorem near_both_iff (order : low < high) :
    |value - low| = |value - high| ↔ 2 * value = low + high := by
  rw [le_antisymm_iff, near_low_iff order, near_high_iff order, ← le_antisymm_iff]

end

section
variable {K : Type*} [Field K] [LinearOrder K] [IsStrictOrderedRing K]
variable {ladder wide : ℕ → K} {value other : K} {place second : ℕ}

theorem nearest_rung (strict : StrictMono ladder) (place : ℕ) :
    Nearest ladder (ladder place) place where
  least other := by
    rw [sub_self, abs_zero]
    exact abs_nonneg _
  even other different same := by
    rw [sub_self, abs_zero, abs_eq_zero, sub_eq_zero] at same
    exact absurd (strict.injective same).symm different

theorem Nearest.above (nearest : Nearest ladder value place) (strict : StrictMono ladder) :
    2 * value ≤ ladder place + ladder (place + 1) :=
  (near_low_iff (strict (Nat.lt_succ_self place))).mp (nearest.least _)

theorem Nearest.even_of_above (nearest : Nearest ladder value place) (strict : StrictMono ladder)
    (middle : 2 * value = ladder place + ladder (place + 1)) : Even place :=
  nearest.even (place + 1) (Nat.succ_ne_self place)
    ((near_both_iff (strict (Nat.lt_succ_self place))).mpr middle).symm

theorem Nearest.below (nearest : Nearest ladder value (place + 1)) (strict : StrictMono ladder) :
    ladder place + ladder (place + 1) ≤ 2 * value :=
  (near_high_iff (strict (Nat.lt_succ_self place))).mp (nearest.least _)

theorem Nearest.even_of_below (nearest : Nearest ladder value (place + 1))
    (strict : StrictMono ladder) (middle : 2 * value = ladder place + ladder (place + 1)) :
    Even (place + 1) :=
  nearest.even place (Nat.succ_ne_self place).symm
    ((near_both_iff (strict (Nat.lt_succ_self place))).mpr middle)

/-- The neighbours decide which rung is the nearest. -/
theorem nearest_of_middles (strict : StrictMono ladder)
    (below : ∀ before, before + 1 = place → ladder before + ladder place ≤ 2 * value ∧
      (2 * value = ladder before + ladder place → Even place))
    (above : 2 * value ≤ ladder place + ladder (place + 1))
    (even : 2 * value = ladder place + ladder (place + 1) → Even place) :
    Nearest ladder value place := by
  have lower {other : ℕ} (less : other < place) : ∃ before, before + 1 = place ∧
      ladder other ≤ ladder before :=
    ⟨place - 1, by omega, strict.monotone (by omega)⟩
  have upper {other : ℕ} (more : place < other) : ladder (place + 1) ≤ ladder other :=
    strict.monotone more
  constructor
  · intro other
    rcases lt_trichotomy other place with less | rfl | more
    · obtain ⟨before, next, order⟩ := lower less
      exact (near_high_iff (strict less)).mpr (by linarith [(below before next).1])
    · exact le_rfl
    · exact (near_low_iff (strict more)).mpr (by linarith [upper more])
  · intro other different same
    rcases different.lt_or_gt with less | more
    · obtain ⟨before, next, order⟩ := lower less
      have middle := (near_both_iff (strict less)).mp same
      exact (below before next).2 (by linarith [(below before next).1])
    · have middle := (near_both_iff (strict more)).mp same.symm
      exact even (by linarith [upper more])

theorem Nearest.mono (nearest : Nearest ladder value place) (nearest' : Nearest ladder other second)
    (strict : StrictMono ladder) (order : value ≤ other) : place ≤ second := by
  by_contra less
  obtain ⟨before, rfl⟩ := Nat.exists_eq_succ_of_ne_zero (show place ≠ 0 by omega)
  have above := nearest'.above strict
  have below := nearest.below strict
  have rungs : ladder second ≤ ladder before := strict.monotone (by omega)
  have next : ladder (second + 1) ≤ ladder (before + 1) := strict.monotone (by omega)
  have same : ladder second = ladder before := by linarith
  obtain rfl := strict.injective same
  have even := nearest'.even_of_above strict (by linarith)
  have even' := nearest.even_of_below strict (by linarith)
  exact Nat.not_even_iff_odd.mpr even.add_one even'

theorem Nearest.unique (nearest : Nearest ladder value place)
    (nearest' : Nearest ladder value second) (strict : StrictMono ladder) : place = second :=
  le_antisymm (nearest.mono nearest' strict le_rfl) (nearest'.mono nearest strict le_rfl)

theorem Nearest.rung_le (nearest : Nearest ladder value place) (strict : StrictMono ladder)
    (order : ladder second ≤ value) : second ≤ place :=
  (nearest_rung strict second).mono nearest strict order

theorem Nearest.le_rung (nearest : Nearest ladder value place) (strict : StrictMono ladder)
    (order : value ≤ ladder second) : place ≤ second :=
  nearest.mono (nearest_rung strict second) strict order

/-- The nearest rung, but for the lowest one, by its two neighbours. -/
theorem nearest_inner_iff (strict : StrictMono ladder) :
    Nearest ladder value (place + 1) ↔
      (ladder place + ladder (place + 1) ≤ 2 * value ∧
        (2 * value = ladder place + ladder (place + 1) → Even (place + 1))) ∧
      (2 * value ≤ ladder (place + 1) + ladder (place + 1 + 1) ∧
        (2 * value = ladder (place + 1) + ladder (place + 1 + 1) → Even (place + 1))) := by
  constructor
  · intro near
    exact ⟨⟨near.below strict, near.even_of_below strict⟩,
      near.above strict, near.even_of_above strict⟩
  · rintro ⟨below, above⟩
    refine nearest_of_middles strict ?_ above.1 above.2
    intro before next
    obtain rfl : before = place := by omega
    exact below

/-- Two ladders that are the same from a rung on, shifted by an even number of places. -/
theorem Nearest.of_shift {shift first : ℕ} (near : Nearest wide value (place + shift))
    (strict : StrictMono ladder) (strictWide : StrictMono wide) (even : Even shift)
    (agree : ∀ other, first ≤ other → wide (other + shift) = ladder other)
    (least : ladder first ≤ value) (behind : first ≤ place) : Nearest ladder value place := by
  have parity : Even (place + shift) → Even place := fun both =>
    (Nat.even_add.mp both).mpr even
  have next : place + shift + 1 = place + 1 + shift := by omega
  have above := near.above strictWide
  have onTie := near.even_of_above strictWide
  rw [next, agree place behind, agree (place + 1) (by omega)] at above onTie
  refine nearest_of_middles strict ?_ above fun tie => parity (onTie tie)
  rintro before rfl
  rcases Nat.lt_or_ge before first with low | high
  · obtain rfl : first = before + 1 := by omega
    have order : ladder before < ladder (before + 1) := strict (Nat.lt_succ_self before)
    exact ⟨by linarith, fun tie => by linarith⟩
  · rw [show before + 1 + shift = before + shift + 1 by omega] at near parity
    have below := near.below strictWide
    have onTie := near.even_of_below strictWide
    rw [show before + shift + 1 = before + 1 + shift by omega, agree before high,
      agree (before + 1) behind] at below onTie
    rw [show before + shift + 1 = before + 1 + shift by omega] at parity
    exact ⟨below, fun tie => parity (onTie tie)⟩

theorem nearest_mul_iff {factor : K} (positive : 0 < factor) :
    Nearest (fun place => ladder place * factor) (value * factor) place ↔
      Nearest ladder value place := by
  have distance (other : ℕ) : |value * factor - ladder other * factor| =
      |value - ladder other| * factor := by
    rw [← sub_mul, abs_mul, abs_of_pos positive]
  constructor <;> intro nearest <;> constructor <;> intro other
  · have least := nearest.least other
    rwa [distance, distance, mul_le_mul_iff_of_pos_right positive] at least
  · intro different same
    exact nearest.even other different (by rw [distance, distance, same])
  · rw [distance, distance, mul_le_mul_iff_of_pos_right positive]
    exact nearest.least other
  · intro different same
    rw [distance, distance] at same
    exact nearest.even other different (mul_right_cancel₀ positive.ne' same)

end

section
variable {K : Type*} [Field K] [LinearOrder K] [IsStrictOrderedRing K]
variable {ladder wide : ℕ → K} {value : K} {place between middle : ℕ}

/-- A ladder that has the rungs of another one up to a limit, and the middles of its rungs. -/
structure Refines (wide ladder : ℕ → K) (limit : ℕ) : Prop where
  rung : ∀ place ≤ limit, ∃ other, wide other = ladder place
  middle : ∀ place < limit, ∃ other, 2 * wide other = ladder place + ladder (place + 1)

theorem Nearest.lt_of_lt (first : Nearest wide value between) (strict : StrictMono wide)
    {rung : ℕ} (order : wide between < wide rung) : value < wide rung := by
  by_contra least
  exact absurd (strict.monotone (first.rung_le strict (not_lt.mp least))) (not_le.mpr order)

theorem Nearest.gt_of_gt (first : Nearest wide value between) (strict : StrictMono wide)
    {rung : ℕ} (order : wide rung < wide between) : wide rung < value := by
  by_contra most
  exact absurd (strict.monotone (first.le_rung strict (not_lt.mp most))) (not_le.mpr order)

/-- Rounding to the finer ladder does not leave the limit. -/
theorem Nearest.le_limit {limit : ℕ} (first : Nearest wide value between)
    (strictWide : StrictMono wide) (refines : Refines wide ladder limit)
    (bounded : value ≤ ladder limit) : wide between ≤ ladder limit := by
  obtain ⟨last, isLast⟩ := refines.rung limit le_rfl
  rw [← isLast] at bounded ⊢
  exact strictWide.monotone (first.le_rung strictWide bounded)

/-- A value that goes to the middle of two rungs lies between them. -/
theorem Nearest.between_of_middle {limit : ℕ} (first : Nearest wide value between)
    (strictWide : StrictMono wide) (strict : StrictMono ladder)
    (refines : Refines wide ladder limit) (bounded : value ≤ ladder limit)
    (isMiddle : 2 * wide between = ladder middle + ladder (middle + 1)) :
    ladder middle < value ∧ value < ladder (middle + 1) := by
  have order : ladder middle < ladder (middle + 1) := strict (Nat.lt_succ_self middle)
  have most := first.le_limit strictWide refines bounded
  have inside : middle < limit := strict.lt_iff_lt.mp (by linarith)
  obtain ⟨lower, isLower⟩ := refines.rung middle inside.le
  obtain ⟨upper, isUpper⟩ := refines.rung (middle + 1) inside
  constructor
  · rw [← isLower]
    exact first.gt_of_gt strictWide (by rw [isLower]; linarith)
  · rw [← isUpper]
    exact first.lt_of_lt strictWide (by rw [isUpper]; linarith)

/-- Between two rungs the lower one is the nearest below their middle, and the upper one above it. -/
theorem nearest_lower (strict : StrictMono ladder) (behind : ladder middle < value)
    (less : 2 * value < ladder middle + ladder (middle + 1)) : Nearest ladder value middle := by
  refine nearest_of_middles strict ?_ less.le (fun equal => absurd equal less.ne)
  rintro before rfl
  have previous : ladder before < ladder (before + 1) := strict (Nat.lt_succ_self _)
  exact ⟨by linarith, fun equal => by linarith⟩

theorem nearest_upper (strict : StrictMono ladder) (ahead : value < ladder (middle + 1))
    (more : ladder middle + ladder (middle + 1) < 2 * value) :
    Nearest ladder value (middle + 1) := by
  have next : ladder (middle + 1) < ladder (middle + 1 + 1) := strict (Nat.lt_succ_self _)
  refine nearest_of_middles strict ?_ (by linarith) (fun equal => by linarith)
  intro before same
  obtain rfl : before = middle := by omega
  exact ⟨more.le, fun equal => absurd equal more.ne'⟩

section
variable {limit : ℕ} (first : Nearest wide value between)
  (second : Nearest ladder (wide between) place) (strictWide : StrictMono wide)
  (strict : StrictMono ladder) (refines : Refines wide ladder limit)
  (bounded : value ≤ ladder limit)
include first second strictWide strict refines bounded

/-- Where the first step misleads, the two ways of rounding end on both sides of the middle. -/
theorem Nearest.of_misled (misled : MisledAt ladder value (wide between) middle) :
    place = middle + 1 ∧ Nearest ladder value middle ∨
      place = middle ∧ Nearest ladder value (middle + 1) := by
  have isMiddle := misled.isMiddle
  obtain ⟨behind, ahead⟩ :=
    first.between_of_middle strictWide strict refines bounded isMiddle
  have least : middle ≤ place := second.rung_le strict (by linarith)
  have most : place ≤ middle + 1 := second.le_rung strict (by linarith)
  rcases misled.side with ⟨less, odd⟩ | ⟨more, even⟩
  · left
    have next : place = middle + 1 := by
      by_contra other
      obtain rfl : place = middle := by omega
      exact odd (second.even_of_above strict isMiddle)
    exact ⟨next, nearest_lower strict behind (by linarith)⟩
  · right
    have here : place = middle := by
      by_contra other
      obtain rfl : place = middle + 1 := by omega
      exact Nat.not_even_iff_odd.mpr even.add_one (second.even_of_below strict isMiddle)
    exact ⟨here, nearest_upper strict ahead (by linarith)⟩

/-- Rounding in two steps is rounding in one, but where the first step hits the middle of two rungs
from the side of the odd one. -/
theorem Nearest.nearest_or_misled :
    Nearest ladder value place ∨ ∃ middle, MisledAt ladder value (wide between) middle := by
  by_cases same : value = wide between
  · exact .inl (same ▸ second)
  by_cases hit : ∃ middle, 2 * wide between = ladder middle + ladder (middle + 1)
  · obtain ⟨middle, isMiddle⟩ := hit
    obtain ⟨behind, ahead⟩ :=
      first.between_of_middle strictWide strict refines bounded isMiddle
    have least : middle ≤ place := second.rung_le strict (by linarith)
    have most : place ≤ middle + 1 := second.le_rung strict (by linarith)
    rcases Nat.lt_or_ge middle place with more | less
    · obtain rfl : place = middle + 1 := by omega
      have even := second.even_of_below strict isMiddle
      rcases lt_or_gt_of_ne same with less | more
      · exact .inr ⟨middle, isMiddle, .inl ⟨less, fun odd =>
          Nat.not_even_iff_odd.mpr odd.add_one even⟩⟩
      · exact .inl (nearest_upper strict ahead (by linarith))
    · obtain rfl : place = middle := by omega
      have even := second.even_of_above strict isMiddle
      rcases lt_or_gt_of_ne same with less | more
      · exact .inl (nearest_lower strict behind (by linarith))
      · exact .inr ⟨place, isMiddle, .inr ⟨more, even⟩⟩
  · left
    rw [not_exists] at hit
    have within : place ≤ limit :=
      second.le_rung strict (first.le_limit strictWide refines bounded)
    have above : 2 * value < ladder place + ladder (place + 1) := by
      rcases within.lt_or_eq with inside | rfl
      · obtain ⟨middle, isMiddle⟩ := refines.middle place inside
        have order := lt_of_le_of_ne (second.above strict) (hit place)
        linarith [first.lt_of_lt strictWide (show wide between < wide middle by linarith)]
      · linarith [strict (Nat.lt_succ_self place)]
    refine nearest_of_middles strict ?_ above.le (fun equal => absurd equal above.ne)
    rintro before rfl
    obtain ⟨middle, isMiddle⟩ := refines.middle before within
    have order := lt_of_le_of_ne (second.below strict) fun equal => hit before equal.symm
    have below := first.gt_of_gt strictWide (show wide middle < wide between by linarith)
    exact ⟨by linarith, fun equal => by linarith⟩

/-- What holds of the places up to a highest one: rounding in two steps ends elsewhere exactly where
the first step misleads below it. -/
theorem Nearest.capped_iff (highest : ℕ) :
    (∃ once, Nearest ladder value once ∧ min place highest = min once highest) ↔
      ¬∃ middle < highest, MisledAt ladder value (wide between) middle := by
  constructor
  · rintro ⟨once, nearest, same⟩ ⟨middle, low, misled⟩
    rcases first.of_misled second strictWide strict refines bounded misled with
      ⟨rfl, other⟩ | ⟨rfl, other⟩
    all_goals
      obtain rfl := nearest.unique other strict
      omega
  · intro straight
    rcases first.nearest_or_misled second strictWide strict refines bounded with
      nearest | ⟨middle, misled⟩
    · exact ⟨place, nearest, rfl⟩
    · have high : highest ≤ middle := by
        by_contra low
        exact straight ⟨middle, not_le.mp low, misled⟩
      rcases first.of_misled second strictWide strict refines bounded misled with
        ⟨rfl, other⟩ | ⟨rfl, other⟩
      all_goals exact ⟨_, other, by omega⟩

end

end

end Rounding

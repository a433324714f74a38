import Mathlib.Data.Finmap
import Mathlib.Data.Finset.Card

namespace Dataflow

variable {Key Fact : Type} [DecidableEq Key]

/-- A finite map from keys to facts. -/
abbrev FactMap (Key Fact : Type) := Finmap fun _ : Key => Fact

namespace FactMap

/-- The map that holds the facts found at some keys. -/
def tabulate (keys : Finset Key) (fact : Key → Option Fact) : FactMap Key Fact :=
  Finmap.keysLookupEquiv.symm
    ⟨(keys.filter fun key => (fact key).isSome, fun key => if key ∈ keys then fact key else none), by
      intro key
      by_cases member : key ∈ keys <;> simp [member]⟩

theorem lookup_tabulate (keys : Finset Key) (fact : Key → Option Fact) (key : Key) :
    (tabulate keys fact).lookup key = if key ∈ keys then fact key else none := by
  simp [tabulate]

theorem keys_tabulate (keys : Finset Key) (fact : Key → Option Fact) :
    (tabulate keys fact).keys = keys.filter fun key => (fact key).isSome := by
  simp [tabulate]

/-- A map whose facts are all found in a larger one is smaller. -/
theorem card_lt_of_submap {small large : FactMap Key Fact}
    (submap : ∀ key fact, small.lookup key = some fact → large.lookup key = some fact)
    (different : small ≠ large) : small.keys.card < large.keys.card := by
  have subset : small.keys ⊆ large.keys := by
    intro key member
    obtain ⟨fact, found⟩ := Finmap.mem_iff.mp (Finmap.mem_keys.mp member)
    exact Finmap.mem_keys.mpr (Finmap.mem_of_lookup_eq_some (submap key fact found))
  refine lt_of_le_of_ne (Finset.card_le_card subset) fun sameSize => different ?_
  have sameKeys := Finset.eq_of_subset_of_card_le subset sameSize.ge
  refine Finmap.ext_lookup fun key => ?_
  cases found : small.lookup key with
  | some fact => exact (submap key fact found).symm
  | none =>
      have absent : key ∉ large.keys := by
        rw [← sameKeys, Finmap.mem_keys]
        exact Finmap.lookup_eq_none.mp found
      exact (Finmap.lookup_eq_none.mpr fun member => absent (Finmap.mem_keys.mpr member)).symm

section Retain
variable [DecidableEq Fact]

/-- The facts that two maps agree on.  An unknown fact is dropped. -/
def retainCommon (left right : FactMap Key (Option Fact)) : FactMap Key (Option Fact) :=
  tabulate left.keys fun key =>
    if left.lookup key = right.lookup key ∧ (left.lookup key).join ≠ none then left.lookup key
    else none

theorem lookup_retainCommon (left right : FactMap Key (Option Fact)) (key : Key) :
    (retainCommon left right).lookup key =
      if left.lookup key = right.lookup key ∧ (left.lookup key).join ≠ none then left.lookup key
      else none := by
  rw [retainCommon, lookup_tabulate]
  by_cases member : key ∈ left.keys
  · rw [if_pos member]
  · have absent : left.lookup key = none :=
      Finmap.lookup_eq_none.mpr fun found => member (Finmap.mem_keys.mpr found)
    simp [absent]

theorem retainCommon_submap {left right : FactMap Key (Option Fact)} {key : Key}
    {fact : Option Fact} (found : (retainCommon left right).lookup key = some fact) :
    left.lookup key = some fact ∧ right.lookup key = some fact ∧ fact ≠ none := by
  rw [lookup_retainCommon] at found
  split at found
  · rename_i both
    refine ⟨found, both.1 ▸ found, ?_⟩
    rintro rfl
    exact both.2 (by simp [found])
  · cases found

theorem retainCommon_eq_or_card_lt (left right : FactMap Key (Option Fact)) :
    retainCommon left right = left ∨ (retainCommon left right).keys.card < left.keys.card := by
  by_cases same : retainCommon left right = left
  · exact .inl same
  · exact .inr (card_lt_of_submap (fun _ _ found => (retainCommon_submap found).1) same)

theorem retainCommon_card_le (left right : FactMap Key (Option Fact)) :
    (retainCommon left right).keys.card ≤ left.keys.card := by
  rcases retainCommon_eq_or_card_lt left right with same | less
  · rw [same]
  · exact less.le

end Retain

section Unknown
variable [DecidableEq Fact]

/-- The join that forgets a fact where two maps differ, and keeps its key. -/
def joinUnknown (left right : FactMap Key (Option Fact)) : FactMap Key (Option Fact) :=
  tabulate (left.keys ∪ right.keys) fun key =>
    some (if left.lookup key = right.lookup key then (left.lookup key).join else none)

theorem keys_joinUnknown (left right : FactMap Key (Option Fact)) :
    (joinUnknown left right).keys = left.keys ∪ right.keys := by
  simp [joinUnknown, keys_tabulate]

theorem lookup_joinUnknown (left right : FactMap Key (Option Fact)) (key : Key) :
    (joinUnknown left right).lookup key =
      if key ∈ left.keys ∪ right.keys then
        some (if left.lookup key = right.lookup key then (left.lookup key).join else none)
      else none := by
  rw [joinUnknown, lookup_tabulate]

theorem joinUnknown_self (facts : FactMap Key (Option Fact)) : joinUnknown facts facts = facts := by
  refine Finmap.ext_lookup fun key => ?_
  rw [lookup_joinUnknown, Finset.union_self, if_pos rfl]
  by_cases member : key ∈ facts
  · rw [if_pos (Finmap.mem_keys.mpr member)]
    obtain ⟨fact, found⟩ := Finmap.mem_iff.mp member
    simp [found]
  · rw [if_neg (mt Finmap.mem_keys.mp member), Finmap.lookup_eq_none.mpr member]

/-- The keys with a known fact. -/
def known (facts : FactMap Key (Option Fact)) : Finset Key :=
  facts.keys.filter fun key => (facts.lookup key).join ≠ none

/-- What a map over some names can still lose: names without an entry, and known facts. -/
def losable (names : Finset Key) (facts : FactMap Key (Option Fact)) : Nat :=
  2 * (names \ facts.keys).card + (known facts).card

theorem lookup_joinUnknown_left {left right : FactMap Key (Option Fact)} {key : Key}
    {fact : Fact} (found : (joinUnknown left right).lookup key = some (some fact)) :
    left.lookup key = some (some fact) ∧ right.lookup key = some (some fact) := by
  rw [lookup_joinUnknown] at found
  split at found
  · split at found
    · rename_i same
      cases value : left.lookup key with
      | none => simp [value] at found
      | some fact' =>
          simp only [value, Option.join_some, Option.some.injEq] at found
          exact ⟨by rw [found], by rw [← same, value, found]⟩
    · simp at found
  · cases found

theorem known_joinUnknown (left right : FactMap Key (Option Fact)) :
    known (joinUnknown left right) ⊆ known left := by
  intro key member
  simp only [known, Finset.mem_filter, ne_eq] at member ⊢
  obtain ⟨-, isKnown⟩ := member
  cases found : (joinUnknown left right).lookup key with
  | none => simp [found] at isKnown
  | some fact =>
      cases fact with
      | none => simp [found] at isKnown
      | some fact =>
          have value := (lookup_joinUnknown_left found).1
          refine ⟨?_, by simp [value]⟩
          exact Finmap.mem_keys.mpr (Finmap.mem_of_lookup_eq_some value)

theorem joinUnknown_eq_or_losable_lt {names : Finset Key} (left : FactMap Key (Option Fact))
    {right : FactMap Key (Option Fact)} (within : right.keys ⊆ names) :
    joinUnknown left right = left ∨ losable names (joinUnknown left right) < losable names left := by
  have fewer := Finset.card_le_card (known_joinUnknown left right)
  have smaller : names \ (joinUnknown left right).keys ⊆ names \ left.keys := by
    rw [keys_joinUnknown]
    exact Finset.sdiff_subset_sdiff le_rfl Finset.subset_union_left
  by_cases covered : right.keys ⊆ left.keys
  · have sameKeys : (joinUnknown left right).keys = left.keys := by
      rw [keys_joinUnknown, Finset.union_eq_left.mpr covered]
    by_cases sameKnown : known (joinUnknown left right) = known left
    · left
      refine Finmap.ext_lookup fun key => ?_
      cases found : (joinUnknown left right).lookup key with
      | none =>
          have absent : key ∉ left.keys := by
            rw [← sameKeys, Finmap.mem_keys]
            exact Finmap.lookup_eq_none.mp found
          exact (Finmap.lookup_eq_none.mpr fun member => absent (Finmap.mem_keys.mpr member)).symm
      | some fact =>
          have member : key ∈ left.keys := by
            rw [← sameKeys, Finmap.mem_keys]
            exact Finmap.mem_of_lookup_eq_some found
          cases fact with
          | some fact => exact (lookup_joinUnknown_left found).1.symm
          | none =>
              obtain ⟨fact, value⟩ := Finmap.mem_iff.mp (Finmap.mem_keys.mp member)
              cases fact with
              | none => exact value.symm
              | some fact =>
                  have isKnown : key ∈ known left := by simp [known, member, value]
                  rw [← sameKnown] at isKnown
                  simp [known, found] at isKnown
    · right
      have strictly : (known (joinUnknown left right)).card < (known left).card :=
        Finset.card_lt_card (Finset.ssubset_iff_subset_ne.mpr
          ⟨known_joinUnknown left right, sameKnown⟩)
      simp only [losable, sameKeys]
      omega
  · right
    obtain ⟨key, member, absent⟩ := Finset.not_subset.mp covered
    have strictly : (names \ (joinUnknown left right).keys).card < (names \ left.keys).card := by
      refine Finset.card_lt_card (Finset.ssubset_iff_of_subset smaller |>.mpr ⟨key, ?_, ?_⟩)
      · simp [within member, absent]
      · simp [keys_joinUnknown, member]
    simp only [losable]
    omega

theorem joinUnknown_losable_le {names : Finset Key} (left : FactMap Key (Option Fact))
    {right : FactMap Key (Option Fact)} (within : right.keys ⊆ names) :
    losable names (joinUnknown left right) ≤ losable names left := by
  rcases joinUnknown_eq_or_losable_lt left within with same | less
  · rw [same]
  · exact less.le

end Unknown

section Top
variable [DecidableEq Fact] (top : Fact)

/-- The join on the keys of both maps, with `top` where they differ. -/
def joinOr (left right : FactMap Key Fact) : FactMap Key Fact :=
  tabulate (left.keys ∩ right.keys) fun key =>
    if left.lookup key = right.lookup key then left.lookup key else some top

theorem lookup_joinOr (left right : FactMap Key Fact) (key : Key) :
    (joinOr top left right).lookup key =
      if key ∈ left.keys ∩ right.keys then
        if left.lookup key = right.lookup key then left.lookup key else some top
      else none := by
  rw [joinOr, lookup_tabulate]

/-- The keys whose fact is not `top`. -/
def precise (facts : FactMap Key Fact) : Finset Key :=
  facts.keys.filter fun key => facts.lookup key ≠ some top

theorem joinOr_eq_or_card_lt (left right : FactMap Key Fact) :
    joinOr top left right = left ∨
      (joinOr top left right).keys.card + (precise top (joinOr top left right)).card <
        left.keys.card + (precise top left).card := by
  have values (key : Key) : (joinOr top left right).lookup key = left.lookup key ∨
      (joinOr top left right).lookup key = some top ∧ key ∈ left.keys ∨
        (joinOr top left right).lookup key = none := by
    rw [lookup_joinOr]
    by_cases both : key ∈ left.keys ∩ right.keys
    · rw [if_pos both]
      by_cases same : left.lookup key = right.lookup key
      · exact .inl (if_pos same)
      · exact .inr (.inl ⟨if_neg same, (Finset.mem_inter.mp both).1⟩)
    · exact .inr (.inr (if_neg both))
  have subset : (joinOr top left right).keys ⊆ left.keys := by
    intro key member
    obtain ⟨fact, found⟩ := Finmap.mem_iff.mp (Finmap.mem_keys.mp member)
    rcases values key with same | ⟨-, kept⟩ | absent
    · exact Finmap.mem_keys.mpr (Finmap.mem_of_lookup_eq_some (same ▸ found))
    · exact kept
    · rw [absent] at found
      cases found
  have fewer : precise top (joinOr top left right) ⊆ precise top left := by
    intro key member
    simp only [precise, Finset.mem_filter] at member ⊢
    refine ⟨subset member.1, ?_⟩
    rcases values key with same | ⟨isTop, -⟩ | absent
    · rw [← same]
      exact member.2
    · exact absurd isTop member.2
    · exact absurd member.1 fun found =>
        Finmap.lookup_eq_none.mp absent (Finmap.mem_keys.mp found)
  by_cases sameKeys : (joinOr top left right).keys = left.keys
  · by_cases samePrecise : precise top (joinOr top left right) = precise top left
    · left
      refine Finmap.ext_lookup fun key => ?_
      rcases values key with same | ⟨isTop, member⟩ | absent
      · exact same
      · rw [isTop]
        by_contra different
        have isPrecise : key ∈ precise top left := by
          simpa [precise, member] using fun same => different same.symm
        rw [← samePrecise, precise, Finset.mem_filter] at isPrecise
        exact isPrecise.2 isTop
      · rw [absent]
        have missing : key ∉ left.keys := by
          rw [← sameKeys, Finmap.mem_keys]
          exact Finmap.lookup_eq_none.mp absent
        exact (Finmap.lookup_eq_none.mpr fun member => missing (Finmap.mem_keys.mpr member)).symm
    · right
      rw [sameKeys]
      have strictly := Finset.card_lt_card (Finset.ssubset_iff_subset_ne.mpr ⟨fewer, samePrecise⟩)
      omega
  · right
    have strictly := Finset.card_lt_card (Finset.ssubset_iff_subset_ne.mpr ⟨subset, sameKeys⟩)
    have atMost := Finset.card_le_card fewer
    omega

theorem joinOr_card_le (left right : FactMap Key Fact) :
    (joinOr top left right).keys.card + (precise top (joinOr top left right)).card ≤
      left.keys.card + (precise top left).card := by
  rcases joinOr_eq_or_card_lt top left right with same | less
  · rw [same]
  · exact less.le

end Top

end FactMap

end Dataflow

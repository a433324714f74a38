import HitSimple.FixedWidth.Bytes

namespace FixedWidth

/-! A copy that stops at the first zero and pads with zeros, one cell after another.  When the
cells it writes lie above the cells it reads, it comes to read what it has written. -/

variable {α : Type} [Zero α]

/-- The cells a copy leaves that writes them in order, `distance` cells above those it reads. -/
def CopiesForward [DecidableEq α] (length limit distance : Nat) (source written : Nat → α) : Prop :=
  ∀ index, index < length → written index =
    if index < limit ∧ ∀ earlier, earlier < index → written earlier ≠ 0 then
      if 0 < distance ∧ distance ≤ index then written (index - distance) else source index
    else 0

/-- The cells such a copy should leave: the source up to its first zero, then zeros. -/
def cutAtZero [DecidableEq α] (limit : Nat) (source : Nat → α) (index : Nat) : α :=
  if index < limit ∧ ∀ earlier, earlier < index → source earlier ≠ 0 then source index else 0

/-- Before the first zero the copy meets a cell it has overwritten with something else. -/
def Overtakes (limit distance : Nat) (source : Nat → α) : Prop :=
  ∃ index, index < limit ∧ 0 < distance ∧ distance ≤ index ∧
    (∀ earlier, earlier < index → source earlier ≠ 0) ∧ source index ≠ source (index - distance)

instance [DecidableEq α] (limit distance : Nat) (source : Nat → α) :
    Decidable (Overtakes limit distance source) :=
  inferInstanceAs (Decidable (∃ index, index < limit ∧ 0 < distance ∧ distance ≤ index ∧
    (∀ earlier, earlier < index → source earlier ≠ 0) ∧ source index ≠ source (index - distance)))

/-- A copy whose cells are out of reach of those it reads is never overtaken. -/
theorem not_overtakes_of_le {limit distance : Nat} {source : Nat → α} (apart : limit ≤ distance) :
    ¬Overtakes limit distance source := by
  rintro ⟨index, bound, -, reached, -⟩
  omega

section Copies
variable [DecidableEq α] {length limit distance : Nat} {source written : Nat → α}

theorem CopiesForward.congr {current : Nat → α}
    (copies : CopiesForward length limit distance source written)
    (same : ∀ index, index < length → current index = written index) :
    CopiesForward length limit distance source current := by
  intro index inside
  have active : (index < limit ∧ ∀ earlier, earlier < index → current earlier ≠ 0) ↔
      index < limit ∧ ∀ earlier, earlier < index → written earlier ≠ 0 :=
    and_congr_right fun _ => forall₂_congr fun earlier before => by rw [same earlier (by omega)]
  rw [same index inside, copies index inside, if_congr active rfl rfl,
    same (index - distance) (by omega)]

theorem CopiesForward.succ (copies : CopiesForward length limit distance source written)
    (next : written length =
      if length < limit ∧ ∀ earlier, earlier < length → written earlier ≠ 0 then
        if 0 < distance ∧ distance ≤ length then written (length - distance) else source length
      else 0) :
    CopiesForward (length + 1) limit distance source written := by
  intro index inside
  rcases Nat.lt_succ_iff_lt_or_eq.mp inside with before | rfl
  · exact copies index before
  · exact next

theorem cutAtZero_eq {index : Nat} (bound : index < limit)
    (nonzero : ∀ earlier, earlier < index → source earlier ≠ 0) :
    cutAtZero limit source index = source index :=
  if_pos ⟨bound, nonzero⟩

/-- A cell of the cut source that is not zero lies before the first zero. -/
theorem ne_zero_of_cutAtZero {index : Nat} (kept : cutAtZero limit source index ≠ 0) :
    source index ≠ 0 := by
  unfold cutAtZero at kept
  split at kept
  · exact kept
  · exact absurd rfl kept

/-- As long as it has not been overtaken, the copy agrees with the cut source. -/
theorem CopiesForward.eq_cutAtZero (copies : CopiesForward length limit distance source written)
    (behind : ¬Overtakes limit distance source) :
    ∀ index, index < length → written index = cutAtZero limit source index := by
  intro index
  induction index using Nat.strong_induction_on with
  | _ index ih =>
      intro inside
      have agree (earlier : Nat) (before : earlier < index) :
          written earlier = cutAtZero limit source earlier :=
        ih earlier before (by omega)
      have active : (index < limit ∧ ∀ earlier, earlier < index → written earlier ≠ 0) ↔
          index < limit ∧ ∀ earlier, earlier < index → source earlier ≠ 0 := by
        constructor
        · rintro ⟨bound, nonzero⟩
          refine ⟨bound, fun earlier before => ?_⟩
          have kept := nonzero earlier before
          rw [agree earlier before] at kept
          exact ne_zero_of_cutAtZero kept
        · rintro ⟨bound, nonzero⟩
          refine ⟨bound, fun earlier before => ?_⟩
          rw [agree earlier before, cutAtZero_eq (by omega) fun first _ => nonzero first (by omega)]
          exact nonzero earlier before
      rw [copies index inside, cutAtZero, if_congr active rfl rfl]
      split
      · next reads =>
          obtain ⟨bound, nonzero⟩ := reads
          split
          · next overlaps =>
              obtain ⟨positive, reached⟩ := overlaps
              rw [agree (index - distance) (by omega),
                cutAtZero_eq (by omega) fun first _ => nonzero first (by omega)]
              by_contra different
              exact behind ⟨index, bound, positive, reached, nonzero, Ne.symm different⟩
          · rfl
      · rfl

/-- A copy in order is right exactly when it is never overtaken. -/
theorem CopiesForward.eq_cutAtZero_iff
    (copies : CopiesForward length limit distance source written) (fits : limit ≤ length) :
    (∀ index, index < length → written index = cutAtZero limit source index) ↔
      ¬Overtakes limit distance source := by
  constructor
  · rintro right ⟨index, bound, positive, reached, nonzero, different⟩
    have same (earlier : Nat) (before : earlier < index) : written earlier = source earlier := by
      rw [right earlier (by omega)]
      exact cutAtZero_eq (by omega) fun first _ => nonzero first (by omega)
    have active : index < limit ∧ ∀ earlier, earlier < index → written earlier ≠ 0 := by
      refine ⟨bound, fun earlier before => ?_⟩
      rw [same earlier before]
      exact nonzero earlier before
    have here := right index (by omega)
    rw [cutAtZero_eq bound nonzero, copies index (by omega), if_pos active,
      if_pos (And.intro positive reached), same (index - distance) (by omega)] at here
    exact different here.symm
  · exact copies.eq_cutAtZero

end Copies

/-- The bytes before the first zero, cut to a length. -/
theorem getD_take_takeWhile [DecidableEq α] (limit : Nat) (source : List α) (index : Nat) :
    ((source.takeWhile fun cell => decide (cell ≠ 0)).take limit).getD index 0 =
      cutAtZero limit (source.getD · 0) index := by
  induction source generalizing limit index with
  | nil =>
      rw [cutAtZero]
      split <;> simp
  | cons cell rest ih =>
      cases limit with
      | zero => simp [cutAtZero]
      | succ limit =>
          by_cases zero : cell = 0
          · cases index with
            | zero => simp [zero, cutAtZero]
            | succ index =>
                have stopped : ¬(index + 1 < limit + 1 ∧ ∀ earlier, earlier < index + 1 →
                    (cell :: rest).getD earlier 0 ≠ 0) := by
                  rintro ⟨-, nonzero⟩
                  exact nonzero 0 (by omega) zero
                rw [cutAtZero, if_neg stopped]
                simp [zero]
          · cases index with
            | zero => simp [zero, cutAtZero]
            | succ index =>
                have step := ih limit index
                have shift : (index + 1 < limit + 1 ∧ ∀ earlier, earlier < index + 1 →
                    (cell :: rest).getD earlier 0 ≠ 0) ↔ index < limit ∧
                      ∀ earlier, earlier < index → rest.getD earlier 0 ≠ 0 := by
                  constructor
                  · rintro ⟨bound, nonzero⟩
                    exact ⟨by omega, fun earlier before => nonzero (earlier + 1) (by omega)⟩
                  · rintro ⟨bound, nonzero⟩
                    refine ⟨by omega, fun earlier before => ?_⟩
                    cases earlier with
                    | zero => exact zero
                    | succ earlier => exact nonzero earlier (by omega)
                rw [cutAtZero, if_congr shift rfl rfl, List.takeWhile_cons_of_pos (by simpa using zero),
                  List.take_succ_cons, List.getD_cons_succ, step]
                rfl

section Addresses
variable {addressWidth : Nat}

/-- Two offsets from two addresses meet where the distance of the addresses tells. -/
theorem add_ofNat_eq_iff {source target : BitVec addressWidth} {index earlier : Nat}
    (before : earlier < index) (bound : index < 2 ^ addressWidth) :
    source + BitVec.ofNat addressWidth index = target + BitVec.ofNat addressWidth earlier ↔
      index = (target - source).toNat + earlier := by
  have shift : source + BitVec.ofNat addressWidth index =
      target + BitVec.ofNat addressWidth earlier ↔
        target - source = BitVec.ofNat addressWidth (index - earlier) := by
    rw [← BitVec.ofNat_sub_ofNat_of_le index earlier (by omega) (by omega)]
    constructor <;> intro same <;> grind
  rw [shift, ← BitVec.toNat_inj, BitVec.toNat_ofNat, Nat.mod_eq_of_lt (by omega)]
  omega

theorem add_ofNat_ne {target : BitVec addressWidth} {index earlier : Nat}
    (before : earlier < index) (bound : index < 2 ^ addressWidth) :
    target + BitVec.ofNat addressWidth index ≠ target + BitVec.ofNat addressWidth earlier := by
  rw [Ne, add_ofNat_eq_iff before bound, BitVec.sub_self, BitVec.toNat_zero]
  omega

theorem Memory.store_one (memory : Memory addressWidth) (address cell : BitVec addressWidth)
    (byte : BitVec (1 * 8)) :
    memory.store address 1 byte cell = if cell = address then byte else memory cell := by
  have here : (cell - address).toNat < 1 ↔ cell = address := by
    rw [Nat.lt_one_iff]
    constructor
    · intro zero
      have same : cell - address = 0 := BitVec.eq_of_toNat_eq (by simpa using zero)
      simpa [BitVec.sub_eq_iff_eq_add] using same
    · rintro rfl
      rw [BitVec.sub_self, BitVec.toNat_zero]
  rw [Memory.store, if_congr here rfl rfl]
  split
  · next same =>
      rw [same, BitVec.sub_self]
      exact BitVec.extractLsb'_eq_self
  · rfl

end Addresses

end FixedWidth

import HitSimple.Registry.ByteCalls

namespace HitSimple.Registry
open Slots FixedWidth

/-- What a call does, over what the registry finds. -/
structure ByteCall.Outcome (state : State) (bytes : Bytes) (call : ByteCall) : Prop where
  refuses : ¬Allowed state.Finds bytes call → (call.run state).Refuses bytes
  undefined : Allowed state.Finds bytes call → CopiesOverItself bytes call →
    call.run state bytes = (.error .undefined, bytes)
  answers : Allowed state.Finds bytes call → ¬CopiesOverItself bytes call →
    ∃ answer after, Specified bytes after call answer ∧ call.run state bytes = (.ok answer, after)

namespace Outcome
variable {state : State} {bytes : Bytes}

theorem writes_nothing {dst : Nat} {written : Nat → Byte} : Writes bytes bytes dst 0 written := by
  intro address
  rw [if_neg (by omega)]

/-! ### Memory -/

theorem memset (dst : Nat) (value : BitVec 32) (size : Nat) :
    ByteCall.Outcome state bytes (.memset dst value size) where
  refuses outside := (checkRange_of_not outside _).bind.bind
  undefined _ copies := copies.elim
  answers inside _ := by
    have checked : checkRange state dst size "invalid memset range" bytes = (.ok (), bytes) :=
      checkRange_of_finds inside _
    by_cases empty : size = 0
    · subst empty
      refine ⟨.address dst, bytes, ⟨rfl, writes_nothing⟩, Action.return_of_ok ?_ Answer.address⟩
      rw [hsMemset, Action.bind_of_ok checked, if_pos rfl, Action.pure_apply]
    · refine ⟨.address dst, _, ⟨rfl, fun address => rfl⟩, Action.return_of_ok ?_ Answer.address⟩
      rw [hsMemset, Action.bind_of_ok checked, if_neg empty]
      rfl

section
variable {left right size : Nat} (leftMessage rightMessage : String)

/-- The two checks in front of a function of two ranges. -/
theorem ranges_refuse {α : Type} {next : Action α}
    (outside : ¬(IsRange state.Finds left size ∧ IsRange state.Finds right size)) :
    (checkRange state left size leftMessage >>= fun _ =>
      checkRange state right size rightMessage >>= fun _ => next).Refuses bytes := by
  by_cases inLeft : IsRange state.Finds left size
  · have outRight : ¬IsRange state.Finds right size := fun inRight => outside ⟨inLeft, inRight⟩
    exact Action.refuses_of_ok (checkRange_of_finds inLeft _) (checkRange_of_not outRight _).bind
  · exact (checkRange_of_not inLeft _).bind

theorem ranges_pass {α : Type} {next : Action α}
    (inLeft : IsRange state.Finds left size) (inRight : IsRange state.Finds right size) :
    (checkRange state left size leftMessage >>= fun _ =>
      checkRange state right size rightMessage >>= fun _ => next) bytes = next bytes := by
  rw [Action.bind_of_ok (checkRange_of_finds inLeft _),
    Action.bind_of_ok (checkRange_of_finds inRight _)]

end

theorem memmove (dst src size : Nat) :
    ByteCall.Outcome state bytes (.memmove dst src size) where
  refuses outside := (ranges_refuse _ _ outside).bind
  undefined _ copies := copies.elim
  answers inside _ := by
    by_cases empty : size = 0
    · subst empty
      refine ⟨.address dst, bytes, ⟨rfl, writes_nothing⟩, Action.return_of_ok ?_ Answer.address⟩
      rw [hsMemmove, ranges_pass _ _ inside.1 inside.2, if_pos rfl, Action.pure_apply]
    · refine ⟨.address dst, _, ⟨rfl, fun address => rfl⟩, Action.return_of_ok ?_ Answer.address⟩
      rw [hsMemmove, ranges_pass _ _ inside.1 inside.2, if_neg empty]
      rfl

/-- What the registry finds ends at an address. -/
theorem ends_at (addressable : state.Addressable) {ptr size : Nat}
    (finds : state.Finds ptr size) : ptr + size < 2 ^ 64 := by
  obtain ⟨slot, _, _, _, bound⟩ := finds
  exact bound.trans_lt (addressable.ends slot)

theorem size_lt (addressable : state.Addressable) {ptr size : Nat}
    (finds : state.Finds ptr size) : size < 2 ^ 63 := by
  obtain ⟨slot, _, _, low, bound⟩ := finds
  have := addressable.size slot
  omega

theorem memcpy (addressable : state.Addressable) (dst src size : Nat) :
    ByteCall.Outcome state bytes (.memcpy dst src size) where
  refuses outside := by
    by_cases inside : IsRange state.Finds dst size ∧ IsRange state.Finds src size
    · have overlapping : ¬Region.Separate ⟨dst, size⟩ ⟨src, size⟩ :=
        fun separate => outside ⟨inside.1, inside.2, separate⟩
      rw [Region.separate_iff] at overlapping
      have sized : size ≠ 0 := fun empty => overlapping (.inl empty)
      have dstEnds := ends_at addressable (inside.1.resolve_left sized)
      have srcEnds := ends_at addressable (inside.2.resolve_left sized)
      have stopped : (hsMemcpy state dst src size).Refuses bytes := by
        refine ⟨"overlapping memcpy ranges", ?_⟩
        rw [hsMemcpy, ranges_pass _ _ inside.1 inside.2, if_neg sized, Nat.mod_eq_of_lt dstEnds,
          Nat.mod_eq_of_lt srcEnds, if_pos (by simp only at overlapping; omega)]
        rfl
      exact stopped.bind
    · exact (ranges_refuse _ _ inside).bind
  undefined _ copies := copies.elim
  answers allowed _ := by
    obtain ⟨inDst, inSrc, separate⟩ := allowed
    by_cases empty : size = 0
    · subst empty
      refine ⟨.address dst, bytes, ⟨rfl, writes_nothing⟩, Action.return_of_ok ?_ Answer.address⟩
      rw [hsMemcpy, ranges_pass _ _ inDst inSrc, if_pos rfl, Action.pure_apply]
    · refine ⟨.address dst, _, ⟨rfl, fun address => rfl⟩, Action.return_of_ok ?_ Answer.address⟩
      have dstEnds := ends_at addressable (inDst.resolve_left empty)
      have srcEnds := ends_at addressable (inSrc.resolve_left empty)
      have apart := Region.separate_iff.mp separate
      rw [hsMemcpy, ranges_pass _ _ inDst inSrc, if_neg empty, Nat.mod_eq_of_lt dstEnds,
        Nat.mod_eq_of_lt srcEnds, if_neg (by simp only at apart; omega), Registry.memcpy,
        if_pos separate]
      rfl

theorem memcmpFrom_spec (bytes : Bytes) (left right index count : Nat) :
    (memcmpFrom bytes left right index count = .eq ∧
      ∀ place, index ≤ place → place < index + count →
        bytes (left + place) = bytes (right + place)) ∨
    ∃ place, (index ≤ place ∧ place < index + count) ∧
      (∀ earlier, index ≤ earlier → earlier < place →
        bytes (left + earlier) = bytes (right + earlier)) ∧
      bytes (left + place) ≠ bytes (right + place) ∧
      memcmpFrom bytes left right index count =
        compare (bytes (left + place)).toNat (bytes (right + place)).toNat := by
  induction count generalizing index with
  | zero => exact .inl ⟨rfl, by omega⟩
  | succ count ih =>
      rw [memcmpFrom]
      split
      next same =>
        have extended {place : Nat} (equal : ∀ earlier, index + 1 ≤ earlier → earlier < place →
            bytes (left + earlier) = bytes (right + earlier)) (earlier : Nat)
            (from' : index ≤ earlier) (below : earlier < place) :
            bytes (left + earlier) = bytes (right + earlier) := by
          rcases Nat.eq_or_lt_of_le from' with rfl | later
          · exact same
          · exact equal earlier later below
        rcases ih (index + 1) with ⟨sign, equal⟩ | ⟨place, range, equal, differs, sign⟩
        · refine .inl ⟨sign, fun place from' below => ?_⟩
          exact extended (fun earlier from' below => equal earlier from' (by omega)) place from' below
        · exact .inr ⟨place, by omega, extended equal, differs, sign⟩
      next differs =>
        exact .inr ⟨index, by omega, fun earlier from' below => by omega, differs, rfl⟩

theorem memcmpFrom_compares (left right size : Nat) :
    ComparesRange bytes left right size (memcmpFrom bytes left right 0 size) := by
  rcases memcmpFrom_spec bytes left right 0 size with ⟨sign, equal⟩ | ⟨place, range, equal, differs, sign⟩
  · exact .inl ⟨sign, fun index below => equal index (Nat.zero_le _) (by omega)⟩
  · exact .inr ⟨place, by omega, fun index below => equal index (Nat.zero_le _) below, differs,
      sign⟩

theorem memcmp (left right size : Nat) :
    ByteCall.Outcome state bytes (.memcmp left right size) where
  refuses outside := (ranges_refuse _ _ outside).bind
  undefined _ copies := copies.elim
  answers inside _ := by
    by_cases empty : size = 0
    · subst empty
      refine ⟨.order .eq, bytes, ⟨rfl, .eq, rfl, .inl ⟨rfl, by omega⟩⟩,
        Action.return_of_ok ?_ Answer.order⟩
      rw [hsMemcmp, ranges_pass _ _ inside.1 inside.2, if_pos rfl, Action.pure_apply]
    · refine ⟨.order _, bytes, ⟨rfl, _, rfl, memcmpFrom_compares left right size⟩,
        Action.return_of_ok ?_ Answer.order⟩
      rw [hsMemcmp, ranges_pass _ _ inside.1 inside.2, if_neg empty]
      rfl

end Outcome

end HitSimple.Registry

import Mathlib.Data.Multiset.DershowitzManna
import Mathlib.Algebra.BigOperators.Group.Finset.Basic
import Mathlib.Algebra.Order.BigOperators.Group.Finset
import Mathlib.Logic.Function.Basic

namespace Dataflow
open Relation

variable {State : Type}

/-- The entry states of a graph's nodes, and the nodes that wait to be taken. -/
structure Pool (State : Type) where
  entries : Nat → Option State
  waiting : List Nat

namespace Pool

def push (pool : Pool State) (index : Nat) (entry : State) (isFirst : Bool) : Pool State where
  entries := Function.update pool.entries index (some entry)
  waiting := if isFirst then index :: pool.waiting else pool.waiting ++ [index]

/-- A node waits again when a join changes its entry state. -/
def enqueue [DecidableEq State] (join : State → State → State) (pool : Pool State) (index : Nat)
    (incoming : State) (isFirst : Bool) : Pool State :=
  match pool.entries index with
  | none => pool.push index incoming isFirst
  | some entry =>
      if join entry incoming = entry then pool else pool.push index (join entry incoming) isFirst

end Pool

/-- A bound on how often an entry state can change. -/
structure Weighing (join : State → State → State) where
  admits : State → Prop
  weight : State → Nat
  join_admits : ∀ {left right}, admits left → admits right → admits (join left right)
  join_lt : ∀ {left right}, admits left → admits right → join left right ≠ left →
    weight (join left right) < weight left

namespace Pool

/-- The nodes before a bound that wait, by their distance to it. -/
def pending (bound : Nat) (pool : Pool State) : Multiset Nat :=
  ((pool.waiting.filter (· < bound)).map (bound - ·) : List Nat)

def unset (size : Nat) (pool : Pool State) : Nat :=
  ((Finset.range size).filter fun index => (pool.entries index).isNone).card

def total (size : Nat) (weight : State → Nat) (pool : Pool State) : Nat :=
  ∑ index ∈ Finset.range size, (pool.entries index).elim 0 weight

/-- What a run of the worklist has before it. -/
def remaining (bound size : Nat) (weight : State → Nat) (pool : Pool State) :
    Multiset Nat × Nat × Nat × Nat :=
  (pool.pending bound, pool.unset size, pool.total size weight, pool.waiting.length)

@[simp] theorem push_entries (pool : Pool State) (index : Nat) (entry : State) (isFirst : Bool) :
    (pool.push index entry isFirst).entries = Function.update pool.entries index (some entry) := rfl

theorem push_pending (bound : Nat) (pool : Pool State) (index : Nat) (entry : State)
    (isFirst : Bool) : (pool.push index entry isFirst).pending bound =
      pool.pending bound + if index < bound then {bound - index} else 0 := by
  by_cases before : index < bound
  · rw [if_pos before, ← Multiset.coe_singleton, pending, pending, Multiset.coe_add]
    cases isFirst with
    | true =>
        refine Multiset.coe_eq_coe.mpr ?_
        simpa [push, before] using (List.perm_append_singleton _ _).symm
    | false => simp [push, before]
  · cases isFirst <;> simp [pending, push, before]

theorem mem_unset {size index : Nat} {pool : Pool State} :
    index ∈ ((Finset.range size).filter fun index => (pool.entries index).isNone) ↔
      index < size ∧ pool.entries index = none := by
  simp

theorem push_unset_lt {size : Nat} {pool : Pool State} {index : Nat} (inside : index < size)
    (isNew : pool.entries index = none) (entry : State) (isFirst : Bool) :
    (pool.push index entry isFirst).unset size < pool.unset size := by
  refine Finset.card_lt_card (Finset.ssubset_iff_of_subset ?_ |>.mpr ⟨index, ?_, ?_⟩)
  · intro other member
    rw [mem_unset] at member ⊢
    refine ⟨member.1, ?_⟩
    by_cases same : other = index
    · rw [same, isNew]
    · rw [push_entries, Function.update_of_ne same] at member
      exact member.2
  · exact mem_unset.mpr ⟨inside, isNew⟩
  · simp

theorem push_unset {size : Nat} {pool : Pool State} {index : Nat} {entry : State}
    (found : pool.entries index = some entry) (changed : State) (isFirst : Bool) :
    (pool.push index changed isFirst).unset size = pool.unset size := by
  refine congrArg Finset.card (Finset.filter_congr fun other _ => ?_)
  by_cases same : other = index
  · simp [same, found]
  · simp [Function.update_of_ne same]

theorem push_total_lt {size : Nat} {weight : State → Nat} {pool : Pool State} {index : Nat}
    (inside : index < size) {entry changed : State} (found : pool.entries index = some entry)
    (lighter : weight changed < weight entry) (isFirst : Bool) :
    (pool.push index changed isFirst).total size weight < pool.total size weight := by
  refine Finset.sum_lt_sum (fun other _ => ?_) ⟨index, Finset.mem_range.mpr inside, ?_⟩
  · by_cases same : other = index
    · simp only [push_entries, same, Function.update_self, found, Option.elim_some]
      exact lighter.le
    · simp only [push_entries, Function.update_of_ne same, le_refl]
  · simpa [found] using lighter

def Admits (admits : State → Prop) (pool : Pool State) : Prop :=
  ∀ index entry, pool.entries index = some entry → admits entry

theorem Admits.push {admits : State → Prop} {pool : Pool State} (admitted : pool.Admits admits)
    (index : Nat) {entry : State} (admittedEntry : admits entry) (isFirst : Bool) :
    (pool.push index entry isFirst).Admits admits := by
  intro other found equal
  by_cases same : other = index
  · rw [same, push_entries, Function.update_self, Option.some.injEq] at equal
    exact equal ▸ admittedEntry
  · rw [push_entries, Function.update_of_ne same] at equal
    exact admitted other found equal

end Pool

def Fewer : Multiset Nat × Nat × Nat × Nat → Multiset Nat × Nat × Nat × Nat → Prop :=
  Prod.Lex Multiset.IsDershowitzMannaLT (Prod.Lex (· < ·) (Prod.Lex (· < ·) (· < ·)))

theorem wellFounded_fewer : WellFounded Fewer :=
  Multiset.wellFounded_isDershowitzMannaLT.prod_lex
    (Nat.lt_wfRel.wf.prod_lex (Nat.lt_wfRel.wf.prod_lex Nat.lt_wfRel.wf))

section Enqueue
variable [DecidableEq State] {join : State → State → State}

/-- One state arrives at an allowed node. -/
def Enqueued (join : State → State → State) (allowed : Nat → Prop) (admits : State → Prop)
    (pool later : Pool State) : Prop :=
  ∃ index incoming isFirst, allowed index ∧ admits incoming ∧
    later = pool.enqueue join index incoming isFirst

abbrev Enqueues (join : State → State → State) (allowed : Nat → Prop) (admits : State → Prop) :
    Pool State → Pool State → Prop :=
  ReflTransGen (Enqueued join allowed admits)

theorem Enqueues.mono {allowed allowed' : Nat → Prop} {admits admits' : State → Prop}
    (moreAllowed : ∀ index, allowed index → allowed' index)
    (moreAdmitted : ∀ state, admits state → admits' state) {pool later : Pool State}
    (enqueues : Enqueues join allowed admits pool later) :
    Enqueues join allowed' admits' pool later := by
  induction enqueues with
  | refl => exact .refl
  | tail _ last ih =>
      obtain ⟨index, incoming, isFirst, isAllowed, isAdmitted, rfl⟩ := last
      exact ih.tail ⟨index, incoming, isFirst, moreAllowed index isAllowed,
        moreAdmitted incoming isAdmitted, rfl⟩

namespace Pool

theorem enqueue_cases (join : State → State → State) (pool : Pool State) (index : Nat)
    (incoming : State) (isFirst : Bool) :
    pool.enqueue join index incoming isFirst = pool ∨
      (pool.entries index = none ∧
        pool.enqueue join index incoming isFirst = pool.push index incoming isFirst) ∨
      ∃ entry, pool.entries index = some entry ∧ join entry incoming ≠ entry ∧
        pool.enqueue join index incoming isFirst =
          pool.push index (join entry incoming) isFirst := by
  cases found : pool.entries index with
  | none => exact .inr (.inl ⟨rfl, by simp only [enqueue, found]⟩)
  | some entry =>
      by_cases same : join entry incoming = entry
      · left
        simp only [enqueue, found, if_pos same]
      · exact .inr (.inr ⟨entry, rfl, same, by simp only [enqueue, found, if_neg same]⟩)

theorem enqueue_pending (join : State → State → State) (bound : Nat) (pool : Pool State)
    (index : Nat) (incoming : State) (isFirst : Bool) :
    (pool.enqueue join index incoming isFirst).pending bound = pool.pending bound ∨
      index < bound ∧ (pool.enqueue join index incoming isFirst).pending bound =
        pool.pending bound + {bound - index} := by
  have pushed (entry : State) : (pool.push index entry isFirst).pending bound =
      pool.pending bound ∨ index < bound ∧ (pool.push index entry isFirst).pending bound =
        pool.pending bound + {bound - index} := by
    rw [push_pending]
    by_cases before : index < bound
    · exact .inr ⟨before, by rw [if_pos before]⟩
    · exact .inl (by rw [if_neg before, add_zero])
  rcases pool.enqueue_cases join index incoming isFirst with same | ⟨-, new⟩ | ⟨entry, -, -, new⟩
  · exact .inl (by rw [same])
  · rw [new]
    exact pushed incoming
  · rw [new]
    exact pushed (join entry incoming)

end Pool

/-- Nodes from the bound on leave the nodes before it as they are. -/
theorem Enqueues.pending_eq {bound : Nat} {admits : State → Prop} {pool later : Pool State}
    (enqueues : Enqueues join (bound ≤ ·) admits pool later) :
    later.pending bound = pool.pending bound := by
  induction enqueues with
  | refl => rfl
  | tail _ last ih =>
      obtain ⟨index, incoming, isFirst, notBefore, -, rfl⟩ := last
      rw [← ih]
      rcases Pool.enqueue_pending join bound _ index incoming isFirst with
        same | ⟨before, -⟩
      · exact same
      · omega

/-- Nodes after one that is taken are nearer to the bound. -/
theorem Enqueues.pending_add (bound : Nat) {taken : Nat} {admits : State → Prop}
    {pool later : Pool State}
    (enqueues : Enqueues join (taken < ·) admits pool later) :
    ∃ added : Multiset Nat, later.pending bound = pool.pending bound + added ∧
      ∀ distance ∈ added, distance < bound - taken := by
  induction enqueues with
  | refl => exact ⟨0, by rw [add_zero], by simp⟩
  | tail _ last ih =>
      obtain ⟨index, incoming, isFirst, after, -, rfl⟩ := last
      obtain ⟨added, total, nearer⟩ := ih
      rcases Pool.enqueue_pending join bound _ index incoming isFirst with
        same | ⟨before, more⟩
      · exact ⟨added, same.trans total, nearer⟩
      · refine ⟨added + {bound - index}, by rw [more, total, add_assoc], ?_⟩
        intro distance member
        rcases Multiset.mem_add.mp member with earlier | new
        · exact nearer distance earlier
        · rw [Multiset.mem_singleton.mp new]
          omega

section Weight
variable (weighing : Weighing join)

theorem Pool.Admits.enqueue {pool : Pool State} (admitted : pool.Admits weighing.admits)
    (index : Nat) {incoming : State} (admittedIncoming : weighing.admits incoming)
    (isFirst : Bool) : (pool.enqueue join index incoming isFirst).Admits weighing.admits := by
  rcases pool.enqueue_cases join index incoming isFirst with same | ⟨-, new⟩ | ⟨entry, found, -, new⟩
  · rw [same]
    exact admitted
  · rw [new]
    exact admitted.push index admittedIncoming isFirst
  · rw [new]
    exact admitted.push index (weighing.join_admits (admitted index entry found) admittedIncoming)
      isFirst

theorem Enqueues.admits {allowed : Nat → Prop} {pool later : Pool State}
    (enqueues : Enqueues join allowed weighing.admits pool later)
    (admitted : pool.Admits weighing.admits) : later.Admits weighing.admits := by
  induction enqueues with
  | refl => exact admitted
  | tail _ last ih =>
      obtain ⟨index, incoming, isFirst, -, admittedIncoming, rfl⟩ := last
      exact ih.enqueue weighing index admittedIncoming isFirst

/-- A state that arrives changes nothing, or the entry states have less to lose. -/
theorem Enqueues.eq_or_lighter {size : Nat} {allowed : Nat → Prop}
    (inside : ∀ index, allowed index → index < size) {pool later : Pool State}
    (admitted : pool.Admits weighing.admits)
    (enqueues : Enqueues join allowed weighing.admits pool later) :
    later = pool ∨ later.unset size < pool.unset size ∨
      later.unset size = pool.unset size ∧
        later.total size weighing.weight < pool.total size weighing.weight := by
  induction enqueues with
  | refl => exact .inl rfl
  | @tail middle _ before last ih =>
      obtain ⟨index, incoming, isFirst, isAllowed, admittedIncoming, rfl⟩ := last
      have admittedMiddle := Enqueues.admits weighing before admitted
      rcases middle.enqueue_cases join index incoming isFirst with
        same | ⟨isNew, new⟩ | ⟨entry, found, different, new⟩
      · rw [same]
        exact ih
      · have fewer := Pool.push_unset_lt (inside index isAllowed) isNew incoming isFirst
        rw [← new] at fewer
        rcases ih with rfl | less | ⟨same, -⟩
        · exact .inr (.inl fewer)
        · exact .inr (.inl (fewer.trans less))
        · exact .inr (.inl (same ▸ fewer))
      · have kept : (middle.push index (join entry incoming) isFirst).unset size =
            middle.unset size := Pool.push_unset found (join entry incoming) isFirst
        have lighter := Pool.push_total_lt (inside index isAllowed) found
          (weighing.join_lt (admittedMiddle index entry found) admittedIncoming different) isFirst
        rw [← new] at kept lighter
        rcases ih with rfl | less | ⟨same, less⟩
        · exact .inr (.inr ⟨kept, lighter⟩)
        · exact .inr (.inl (kept ▸ less))
        · exact .inr (.inr ⟨kept.trans same, lighter.trans less⟩)

/-- Taking a node from the bound on leaves less to do. -/
theorem Enqueues.fewer_of_ge {bound size taken : Nat} {rest : List Nat} {pool later : Pool State}
    (waiting : pool.waiting = taken :: rest) (notBefore : bound ≤ taken)
    (admitted : pool.Admits weighing.admits)
    (enqueues : Enqueues join (fun index => bound ≤ index ∧ index < size) weighing.admits
      { pool with waiting := rest } later) :
    Fewer (later.remaining bound size weighing.weight)
      (pool.remaining bound size weighing.weight) := by
  have samePending : later.pending bound = pool.pending bound := by
    rw [(enqueues.mono (fun _ => And.left) fun _ => id).pending_eq]
    simp [Pool.pending, waiting, notBefore]
  have admittedRest : Pool.Admits weighing.admits { pool with waiting := rest } := admitted
  rw [Pool.remaining, Pool.remaining, samePending]
  refine Prod.Lex.right _ ?_
  rcases enqueues.eq_or_lighter weighing (fun _ => And.right) admittedRest with
    rfl | less | ⟨same, less⟩
  · refine Prod.Lex.right _ (Prod.Lex.right _ ?_)
    simp [waiting]
  · exact Prod.Lex.left _ _ less
  · rw [same]
    exact Prod.Lex.right _ (Prod.Lex.left _ _ less)

/-- Taking a node before the bound, whose successors come after it, leaves less to do. -/
theorem Enqueues.fewer_of_lt {bound size taken : Nat} {rest : List Nat} {pool later : Pool State}
    {admits : State → Prop} (waiting : pool.waiting = taken :: rest) (before : taken < bound)
    (enqueues : Enqueues join (taken < ·) admits { pool with waiting := rest } later)
    (weight weight' : State → Nat) :
    Fewer (later.remaining bound size weight') (pool.remaining bound size weight) := by
  obtain ⟨added, total, nearer⟩ := enqueues.pending_add bound
  refine Prod.Lex.left _ _ ⟨Pool.pending bound { pool with waiting := rest }, added,
    {bound - taken}, Multiset.singleton_ne_zero _, total, ?_, ?_⟩
  · rw [← Multiset.coe_singleton, Pool.pending, Pool.pending, Multiset.coe_add]
    refine Multiset.coe_eq_coe.mpr ?_
    simpa [waiting, before] using (List.perm_append_singleton _ _).symm
  · intro distance member
    exact ⟨_, Multiset.mem_singleton_self _, nearer distance member⟩

end Weight

end Enqueue

end Dataflow

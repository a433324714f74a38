import Mathlib.Data.List.Perm.Basic

/-! Batches of changes that are all validated before any of them is made. -/

namespace Batches

/-! ### Validation -/

section
variable {Item Key Error Write State : Type*}

/-- What a validation has gathered from the items so far. -/
structure Collected (Key Error Write : Type*) where
  errors : List Error
  pending : List Write
  seen : List Key

structure Rules (Item Key Error Write : Type*) where
  unnamed : Item → Option Error
  key : Item → Key
  duplicate : Item → Error
  examine : Item → List Error × Option Write

namespace Rules
variable [DecidableEq Key] (rules : Rules Item Key Error Write)

def step (collected : Collected Key Error Write) (item : Item) : Collected Key Error Write :=
  match rules.unnamed item with
  | some error => { collected with errors := collected.errors ++ [error] }
  | none =>
      if rules.key item ∈ collected.seen then
        { collected with errors := collected.errors ++ [rules.duplicate item] }
      else
        { errors := collected.errors ++ (rules.examine item).1
          pending := collected.pending ++ (rules.examine item).2.toList
          seen := rules.key item :: collected.seen }

def collect (items : List Item) : Collected Key Error Write :=
  items.foldl rules.step ⟨[], [], []⟩

/-- Either all pending writes are made, or none is and the errors are returned. -/
def run (assign : State → Write → State) (state : State) (items : List Item) :
    List Error × State :=
  let collected := rules.collect items
  match collected.errors with
  | [] => ([], collected.pending.foldl assign state)
  | errors => (errors, state)

def Accepts (item : Item) : Prop :=
  rules.unnamed item = none ∧ (rules.examine item).1 = []

/-- A batch without an error: every item is accepted, and no two have one key. -/
def AcceptsAll (items : List Item) : Prop :=
  (∀ item ∈ items, rules.Accepts item) ∧ (items.map rules.key).Nodup

omit [DecidableEq Key] in
theorem AcceptsAll.perm {items others : List Item} (permuted : items.Perm others)
    (accepts : rules.AcceptsAll items) : rules.AcceptsAll others :=
  ⟨fun item member => accepts.1 item (permuted.mem_iff.mpr member),
    (permuted.map rules.key).nodup_iff.mp accepts.2⟩

variable {rules}

theorem foldl_step_errors {items : List Item} {collected : Collected Key Error Write} :
    (items.foldl rules.step collected).errors = [] ↔
      collected.errors = [] ∧ (∀ item ∈ items, rules.Accepts item) ∧
        (∀ item ∈ items, rules.key item ∉ collected.seen) ∧ (items.map rules.key).Nodup := by
  induction items generalizing collected with
  | nil => simp
  | cons item items ih =>
      rw [List.foldl_cons, ih, step]
      simp only [List.forall_mem_cons, List.map_cons, List.nodup_cons, Accepts]
      cases named : rules.unnamed item with
      | some error => simp
      | none =>
          by_cases known : rules.key item ∈ collected.seen
          · simp [known]
          · simp only [known, if_false, List.append_eq_nil_iff, List.mem_cons, not_or, true_and,
              not_false_eq_true, List.mem_map, not_exists, not_and]
            constructor
            · rintro ⟨⟨kept, examined⟩, accepted, fresh, distinct⟩
              exact ⟨kept, ⟨examined, accepted⟩, fun item member => (fresh item member).2,
                fun item member => (fresh item member).1, distinct⟩
            · rintro ⟨kept, ⟨examined, accepted⟩, fresh, apart, distinct⟩
              exact ⟨⟨kept, examined⟩, accepted,
                fun item member => ⟨apart item member, fresh item member⟩, distinct⟩

theorem collect_errors {items : List Item} :
    (rules.collect items).errors = [] ↔ rules.AcceptsAll items := by
  rw [collect, foldl_step_errors]
  simp [AcceptsAll]

theorem foldl_step_pending {items : List Item} {collected : Collected Key Error Write}
    (clean : (items.foldl rules.step collected).errors = []) :
    (items.foldl rules.step collected).pending =
      collected.pending ++ items.filterMap fun item => (rules.examine item).2 := by
  induction items generalizing collected with
  | nil => simp
  | cons item items ih =>
      obtain ⟨_, accepted, fresh, _⟩ := foldl_step_errors.mp clean
      have named := (accepted item List.mem_cons_self).1
      have unknown := fresh item List.mem_cons_self
      rw [List.foldl_cons] at clean ⊢
      rw [ih clean, step, named]
      dsimp only
      rw [if_neg unknown, List.filterMap_cons]
      cases (rules.examine item).2 <;> simp

theorem run_of_accepts {assign : State → Write → State} {state : State} {items : List Item}
    (accepts : rules.AcceptsAll items) :
    rules.run assign state items =
      ([], (items.filterMap fun item => (rules.examine item).2).foldl assign state) := by
  have clean := collect_errors.mpr accepts
  have pending := foldl_step_pending clean
  rw [← collect, List.nil_append] at pending
  simp only [run, clean, pending]

theorem run_of_not {assign : State → Write → State} {state : State} {items : List Item}
    (refused : ¬rules.AcceptsAll items) :
    (rules.run assign state items).1 ≠ [] ∧ (rules.run assign state items).2 = state := by
  have errors : (rules.collect items).errors ≠ [] := fun clean => refused (collect_errors.mp clean)
  rw [run]
  split
  next clean => exact absurd clean errors
  · exact ⟨errors, rfl⟩

theorem run_errors {assign : State → Write → State} {state : State} {items : List Item} :
    (rules.run assign state items).1 = [] ↔ rules.AcceptsAll items := by
  constructor
  · intro clean
    by_contra refused
    exact (run_of_not refused).1 clean
  · intro accepts
    rw [run_of_accepts accepts]

end Rules

end

/-! ### Application -/

section
variable {Item State Place Value : Type*} (read : State → Place → Value)
  (names : Item → Place → Prop) (change : Item → Value → Value)

/-- Every item has changed the places it names, no place was changed by two, and nothing else has
changed. -/
structure Applied (before after : State) (items : List Item) : Prop where
  named : ∀ item ∈ items, ∃ place, names item place
  once : items.Pairwise fun first second => ∀ place, names first place → ¬names second place
  changed : ∀ item ∈ items, ∀ place, names item place →
    read after place = change item (read before place)
  kept : ∀ place, (∀ item ∈ items, ¬names item place) → read after place = read before place

/-- A batch leaves no trace, or is applied as a whole whatever the order of its items. -/
def Atomic {Error : Type*} (run : List Item → List Error × State) (before : State)
    (items : List Item) : Prop :=
  ((run items).1 ≠ [] ∧ (run items).2 = before) ∨
    ((run items).1 = [] ∧ Applied read names change before (run items).2 items ∧
      ∀ others, items.Perm others → run others = run items)

variable {read names change}

theorem Applied.perm {before after : State} {items others : List Item}
    (permuted : items.Perm others) (applied : Applied read names change before after items) :
    Applied read names change before after others where
  named item member := applied.named item (permuted.mem_iff.mpr member)
  once := by
    refine (permuted.pairwise_iff fun apart place second first => ?_).mp applied.once
    exact apart place first second
  changed item member := applied.changed item (permuted.mem_iff.mpr member)
  kept place unnamed := applied.kept place fun item member =>
    unnamed item (permuted.mem_iff.mp member)

theorem Applied.read_eq {before after other : State} {items : List Item}
    (first : Applied read names change before after items)
    (second : Applied read names change before other items) (place : Place) :
    read after place = read other place := by
  by_cases named : ∃ item ∈ items, names item place
  · obtain ⟨item, member, names⟩ := named
    rw [first.changed item member place names, second.changed item member place names]
  · have unnamed : ∀ item ∈ items, ¬names item place :=
      fun item member names => named ⟨item, member, names⟩
    rw [first.kept place unnamed, second.kept place unnamed]

variable {Key Error Write : Type*}

variable {target : Write → Place} {effect : Write → Value → Value} {assign : State → Write → State}

/-- An assignment changes its target only. -/
structure Assigns (read : State → Place → Value) (target : Write → Place)
    (effect : Write → Value → Value) (assign : State → Write → State) : Prop where
  self : ∀ state write,
    read (assign state write) (target write) = effect write (read state (target write))
  other : ∀ state write place, place ≠ target write →
    read (assign state write) place = read state place
  ext : ∀ first second, (∀ place, read first place = read second place) → first = second

/-- The write of an item makes its change at the one place that the item names. -/
def Makes (names : Item → Place → Prop) (change : Item → Value → Value) (target : Write → Place)
    (effect : Write → Value → Value) (item : Item) (write : Write) : Prop :=
  (∀ place, names item place ↔ place = target write) ∧ effect write = change item

section
variable {written : Item → Option Write} {items : List Item}

theorem foldl_kept (assigns : Assigns read target effect assign)
    (made : ∀ item ∈ items, ∃ write, written item = some write ∧
      Makes names change target effect item write)
    {place : Place} (unnamed : ∀ item ∈ items, ¬names item place) (state : State) :
    read ((items.filterMap written).foldl assign state) place = read state place := by
  induction items generalizing state with
  | nil => rfl
  | cons item items ih =>
      rw [List.forall_mem_cons] at made unnamed
      obtain ⟨write, isWritten, located, _⟩ := made.1
      rw [List.filterMap_cons_some isWritten, List.foldl_cons, ih made.2 unnamed.2]
      refine assigns.other state write place fun same => ?_
      exact unnamed.1 ((located place).mpr same)

theorem foldl_changed (assigns : Assigns read target effect assign)
    (made : ∀ item ∈ items, ∃ write, written item = some write ∧
      Makes names change target effect item write)
    (once : items.Pairwise fun first second => ∀ place, names first place → ¬names second place)
    {item : Item} (member : item ∈ items) {place : Place} (named : names item place)
    (state : State) :
    read ((items.filterMap written).foldl assign state) place = change item (read state place) := by
  induction items generalizing state with
  | nil => cases member
  | cons first items ih =>
      rw [List.forall_mem_cons] at made
      rw [List.pairwise_cons] at once
      obtain ⟨write, isWritten, located, changes⟩ := made.1
      rw [List.filterMap_cons_some isWritten, List.foldl_cons]
      rcases List.mem_cons.mp member with rfl | later
      · have unnamed : ∀ other ∈ items, ¬names other place :=
          fun other otherMember => once.1 other otherMember place named
        obtain rfl := (located place).mp named
        rw [foldl_kept assigns made.2 unnamed, assigns.self, changes]
      · rw [ih made.2 once.2 later, assigns.other]
        intro same
        exact once.1 item later place ((located place).mpr same) named

end

variable [DecidableEq Key] {rules : Rules Item Key Error Write}

/-- A validation whose accepted items each have one write, to the place they name, makes its
batches atomic. -/
theorem Rules.atomic (assigns : Assigns read target effect assign)
    (examined : ∀ item, rules.Accepts item → ∃ write, (rules.examine item).2 = some write ∧
      Makes names change target effect item write)
    (keyed : ∀ first second place, names first place → names second place →
      rules.key first = rules.key second)
    (before : State) (items : List Item) :
    Atomic read names change (rules.run assign before) before items := by
  have accepted {batch : List Item} (accepts : rules.AcceptsAll batch) :
      Applied read names change before (rules.run assign before batch).2 batch := by
    have made := fun item member => examined item (accepts.1 item member)
    have once : batch.Pairwise fun first second =>
        ∀ place, names first place → ¬names second place := by
      refine (List.pairwise_map.mp accepts.2).imp fun apart place first second => ?_
      exact apart (keyed _ _ place first second)
    rw [run_of_accepts accepts]
    constructor
    · intro item member
      obtain ⟨write, _, located, _⟩ := made item member
      exact ⟨target write, (located _).mpr rfl⟩
    · exact once
    · intro item member place named
      exact foldl_changed assigns made once member named before
    · intro place unnamed
      exact foldl_kept assigns made unnamed before
  by_cases accepts : rules.AcceptsAll items
  · refine .inr ⟨by rw [run_of_accepts accepts], accepted accepts, fun others permuted => ?_⟩
    have alike := accepts.perm rules permuted
    apply Prod.ext
    · rw [run_of_accepts accepts, run_of_accepts alike]
    · exact assigns.ext _ _ ((accepted alike).read_eq ((accepted accepts).perm permuted))
  · exact .inl (run_of_not accepts)

end

end Batches

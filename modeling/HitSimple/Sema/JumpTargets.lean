import HitSimple.Sema.Jumps
import Mathlib.Data.List.Nodup

namespace HitSimple.Jumps

def eventsOf (statements : List Stmt) : List Event := statements.flatMap Stmt.events

@[simp] theorem eventsOf_nil : eventsOf [] = [] := rfl

@[simp] theorem eventsOf_cons (statement : Stmt) (rest : List Stmt) :
    eventsOf (statement :: rest) = statement.events ++ eventsOf rest := rfl

@[simp] theorem eventsOf_append (left right : List Stmt) :
    eventsOf (left ++ right) = eventsOf left ++ eventsOf right := List.flatMap_append

theorem BlockStmt.eventsOf_statements (block : BlockStmt) :
    eventsOf block.statements = block.events := by
  cases block with
  | nil => rfl
  | cons statement rest =>
      rw [BlockStmt.statements, eventsOf_cons, rest.eventsOf_statements, BlockStmt.events]

section Statement

theorem Stmt.labels_subset (label : String) : (statement : Stmt) →
    label ∈ statement.labels → label ∈ labelsOf statement.events
  | .labelStmt other statement, member => by
    rw [Stmt.events, labelsOf_cons_label]
    cases member with
    | head => exact List.mem_cons_self
    | tail _ member => exact List.mem_cons_of_mem _ (statement.labels_subset label member)
  | .plain, member | .varDecl _, member | .gotoStmt _, member | .ifThen _, member
  | .ifElse _ _, member | .whileStmt _, member | .forStmt _ _, member
  | .tryCatch _ _, member => by cases member

theorem scan_pair {first second : List Event} (first_balanced : Balanced first)
    (second_balanced : Balanced second) (label : String) (skipped : Bool) :
    scan label (.searching 0 skipped) (bracketed first ++ bracketed second) =
      if label ∈ labelsOf first ++ labelsOf second then .found false
      else .searching 0 skipped := by
  rw [scan_append, first_balanced.scan_bracketed]
  by_cases earlier : label ∈ labelsOf first
  · simp [earlier]
  · simp [earlier, second_balanced.scan_bracketed]

/-- Reading a statement of the present block from left to right. -/
theorem Stmt.scan_events (label : String) (skipped : Bool) (statement : Stmt) :
    scan label (.searching 0 skipped) statement.events =
      if label ∈ statement.labels then .found !skipped
      else if label ∈ labelsOf statement.events then .found false
      else .searching 0 (skipped || statement.declares) := by
  cases statement with
  | plain =>
      simp [Stmt.events, Stmt.labels, Stmt.declares, scan]
  | varDecl declared =>
      cases declared with
      | true =>
          simp [Stmt.events, Stmt.labels, Stmt.declares, scan]
      | false =>
          simp [Stmt.events, Stmt.labels, Stmt.declares, scan, Scan.step]
  | gotoStmt other =>
      simp [Stmt.events, Stmt.labels, Stmt.declares, scan, Scan.step]
  | labelStmt other statement =>
      have step : scan label (.searching 0 skipped) (Stmt.labelStmt other statement).events =
          scan label (if other = label then .found !skipped else .searching 0 skipped)
            statement.events := by
        simp [Stmt.events, scan, Scan.step]
      rw [step]
      by_cases same : other = label
      · simp [same, Stmt.labels]
      · have apart : label ≠ other := fun equal => same equal.symm
        rw [if_neg same, statement.scan_events label skipped]
        simp [Stmt.labels, Stmt.events, Stmt.declares, apart]
  | ifThen thenBlock =>
      simp [Stmt.events, Stmt.labels, Stmt.declares, thenBlock.balanced.scan_bracketed]
  | ifElse thenBlock elseBlock =>
      simp [Stmt.events, Stmt.labels, Stmt.declares, scan_pair thenBlock.balanced elseBlock.balanced,
        -scan_append]
  | whileStmt body =>
      simp [Stmt.events, Stmt.labels, Stmt.declares, body.balanced.scan_bracketed]
  | forStmt init body =>
      simp [Stmt.events, Stmt.labels, Stmt.declares,
        (init.balanced.append body.balanced.bracketed).scan_bracketed]
  | tryCatch tryBlock catchBlock =>
      simp [Stmt.events, Stmt.labels, Stmt.declares, scan_pair tryBlock.balanced catchBlock.balanced,
        -scan_append]

/-- Reading a statement of the present block from right to left. -/
theorem Stmt.scan_mirror (label : String) : (statement : Stmt) →
    (labelsOf statement.events).Nodup →
    scan label (.searching 0 false) (mirror statement.events) =
      if label ∈ statement.labels then .found true
      else if label ∈ labelsOf statement.events then .found false
      else .searching 0 false
  | .plain, _ => rfl
  | .varDecl true, _ => rfl
  | .varDecl false, _ => rfl
  | .gotoStmt other, _ => by
    simp [Stmt.events, Stmt.labels, mirror, Event.mirror, scan, Scan.step]
  | .labelStmt other statement, distinct => by
    rw [Stmt.events, labelsOf_cons_label, List.nodup_cons] at distinct
    have last : mirror (Stmt.labelStmt other statement).events =
        mirror statement.events ++ [.label other] := by
      simp [Stmt.events, mirror, Event.mirror]
    rw [last, scan_append, statement.scan_mirror label distinct.2]
    by_cases same : other = label
    · subst same
      have shallow : other ∉ statement.labels := fun inside =>
        distinct.1 (statement.labels_subset other inside)
      simp [distinct.1, shallow, scan, Scan.step, Stmt.labels]
    · have apart : label ≠ other := fun equal => same equal.symm
      simp only [Stmt.labels, Stmt.events, labelsOf_cons_label, List.mem_cons, apart, false_or]
      split_ifs <;> simp [scan, Scan.step, same]
  | .ifThen thenBlock, _ => by
    simp [Stmt.events, Stmt.labels, thenBlock.balanced.mirror.scan_bracketed, labelsOf_mirror]
  | .ifElse thenBlock elseBlock, _ => by
    simp [Stmt.events, Stmt.labels,
      scan_pair elseBlock.balanced.mirror thenBlock.balanced.mirror, labelsOf_mirror, or_comm,
      -scan_append]
  | .whileStmt body, _ => by
    simp [Stmt.events, Stmt.labels, body.balanced.mirror.scan_bracketed, labelsOf_mirror]
  | .forStmt init body, _ => by
    have inner := (init.balanced.append body.balanced.bracketed).mirror
    simp only [Stmt.events, Stmt.labels, mirror_bracketed, inner.scan_bracketed, labelsOf_mirror,
      labelsOf_bracketed, List.not_mem_nil, if_false]
  | .tryCatch tryBlock catchBlock, _ => by
    simp [Stmt.events, Stmt.labels,
      scan_pair catchBlock.balanced.mirror tryBlock.balanced.mirror, labelsOf_mirror, or_comm,
      -scan_append]

end Statement

section Block

/-- The label is in front of a statement that no declaration of the block precedes. -/
def Reaches (statements : List Stmt) (label : String) : Prop :=
  ∃ skipped target rest, statements = skipped ++ target :: rest ∧ label ∈ target.labels ∧
    ∀ statement ∈ skipped, statement.declares = false

theorem reaches_cons (statement : Stmt) (statements : List Stmt) (label : String) :
    Reaches (statement :: statements) label ↔
      label ∈ statement.labels ∨ statement.declares = false ∧ Reaches statements label := by
  constructor
  · rintro ⟨skipped, target, rest, same, inside, free⟩
    cases skipped with
    | nil =>
      obtain ⟨rfl, rfl⟩ := List.cons.inj same
      exact .inl inside
    | cons first skipped =>
      obtain ⟨rfl, rfl⟩ := List.cons.inj same
      rw [List.forall_mem_cons] at free
      exact .inr ⟨free.1, skipped, target, rest, rfl, inside, free.2⟩
  · rintro (inside | ⟨free, skipped, target, rest, rfl, inside, others⟩)
    · exact ⟨[], statement, statements, rfl, inside, by simp⟩
    · refine ⟨statement :: skipped, target, rest, rfl, inside, ?_⟩
      rw [List.forall_mem_cons]
      exact ⟨free, others⟩

theorem mem_of_reaches {statements : List Stmt} {label : String}
    (reaches : Reaches statements label) : label ∈ labelsOf (eventsOf statements) := by
  obtain ⟨skipped, target, rest, rfl, inside, -⟩ := reaches
  simp [target.labels_subset label inside]

/-- A search through the statements after the jump. -/
theorem scan_eventsOf (label : String) (skipped : Bool) (statements : List Stmt)
    (distinct : (labelsOf (eventsOf statements)).Nodup) :
    (label ∉ labelsOf (eventsOf statements) ∧
        ∃ skipped', scan label (.searching 0 skipped) (eventsOf statements) =
          .searching 0 skipped') ∨
      label ∈ labelsOf (eventsOf statements) ∧
        ∃ valid, scan label (.searching 0 skipped) (eventsOf statements) = .found valid ∧
          (valid = true ↔ skipped = false ∧ Reaches statements label) := by
  induction statements generalizing skipped with
  | nil => exact .inl ⟨by simp, skipped, rfl⟩
  | cons statement statements ih =>
    rw [eventsOf_cons, labelsOf_append] at distinct
    rw [eventsOf_cons, scan_append, statement.scan_events, labelsOf_append, reaches_cons]
    obtain ⟨-, later, apart⟩ := List.nodup_append.mp distinct
    by_cases leading : label ∈ statement.labels
    · right
      refine ⟨List.mem_append_left _ (statement.labels_subset label leading), !skipped, ?_, ?_⟩
      · rw [if_pos leading, scan_found]
      · simp [leading]
    · by_cases deep : label ∈ labelsOf statement.events
      · right
        refine ⟨List.mem_append_left _ deep, false, ?_, ?_⟩
        · rw [if_neg leading, if_pos deep, scan_found]
        · simp only [Bool.false_eq_true, leading, false_or, false_iff]
          rintro ⟨-, -, reaches⟩
          exact apart label deep label (mem_of_reaches reaches) rfl
      · rw [if_neg leading, if_neg deep]
        rcases ih (skipped || statement.declares) later with
          ⟨absent, next, scanned⟩ | ⟨present, valid, scanned, reaches⟩
        · left
          exact ⟨fun either => (List.mem_append.mp either).elim deep absent, next, scanned⟩
        · right
          refine ⟨List.mem_append_right _ present, valid, scanned, ?_⟩
          rw [reaches, Bool.or_eq_false_iff]
          simp [leading, and_assoc]

theorem eventsOf_snoc_mirror (statements : List Stmt) (statement : Stmt) :
    mirror (eventsOf (statements ++ [statement])) =
      mirror statement.events ++ mirror (eventsOf statements) := by
  simp

/-- A search through the statements before the jump. -/
theorem scan_eventsOf_mirror (label : String) (statements : List Stmt)
    (distinct : (labelsOf (eventsOf statements)).Nodup) :
    (label ∉ labelsOf (eventsOf statements) ∧
        scan label (.searching 0 false) (mirror (eventsOf statements)) = .searching 0 false) ∨
      label ∈ labelsOf (eventsOf statements) ∧
        ∃ valid, scan label (.searching 0 false) (mirror (eventsOf statements)) = .found valid ∧
          (valid = true ↔ ∃ statement ∈ statements, label ∈ statement.labels) := by
  induction statements using List.reverseRecOn with
  | nil => exact .inl ⟨by simp, rfl⟩
  | append_singleton statements statement ih =>
    rw [eventsOf_append, eventsOf_cons, eventsOf_nil, List.append_nil, labelsOf_append] at distinct
    rw [eventsOf_snoc_mirror, scan_append]
    obtain ⟨earlier, last, apart⟩ := List.nodup_append.mp distinct
    rw [statement.scan_mirror label last]
    simp only [eventsOf_append, eventsOf_cons, eventsOf_nil, List.append_nil, labelsOf_append,
      List.mem_append, List.mem_singleton]
    by_cases leading : label ∈ statement.labels
    · right
      refine ⟨.inr (statement.labels_subset label leading), true, ?_, ?_⟩
      · rw [if_pos leading, scan_found]
      · exact iff_of_true rfl ⟨statement, .inr rfl, leading⟩
    · by_cases deep : label ∈ labelsOf statement.events
      · right
        refine ⟨.inr deep, false, ?_, ?_⟩
        · rw [if_neg leading, if_pos deep, scan_found]
        · refine iff_of_false Bool.false_ne_true ?_
          rintro ⟨other, member | rfl, inside⟩
          · obtain ⟨before, after, rfl⟩ := List.append_of_mem member
            refine apart label ?_ label deep rfl
            simp [other.labels_subset label inside]
          · exact leading inside
      · rw [if_neg leading, if_neg deep]
        rcases ih earlier with ⟨absent, scanned⟩ | ⟨present, valid, scanned, direct⟩
        · exact .inl ⟨fun either => either.elim absent deep, scanned⟩
        · right
          refine ⟨.inl present, valid, scanned, direct.trans ?_⟩
          constructor
          · rintro ⟨other, member, inside⟩
            exact ⟨other, .inl member, inside⟩
          · rintro ⟨other, member | rfl, inside⟩
            · exact ⟨other, member, inside⟩
            · exact absurd inside leading

end Block

section Frames

/-- The other block of a statement with two, where there is one. -/
def IsSibling (events : List Event) : Prop :=
  events = [] ∨ ∃ inner, Balanced inner ∧ events = bracketed inner

theorem IsSibling.scan {events : List Event} (sibling : IsSibling events) (label : String) :
    scan label (.searching 0 false) events =
      if label ∈ labelsOf events then .found false else .searching 0 false := by
  rcases sibling with rfl | ⟨inner, balanced, rfl⟩
  · rfl
  · simp [balanced.scan_bracketed]

theorem IsSibling.mirror {events : List Event} (sibling : IsSibling events) :
    IsSibling (mirror events) := by
  rcases sibling with rfl | ⟨inner, balanced, rfl⟩
  · exact .inl rfl
  · exact .inr ⟨Jumps.mirror inner, balanced.mirror, mirror_bracketed inner⟩

/-- What precedes a statement in its block, after the labels that stand in front of it. -/
def innerLeft (left earlier : List Event) (before : List Stmt) (leading : List String) :
    List Event :=
  left ++ earlier ++ .opened :: eventsOf before ++ leading.map .label

def innerRight (after : List Stmt) (later right : List Event) : List Event :=
  eventsOf after ++ .closed :: later ++ right

/-- What the source shows on both sides of the innermost statement. -/
inductive Context : List Frame → List Event → List Event → Prop where
  | nil : Context [] [] []
  | cons {frame : Frame} {frames : List Frame} {left right earlier later : List Event} :
      Context frames left right → IsSibling earlier → IsSibling later →
      Context (frame :: frames) (innerLeft left earlier frame.before frame.current.labels)
        (innerRight frame.after later right)

def Frame.AdmitsBefore (frame : Frame) (label : String) : Prop :=
  ∃ statement ∈ frame.before ++ [frame.current], label ∈ statement.labels

theorem labelsOf_map_label (labels : List String) : labelsOf (labels.map .label) = labels := by
  induction labels with
  | nil => rfl
  | cons label labels ih => rw [List.map_cons, labelsOf_cons_label, ih]

theorem labelsOf_innerLeft (left earlier : List Event) (before : List Stmt)
    (leading : List String) :
    labelsOf (innerLeft left earlier before leading) =
      labelsOf left ++ labelsOf earlier ++ labelsOf (eventsOf before) ++ leading := by
  simp [innerLeft, labelsOf_map_label]

theorem labelsOf_innerRight (after : List Stmt) (later right : List Event) :
    labelsOf (innerRight after later right) =
      labelsOf (eventsOf after) ++ labelsOf later ++ labelsOf right := by
  simp [innerRight]

theorem Context.reaches_mem {frames : List Frame} {left right : List Event}
    (context : Context frames left right) {frame : Frame} (member : frame ∈ frames)
    {label : String} (reaches : Reaches frame.after label) : label ∈ labelsOf right := by
  induction context with
  | nil => cases member
  | cons _ _ _ ih =>
    rw [labelsOf_innerRight]
    cases member with
    | head => simp [mem_of_reaches reaches]
    | tail _ member => exact List.mem_append_right _ (ih member)

theorem Context.admitsBefore_mem {frames : List Frame} {left right : List Event}
    (context : Context frames left right) {frame : Frame} (member : frame ∈ frames)
    {label : String} (admits : frame.AdmitsBefore label) : label ∈ labelsOf left := by
  induction context with
  | nil => cases member
  | cons _ _ _ ih =>
    rw [labelsOf_innerLeft]
    cases member with
    | head =>
      obtain ⟨statement, inside, leading⟩ := admits
      rcases List.mem_append.mp inside with earlier | current
      · obtain ⟨before, after, split⟩ := List.append_of_mem earlier
        simp [split, statement.labels_subset label leading]
      · rw [List.mem_singleton.mp current] at leading
        exact List.mem_append_right _ leading
    | tail _ member => simp [ih member]

theorem Context.scan_right {frames : List Frame} {left right : List Event}
    (context : Context frames left right) (distinct : (labelsOf right).Nodup) (label : String) :
    scan label (.searching 0 false) right = .found true ↔
      ∃ frame ∈ frames, Reaches frame.after label := by
  induction context with
  | nil => simp [scan]
  | @cons frame frames left right earlier later context _ sibling ih =>
    rw [labelsOf_innerRight] at distinct
    obtain ⟨inner, outer, apart⟩ := List.nodup_append.mp distinct
    obtain ⟨statements, -, apart'⟩ := List.nodup_append.mp inner
    have read (next : Bool) (scanned : scan label (.searching 0 false) (eventsOf frame.after) =
        .searching 0 next) : scan label (.searching 0 false) (innerRight frame.after later right) =
          scan label (if label ∈ labelsOf later then .found false else .searching 0 false)
            right := by
      rw [innerRight, List.append_assoc, scan_append, scanned, List.cons_append, ← sibling.scan,
        ← scan_append]
      rfl
    rw [List.exists_mem_cons_iff]
    rcases scan_eventsOf label false frame.after statements with
      ⟨absent, next, scanned⟩ | ⟨present, valid, scanned, reaches⟩
    · rw [read next scanned]
      have not_here : ¬Reaches frame.after label := fun here => absent (mem_of_reaches here)
      by_cases beside : label ∈ labelsOf later
      · rw [if_pos beside, scan_found]
        refine iff_of_false (by simp) (not_or.mpr ⟨not_here, ?_⟩)
        rintro ⟨frame, member, reaches⟩
        exact apart label (List.mem_append_right _ beside) label
          (context.reaches_mem member reaches) rfl
      · rw [if_neg beside, ih outer, or_iff_right not_here]
    · rw [innerRight, List.append_assoc, scan_append, scanned, scan_found, Scan.found.injEq,
        reaches]
      simp only [true_and]
      constructor
      · exact .inl
      · rintro (here | ⟨frame, member, reaches⟩)
        · exact here
        · exact absurd rfl (apart label (List.mem_append_left _ present) label
            (context.reaches_mem member reaches))

theorem mirror_innerLeft (left earlier : List Event) (before : List Stmt)
    (leading : List String) :
    mirror (innerLeft left earlier before leading) =
      leading.reverse.map .label ++ (mirror (eventsOf before) ++
        (.closed :: (mirror earlier ++ mirror left))) := by
  have labels : mirror (leading.map .label) = leading.reverse.map .label := by
    rw [mirror, ← List.map_reverse, List.filterMap_map]
    exact congrFun List.filterMap_eq_map' _
  have first : mirror (.opened :: eventsOf before) = mirror (eventsOf before) ++ [.closed] := by
    simp [mirror, Event.mirror]
  rw [innerLeft, mirror_append, mirror_append, mirror_append, labels, first]
  simp

theorem scan_labels (label : String) (labels : List String) :
    scan label (.searching 0 false) (labels.map .label) =
      if label ∈ labels then .found true else .searching 0 false := by
  induction labels with
  | nil => rfl
  | cons other labels ih =>
    have step : scan label (.searching 0 false) ((other :: labels).map .label) =
        scan label (if other = label then .found true else .searching 0 false)
          (labels.map .label) := rfl
    rw [step]
    by_cases same : other = label
    · simp [same]
    · have apart : label ≠ other := fun equal => same equal.symm
      rw [if_neg same, ih]
      simp [apart]

theorem Context.scan_left {frames : List Frame} {left right : List Event}
    (context : Context frames left right) (distinct : (labelsOf left).Nodup) (label : String) :
    scan label (.searching 0 false) (mirror left) = .found true ↔
      ∃ frame ∈ frames, frame.AdmitsBefore label := by
  induction context with
  | nil => simp [scan, mirror]
  | @cons frame frames left right earlier later context sibling _ ih =>
    rw [labelsOf_innerLeft] at distinct
    obtain ⟨inner, -, apart⟩ := List.nodup_append.mp distinct
    obtain ⟨around, statements, apart'⟩ := List.nodup_append.mp inner
    obtain ⟨outer, -, apart''⟩ := List.nodup_append.mp around
    rw [List.exists_mem_cons_iff, mirror_innerLeft, scan_append, scan_labels]
    simp only [List.mem_reverse]
    by_cases leading : label ∈ frame.current.labels
    · rw [if_pos leading, scan_found]
      exact iff_of_true rfl (.inl ⟨frame.current, by simp, leading⟩)
    · rw [if_neg leading]
      have here : frame.AdmitsBefore label ↔
          ∃ statement ∈ frame.before, label ∈ statement.labels := by
        simp [Frame.AdmitsBefore, or_and_right, exists_or, leading]
      rcases scan_eventsOf_mirror label frame.before statements with
        ⟨absent, scanned⟩ | ⟨present, valid, scanned, direct⟩
      · have not_here : ¬frame.AdmitsBefore label := by
          rw [here]
          rintro ⟨statement, member, inside⟩
          obtain ⟨before, after, split⟩ := List.append_of_mem member
          apply absent
          simp [split, statement.labels_subset label inside]
        have closed : scan label (.searching 0 false)
            (.closed :: (mirror earlier ++ mirror left)) =
              scan label (if label ∈ labelsOf earlier then .found false else .searching 0 false)
                (mirror left) := by
          have passed := sibling.mirror.scan label
          simp only [labelsOf_mirror] at passed
          rw [← passed, ← scan_append]
          rfl
        rw [scan_append, scanned, closed]
        by_cases beside : label ∈ labelsOf earlier
        · rw [if_pos beside, scan_found]
          refine iff_of_false (by simp) (not_or.mpr ⟨not_here, ?_⟩)
          rintro ⟨frame, member, admits⟩
          exact apart'' label (context.admitsBefore_mem member admits) label beside rfl
        · rw [if_neg beside, ih outer, or_iff_right not_here]
      · rw [scan_append, scanned, scan_found, Scan.found.injEq, direct, ← here]
        constructor
        · exact .inl
        · rintro (admits | ⟨frame, member, admits⟩)
          · exact admits
          · exact absurd rfl (apart' label
              (List.mem_append_left _ (context.admitsBefore_mem member admits)) label present)

/-- A label is found exactly where one of the frames admits it. -/
theorem Context.finds_iff {frames : List Frame} {left right : List Event}
    (context : Context frames left right) (distinct : (labelsOf (left ++ right)).Nodup)
    (label : String) :
    Finds label left right ↔ ∃ frame ∈ frames, frame.Admits label := by
  rw [labelsOf_append, List.nodup_append] at distinct
  rw [Finds, context.scan_right distinct.2.1, context.scan_left distinct.1]
  simp only [Frame.Admits, Frame.AdmitsBefore, Reaches, and_or_left, exists_or]
  exact or_comm

end Frames

section Jumps

theorem findsTargets_append (left first second right : List Event) :
    FindsTargets left (first ++ second) right ↔
      FindsTargets left first (second ++ right) ∧ FindsTargets (left ++ first) second right := by
  constructor
  · intro finds
    constructor
    · rintro before label after rfl
      simpa using finds before label (after ++ second) (by simp)
    · rintro before label after rfl
      simpa using finds (first ++ before) label after (by simp)
  · rintro ⟨finds_first, finds_second⟩ before label after same
    rcases List.append_eq_append_iff.mp same with ⟨middle, rfl, rest⟩ | ⟨middle, rfl, rest⟩
    · simpa using finds_second middle label after rest
    · cases middle with
      | nil =>
        rw [List.nil_append] at rest
        simpa using finds_second [] label after rest.symm
      | cons event middle =>
        obtain ⟨rfl, rfl⟩ := List.cons.inj rest
        simpa using finds_first before label middle rfl

theorem findsTargets_nil (left right : List Event) : FindsTargets left [] right := by
  intro before label after same
  cases before <;> cases same

theorem findsTargets_single {event : Event} (harmless : ∀ label, event ≠ .goto label)
    (left right : List Event) : FindsTargets left [event] right := by
  intro before label after same
  cases before with
  | nil => exact absurd (List.cons.inj same).1 (harmless label)
  | cons other before => cases before <;> cases (List.cons.inj same).2

theorem findsTargets_goto (label : String) (left right : List Event) :
    FindsTargets left [.goto label] right ↔ Finds label left right := by
  constructor
  · intro finds
    simpa using finds [] label [] rfl
  · intro finds before other after same
    cases before with
    | nil =>
      obtain ⟨first, rfl⟩ := List.cons.inj same
      obtain rfl := Event.goto.inj first
      simpa using finds
    | cons event before => cases before <;> cases (List.cons.inj same).2

theorem findsTargets_bracketed (left events right : List Event) :
    FindsTargets left (bracketed events) right ↔
      FindsTargets (left ++ [.opened]) events (.closed :: right) := by
  rw [bracketed, ← List.singleton_append, List.append_assoc, findsTargets_append,
    findsTargets_append]
  simp [findsTargets_single]

/-- The two readings agree on the jumps of a statement between its surroundings. -/
def Stmt.Agree (statement : Stmt) : Prop :=
  ∀ (frame : Frame) (leading : List String) {frames : List Frame}
    {left right earlier later : List Event}, Context frames left right → IsSibling earlier →
    IsSibling later → frame.current.labels = leading ++ statement.labels →
    (labelsOf (innerLeft left earlier frame.before leading ++ statement.events ++
      innerRight frame.after later right)).Nodup →
    (statement.HasValidTargets (frame :: frames) ↔
      FindsTargets (innerLeft left earlier frame.before leading) statement.events
        (innerRight frame.after later right))

def BlockStmt.Agree (block : BlockStmt) : Prop :=
  ∀ (before : List Stmt) {frames : List Frame} {left right earlier later : List Event},
    Context frames left right → IsSibling earlier → IsSibling later →
    (labelsOf (innerLeft left earlier before [] ++ block.events ++
      innerRight [] later right)).Nodup →
    (block.HasValidTargets before frames ↔
      FindsTargets (innerLeft left earlier before []) block.events (innerRight [] later right))

theorem agree_goto (label : String) : (Stmt.gotoStmt label).Agree := by
  intro frame leading frames left right earlier later context before after labels distinct
  have unlabelled : (Stmt.gotoStmt label).labels = [] := rfl
  rw [unlabelled, List.append_nil] at labels
  subst labels
  rw [Stmt.events, findsTargets_goto, Stmt.HasValidTargets]
  symm
  apply (Context.cons context before after).finds_iff
  simpa [Stmt.events] using distinct

theorem agree_label (label : String) {statement : Stmt} (agree : statement.Agree) :
    (Stmt.labelStmt label statement).Agree := by
  intro frame leading frames left right earlier later context before after labels distinct
  have step : innerLeft left earlier frame.before (leading ++ [label]) =
      innerLeft left earlier frame.before leading ++ [.label label] := by
    simp [innerLeft]
  have events : (Stmt.labelStmt label statement).events = [.label label] ++ statement.events := rfl
  have inner := agree frame (leading ++ [label]) context before after
    (by simpa [Stmt.labels] using labels) (by simpa [step, events] using distinct)
  rw [Stmt.HasValidTargets, inner, events, findsTargets_append, step]
  simp [findsTargets_single]

/-- A statement without labels in front of it, in its own context. -/
theorem agree_of_unlabelled {statement : Stmt} (unlabelled : statement.labels = [])
    (agree : ∀ {frames : List Frame} {left right : List Event}, Context frames left right →
      (labelsOf (left ++ statement.events ++ right)).Nodup →
      (statement.HasValidTargets frames ↔ FindsTargets left statement.events right)) :
    statement.Agree := by
  intro frame leading frames left right earlier later context before after labels distinct
  rw [unlabelled, List.append_nil] at labels
  subst labels
  exact agree (Context.cons context before after) distinct

theorem BlockStmt.Agree.inside {block : BlockStmt} (agree : block.Agree) {frames : List Frame}
    {left right earlier later : List Event} (context : Context frames left right)
    (before : IsSibling earlier) (after : IsSibling later)
    (distinct : (labelsOf (left ++ earlier ++ block.events ++ later ++ right)).Nodup) :
    block.HasValidTargets [] frames ↔
      FindsTargets (left ++ earlier) (bracketed block.events) (later ++ right) := by
  have inner := agree [] context before after
    (by simpa [innerLeft, innerRight] using distinct)
  rw [findsTargets_bracketed, inner]
  simp [innerLeft, innerRight]

theorem isSibling_bracketed (block : BlockStmt) : IsSibling (bracketed block.events) :=
  .inr ⟨block.events, block.balanced, rfl⟩

/-- A statement with one block. -/
theorem agree_block {statement : Stmt} {block : BlockStmt} (unlabelled : statement.labels = [])
    (events : statement.events = bracketed block.events)
    (targets : ∀ frames, statement.HasValidTargets frames ↔ block.HasValidTargets [] frames)
    (agree : block.Agree) : statement.Agree := by
  apply agree_of_unlabelled unlabelled
  intro frames left right context distinct
  rw [events, labelsOf_append, labelsOf_append, labelsOf_bracketed] at distinct
  rw [targets, events, agree.inside context (.inl rfl) (.inl rfl) (by simpa using distinct)]
  simp

/-- A statement with two blocks. -/
theorem agree_blocks {statement : Stmt} {first second : BlockStmt}
    (unlabelled : statement.labels = [])
    (events : statement.events = bracketed first.events ++ bracketed second.events)
    (targets : ∀ frames, statement.HasValidTargets frames ↔
      first.HasValidTargets [] frames ∧ second.HasValidTargets [] frames)
    (agree_first : first.Agree) (agree_second : second.Agree) : statement.Agree := by
  apply agree_of_unlabelled unlabelled
  intro frames left right context distinct
  rw [events] at distinct
  rw [targets, events, findsTargets_append,
    agree_first.inside context (.inl rfl) (isSibling_bracketed second) (by simpa using distinct),
    agree_second.inside context (isSibling_bracketed first) (.inl rfl) (by simpa using distinct)]
  simp

theorem agree_for {init : Stmt} {body : BlockStmt} (agree_init : init.Agree)
    (agree_body : body.Agree) : (Stmt.forStmt init body).Agree := by
  apply agree_of_unlabelled rfl
  intro frames left right context distinct
  have events : (Stmt.forStmt init body).events =
      bracketed (init.events ++ bracketed body.events) := rfl
  rw [events] at distinct
  have header : init.HasValidTargets (⟨[], init, [.whileStmt body]⟩ :: frames) ↔
      FindsTargets (left ++ [.opened]) init.events
        (bracketed body.events ++ .closed :: right) := by
    rw [agree_init ⟨[], init, [.whileStmt body]⟩ [] context (.inl rfl) (.inl rfl) rfl
      (by simpa [innerLeft, innerRight, Stmt.events] using distinct)]
    simp [innerLeft, innerRight, Stmt.events]
  have inner : Context (⟨[init], .whileStmt body, []⟩ :: frames)
      (innerLeft left [] [init] []) (innerRight [] [] right) :=
    Context.cons context (.inl rfl) (.inl rfl)
  have loop : body.HasValidTargets [] (⟨[init], .whileStmt body, []⟩ :: frames) ↔
      FindsTargets (left ++ [.opened] ++ init.events) (bracketed body.events)
        (.closed :: right) := by
    rw [agree_body.inside inner (.inl rfl) (.inl rfl)
      (by simpa [innerLeft, innerRight] using distinct)]
    simp [innerLeft, innerRight]
  rw [Stmt.HasValidTargets, header, loop, events,
    findsTargets_bracketed left (init.events ++ bracketed body.events), findsTargets_append]

mutual

theorem Stmt.agree : (statement : Stmt) → statement.Agree
  | .plain => by
    apply agree_of_unlabelled rfl
    intro frames left right _ _
    exact iff_of_true trivial (findsTargets_nil left right)
  | .varDecl true => by
    apply agree_of_unlabelled rfl
    intro frames left right _ _
    exact iff_of_true trivial (findsTargets_nil left right)
  | .varDecl false => by
    apply agree_of_unlabelled rfl
    intro frames left right _ _
    exact iff_of_true trivial (findsTargets_single (by simp) left right)
  | .gotoStmt label => agree_goto label
  | .labelStmt label statement => agree_label label statement.agree
  | .ifThen thenBlock => agree_block rfl rfl (fun _ => Iff.rfl) thenBlock.agree
  | .ifElse thenBlock elseBlock =>
      agree_blocks rfl rfl (fun _ => Iff.rfl) thenBlock.agree elseBlock.agree
  | .whileStmt body => agree_block rfl rfl (fun _ => Iff.rfl) body.agree
  | .forStmt init body => agree_for init.agree body.agree
  | .tryCatch tryBlock catchBlock =>
      agree_blocks rfl rfl (fun _ => Iff.rfl) tryBlock.agree catchBlock.agree

theorem BlockStmt.agree : (block : BlockStmt) → block.Agree
  | .nil => by
    intro before frames left right earlier later _ _ _ _
    exact iff_of_true trivial (findsTargets_nil _ _)
  | .cons statement rest => by
    intro before frames left right earlier later context siblings siblings' distinct
    have first := statement.agree ⟨before, statement, rest.statements⟩ [] context siblings
      siblings' rfl (by
        simpa [innerLeft, innerRight, BlockStmt.events, rest.eventsOf_statements] using distinct)
    have others := rest.agree (before ++ [statement]) context siblings siblings' (by
      simpa [innerLeft, innerRight, BlockStmt.events] using distinct)
    rw [BlockStmt.HasValidTargets, first, others, BlockStmt.events, findsTargets_append]
    simp [innerLeft, innerRight, rest.eventsOf_statements]

end

end Jumps

section Analysis

/-- What analysing these events without a diagnostic does to the table of labels. -/
structure Collects (tables : Tables) (events : List Event) (result : Tables) : Prop where
  clean : tables.diagnostics = []
  labels : result.labels.map Prod.fst = tables.labels.map Prod.fst ++ labelsOf events
  distinct : (tables.labels.map Prod.fst).Nodup → (result.labels.map Prod.fst).Nodup

theorem Collects.nil {tables result : Tables} (clean : tables.diagnostics = [])
    (labels : result.labels = tables.labels) : Collects tables [] result :=
  ⟨clean, by simp [labels], fun distinct => labels ▸ distinct⟩

theorem Collects.append {tables middle result : Tables} {first second : List Event}
    (collects_first : Collects tables first middle)
    (collects_second : Collects middle second result) :
    Collects tables (first ++ second) result :=
  ⟨collects_first.clean, by simp [collects_second.labels, collects_first.labels],
    fun distinct => collects_second.distinct (collects_first.distinct distinct)⟩

theorem Collects.bracketed {tables result : Tables} {events : List Event}
    (collects : Collects tables.open events result) :
    Collects tables (bracketed events) result.close :=
  ⟨collects.clean, by rw [labelsOf_bracketed]; exact collects.labels, collects.distinct⟩

mutual

theorem Stmt.collects : (statement : Stmt) → (tables : Tables) →
    (statement.analyze tables).diagnostics = [] →
    Collects tables statement.events (statement.analyze tables)
  | .plain, tables, clean | .varDecl true, tables, clean => .nil clean rfl
  | .varDecl false, tables, clean => ⟨clean, (List.append_nil _).symm, id⟩
  | .gotoStmt label, tables, clean => ⟨clean, (List.append_nil _).symm, id⟩
  | .labelStmt label statement, tables, clean => by
    rw [Stmt.analyze] at clean ⊢
    split at clean
    · simp at clean
    · rename_i new
      rw [if_neg new]
      have inner := statement.collects _ clean
      refine ⟨inner.clean, by simp [inner.labels, Stmt.events], fun distinct => ?_⟩
      apply inner.distinct
      rw [List.map_append, List.nodup_append]
      refine ⟨distinct, by simp, ?_⟩
      rintro other member _ last rfl
      have same : other = label := List.mem_singleton.mp last
      exact new (same ▸ member)
  | .ifThen thenBlock, tables, clean => (thenBlock.collects tables.open clean).bracketed
  | .ifElse thenBlock elseBlock, tables, clean => by
    have second := elseBlock.collects _ clean
    exact (thenBlock.collects tables.open second.clean).bracketed.append second.bracketed
  | .whileStmt body, tables, clean => (body.collects tables.open clean).bracketed
  | .forStmt init body, tables, clean => by
    have loop := body.collects _ clean
    exact ((init.collects tables.open loop.clean).append loop.bracketed).bracketed
  | .tryCatch tryBlock catchBlock, tables, clean => by
    have second := catchBlock.collects _ clean
    exact (tryBlock.collects tables.open second.clean).bracketed.append second.bracketed

theorem BlockStmt.collects : (block : BlockStmt) → (tables : Tables) →
    (block.analyze tables).diagnostics = [] → Collects tables block.events (block.analyze tables)
  | .nil, tables, clean => .nil clean rfl
  | .cons statement rest, tables, clean => by
    have others := rest.collects _ clean
    exact (statement.collects tables others.clean).append others

end

/-- In an accepted body no label is defined twice. -/
theorem labels_distinct {body : BlockStmt} (accepted : analyzeFunctionBody body = []) :
    (labelsOf body.events).Nodup := by
  rw [analyzeFunctionBody, List.append_eq_nil_iff] at accepted
  have collects := body.collects emptyTables.open accepted.1
  have distinct := collects.distinct (by simp [emptyTables, Tables.open])
  rw [collects.labels] at distinct
  simpa [emptyTables, Tables.open] using distinct

/-- Each goto of the body finds its label in the source: no block that was opened on the way is
still open, no block of an earlier label has been closed, and no local was skipped. -/
def BlockStmt.FindsTargets (body : BlockStmt) : Prop :=
  Jumps.FindsTargets [.opened] body.events [.closed]

/-- A loop whose body jumps to the label in front of it. -/
def retryLoop : BlockStmt :=
  .cons (.labelStmt "retry" (.whileStmt (.cons (.gotoStmt "retry") .nil))) .nil

/-- A loop body that jumps into the body of an earlier loop. -/
def siblingJump : BlockStmt :=
  .cons (.whileStmt (.cons (.labelStmt "inside" .plain) .nil))
    (.cons (.whileStmt (.cons (.gotoStmt "inside") .nil)) .nil)

end Analysis

end HitSimple.Jumps

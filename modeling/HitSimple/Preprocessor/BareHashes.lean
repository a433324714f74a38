import HitSimple.Preprocessor.Directives
import HitSimple.Preprocessor.Utf8Exact

namespace HitSimple.Preprocessor

/-! ### How a line reads -/

/-- Where a byte of a line stands. -/
inductive Place
  | code
  | comment
  | literal (quote : UInt8)
  deriving DecidableEq

/-- Whether a line has a `#` in its code, and whether it ends inside a block comment. -/
structure Reading where
  hash : Bool
  comment : Bool
  deriving DecidableEq

def IsQuote (byte : UInt8) : Prop :=
  byte = ascii '"' ∨ byte = ascii '\''

instance : DecidablePred IsQuote := fun _ => inferInstanceAs (Decidable (_ ∨ _))

/-- A literal that its line does not close ends with the line. -/
def read : Place → Line → Reading
  | place, [] => ⟨false, place = .comment⟩
  | .comment, [_] => ⟨false, true⟩
  | .literal _, [_] => ⟨false, false⟩
  | .code, [byte] => ⟨byte = ascii '#', false⟩
  | .comment, byte :: next :: rest =>
      if byte = ascii '*' ∧ next = ascii '/' then read .code rest else read .comment (next :: rest)
  | .literal quote, byte :: next :: rest =>
      if byte = ascii '\\' then read (.literal quote) rest
      else if byte = quote then read .code (next :: rest)
      else read (.literal quote) (next :: rest)
  | .code, byte :: next :: rest =>
      if byte = ascii '/' ∧ next = ascii '/' then ⟨false, false⟩
      else if byte = ascii '/' ∧ next = ascii '*' then read .comment rest
      else if IsQuote byte then read (.literal byte) (next :: rest)
      else if byte = ascii '#' then ⟨true, (read .code (next :: rest)).comment⟩
      else read .code (next :: rest)

def start (inside : Bool) : Place :=
  if inside then .comment else .code

/-! ### One turn of the loop -/

/-- The flag and the quote are never both set. -/
structure HashScan.Proper (scan : HashScan) : Prop where
  clear : scan.inBlockComment = true → scan.quote = none
  quoted : ∀ quote, scan.quote = some quote → IsQuote quote

theorem HashScan.proper_of_clear (inside : Bool) : HashScan.Proper ⟨inside, none⟩ where
  clear _ := rfl
  quoted _ absent := by cases absent

theorem HashScan.proper_of_quote {quote : UInt8} (isQuote : IsQuote quote) :
    HashScan.Proper ⟨false, some quote⟩ where
  clear raised := by cases raised
  quoted _ same := Option.some_inj.mp same ▸ isQuote

def HashScan.place (scan : HashScan) : Place :=
  if scan.inBlockComment then .comment else scan.quote.elim .code .literal

section
variable {scan after : HashScan} {ch : UInt8} {rest : Line} {inside : Bool}

def TurnReads (scan : HashScan) (ch : UInt8) (rest : Line) : HashTurn → Prop
  | .forward after => after.Proper ∧ read scan.place (ch :: rest) = read after.place rest
  | .skip after => after.Proper ∧ ∃ next more, rest = next :: more ∧
      read scan.place (ch :: rest) = read after.place more
  | .ends => read scan.place (ch :: rest) = ⟨false, false⟩ ∧ scan.inBlockComment = false
  | .found _ => (read scan.place (ch :: rest)).hash = true

theorem read_literal_zero {quote : UInt8} (isQuote : IsQuote quote) (rest : Line) :
    read (.literal quote) (0 :: rest) = read (.literal quote) rest := by
  cases rest with
  | nil => rfl
  | cons next rest =>
      rw [read, if_neg (by decide), if_neg]
      rintro rfl
      exact absurd isQuote (by decide)

theorem headD_eq {next : UInt8} (present : next ≠ 0) (same : rest.headD 0 = next) :
    ∃ more, rest = next :: more := by
  cases rest with
  | nil => exact absurd same.symm present
  | cons first more => exact ⟨more, congrArg (· :: more) same⟩

theorem turn_in_comment :
    TurnReads ⟨true, none⟩ ch rest (hashTurn ⟨true, none⟩ ch (rest.headD 0)) := by
  rw [hashTurn, if_pos rfl]
  split
  next closes =>
    obtain ⟨more, rfl⟩ := headD_eq (by decide) closes.2
    exact ⟨HashScan.proper_of_clear false, _, more, rfl, if_pos closes⟩
  next stays =>
    refine ⟨HashScan.proper_of_clear true, ?_⟩
    cases rest with
    | nil => rfl
    | cons next more => exact if_neg stays

theorem turn_in_literal {quote : UInt8} (isQuote : IsQuote quote) :
    TurnReads ⟨false, some quote⟩ ch rest (hashTurn ⟨false, some quote⟩ ch (rest.headD 0)) := by
  have plain : quote ≠ ascii '\\' := by
    rintro rfl
    exact absurd isQuote (by decide)
  rw [hashTurn, if_neg Bool.false_ne_true]
  dsimp only
  split
  next escapes =>
    obtain ⟨more, split⟩ := headD_eq escapes.2 rfl
    refine ⟨HashScan.proper_of_quote isQuote, _, more, split, ?_⟩
    rw [split]
    exact if_pos escapes.1
  split
  next closes =>
    refine ⟨HashScan.proper_of_clear false, ?_⟩
    subst closes
    cases rest with
    | nil => rfl
    | cons next more =>
        change (if _ then _ else _) = _
        rw [if_neg plain, if_pos rfl]
        rfl
  next escapes stays =>
    refine ⟨HashScan.proper_of_quote isQuote, ?_⟩
    cases rest with
    | nil => rfl
    | cons next more =>
        change (if _ then _ else _) = _
        split
        next backslash =>
          obtain rfl : next = 0 := by
            by_contra present
            exact escapes ⟨backslash, present⟩
          exact (read_literal_zero isQuote more).symm
        · rfl

theorem turn_in_code :
    TurnReads ⟨false, none⟩ ch rest (hashTurn ⟨false, none⟩ ch (rest.headD 0)) := by
  rw [hashTurn, if_neg Bool.false_ne_true]
  dsimp only
  split
  next line =>
    obtain ⟨more, rfl⟩ := headD_eq (by decide) line.2
    exact ⟨if_pos line, rfl⟩
  split
  next line opens =>
    obtain ⟨more, rfl⟩ := headD_eq (by decide) opens.2
    refine ⟨HashScan.proper_of_clear true, _, more, rfl, ?_⟩
    rw [List.headD_cons] at line opens
    change (if _ then _ else _) = _
    rw [if_neg line, if_pos opens]
    rfl
  split
  next line opens isQuote =>
    have isQuote : IsQuote ch := isQuote
    refine ⟨HashScan.proper_of_quote isQuote, ?_⟩
    cases rest with
    | nil =>
        have other : ch ≠ ascii '#' := by
          rintro rfl
          exact absurd isQuote (by decide)
        simp [HashScan.place, read, other]
    | cons next more =>
        rw [List.headD_cons] at line opens
        change (if _ then _ else _) = _
        rw [if_neg line, if_neg opens, if_pos isQuote]
        rfl
  split
  next line opens plain hash =>
    have plain : ¬IsQuote ch := plain
    cases rest with
    | nil => simp [TurnReads, HashScan.place, read, hash]
    | cons next more =>
        rw [List.headD_cons] at line opens
        change Reading.hash (if _ then _ else _) = _
        rw [if_neg line, if_neg opens, if_neg plain, if_pos hash]
  next line opens plain other =>
    have plain : ¬IsQuote ch := plain
    refine ⟨HashScan.proper_of_clear false, ?_⟩
    cases rest with
    | nil => simp [HashScan.place, read, other]
    | cons next more =>
        rw [List.headD_cons] at line opens
        change (if _ then _ else _) = _
        rw [if_neg line, if_neg opens, if_neg plain, if_neg other]
        rfl

theorem turn_reads (ch : UInt8) (rest : Line) (proper : scan.Proper) :
    TurnReads scan ch rest (hashTurn scan ch (rest.headD 0)) := by
  obtain ⟨inside, quote⟩ := scan
  cases inside with
  | true =>
      obtain rfl : quote = none := proper.clear rfl
      exact turn_in_comment
  | false =>
      cases quote with
      | none => exact turn_in_code
      | some quote => exact turn_in_literal (proper.quoted quote rfl)

/-! ### One line -/

/-- A line without a report is read to its end. -/
theorem scanHashes_reads (proper : scan.Proper) (index : Nat) (line : Line) :
    ((scanHashes scan index line).1 = none ∧
        read scan.place line = ⟨false, (scanHashes scan index line).2⟩) ∨
      ((scanHashes scan index line).1.isSome ∧ (read scan.place line).hash = true) := by
  fun_induction scanHashes scan index line with
  | case1 scan index =>
      refine .inl ⟨rfl, ?_⟩
      obtain ⟨inside, quote⟩ := scan
      cases inside <;> cases quote <;> rfl
  | case2 scan index ch rest after same ih =>
      have turn := turn_reads ch rest proper
      rw [same] at turn
      rw [turn.2]
      exact ih turn.1
  | case3 scan index ch after same =>
      have turn := turn_reads ch [] proper
      rw [same] at turn
      obtain ⟨_, _, _, absurd, _⟩ := turn
      cases absurd
  | case4 scan index ch after next rest same ih =>
      have turn := turn_reads ch (next :: rest) proper
      rw [same] at turn
      obtain ⟨kept, _, _, split, reads⟩ := turn
      cases split
      rw [reads]
      exact ih kept
  | case5 scan index ch rest same =>
      have turn := turn_reads ch rest proper
      rw [same] at turn
      exact .inl ⟨rfl, by rw [turn.1, turn.2]⟩
  | case6 scan index ch rest message same =>
      have turn := turn_reads ch rest proper
      rw [same] at turn
      exact .inr ⟨rfl, turn⟩

theorem scanHashes_message {index place : Nat} {line : Line} {message : Message}
    (reported : (scanHashes scan index line).1 = some (message, place)) :
    message = .bareHash ∨ message = .bareDoubleHash := by
  fun_induction scanHashes scan index line with
  | case1 | case3 | case5 => cases reported
  | case2 scan index ch rest after same ih => exact ih reported
  | case4 scan index ch after next rest same ih => exact ih reported
  | case6 scan index ch rest message same =>
      cases reported
      unfold hashTurn at same
      split at same
      · split at same <;> cases same
      split at same
      · split at same
        · cases same
        split at same <;> cases same
      split at same
      · cases same
      split at same
      · cases same
      split at same
      · cases same
      split at same
      · cases same
        split
        · exact .inr rfl
        · exact .inl rfl
      · cases same

end

/-! ### The lines of a text -/

def IsDirective (line : Line) : Prop :=
  (line.dropWhile isSpace).head? = some (ascii '$')

instance : DecidablePred IsDirective := fun _ => inferInstanceAs (Decidable (_ = _))

theorem parseDollarDirective_isSome {line : Line} :
    (parseDollarDirective line).isSome ↔ IsDirective line := by
  unfold parseDollarDirective IsDirective
  cases line.dropWhile isSpace with
  | nil => simp
  | cons ch rest => by_cases dollar : ch = ascii '$' <;> simp [dollar]

section
variable (inside : Bool) (line : Line)

def endsInside : Bool :=
  (read (start inside) line).comment

/-- Outside a block comment a directive may use `#`. -/
def HasHash : Prop :=
  (read (start inside) line).hash = true ∧ ¬(inside = false ∧ IsDirective line)

instance : Decidable (HasHash inside line) := inferInstanceAs (Decidable (_ ∧ _))

/-- Some line has a bare hash where the lines before it are all read for their comments. -/
def HasBareHash (lines : List Line) : Prop :=
  ∃ before line behind, lines = before ++ line :: behind ∧
    HasHash (before.foldl endsInside inside) line

/-- The lines that are no directives. -/
def plainLines (lines : List Line) : List Line :=
  lines.filter (¬IsDirective ·)

end

section
variable {inside : Bool} {line : Line} {rest : List Line}

theorem not_hasBareHash_nil : ¬HasBareHash inside [] := by
  rintro ⟨before, line, behind, split, _⟩
  cases before <;> cases split

theorem hasBareHash_cons_iff :
    HasBareHash inside (line :: rest) ↔
      HasHash inside line ∨ HasBareHash (endsInside inside line) rest := by
  constructor
  · rintro ⟨before, found, behind, split, hash⟩
    cases before with
    | nil =>
        cases split
        exact .inl hash
    | cons first before =>
        cases split
        exact .inr ⟨before, found, behind, rfl, hash⟩
  · rintro (hash | ⟨before, found, behind, rfl, hash⟩)
    · exact ⟨[], line, rest, rfl, hash⟩
    · exact ⟨line :: before, found, behind, rfl, hash⟩

theorem plainLines_cons_of_directive (directive : IsDirective line) :
    plainLines (line :: rest) = plainLines rest :=
  List.filter_cons_of_neg (by simp [directive])

theorem plainLines_cons_of_plain (plain : ¬IsDirective line) :
    plainLines (line :: rest) = line :: plainLines rest :=
  List.filter_cons_of_pos (by simp [plain])

theorem hasHash_iff_of_plain (plain : ¬IsDirective line) :
    HasHash inside line ↔ (read (start inside) line).hash = true :=
  and_iff_left fun directive => plain directive.2

end

def ReportsBareHash (diagnostics : List Diagnostic) : Prop :=
  ∃ diagnostic ∈ diagnostics,
    diagnostic.message = .bareHash ∨ diagnostic.message = .bareDoubleHash

theorem reportsBareHash_append {left right : List Diagnostic} :
    ReportsBareHash (left ++ right) ↔ ReportsBareHash left ∨ ReportsBareHash right := by
  simp [ReportsBareHash, or_and_right, exists_or]

section
variable {lineNumber : Nat} {inside : Bool} {line : Line}

theorem validateBareHashInLine_of_directive (directive : IsDirective line) :
    validateBareHashInLine line lineNumber inside = (none, inside) :=
  if_pos (parseDollarDirective_isSome.mpr directive)

/-- A line is reported for its bare hash, or read for its comments. -/
theorem validateBareHashInLine_of_plain (plain : ¬IsDirective line) :
    (¬HasHash inside line ∧
        validateBareHashInLine line lineNumber inside = (none, endsInside inside line)) ∨
      (HasHash inside line ∧
        ReportsBareHash (validateBareHashInLine line lineNumber inside).1.toList) := by
  have scanned := scanHashes_reads (HashScan.proper_of_clear inside) 0 line
  have started : HashScan.place ⟨inside, none⟩ = start inside := by cases inside <;> rfl
  rw [started, ← hasHash_iff_of_plain plain] at scanned
  rw [validateBareHashInLine, if_neg (parseDollarDirective_isSome.not.mpr plain)]
  rcases scanned with ⟨silent, reads⟩ | ⟨reported, hash⟩
  · refine .inl ⟨by rw [hasHash_iff_of_plain plain, reads]; exact Bool.false_ne_true, ?_⟩
    rw [endsInside, reads]
    generalize scanHashes _ _ _ = scanned at silent ⊢
    obtain ⟨found, after⟩ := scanned
    cases silent
    rfl
  · refine .inr ⟨hash, ?_⟩
    obtain ⟨⟨message, index⟩, found⟩ := Option.isSome_iff_exists.mp reported
    have named := scanHashes_message found
    generalize scanHashes _ _ _ = scanned at found ⊢
    obtain ⟨_, after⟩ := scanned
    cases found
    exact ⟨_, List.mem_singleton_self _, named⟩

theorem not_reportsBareHash_macroName (directive : Option Directive) :
    ¬ReportsBareHash
      (directive.bind (validateDirectiveMacroName · lineNumber)).toList := by
  rintro ⟨diagnostic, listed, named⟩
  simp only [Option.mem_toList, Option.bind_eq_some_iff] at listed
  obtain ⟨directive, _, found⟩ := listed
  unfold validateDirectiveMacroName at found
  split at found
  · cases found
  split at found
  · cases found
  · cases found
    simp at named

/-- The loop passes over the directives, also over those inside a block comment. -/
theorem reportsBareHash_validateLines (lines : List Line) :
    ReportsBareHash (validateLines lineNumber inside lines) ↔
      HasBareHash inside (plainLines lines) := by
  induction lines generalizing lineNumber inside with
  | nil => exact iff_of_false (by rintro ⟨_, listed, _⟩; cases listed) not_hasBareHash_nil
  | cons line rest ih =>
      unfold validateLines
      simp only [reportsBareHash_append, not_reportsBareHash_macroName, false_or, ih]
      by_cases directive : IsDirective line
      · rw [validateBareHashInLine_of_directive directive, plainLines_cons_of_directive directive]
        exact or_iff_right (by rintro ⟨_, listed, _⟩; cases listed)
      · rw [plainLines_cons_of_plain directive, hasBareHash_cons_iff]
        rcases validateBareHashInLine_of_plain directive with ⟨clean, read⟩ | ⟨hash, reports⟩
        · rw [read]
          refine or_congr (iff_of_false ?_ clean) .rfl
          rintro ⟨_, listed, _⟩
          cases listed
        · exact iff_of_true (.inl reports) (.inl hash)

end

theorem validateSourceInto_reports (source : Source) :
    ∃ diagnostics, validateSourceInto source = some diagnostics ∧
      (ReportsBareHash diagnostics ↔ HasBareHash false (plainLines (lines source))) := by
  obtain ⟨invalid, valid, _⟩ := validateUtf8From_answers source .start 0
  have valid : validateUtf8 source = some invalid := valid
  rw [validateSourceInto, valid]
  refine ⟨_, rfl, ?_⟩
  rw [reportsBareHash_append, reportsBareHash_validateLines]
  refine or_iff_right ?_
  rintro ⟨diagnostic, listed, named⟩
  cases invalid with
  | none => cases listed
  | some place =>
      rw [List.mem_singleton.mp listed] at named
      simp at named

/-! ### The directives that are passed over -/

/-- At the first directive that changes the comment state or, inside a block comment, has a bare
hash, what the plain lines behind it hold where the state stays is what it and all lines behind it
hold. -/
def DirectivesAgree (inside : Bool) : List Line → Prop
  | [] => True
  | line :: rest =>
      if IsDirective line then
        if endsInside inside line = inside ∧ ¬HasHash inside line then DirectivesAgree inside rest
        else
          (HasBareHash inside (plainLines rest) ↔
            HasHash inside line ∨ HasBareHash (endsInside inside line) rest)
      else HasHash inside line ∨ DirectivesAgree (endsInside inside line) rest

theorem directivesAgree_iff (inside : Bool) (lines : List Line) :
    (HasBareHash inside (plainLines lines) ↔ HasBareHash inside lines) ↔
      DirectivesAgree inside lines := by
  induction lines generalizing inside with
  | nil => exact iff_of_true .rfl trivial
  | cons line rest ih =>
      rw [DirectivesAgree, hasBareHash_cons_iff]
      split
      next directive =>
        rw [plainLines_cons_of_directive directive]
        split
        next kept =>
          rw [kept.1, or_iff_right kept.2]
          exact ih inside
        next => rfl
      next plain =>
        rw [plainLines_cons_of_plain plain, hasBareHash_cons_iff, ← ih]
        by_cases hash : HasHash inside line
        · exact iff_of_true (iff_of_true (.inl hash) (.inl hash)) (.inl hash)
        · rw [or_iff_right hash, or_iff_right hash, or_iff_right hash]

/-- Directives that neither change the comment state nor have a hash inside a comment agree. -/
theorem DirectivesAgree.of_neutral {inside : Bool} {lines : List Line}
    (neutral : ∀ before line behind, lines = before ++ line :: behind → IsDirective line →
      endsInside (before.foldl endsInside inside) line = before.foldl endsInside inside ∧
        ¬HasHash (before.foldl endsInside inside) line) :
    DirectivesAgree inside lines := by
  induction lines generalizing inside with
  | nil => trivial
  | cons line rest ih =>
      have behind : DirectivesAgree (endsInside inside line) rest :=
        ih fun before found more split directive =>
          neutral (line :: before) found more (congrArg (line :: ·) split) directive
      rw [DirectivesAgree]
      split
      next directive =>
        have kept : endsInside inside line = inside ∧ ¬HasHash inside line :=
          neutral [] line rest rfl directive
        rw [if_pos kept]
        exact kept.1 ▸ behind
      next => exact .inr behind

theorem bareHash_exact_iff (source : Source) :
    (∃ diagnostics, validateSourceInto source = some diagnostics ∧
      (ReportsBareHash diagnostics ↔ HasBareHash false (lines source))) ↔
      DirectivesAgree false (lines source) := by
  obtain ⟨diagnostics, answers, reports⟩ := validateSourceInto_reports source
  rw [← directivesAgree_iff, ← reports]
  constructor
  · rintro ⟨others, same, exact⟩
    rw [answers] at same
    cases same
    exact exact
  · exact fun exact => ⟨diagnostics, answers, exact⟩

/-- The comment ends on the line that begins with `$`, and its `#` is passed over. -/
theorem bareHash_behind_comment_unreported :
    ¬∃ diagnostics, validateSourceInto (bytes "/*\n$ */ #\n") = some diagnostics ∧
      (ReportsBareHash diagnostics ↔ HasBareHash false (lines (bytes "/*\n$ */ #\n"))) := by
  obtain ⟨diagnostics, answers, reports⟩ := validateSourceInto_reports (bytes "/*\n$ */ #\n")
  rintro ⟨others, same, exact⟩
  rw [answers] at same
  cases same
  have passed : ¬HasBareHash false (plainLines (lines (bytes "/*\n$ */ #\n"))) := by
    have plain : plainLines (lines (bytes "/*\n$ */ #\n")) = [bytes "/*"] := by decide
    rw [plain, hasBareHash_cons_iff]
    rintro (hash | behind)
    · exact absurd hash (by decide)
    · exact not_hasBareHash_nil behind
  refine passed (reports.mp (exact.mpr ⟨[bytes "/*"], bytes "$ */ #", [], ?_, ?_⟩))
  · decide
  · decide

end HitSimple.Preprocessor

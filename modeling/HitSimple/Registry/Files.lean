import HitSimple.Registry.ByteFunctions
import HitSimple.Registry.Runs

namespace HitSimple.Registry
open Slots Function

/-- A handle that was opened or closed, by its address. -/
structure HsFileState where
  address : Nat
  closed : Bool
  deriving DecidableEq

/-- The table of handles, its entries in use first, and whether `stderr` was closed. -/
structure FileTable where
  files : List HsFileState
  capacity : Nat
  stderrClosed : Bool

structure StandardStreams where
  stdin : Nat
  stdout : Nat
  stderr : Nat

/-- The operations of the host that take a handle and no buffer. -/
inductive StreamFunction where
  | fgetc
  | fflush
  | feof
  | ferror
  | fseeko (offset : Int) (whence : Int)
  | ftello
  | fprintf (message : String)
  deriving DecidableEq

/-- What a function asks of the host. -/
inductive HostCall where
  | fopen (name mode : Nat)
  | fclose (file : Nat)
  | onStream (function : StreamFunction) (file : Nat)
  | fread (dst size count file : Nat)
  | fwrite (src size count file : Nat)
  deriving DecidableEq

namespace HostCall

def handle? : HostCall → Option Nat
  | .fopen _ _ => none
  | .fclose file | .onStream _ file | .fread _ _ _ file | .fwrite _ _ _ file => some file

/-- The bytes of the process that the host reads or writes. -/
def range? : HostCall → Option (Nat × Nat)
  | .fread ptr size count _ | .fwrite ptr size count _ => some (ptr, size * count)
  | _ => none

end HostCall

/-- How a function ends: what it asked of the host last, and the table it leaves. -/
structure Done where
  host : Option HostCall
  table : FileTable

namespace FileTable

def initial : FileTable :=
  ⟨[], 0, false⟩

/-- `sizeof(HsFileState)` -/
def fileStateSize : Nat := 16

def hsFindFile (table : FileTable) (file : Nat) : Option HsFileState :=
  table.files.find? fun entry => entry.address == file

def grownCapacity (capacity : Nat) : Nat :=
  if capacity = 0 then 16 else capacity * 2 % 2 ^ 64

/-- Makes room for one entry; `grows` tells whether `realloc` answers. -/
def grow (grows : Bool) (table : FileTable) : Except Stop FileTable :=
  if table.files.length = table.capacity then
    if grownCapacity table.capacity ≤ table.capacity ∨
        maxUInt64 / fileStateSize < grownCapacity table.capacity then
      .error (.failed "file handle registry is full")
    else if grows = false then .error (.failed "cannot grow file handle registry")
    else .ok { table with capacity := grownCapacity table.capacity }
  else .ok table

def hsTrackFile (grows : Bool) (table : FileTable) (file : Nat) : Except Stop FileTable :=
  match table.hsFindFile file with
  | some _ => .ok table
  | none => (table.grow grows).map fun table =>
      { table with files := table.files ++ [⟨file, false⟩] }

/-- Writes the state of the entry that `hs_track_file` answers. -/
def markEntries (file : Nat) (closed : Bool) : List HsFileState → List HsFileState
  | [] => []
  | entry :: rest =>
      if entry.address = file then { entry with closed } :: rest
      else entry :: markEntries file closed rest

def mark (table : FileTable) (file : Nat) (closed : Bool) : FileTable :=
  { table with files := markEntries file closed table.files }

/-- A handle that the table does not hold passes. -/
def hsRequireFile (table : FileTable) (file : Nat) : Except Stop Nat :=
  if file = 0 then .error (.failed "invalid file handle")
  else match table.hsFindFile file with
    | some entry => if entry.closed then .error (.failed "closed file handle") else .ok file
    | none => .ok file

def isClosed (table : FileTable) (file : Nat) : Bool :=
  ((table.hsFindFile file).map HsFileState.closed).getD false

/-- What `hs_fail` asks of the host before it exits. -/
def hsFail (table : FileTable) (streams : StandardStreams) (message : String) : Option HostCall :=
  if table.stderrClosed then none else some (.onStream (.fprintf message) streams.stderr)

end FileTable

/-! ### The functions on streams -/

def hsCheckedProduct (size count : Nat) (message : String) : Except Stop Nat :=
  if size ≠ 0 ∧ maxUInt64 / size < count then .error (.failed message)
  else .ok (size * count % 2 ^ 64)

section
variable (streams : StandardStreams) (objects : State) (bytes : Bytes)

def checkString (value : Nat) (message : String) : Except Stop Unit :=
  (hsCstrLength objects value message bytes).1.map fun _ => ()

def checkBuffer (ptr size : Nat) (message : String) : Except Stop Unit :=
  (hsCheck objects ptr size message).mapError .failed

/-- `answer` is the host's handle, `0` where it opens none. -/
def hsFopen (name mode answer : Nat) (grows : Bool) (table : FileTable) : Except Stop Done := do
  checkString objects bytes name "unterminated checked file name"
  checkString objects bytes mode "unterminated checked file mode"
  if answer = 0 then return ⟨some (.fopen name mode), table⟩
  let tracked ← table.hsTrackFile grows answer
  let opened := tracked.mark answer false
  return ⟨some (.fopen name mode),
    if answer = streams.stderr then { opened with stderrClosed := false } else opened⟩

def hsFclose (file : Nat) (grows : Bool) (table : FileTable) : Except Stop Done := do
  let file ← table.hsRequireFile file
  let tracked ← table.hsTrackFile grows file
  let closed := tracked.mark file true
  return ⟨some (.fclose file),
    if file = streams.stderr then { closed with stderrClosed := true } else closed⟩

def hsCheckFileHandle (file : Nat) (table : FileTable) : Except Stop Done :=
  (table.hsRequireFile file).map fun _ => ⟨none, table⟩

def onStream (function : StreamFunction) (file : Nat) (table : FileTable) : Except Stop Done :=
  (table.hsRequireFile file).map fun file => ⟨some (.onStream function file), table⟩

def hsGet : FileTable → Except Stop Done :=
  onStream .fgetc streams.stdin

def hsFget : Nat → FileTable → Except Stop Done :=
  onStream .fgetc

def hsFflush : Nat → FileTable → Except Stop Done :=
  onStream .fflush

def hsFeof : Nat → FileTable → Except Stop Done :=
  onStream .feof

def hsFerror : Nat → FileTable → Except Stop Done :=
  onStream .ferror

def hsFseek (file : Nat) (offset whence : Int) : FileTable → Except Stop Done :=
  onStream (.fseeko offset whence) file

def hsFtell : Nat → FileTable → Except Stop Done :=
  onStream .ftello

/-- Nothing is asked of the host for an empty range. -/
def transferred (host : HostCall) (total : Nat) (table : FileTable) : Done :=
  if total = 0 then ⟨none, table⟩ else ⟨some host, table⟩

def hsFread (dst size count file : Nat) (table : FileTable) : Except Stop Done := do
  let file ← table.hsRequireFile file
  let total ← hsCheckedProduct size count "fread size overflow"
  checkBuffer objects dst total "invalid fread destination range"
  return transferred (.fread dst size count file) total table

def hsFwrite (src size count file : Nat) (table : FileTable) : Except Stop Done := do
  let file ← table.hsRequireFile file
  let total ← hsCheckedProduct size count "fwrite size overflow"
  checkBuffer objects src total "invalid fwrite source range"
  return transferred (.fwrite src size count file) total table

def writeBytes (message : String) (file src size : Nat) (table : FileTable) :
    Except Stop Done := do
  let file ← table.hsRequireFile file
  checkBuffer objects src size message
  return transferred (.fwrite src 1 size file) size table

def hsPut : Nat → Nat → FileTable → Except Stop Done :=
  writeBytes objects "invalid put source range" streams.stdout

def hsFput : Nat → Nat → Nat → FileTable → Except Stop Done :=
  writeBytes objects "invalid fput source range"

end

/-- The calls of a program, those that the host answers with its answers. -/
inductive StreamCall where
  | fopen (name mode answer : Nat) (grows : Bool)
  | fclose (file : Nat) (grows : Bool)
  | checkFileHandle (file : Nat)
  | get
  | fget (file : Nat)
  | fflush (file : Nat)
  | feof (file : Nat)
  | ferror (file : Nat)
  | fseek (file : Nat) (offset whence : Int)
  | ftell (file : Nat)
  | fread (dst size count file : Nat)
  | fwrite (src size count file : Nat)
  | put (src size : Nat)
  | fput (file src size : Nat)

/-- A call among the objects and the bytes that the process has then. -/
structure StreamEvent where
  objects : State
  bytes : Bytes
  call : StreamCall

namespace StreamEvent

def run (streams : StandardStreams) (event : StreamEvent) (table : FileTable) :
    Except Stop Done :=
  match event.call with
  | .fopen name mode answer grows =>
      hsFopen streams event.objects event.bytes name mode answer grows table
  | .fclose file grows => hsFclose streams file grows table
  | .checkFileHandle file => hsCheckFileHandle file table
  | .get => hsGet streams table
  | .fget file => hsFget file table
  | .fflush file => hsFflush file table
  | .feof file => hsFeof file table
  | .ferror file => hsFerror file table
  | .fseek file offset whence => hsFseek file offset whence table
  | .ftell file => hsFtell file table
  | .fread dst size count file => hsFread event.objects dst size count file table
  | .fwrite src size count file => hsFwrite event.objects src size count file table
  | .put src size => hsPut streams event.objects src size table
  | .fput file src size => hsFput event.objects file src size table

end StreamEvent

/-! ### One call -/

theorem except_bind_ok {α β ε : Type} {first : Except ε α} {next : α → Except ε β} {result : β}
    (ran : first >>= next = .ok result) : ∃ value, first = .ok value ∧ next value = .ok result := by
  cases first with
  | error failure => cases ran
  | ok value => exact ⟨value, rfl, ran⟩

theorem except_map_ok {α β ε : Type} {first : Except ε α} {next : α → β} {result : β}
    (ran : first.map next = .ok result) : ∃ value, first = .ok value ∧ next value = result := by
  cases first with
  | error failure => cases ran
  | ok value => exact ⟨value, rfl, Except.ok.inj ran⟩

namespace FileTable
variable {table tracked : FileTable} {file : Nat}

theorem find?_markEntries (closed : Bool) (other : Nat) (files : List HsFileState) :
    (markEntries file closed files).find? (fun entry => entry.address == other) =
      (files.find? fun entry => entry.address == other).map fun entry =>
        if file = other then { entry with closed } else entry := by
  induction files with
  | nil => rfl
  | cons entry rest ih =>
      unfold markEntries
      by_cases marked : entry.address = file
      · rw [if_pos marked]
        by_cases same : file = other
        · simp [marked, same]
        · have apart : entry.address ≠ other := marked ▸ same
          simp [same, apart]
      · rw [if_neg marked]
        by_cases found : entry.address = other
        · have apart : file ≠ other := fun same => marked (found.trans same.symm)
          simp [found, apart]
        · simp only [List.find?_cons, beq_eq_false_iff_ne.mpr found, ih]

theorem isClosed_mark (closed : Bool) (known : (table.hsFindFile file).isSome = true) :
    (table.mark file closed).isClosed = update table.isClosed file closed := by
  obtain ⟨entry, found⟩ := Option.isSome_iff_exists.mp known
  funext other
  rw [isClosed, hsFindFile, mark, find?_markEntries]
  by_cases same : file = other
  · subst same
    rw [update_self, ← hsFindFile, found]
    simp
  · rw [update_of_ne (Ne.symm same), isClosed, hsFindFile]
    simp [same]

theorem files_grow {grows : Bool} {grown : FileTable} (ran : table.grow grows = .ok grown) :
    grown.files = table.files ∧ grown.stderrClosed = table.stderrClosed := by
  unfold grow at ran
  split at ran
  · split at ran
    · cases ran
    split at ran
    · cases ran
    · cases ran
      exact ⟨rfl, rfl⟩
  · cases ran
    exact ⟨rfl, rfl⟩

/-- A handle that is recorded anew is open. -/
theorem hsTrackFile_spec {grows : Bool} (ran : table.hsTrackFile grows file = .ok tracked) :
    (tracked.hsFindFile file).isSome = true ∧ tracked.isClosed = table.isClosed ∧
      tracked.stderrClosed = table.stderrClosed := by
  unfold hsTrackFile at ran
  split at ran
  · rename_i entry found
    cases ran
    exact ⟨by rw [found]; rfl, rfl, rfl⟩
  · rename_i unknown
    obtain ⟨grown, grew, rfl⟩ := except_map_ok ran
    obtain ⟨files, stderr⟩ := files_grow grew
    refine ⟨?_, ?_, stderr⟩
    · simp [hsFindFile, List.find?_append]
    · funext other
      simp only [isClosed, hsFindFile, List.find?_append, files]
      cases found : table.files.find? fun entry => entry.address == other with
      | some entry => rfl
      | none =>
          by_cases same : file = other
          · simp [same]
          · simp [same]

/-- The test of the handles passes exactly those that are not closed. -/
theorem hsRequireFile_eq (table : FileTable) (file : Nat) :
    table.hsRequireFile file =
      if file = 0 then .error (.failed "invalid file handle")
      else if table.isClosed file then .error (.failed "closed file handle") else .ok file := by
  rw [hsRequireFile, isClosed]
  cases table.hsFindFile file <;> rfl

theorem usable_of_hsRequireFile {result : Nat} (ran : table.hsRequireFile file = .ok result) :
    result = file ∧ file ≠ 0 ∧ table.isClosed file = false := by
  rw [hsRequireFile_eq] at ran
  split at ran
  · cases ran
  rename_i nonnull
  split at ran
  · cases ran
  rename_i opened
  exact ⟨(Except.ok.inj ran).symm, nonnull, Bool.eq_false_iff.mpr opened⟩

end FileTable

theorem hsCheckedProduct_eq_ok {size count total : Nat} {message : String}
    (ran : hsCheckedProduct size count message = .ok total) : total = size * count := by
  unfold hsCheckedProduct at ran
  split at ran
  · cases ran
  rename_i fits
  cases ran
  apply Nat.mod_eq_of_lt
  rcases Nat.eq_zero_or_pos size with rfl | positive
  · rw [Nat.zero_mul]
    exact Nat.two_pow_pos 64
  · have bound : count ≤ maxUInt64 / size := not_lt.mp fun exceeds => fits ⟨positive.ne', exceeds⟩
    have product := (Nat.le_div_iff_mul_le positive).mp bound
    rw [Nat.mul_comm]
    exact product.trans_lt (by decide)

/-- What the host gets: a handle that is not closed, and bytes of one live object. -/
structure HostCall.IsSound (objects : State) (closed : Nat → Bool) (host : HostCall) : Prop where
  handle : ∀ file, host.handle? = some file → file ≠ 0 ∧ closed file = false
  range : ∀ ptr size, host.range? = some (ptr, size) → ∃ slot, (objects.allocs slot).Live ∧
    ∀ address, ptr ≤ address → address < ptr + size →
      (objects.allocs slot).region.Contains address

section
variable {streams : StandardStreams} {objects : State} {bytes : Bytes} {table : FileTable}
  {done : Done}

theorem reaches_of_checkBuffer {ptr size : Nat} {message : String} {value : Unit} (sized : size ≠ 0)
    (ran : checkBuffer objects ptr size message = .ok value) :
    ∃ slot, (objects.allocs slot).Live ∧ ∀ address, ptr ≤ address → address < ptr + size →
      (objects.allocs slot).region.Contains address := by
  have passed : hsCheck objects ptr size message = .ok () := by
    unfold checkBuffer at ran
    cases checked : hsCheck objects ptr size message with
    | ok value => rfl
    | error failure =>
        rw [checked] at ran
        cases ran
  obtain ⟨slot, _, live, inside⟩ := hsCheck_eq_ok sized passed
  exact ⟨slot, live, inside⟩

variable (objects) in
/-- A function that asks the host for one operation on a handle. -/
theorem onStream_spec {function : StreamFunction} {file : Nat}
    (ran : onStream function file table = .ok done) :
    done.table = table ∧
      ∀ host, done.host = some host → host.IsSound objects table.isClosed := by
  obtain ⟨passed, required, rfl⟩ := except_map_ok ran
  obtain ⟨rfl, nonnull, opened⟩ := FileTable.usable_of_hsRequireFile required
  refine ⟨rfl, ?_⟩
  rintro host ⟨⟩
  constructor
  · rintro file ⟨⟩
    exact ⟨nonnull, opened⟩
  · rintro ptr size ⟨⟩

/-- A function that has checked a handle and then a buffer. -/
theorem transferred_spec {file ptr size total : Nat} {message : String} {value : Unit}
    {host : HostCall} (required : table.hsRequireFile file = .ok file)
    (checked : checkBuffer objects ptr total message = .ok value)
    (handle : host.handle? = some file) (range : host.range? = some (ptr, size))
    (whole : total = size) :
    (transferred host total table).table = table ∧
      ∀ asked, (transferred host total table).host = some asked →
        asked.IsSound objects table.isClosed := by
  obtain ⟨_, nonnull, opened⟩ := FileTable.usable_of_hsRequireFile required
  unfold transferred
  split
  · refine ⟨rfl, ?_⟩
    rintro asked ⟨⟩
  · rename_i sized
    refine ⟨rfl, ?_⟩
    rintro asked ⟨⟩
    constructor
    · intro other same
      obtain rfl := Option.some.inj (handle.symm.trans same)
      exact ⟨nonnull, opened⟩
    · intro start length same
      obtain ⟨rfl, rfl⟩ := Prod.mk.inj (Option.some.inj (range.symm.trans same))
      subst whole
      exact reaches_of_checkBuffer sized checked

/-- A function that has checked a handle, then a product of sizes, then a buffer of that size. -/
theorem productTransferred_spec {ptr size count file : Nat} {overflow outside : String}
    (host : Nat → HostCall) (handle : ∀ file, (host file).handle? = some file)
    (range : ∀ file, (host file).range? = some (ptr, size * count))
    (ran : (do
      let file ← table.hsRequireFile file
      let total ← hsCheckedProduct size count overflow
      checkBuffer objects ptr total outside
      return transferred (host file) total table) = .ok done) :
    done.table = table ∧
      ∀ host, done.host = some host → host.IsSound objects table.isClosed := by
  obtain ⟨passed, required, checks⟩ := except_bind_ok ran
  obtain rfl := (FileTable.usable_of_hsRequireFile required).1
  obtain ⟨total, product, access⟩ := except_bind_ok checks
  obtain ⟨value, checked, finish⟩ := except_bind_ok access
  obtain rfl := Except.ok.inj finish
  exact transferred_spec required checked (handle passed) (range passed)
    (hsCheckedProduct_eq_ok product)

theorem hsFread_spec {dst size count file : Nat}
    (ran : hsFread objects dst size count file table = .ok done) :
    done.table = table ∧
      ∀ host, done.host = some host → host.IsSound objects table.isClosed :=
  productTransferred_spec (.fread dst size count) (fun _ => rfl) (fun _ => rfl) ran

theorem hsFwrite_spec {src size count file : Nat}
    (ran : hsFwrite objects src size count file table = .ok done) :
    done.table = table ∧
      ∀ host, done.host = some host → host.IsSound objects table.isClosed :=
  productTransferred_spec (.fwrite src size count) (fun _ => rfl) (fun _ => rfl) ran

theorem writeBytes_spec {message : String} {file src size : Nat}
    (ran : writeBytes objects message file src size table = .ok done) :
    done.table = table ∧
      ∀ host, done.host = some host → host.IsSound objects table.isClosed := by
  obtain ⟨passed, required, checks⟩ := except_bind_ok ran
  obtain rfl := (FileTable.usable_of_hsRequireFile required).1
  obtain ⟨value, checked, finish⟩ := except_bind_ok checks
  obtain rfl := Except.ok.inj finish
  exact transferred_spec required checked rfl rfl (Nat.one_mul size).symm

theorem hsFopen_spec {name mode answer : Nat} {grows : Bool}
    (ran : hsFopen streams objects bytes name mode answer grows table = .ok done) :
    (done.table.isClosed = if answer = 0 then table.isClosed
      else update table.isClosed answer false) ∧
    (done.table.stderrClosed =
      if answer ≠ 0 ∧ answer = streams.stderr then false else table.stderrClosed) ∧
    done.host = some (.fopen name mode) := by
  obtain ⟨_, _, rest⟩ := except_bind_ok ran
  obtain ⟨_, _, answered⟩ := except_bind_ok rest
  by_cases refused : answer = 0
  · rw [if_pos refused] at answered
    obtain rfl := Except.ok.inj answered
    simp [refused]
  · rw [if_neg refused] at answered
    obtain ⟨tracked, track, finish⟩ := except_bind_ok answered
    obtain rfl := Except.ok.inj finish
    obtain ⟨known, same, stderr⟩ := FileTable.hsTrackFile_spec track
    have marked := FileTable.isClosed_mark false known
    rw [same] at marked
    rw [if_neg refused]
    by_cases isStderr : answer = streams.stderr
    · exact ⟨by rw [if_pos isStderr]; exact marked, by simp [isStderr ▸ refused, isStderr], rfl⟩
    · exact ⟨by rw [if_neg isStderr]; exact marked, by simp [isStderr, FileTable.mark, stderr], rfl⟩

variable (objects) in
theorem hsFclose_spec {file : Nat} {grows : Bool}
    (ran : hsFclose streams file grows table = .ok done) :
    done.table.isClosed = update table.isClosed file true ∧
    (done.table.stderrClosed = if file = streams.stderr then true else table.stderrClosed) ∧
    ∀ host, done.host = some host → host.IsSound objects table.isClosed := by
  obtain ⟨passed, required, rest⟩ := except_bind_ok ran
  obtain ⟨rfl, nonnull, opened⟩ := FileTable.usable_of_hsRequireFile required
  obtain ⟨tracked, track, finish⟩ := except_bind_ok rest
  obtain rfl := Except.ok.inj finish
  obtain ⟨known, same, stderr⟩ := FileTable.hsTrackFile_spec track
  have marked := FileTable.isClosed_mark true known
  rw [same] at marked
  have sound : ∀ host, some (HostCall.fclose passed) = some host →
      host.IsSound objects table.isClosed := by
    rintro host ⟨⟩
    constructor
    · rintro file ⟨⟩
      exact ⟨nonnull, opened⟩
    · rintro ptr size ⟨⟩
  by_cases isStderr : passed = streams.stderr
  · exact ⟨by rw [if_pos isStderr]; exact marked, by simp [isStderr], sound⟩
  · exact ⟨by rw [if_neg isStderr]; exact marked, by simp [isStderr, FileTable.mark, stderr], sound⟩

end

/-! ### The size of the table -/

/-- Entries fit the room, which has been doubled from 16 on, and no two are of one handle. -/
structure FileTable.IsBounded (table : FileTable) : Prop where
  room : table.files.length ≤ table.capacity
  doubled : table.capacity = 0 ∨ ∃ doublings ≤ 55, table.capacity = 16 * 2 ^ doublings
  distinct : (table.files.map HsFileState.address).Nodup

namespace FileTable
variable {table tracked : FileTable} {file : Nat}

/-- The room of a table can be doubled until it is for `2 ^ 59` entries. -/
theorem grownCapacity_cases (bounded : table.IsBounded) :
    table.capacity = 2 ^ 59 ∨
      table.capacity < grownCapacity table.capacity ∧
        ∃ doublings ≤ 55, grownCapacity table.capacity = 16 * 2 ^ doublings := by
  rcases bounded.doubled with empty | ⟨doublings, few, capacity⟩
  · rw [empty]
    exact .inr ⟨by decide, 0, by decide, rfl⟩
  · rcases Nat.eq_or_lt_of_le few with rfl | fewer
    · exact .inl capacity
    · have small : 2 ^ doublings ≤ 2 ^ 54 := Nat.pow_le_pow_right (by decide) (by omega)
      have positive : 0 < 2 ^ doublings := Nat.two_pow_pos doublings
      have grown : grownCapacity table.capacity = 16 * 2 ^ (doublings + 1) := by
        rw [grownCapacity, capacity, if_neg (by omega), Nat.pow_succ]
        omega
      rw [grown, capacity]
      exact .inr ⟨by rw [Nat.pow_succ]; omega, doublings + 1, fewer, rfl⟩

theorem fits_of_doubled {doublings : Nat} (few : doublings ≤ 55) :
    16 * 2 ^ doublings ≤ maxUInt64 / fileStateSize := by
  have small : 2 ^ doublings ≤ 2 ^ 55 := Nat.pow_le_pow_right (by decide) few
  calc
    16 * 2 ^ doublings ≤ 16 * 2 ^ 55 := Nat.mul_le_mul_left 16 small
    _ ≤ maxUInt64 / fileStateSize := by decide

theorem grow_isBounded {grows : Bool} {grown : FileTable} (bounded : table.IsBounded)
    (ran : table.grow grows = .ok grown) :
    grown.IsBounded ∧ grown.files.length < grown.capacity := by
  unfold grow at ran
  split at ran
  · rename_i full
    split at ran
    · cases ran
    rename_i larger
    split at ran
    · cases ran
    cases ran
    rcases grownCapacity_cases bounded with most | ⟨grows, doubled⟩
    · rw [most] at larger
      exact absurd (.inr (by decide)) larger
    · exact ⟨⟨full.trans_le grows.le, .inr doubled, bounded.distinct⟩, full.trans_lt grows⟩
  · rename_i open'
    cases ran
    exact ⟨bounded, lt_of_le_of_ne bounded.room open'⟩

theorem full_of_grow {grows : Bool} (bounded : table.IsBounded)
    (ran : table.grow grows = .error (.failed "file handle registry is full")) :
    table.files.length = 2 ^ 59 := by
  unfold grow at ran
  split at ran
  · rename_i full
    rcases grownCapacity_cases bounded with most | ⟨grows, doublings, few, doubled⟩
    · exact full.trans most
    · have fits := fits_of_doubled few
      rw [← doubled] at fits
      rw [if_neg (by omega)] at ran
      split at ran
      · exact absurd (Stop.failed.inj (Except.error.inj ran)) (by decide)
      · cases ran
  · cases ran

theorem address_of_unknown (unknown : table.hsFindFile file = none) :
    file ∉ table.files.map HsFileState.address := by
  intro member
  obtain ⟨entry, listed, same⟩ := List.mem_map.mp member
  have other := List.find?_eq_none.mp unknown entry listed
  simp [same] at other

theorem hsTrackFile_isBounded {grows : Bool} (bounded : table.IsBounded)
    (ran : table.hsTrackFile grows file = .ok tracked) : tracked.IsBounded := by
  unfold hsTrackFile at ran
  split at ran
  · cases ran
    exact bounded
  · rename_i unknown
    obtain ⟨grown, grew, rfl⟩ := except_map_ok ran
    obtain ⟨kept, room⟩ := grow_isBounded bounded grew
    refine ⟨?_, kept.doubled, ?_⟩
    · rw [List.length_append]
      exact room
    · have fresh := address_of_unknown unknown
      rw [← (files_grow grew).1] at fresh
      rw [List.map_append, List.nodup_append]
      refine ⟨kept.distinct, by simp, ?_⟩
      rintro address member other last rfl
      obtain rfl := List.mem_singleton.mp last
      exact fresh member

theorem full_of_hsTrackFile {grows : Bool} (bounded : table.IsBounded)
    (ran : table.hsTrackFile grows file = .error (.failed "file handle registry is full")) :
    table.files.length = 2 ^ 59 := by
  unfold hsTrackFile at ran
  split at ran
  · cases ran
  · cases grew : table.grow grows with
    | error failure =>
        rw [grew] at ran
        have same : failure = .failed "file handle registry is full" := Except.error.inj ran
        exact full_of_grow bounded (same ▸ grew)
    | ok grown =>
        rw [grew] at ran
        cases ran

theorem addresses_markEntries (file : Nat) (closed : Bool) (files : List HsFileState) :
    (markEntries file closed files).map HsFileState.address = files.map HsFileState.address := by
  induction files with
  | nil => rfl
  | cons entry rest ih =>
      unfold markEntries
      split
      · rfl
      · rw [List.map_cons, ih, List.map_cons]

theorem IsBounded.mark (bounded : table.IsBounded) (file : Nat) (closed : Bool) :
    (table.mark file closed).IsBounded := by
  have addresses := addresses_markEntries file closed table.files
  constructor
  · have length := congrArg List.length addresses
    rw [List.length_map, List.length_map] at length
    exact length.trans_le bounded.room
  · exact bounded.doubled
  · exact addresses ▸ bounded.distinct

end FileTable

/-! ### Runs -/

/-- What a call makes of the handles that are closed. -/
def StreamCall.closes (call : StreamCall) (closed : Nat → Bool) : Nat → Bool :=
  match call with
  | .fopen _ _ answer _ => if answer = 0 then closed else update closed answer false
  | .fclose file _ => update closed file true
  | _ => closed

/-- The handles that are closed after some calls: those closed since the host last opened them. -/
def closedAfter (events : List StreamEvent) : Nat → Bool :=
  events.foldl (fun closed event => event.call.closes closed) fun _ => false

/-- The table that calls leave which all return. -/
def runStreams (streams : StandardStreams) (events : List StreamEvent) : Except Stop FileTable :=
  events.foldlM (fun table event => (event.run streams table).map Done.table) FileTable.initial

/-- The table knows the closed handles, and whether `stderr` is one. -/
structure FileTable.Tracks (table : FileTable) (streams : StandardStreams)
    (closed : Nat → Bool) : Prop where
  entries : table.isClosed = closed
  stderr : table.stderrClosed = closed streams.stderr

section
variable {streams : StandardStreams} {table : FileTable} {done : Done} {closed : Nat → Bool}

theorem StreamEvent.run_tracks {event : StreamEvent} (tracks : table.Tracks streams closed)
    (ran : event.run streams table = .ok done) :
    done.table.Tracks streams (event.call.closes closed) := by
  obtain ⟨objects, bytes, call⟩ := event
  have unchanged : done.table = table → done.table.Tracks streams closed := fun same => by
    rw [same]
    exact tracks
  cases call with
  | fopen name mode answer grows =>
      obtain ⟨entries, stderr, _⟩ := hsFopen_spec ran
      rw [tracks.entries] at entries
      rw [tracks.stderr] at stderr
      refine ⟨entries, ?_⟩
      simp only [StreamCall.closes]
      by_cases refused : answer = 0
      · simpa [refused] using stderr
      · rw [if_neg refused, update_apply, stderr]
        by_cases same : answer = streams.stderr
        · simp [same, same ▸ refused]
        · simp [same, Ne.symm same]
  | fclose file grows =>
      obtain ⟨entries, stderr, _⟩ := hsFclose_spec objects ran
      rw [tracks.entries] at entries
      rw [tracks.stderr] at stderr
      refine ⟨entries, ?_⟩
      simp only [StreamCall.closes]
      rw [update_apply, stderr]
      by_cases same : file = streams.stderr
      · simp [same]
      · simp [same, Ne.symm same]
  | checkFileHandle file =>
      obtain ⟨_, _, rfl⟩ := except_map_ok ran
      exact tracks
  | fread dst size count file => exact unchanged (hsFread_spec ran).1
  | fwrite src size count file => exact unchanged (hsFwrite_spec ran).1
  | put | fput => exact unchanged (writeBytes_spec ran).1
  | get | fget | fflush | feof | ferror | fseek | ftell =>
      exact unchanged (onStream_spec objects ran).1

theorem StreamEvent.run_isBounded {event : StreamEvent} (bounded : table.IsBounded)
    (ran : event.run streams table = .ok done) : done.table.IsBounded := by
  obtain ⟨objects, bytes, call⟩ := event
  have unchanged : done.table = table → done.table.IsBounded := fun same => by
    rw [same]
    exact bounded
  cases call with
  | fopen name mode answer grows =>
      obtain ⟨_, _, rest⟩ := except_bind_ok ran
      obtain ⟨_, _, answered⟩ := except_bind_ok rest
      split at answered
      · obtain rfl := Except.ok.inj answered
        exact bounded
      · obtain ⟨tracked, track, finish⟩ := except_bind_ok answered
        obtain rfl := Except.ok.inj finish
        have kept := (FileTable.hsTrackFile_isBounded bounded track).mark answer false
        split
        · exact ⟨kept.room, kept.doubled, kept.distinct⟩
        · exact kept
  | fclose file grows =>
      obtain ⟨passed, _, rest⟩ := except_bind_ok ran
      obtain ⟨tracked, track, finish⟩ := except_bind_ok rest
      obtain rfl := Except.ok.inj finish
      have kept := (FileTable.hsTrackFile_isBounded bounded track).mark passed true
      split
      · exact ⟨kept.room, kept.doubled, kept.distinct⟩
      · exact kept
  | checkFileHandle file =>
      obtain ⟨_, _, rfl⟩ := except_map_ok ran
      exact bounded
  | fread dst size count file => exact unchanged (hsFread_spec ran).1
  | fwrite src size count file => exact unchanged (hsFwrite_spec ran).1
  | put | fput => exact unchanged (writeBytes_spec ran).1
  | get | fget | fflush | feof | ferror | fseek | ftell =>
      exact unchanged (onStream_spec objects ran).1

/-- What a call asks of the host is sound among the handles that are closed before it. -/
theorem StreamEvent.run_isSound {event : StreamEvent} {host : HostCall}
    (tracks : table.Tracks streams closed) (ran : event.run streams table = .ok done)
    (asked : done.host = some host) : host.IsSound event.objects closed := by
  rw [← tracks.entries]
  obtain ⟨objects, bytes, call⟩ := event
  cases call with
  | fopen name mode answer grows =>
      obtain rfl := Option.some.inj ((hsFopen_spec ran).2.2.symm.trans asked)
      constructor
      · rintro file ⟨⟩
      · rintro ptr size ⟨⟩
  | fclose file grows => exact (hsFclose_spec objects ran).2.2 host asked
  | checkFileHandle file =>
      obtain ⟨_, _, rfl⟩ := except_map_ok ran
      cases asked
  | fread dst size count file => exact (hsFread_spec ran).2 host asked
  | fwrite src size count file => exact (hsFwrite_spec ran).2 host asked
  | put | fput => exact (writeBytes_spec ran).2 host asked
  | get | fget | fflush | feof | ferror | fseek | ftell =>
      exact (onStream_spec objects ran).2 host asked

/-- The invariant of the run: each call keeps what the table tracks, and its bounds. -/
theorem keeps_of_run (events : List StreamEvent) {after : FileTable}
    (tracks : table.Tracks streams closed) (bounded : table.IsBounded)
    (ran : events.foldlM (fun table event => (event.run streams table).map Done.table) table =
      .ok after) :
    after.Tracks streams (events.foldl (fun closed event => event.call.closes closed) closed) ∧
      after.IsBounded := by
  induction events generalizing table closed with
  | nil =>
      obtain rfl := Except.ok.inj ran
      exact ⟨tracks, bounded⟩
  | cons event events ih =>
      rw [List.foldlM_cons] at ran
      obtain ⟨next, stepped, rest⟩ := except_bind_ok ran
      obtain ⟨done, step, rfl⟩ := except_map_ok stepped
      exact ih (event.run_tracks tracks step) (event.run_isBounded bounded step) rest

end

/-- In every run the test of handles fails for exactly the closed ones, no failure is reported to a
closed `stderr`, no handle reaches the host that is closed, and no transfer leaves a live object. -/
theorem streams_areSafe {streams : StandardStreams} {events : List StreamEvent} {table : FileTable}
    (ran : runStreams streams events = .ok table) :
    (∀ file, table.hsRequireFile file =
      if file = 0 then .error (.failed "invalid file handle")
      else if closedAfter events file then .error (.failed "closed file handle") else .ok file) ∧
    (∀ message, table.hsFail streams message =
      if closedAfter events streams.stderr then none
      else some (.onStream (.fprintf message) streams.stderr)) ∧
    (∀ event done host, StreamEvent.run streams event table = .ok done → done.host = some host →
      host.IsSound event.objects (closedAfter events)) ∧
    table.files.length ≤ table.capacity ∧ (table.files.map HsFileState.address).Nodup ∧
    ∀ file grows, table.hsTrackFile grows file = .error (.failed "file handle registry is full") →
      table.files.length = 2 ^ 59 := by
  have tracksInitial : FileTable.initial.Tracks streams fun _ => false := ⟨rfl, rfl⟩
  have boundedInitial : FileTable.initial.IsBounded := ⟨Nat.le_refl 0, .inl rfl, List.nodup_nil⟩
  obtain ⟨tracks, bounded⟩ := keeps_of_run events tracksInitial boundedInitial ran
  refine ⟨fun file => ?_, fun message => ?_, fun event done host => ?_, bounded.room,
    bounded.distinct, fun file grows => FileTable.full_of_hsTrackFile bounded⟩
  · rw [FileTable.hsRequireFile_eq, tracks.entries]
    rfl
  · rw [FileTable.hsFail, tracks.stderr]
    rfl
  · exact event.run_isSound tracks

/-- A run that closes `stderr` and the handle 7. -/
def closings : List StreamEvent :=
  [⟨State.initial, fun _ => 0, .fclose 3 true⟩, ⟨State.initial, fun _ => 0, .fclose 7 true⟩]

def closedTable : FileTable :=
  ⟨[⟨3, true⟩, ⟨7, true⟩], 16, true⟩

theorem streams_areSafe_closings :
    closedTable.hsRequireFile 7 = .error (.failed "closed file handle") ∧
      closedTable.hsRequireFile 8 = .ok 8 ∧
      ∀ message, closedTable.hsFail ⟨1, 2, 3⟩ message = none := by
  have ran : runStreams ⟨1, 2, 3⟩ closings = .ok closedTable := rfl
  obtain ⟨requires, fails, _⟩ := streams_areSafe ran
  exact ⟨requires 7, requires 8, fails⟩

end HitSimple.Registry

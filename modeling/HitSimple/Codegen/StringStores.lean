import Mathlib.Data.BitVec
import Mathlib.Data.List.GetD
import HitSimple.Codegen.WidthRequests
import HitSimple.FixedWidth.ForwardCopy
import HitSimple.Sema.Assignments

namespace HitSimple.Codegen
open FixedWidth

/-- Standard 7.5: a destination of `byteLength` bytes receives the source up to its first zero,
shortened to leave room for one zero, and is filled with zeros. -/
def storedString (source : List Byte) (byteLength : Nat) : List Byte :=
  let kept := (source.takeWhile fun byte => decide (byte ≠ 0)).take (byteLength - 1)
  kept ++ List.replicate (byteLength - kept.length) 0

def Place.bytes (place : Place) (machine : Machine) (byteLength : Nat) : List Byte :=
  (List.range byteLength).map (place.byte machine)

/-- The address a name denotes at an offset. -/
def bindingAddress (machine : Machine) (storage : Storage) (name : String) (offset : Nat) :
    BitVec 64 :=
  (if storage.isRebound then machine.bindings name else storage.address) + BitVec.ofNat 64 offset

theorem bindingAddress_add (machine : Machine) (storage : Storage) (name : String)
    (offset index : Nat) :
    bindingAddress machine storage name (offset + index) =
      bindingAddress machine storage name offset + BitVec.ofNat 64 index := by
  rw [bindingAddress, bindingAddress, BitVec.ofNat_add, BitVec.add_assoc]

theorem getD_append_replicate (kept : List Byte) (count index : Nat) :
    (kept ++ List.replicate count 0).getD index 0 = kept.getD index 0 := by
  rcases Nat.lt_or_ge index kept.length with inside | beyond
  · rw [List.getD_append _ _ _ _ inside]
  · rw [List.getD_append_right _ _ _ _ beyond, List.getD_eq_default _ _ beyond]
    simp [List.getD_eq_getElem?_getD, List.getElem?_replicate]
    split <;> rfl

theorem bytes_eq_iff_cutAtZero {place : Place} {machine : Machine} {source : List Byte}
    {byteLength : Nat} (positive : 0 < byteLength) :
    place.bytes machine byteLength = storedString source byteLength ↔
      ∀ index, index < byteLength →
        place.byte machine index = cutAtZero (byteLength - 1) (source.getD · 0) index := by
  have length : (storedString source byteLength).length = byteLength := by
    simp only [storedString, List.length_append, List.length_replicate, List.length_take]
    omega
  have stored (index : Nat) (bound : index < (storedString source byteLength).length) :
      (storedString source byteLength)[index] =
        cutAtZero (byteLength - 1) (source.getD · 0) index := by
    rw [← getD_take_takeWhile, ← getD_append_replicate, ← storedString,
      List.getD_eq_getElem _ _ bound]
  constructor
  · intro same index bound
    rw [← stored index (by omega), ← List.getElem_of_eq same (by simpa [Place.bytes] using bound)]
    simp [Place.bytes]
  · intro right
    apply List.ext_getElem (by simp [Place.bytes, length])
    intro index inside bound
    rw [stored index bound, ← right index (by omega)]
    simp [Place.bytes]

/-- The bytes past the end of a View count as its end. -/
theorem cutAtZero_bytes (place : Place) (machine : Machine) (limit viewLength index : Nat) :
    cutAtZero limit ((place.bytes machine viewLength).getD · 0) index =
      cutAtZero (min viewLength limit) (place.byte machine) index := by
  have inside (cell : Nat) (bound : cell < viewLength) :
      (place.bytes machine viewLength).getD cell 0 = place.byte machine cell := by
    simp [Place.bytes, List.getD_eq_getElem?_getD, bound]
  have beyond (cell : Nat) (bound : viewLength ≤ cell) :
      (place.bytes machine viewLength).getD cell 0 = 0 :=
    List.getD_eq_default _ _ (by simpa [Place.bytes] using bound)
  unfold cutAtZero
  dsimp only
  rcases Nat.lt_or_ge index viewLength with within | past
  · refine if_congr ?_ (inside index within) rfl
    refine and_congr (by omega) (forall₂_congr fun earlier before => ?_)
    rw [inside earlier (by omega)]
  · rw [if_neg (c := index < min viewLength limit ∧ _) (by omega), beyond index past]
    split <;> rfl

section Runs
variable {context : Context} {storage : Storage} {name : String} {machine after : Machine}

/-- A check that does not end the program changes nothing. -/
theorem checkLoad_eq_ok {isRequired : Bool} {address : BitVec 64} {byteLength : Nat}
    (ran : context.checkLoad isRequired address byteLength machine = .ok ((), after)) :
    after = machine := by
  obtain ⟨current, middle, read, rest⟩ := run_bind_eq_ok ran
  cases read
  split at rest <;> cases rest
  rfl

theorem loadView_eq_ok {view : ViewCode} {place : Place} {before : Machine} {byteLength : Nat}
    {word : BitVec (byteLength * 8)} (read : view.run machine = .ok (place, before))
    (ran : loadView context view byteLength machine = .ok (word, after)) :
    word = assemble byteLength (place.byte before) ∧ after = before := by
  rw [loadView, bind_of_ok read] at ran
  obtain ⟨⟨⟩, checked, check, load⟩ := run_bind_eq_ok ran
  have unchanged : checked = before := by
    cases place with
    | located address => exact checkLoad_eq_ok check
    | temporary contents =>
        cases check
        rfl
  subst unchanged
  cases load
  exact ⟨rfl, rfl⟩

theorem checkStore_eq_ok {isRequired : Bool} {address : BitVec 64} {byteLength : Nat}
    (ran : context.checkStore isRequired address byteLength machine = .ok ((), after)) :
    after = machine := by
  obtain ⟨current, middle, read, rest⟩ := run_bind_eq_ok ran
  cases read
  split at rest <;> cases rest
  rfl

theorem writeBytes_eq_ok {offset byteLength : Nat} {word : BitVec (byteLength * 8)}
    (ran : writeBytes context storage name offset byteLength word machine = .ok ((), after)) :
    after = { machine with
      memory := machine.memory.store (bindingAddress machine storage name offset) byteLength
        word } := by
  have location : bindingPointer storage name offset machine =
      .ok (bindingAddress machine storage name offset, machine) := rfl
  rw [writeBytes, bind_of_ok location] at ran
  obtain ⟨⟨⟩, middle, check, rest⟩ := run_bind_eq_ok ran
  cases checkStore_eq_ok check
  cases rest
  rfl

end Runs

/-- Code that comes to its end in every state. -/
def Completes {α : Type} (run : Run α) : Prop :=
  ∀ machine, ∃ value after, run machine = .ok (value, after)

section Unchecked
variable {context : Context}

theorem Completes.bind {α β : Type} {first : Run α} {next : α → Run β}
    (completes : Completes first) (after : ∀ value, Completes (next value)) :
    Completes (first >>= next) := by
  intro machine
  obtain ⟨value, middle, ran⟩ := completes machine
  rw [bind_of_ok ran]
  exact after value middle

theorem completes_pure {α : Type} (value : α) : Completes (pure value) :=
  fun machine => ⟨value, machine, rfl⟩

theorem completes_get : Completes (get : Run Machine) :=
  fun machine => ⟨machine, machine, rfl⟩

theorem completes_checkLoad (unchecked : context.checked = false) (isRequired : Bool)
    (address : BitVec 64) (byteLength : Nat) :
    Completes (context.checkLoad isRequired address byteLength) := by
  rw [Context.checkLoad, unchecked]
  exact completes_get.bind fun _ => completes_pure _

theorem completes_writeBytes (unchecked : context.checked = false) (storage : Storage)
    (name : String) (offset byteLength : Nat) (word : BitVec (byteLength * 8)) :
    Completes (writeBytes context storage name offset byteLength word) := by
  have check (address : BitVec 64) :
      Completes (context.checkStore storage.requiresAccessCheck address byteLength) := by
    rw [Context.checkStore, unchecked]
    exact completes_get.bind fun _ => completes_pure _
  exact (completes_get.bind fun _ => completes_pure _).bind fun address =>
    (check address).bind fun _ => fun machine => ⟨_, _, rfl⟩

theorem completes_writeEachByte (unchecked : context.checked = false) (storage : Storage)
    (name : String) (offset : Nat) (bytes : Nat → Byte) (index remaining : Nat) :
    Completes (writeEachByte context storage name offset bytes index remaining) := by
  induction remaining generalizing index with
  | zero => exact completes_pure _
  | succ remaining ih =>
      exact (completes_writeBytes unchecked storage name _ 1 (bytes index)).bind fun _ =>
        ih (index + 1)

theorem completes_copyString (unchecked : context.checked = false) (storage : Storage)
    (name : String) (offset targetByteLength : Nat) (place : Place) (isRequired : Bool)
    (sourceByteLength index remaining : Nat) (active : Bool) :
    Completes (copyString context storage name offset targetByteLength place isRequired
      sourceByteLength index remaining active) := by
  induction remaining generalizing index active with
  | zero => exact completes_pure _
  | succ remaining ih =>
      rw [copyString.eq_def]
      dsimp only
      have rest (byte : Machine → BitVec (1 * 8)) (next : Machine → Bool) : Completes (do
          let machine ← get
          writeBytes context storage name (offset + index) 1 (byte machine)
          copyString context storage name offset targetByteLength place isRequired
            sourceByteLength (index + 1) remaining (next machine)) :=
        completes_get.bind fun machine =>
          (completes_writeBytes unchecked storage name _ 1 _).bind fun _ => ih (index + 1) _
      split
      · split
        · exact (completes_checkLoad unchecked _ _ _).bind fun _ => rest _ _
        · exact rest _ _
      · exact rest _ _

end Unchecked

section Loops
variable {before machine : Machine} {place : Place} {target : BitVec 64} {limit index : Nat}
  {active : Bool}

/-- How far a target lies above the bytes a copy reads; a temporary is storage of its own. -/
def Place.distanceTo (target : BitVec 64) : Place → Nat
  | located address => (target - address).toNat
  | temporary _ => 0

/-- Where a copy stands when it comes to an index. -/
structure CopiedTo (before : Machine) (place : Place) (target : BitVec 64) (limit index : Nat)
    (active : Bool) (machine : Machine) : Prop where
  bindings : machine.bindings = before.bindings
  elsewhere : ∀ cell, (∀ earlier, earlier < index → cell ≠ target + BitVec.ofNat 64 earlier) →
    machine.memory cell = before.memory cell
  copies : CopiesForward index limit (place.distanceTo target) (place.byte before)
    ((Place.located target).byte machine)
  isActive : active = true ↔ ∀ earlier, earlier < min index limit →
    (Place.located target).byte machine earlier ≠ 0

theorem copiedTo_zero (before : Machine) (place : Place) (target : BitVec 64) (limit : Nat) :
    CopiedTo before place target limit 0 true before where
  bindings := rfl
  elsewhere := fun cell _ => rfl
  copies := nofun
  isActive := by simp

/-- The copy reads what was there before, or what it has written over it. -/
theorem CopiedTo.byte (copied : CopiedTo before place target limit index active machine)
    (bound : index < 2 ^ 64) :
    place.byte machine index =
      if 0 < place.distanceTo target ∧ place.distanceTo target ≤ index then
        (Place.located target).byte machine (index - place.distanceTo target)
      else place.byte before index := by
  cases place with
  | temporary contents => rfl
  | located address =>
      split
      · next overlaps =>
          obtain ⟨positive, reached⟩ := overlaps
          rw [Place.byte, (@add_ofNat_eq_iff _ _ target _ _ (by omega) bound).mpr
            (Nat.add_sub_of_le reached).symm]
          rfl
      · next apart =>
          refine copied.elsewhere _ fun earlier before same => apart ?_
          have distance := (add_ofNat_eq_iff before bound).mp same
          exact ⟨by simp only [Place.distanceTo]; omega, by simp only [Place.distanceTo]; omega⟩

/-- The machine after one byte was written at an offset of an address. -/
def Machine.write (machine : Machine) (target : BitVec 64) (index : Nat) (byte : BitVec (1 * 8)) :
    Machine :=
  { machine with memory := machine.memory.store (target + BitVec.ofNat 64 index) 1 byte }

theorem memory_write (machine : Machine) (target cell : BitVec 64) (index : Nat)
    (byte : BitVec (1 * 8)) :
    (machine.write target index byte).memory cell =
      if cell = target + BitVec.ofNat 64 index then byte else machine.memory cell :=
  Memory.store_one _ _ _ _

theorem byte_write_self (machine : Machine) (target : BitVec 64) (index : Nat)
    (byte : BitVec (1 * 8)) :
    (Place.located target).byte (machine.write target index byte) index = byte := by
  rw [Place.byte, memory_write, if_pos rfl]

theorem byte_write_earlier (machine : Machine) (target : BitVec 64) {earlier : Nat}
    (before : earlier < index) (bound : index < 2 ^ 64) (byte : BitVec (1 * 8)) :
    (Place.located target).byte (machine.write target index byte) earlier =
      (Place.located target).byte machine earlier := by
  rw [Place.byte, memory_write, if_neg (add_ofNat_ne before bound).symm]
  rfl

/-- One byte of the copy. -/
theorem CopiedTo.step (copied : CopiedTo before place target limit index active machine)
    (bound : index < 2 ^ 64) {byte : BitVec (1 * 8)}
    (read : byte = if index < limit ∧ active = true then place.byte machine index else 0) :
    CopiedTo before place target limit (index + 1)
      (if index < limit ∧ active = true then byte != 0 else active)
      (machine.write target index byte) where
  bindings := copied.bindings
  elsewhere := by
    intro cell outside
    rw [memory_write, if_neg (outside index (by omega))]
    exact copied.elsewhere cell fun earlier before => outside earlier (by omega)
  copies := by
    have same (earlier : Nat) (before : earlier < index) :=
      byte_write_earlier machine target before bound byte
    refine (copied.copies.congr same).succ ?_
    have going : (index < limit ∧ ∀ earlier, earlier < index →
        (Place.located target).byte (machine.write target index byte) earlier ≠ 0) ↔
          index < limit ∧ active = true := by
      refine and_congr_right fun inside => ?_
      rw [copied.isActive, Nat.min_eq_left (by omega)]
      exact forall₂_congr fun earlier before => by rw [same earlier before]
    rw [copied.byte bound] at read
    rw [byte_write_self, if_congr going rfl rfl]
    refine read.trans (if_congr Iff.rfl (ite_congr rfl (fun overlaps => ?_) fun _ => rfl) rfl)
    exact (same _ (by omega)).symm
  isActive := by
    have same (earlier : Nat) (before : earlier < index) :=
      byte_write_earlier machine target before bound byte
    split
    · next reads =>
        obtain ⟨inside, isActive⟩ := reads
        have nonzero := copied.isActive.mp isActive
        rw [Nat.min_eq_left (by omega)] at nonzero ⊢
        simp only [bne_iff_ne, ne_eq, Nat.lt_succ_iff_lt_or_eq]
        constructor
        · rintro kept earlier (before | rfl)
          · rw [same earlier before]
            exact nonzero earlier before
          · rwa [byte_write_self]
        · intro kept
          simpa [byte_write_self] using kept index (.inr rfl)
    · next idle =>
        rw [copied.isActive]
        constructor
        · intro nonzero earlier before
          have isActive := copied.isActive.mpr nonzero
          have past : limit ≤ index := Nat.le_of_not_lt fun inside => idle ⟨inside, isActive⟩
          rw [same earlier (by omega)]
          exact nonzero earlier (by omega)
        · intro nonzero earlier before
          rw [← same earlier (by omega)]
          exact nonzero earlier (by omega)

/-- One round of the emitted copy. -/
theorem copyString_succ_eq_ok {context : Context} {storage : Storage} {name : String}
    {offset targetByteLength sourceByteLength remaining : Nat} {isRequired : Bool} {after : Machine}
    (ran : copyString context storage name offset targetByteLength place isRequired
      sourceByteLength index (remaining + 1) active machine = .ok ((), after)) :
    ∃ byte : BitVec (1 * 8),
      (byte = if index < min sourceByteLength (targetByteLength - 1) ∧ active = true then
        place.byte machine index else 0) ∧
      copyString context storage name offset targetByteLength place isRequired sourceByteLength
        (index + 1) remaining
        (if index < min sourceByteLength (targetByteLength - 1) ∧ active = true then byte != 0
          else active)
        (machine.write (bindingAddress machine storage name offset) index byte) =
          .ok ((), after) := by
  have reads : (index + 1 < targetByteLength ∧ index < sourceByteLength ∧ active = true) ↔
      index < min sourceByteLength (targetByteLength - 1) ∧ active = true := by
    rw [Nat.lt_min, and_assoc]
    exact ⟨fun ⟨room, inside, going⟩ => ⟨inside, by omega, going⟩,
      fun ⟨inside, room, going⟩ => ⟨by omega, inside, going⟩⟩
  rw [copyString.eq_def] at ran
  simp only [reads] at ran
  have written : (do
      let current ← get
      let byte := if index < min sourceByteLength (targetByteLength - 1) ∧ active = true then
        place.byte current index else 0
      writeBytes context storage name (offset + index) 1 byte
      copyString context storage name offset targetByteLength place isRequired sourceByteLength
        (index + 1) remaining
        (if index < min sourceByteLength (targetByteLength - 1) ∧ active = true then byte != 0
          else active) : Run Unit) machine = .ok ((), after) := by
    split at ran
    · next going =>
        simp only [if_pos going]
        cases place with
        | located address =>
            obtain ⟨⟨⟩, checked, check, rest⟩ := run_bind_eq_ok ran
            cases checkLoad_eq_ok check
            exact rest
        | temporary contents => exact ran
    · next idle =>
        simp only [if_neg idle]
        exact ran
  obtain ⟨current, middle, got, rest⟩ := run_bind_eq_ok written
  cases got
  obtain ⟨⟨⟩, stored, write, rest⟩ := run_bind_eq_ok rest
  have next := writeBytes_eq_ok write
  rw [bindingAddress_add] at next
  subst next
  exact ⟨_, rfl, rest⟩

theorem bindingAddress_write {storage : Storage} {name : String} {offset : Nat}
    (located : bindingAddress machine storage name offset = target) (byte : BitVec (1 * 8)) :
    bindingAddress (machine.write target index byte) storage name offset = target :=
  located

/-- The whole copy. -/
theorem CopiedTo.run {context : Context} {storage : Storage} {name : String}
    {offset targetByteLength sourceByteLength : Nat} {isRequired : Bool} {after : Machine}
    (remaining : Nat) (located : bindingAddress machine storage name offset = target)
    (copied : CopiedTo before place target (min sourceByteLength (targetByteLength - 1)) index
      active machine)
    (fits : index + remaining ≤ 2 ^ 64)
    (ran : copyString context storage name offset targetByteLength place isRequired
      sourceByteLength index remaining active machine = .ok ((), after)) :
    ∃ stillActive, CopiedTo before place target (min sourceByteLength (targetByteLength - 1))
      (index + remaining) stillActive after := by
  induction remaining generalizing index active machine with
  | zero =>
      cases ran
      exact ⟨active, copied⟩
  | succ remaining ih =>
      obtain ⟨byte, read, rest⟩ := copyString_succ_eq_ok ran
      rw [located] at rest
      have room : index + 1 + remaining ≤ 2 ^ 64 := by omega
      rw [Nat.add_comm remaining, ← Nat.add_assoc]
      exact ih (bindingAddress_write located byte) (copied.step (by omega) read) room rest

/-- The bytes of a literal, one after another. -/
theorem writeEachByte_eq_ok {context : Context} {storage : Storage} {name : String} {offset : Nat}
    {bytes : Nat → Byte} {after : Machine} (remaining : Nat)
    (located : bindingAddress machine storage name offset = target)
    (written : ∀ earlier, earlier < index →
      (Place.located target).byte machine earlier = bytes earlier)
    (fits : index + remaining ≤ 2 ^ 64)
    (ran : writeEachByte context storage name offset bytes index remaining machine =
      .ok ((), after)) :
    ∀ earlier, earlier < index + remaining →
      (Place.located target).byte after earlier = bytes earlier := by
  induction remaining generalizing index machine with
  | zero =>
      cases ran
      exact written
  | succ remaining ih =>
      obtain ⟨⟨⟩, stored, write, rest⟩ := run_bind_eq_ok ran
      have next : stored = machine.write target index (bytes index) := by
        rw [writeBytes_eq_ok write, bindingAddress_add, located, Machine.write]
      subst next
      have room : index + 1 + remaining ≤ 2 ^ 64 := by omega
      rw [Nat.add_comm remaining, ← Nat.add_assoc]
      refine ih (bindingAddress_write located _) (fun earlier before => ?_) room rest
      rcases Nat.lt_succ_iff_lt_or_eq.mp before with before | rfl
      · rw [byte_write_earlier _ _ before (by omega), written earlier before]
      · exact byte_write_self machine target earlier _

end Loops

section Copies
variable {context : Context} {binding : Hir.Binding} {targetByteLength offset : Nat}
  {storage : Storage} {machine before after : Machine} {place : Place} {target : BitVec 64}

/-- A copy leaves what the standard asks for exactly when it is never overtaken. -/
theorem copyString_stores_iff {isRequired : Bool} {sourceByteLength : Nat}
    (positive : 1 ≤ targetByteLength) (fits : targetByteLength < 2 ^ 64)
    (located : bindingAddress before storage binding.bindingName offset = target)
    (ran : copyString context storage binding.bindingName offset targetByteLength place isRequired
      sourceByteLength 0 targetByteLength true before = .ok ((), after)) :
    (Place.located target).bytes after targetByteLength =
        storedString (place.bytes before sourceByteLength) targetByteLength ↔
      ¬Overtakes (min sourceByteLength (targetByteLength - 1)) (place.distanceTo target)
        (place.byte before) := by
  obtain ⟨stillActive, copied⟩ :=
    (copiedTo_zero before place target _).run targetByteLength located (by omega) ran
  rw [Nat.zero_add] at copied
  rw [bytes_eq_iff_cutAtZero positive, ← copied.copies.eq_cutAtZero_iff (by omega)]
  simp only [cutAtZero_bytes]

theorem emitStringCopyStore_eq_ok {source : Hir.Expr} {sourceCode : ExprCode} {code : Run Unit}
    {view : ViewCode} (found : context.findStorage binding.bindingName = .ok storage)
    (viewed : sourceCode.view = .ok view)
    (emitted : emitStringCopyStore context binding targetByteLength offset source sourceCode =
      .ok code)
    (read : view.run machine = .ok (place, before)) (ran : code machine = .ok ((), after)) :
    copyString context storage binding.bindingName offset targetByteLength place
      view.requiresAccessCheck view.byteLength 0 targetByteLength true before = .ok ((), after) := by
  rw [emitStringCopyStore, found, viewed] at emitted
  cases emitted
  rw [bind_of_ok read] at ran
  obtain ⟨current, middle, got, rest⟩ := run_bind_eq_ok ran
  cases got
  split at rest
  · cases rest
  · exact rest

/-- The View of a temporary that was filled with the bytes of another one. -/
theorem filled_byte (target : BitVec 64) {byteLength index : Nat} (fits : byteLength ≤ 2 ^ 64)
    (inside : index < byteLength) :
    (Place.located target).byte { before with
      memory := before.memory.store target byteLength (assemble byteLength (place.byte before)) }
        index = place.byte before index := by
  have stored := Memory.store_at before.memory target (assemble byteLength (place.byte before))
    inside fits
  exact stored.trans (byteAt_assemble _ inside)

end Copies

/-- The ways a string store is lowered: from a literal, from a View copied where it is (a name, a
member, a captured View), and from a View materialised in a temporary of its own. -/
inductive StringStorePath where
  | literal (bytes : List Byte)
  | copied (source : Hir.Expr) (code : ExprCode)
  | materialized (temporary : Hir.Binding) (source : Hir.Expr) (code : ExprCode)

/-- The code of one statement after another. -/
def emitSequence (first second : Emission (Run Unit)) : Emission (Run Unit) := do
  let first ← first
  let second ← second
  return do first; second

namespace StringStorePath

/-- The name a materialised source is read by. -/
def named (temporary : Hir.Binding) (source : Hir.Expr) : Hir.Expr :=
  .variableRef temporary 0 (fixedResult .cstr source.byteLength)

def emit (context : Context) (binding : Hir.Binding) (targetByteLength offset : Nat) :
    StringStorePath → Emission (Run Unit)
  | literal bytes => emitStringStore context binding targetByteLength offset bytes
  | copied source code => emitStringCopyStore context binding targetByteLength offset source code
  | materialized temporary source code =>
      emitSequence (emitLocalMemory context temporary)
        (emitSequence (emitViewCopyStore context temporary source.byteLength 0 code)
          (emitStringCopyStore context binding targetByteLength offset (named temporary source)
            (exprCode context (named temporary source))))

/-- The View whose bytes are stored; those of a literal are in the program. -/
def source : StringStorePath → Emission ViewCode
  | literal bytes => .ok {
      byteLength := bytes.length
      requiresAccessCheck := false
      run := return .temporary (bytes.getD · 0) }
  | copied _ code | materialized _ _ code => code.view

/-- A temporary is storage of its own, apart from the target. -/
def HasOwnStorage (context : Context) (target : BitVec 64) (targetByteLength : Nat) :
    StringStorePath → Prop
  | materialized temporary source _ => ∃ storage,
      context.findStorage temporary.bindingName = .ok storage ∧ storage.isRebound = false ∧
      source.byteLength < 2 ^ 64 ∧
      ∀ index, index < source.byteLength → ∀ written, written < targetByteLength →
        storage.address + BitVec.ofNat 64 index ≠ target + BitVec.ofNat 64 written
  | _ => True

/-- The target begins inside the bytes the copy still has to read, and what it has written there
differs from what it comes to read. -/
def IsOvertaken (target : BitVec 64) (targetByteLength : Nat) (place : Place)
    (sourceByteLength : Nat) (before : Machine) : StringStorePath → Prop
  | copied _ _ => Overtakes (min sourceByteLength (targetByteLength - 1))
      (place.distanceTo target) (place.byte before)
  | _ => False

section Stores
variable {context : Context} {binding : Hir.Binding} {targetByteLength offset : Nat}
  {storage : Storage} {machine before after : Machine} {place : Place} {code : Run Unit}
  {view : ViewCode}

theorem literal_stores {bytes : List Byte} (positive : 1 ≤ targetByteLength)
    (fits : targetByteLength < 2 ^ 64)
    (found : context.findStorage binding.bindingName = .ok storage)
    (emitted : emitStringStore context binding targetByteLength offset bytes = .ok code)
    (ran : code machine = .ok ((), after)) :
    (Place.located (bindingAddress machine storage binding.bindingName offset)).bytes after
      targetByteLength = storedString bytes targetByteLength := by
  rw [emitStringStore, found] at emitted
  cases emitted
  have written := writeEachByte_eq_ok targetByteLength rfl (fun earlier before => by omega)
    (by omega) ran
  rw [Nat.zero_add] at written
  rw [bytes_eq_iff_cutAtZero positive]
  intro index inside
  have decided : (fun byte : Byte => byte != 0) = fun byte => decide (byte ≠ 0) := by
    funext byte
    exact Bool.eq_iff_iff.mpr (by simp)
  rw [written index inside, ← getD_take_takeWhile, stringBytes, decided]

/-- The machine after a temporary was filled with the bytes of a View. -/
def filled (own : Storage) (byteLength : Nat) (place : Place) (before : Machine) : Machine :=
  { before with
    memory := before.memory.store own.address byteLength
      (assemble byteLength (place.byte before)) }

section Materialized
variable {temporary : Hir.Binding} {source : Hir.Expr} {sourceCode : ExprCode} {own : Storage}

/-- What the statements of a materialised source are emitted to. -/
theorem materialized_emit_eq_ok (foundOwn : context.findStorage temporary.bindingName = .ok own)
    (notRebound : own.isRebound = false) (viewed : sourceCode.view = .ok view)
    (emitted : (materialized temporary source sourceCode).emit context binding targetByteLength
      offset = .ok code) :
    ∃ copy, emitStringCopyStore context binding targetByteLength offset (named temporary source)
        (exprCode context (named temporary source)) = .ok copy ∧
      view.byteLength = source.byteLength ∧
      code = (do
        let word ← loadView context view source.byteLength
        writeBytes context own temporary.bindingName 0 source.byteLength word
        copy) := by
  obtain ⟨declaration, declares, rest⟩ := emission_bind_eq_ok emitted
  obtain ⟨stores, emitsStores, rest⟩ := emission_bind_eq_ok rest
  obtain ⟨fill, fills, restStores⟩ := emission_bind_eq_ok emitsStores
  obtain ⟨copy, copies, restStores⟩ := emission_bind_eq_ok restStores
  rw [emitLocalMemory, foundOwn, emission_ok_bind, notRebound] at declares
  rw [emitViewCopyStore, foundOwn, viewed] at fills
  simp only [emission_ok_bind] at fills
  split at fills
  · cases fills
  · next same =>
      cases declares
      cases fills
      cases restStores
      cases rest
      refine ⟨copy, copies, not_not.mp same, ?_⟩
      simp only [Bool.false_eq_true, if_false, pure_bind, bind_assoc]

theorem bindingAddress_own (notRebound : own.isRebound = false) (current : Machine) :
    bindingAddress current own temporary.bindingName 0 = own.address := by
  rw [bindingAddress, notRebound]
  exact BitVec.add_zero _

theorem named_view (foundOwn : context.findStorage temporary.bindingName = .ok own) :
    (exprCode context (named temporary source)).view = .ok {
      byteLength := source.byteLength
      requiresAccessCheck := own.requiresAccessCheck
      run := Place.located <$> bindingPointer own temporary.bindingName 0 } := by
  simp only [named, exprCode, variableExprCode, foundOwn, emission_ok_bind]
  rfl

theorem named_read (notRebound : own.isRebound = false) (current : Machine) :
    (Place.located <$> bindingPointer own temporary.bindingName 0 : Run Place) current =
      .ok (.located own.address, current) :=
  congrArg (fun address => Except.ok (Place.located address, current))
    (bindingAddress_own notRebound current)

/-- What a materialised source comes to: the temporary is filled and then copied. -/
theorem materialized_eq_ok (found : context.findStorage binding.bindingName = .ok storage)
    (foundOwn : context.findStorage temporary.bindingName = .ok own)
    (notRebound : own.isRebound = false) (viewed : sourceCode.view = .ok view)
    (emitted : (materialized temporary source sourceCode).emit context binding targetByteLength
      offset = .ok code)
    (read : view.run machine = .ok (place, before)) (ran : code machine = .ok ((), after)) :
    view.byteLength = source.byteLength ∧
      copyString context storage binding.bindingName offset targetByteLength (.located own.address)
        own.requiresAccessCheck source.byteLength 0 targetByteLength true
        (filled own source.byteLength place before) = .ok ((), after) := by
  obtain ⟨copy, copies, sameLength, rfl⟩ :=
    materialized_emit_eq_ok foundOwn notRebound viewed emitted
  obtain ⟨word, loaded, load, rest⟩ := run_bind_eq_ok ran
  obtain ⟨rfl, rfl⟩ := loadView_eq_ok read load
  obtain ⟨⟨⟩, stored, write, ranCopy⟩ := run_bind_eq_ok rest
  have filling : stored = filled own source.byteLength place loaded := by
    rw [writeBytes_eq_ok write, bindingAddress_own notRebound, filled]
  subst filling
  exact ⟨sameLength,
    emitStringCopyStore_eq_ok found (named_view foundOwn) copies (named_read notRebound _) ranCopy⟩

end Materialized

theorem emitStringCopyStore_completes (unchecked : context.checked = false) {source : Hir.Expr}
    {sourceCode : ExprCode} (viewed : sourceCode.view = .ok view)
    (emitted : emitStringCopyStore context binding targetByteLength offset source sourceCode =
      .ok code)
    (read : view.run machine = .ok (place, before)) :
    ∃ after, code machine = .ok ((), after) := by
  obtain ⟨storage, found, rest⟩ := emission_bind_eq_ok emitted
  rw [viewed] at rest
  cases rest
  rw [bind_of_ok read]
  simp only [unchecked, Bool.false_and]
  obtain ⟨⟨⟩, after, ran⟩ := completes_get.bind (fun _ => completes_copyString unchecked storage
    binding.bindingName offset targetByteLength place view.requiresAccessCheck view.byteLength 0
    targetByteLength true) before
  exact ⟨after, ran⟩

/-- Without runtime checks every string store comes to its end. -/
theorem completes (path : StringStorePath) (unchecked : context.checked = false)
    (emitted : path.emit context binding targetByteLength offset = .ok code)
    (viewed : path.source = .ok view) (read : view.run machine = .ok (place, before))
    {target : BitVec 64} (own : path.HasOwnStorage context target targetByteLength) :
    ∃ after, code machine = .ok ((), after) := by
  cases path with
  | literal bytes =>
      obtain ⟨storage, found, rest⟩ := emission_bind_eq_ok emitted
      cases rest
      obtain ⟨⟨⟩, after, ran⟩ := completes_writeEachByte unchecked storage binding.bindingName offset
        (stringBytes bytes targetByteLength) 0 targetByteLength machine
      exact ⟨after, ran⟩
  | copied source sourceCode => exact emitStringCopyStore_completes unchecked viewed emitted read
  | materialized temporary source sourceCode =>
      obtain ⟨ownStorage, foundOwn, notRebound, -⟩ := own
      obtain ⟨copy, copies, -, rfl⟩ := materialized_emit_eq_ok foundOwn notRebound viewed emitted
      have check : Completes (context.checkViewLoad view.requiresAccessCheck place
          view.byteLength) := by
        cases place with
        | located address => exact completes_checkLoad unchecked _ _ _
        | temporary contents => exact completes_pure _
      have copies (current : Machine) : ∃ after, copy current = .ok ((), after) :=
        emitStringCopyStore_completes unchecked (named_view foundOwn) copies
          (named_read notRebound current)
      have store : Completes (do
          context.checkViewLoad view.requiresAccessCheck place view.byteLength
          let word ← place.load source.byteLength
          writeBytes context ownStorage temporary.bindingName 0 source.byteLength word
          copy) :=
        check.bind fun _ => (completes_get.bind fun _ => completes_pure _).bind fun word =>
          (completes_writeBytes unchecked ownStorage temporary.bindingName 0 _ word).bind fun _ =>
            fun current => ⟨(), copies current⟩
      obtain ⟨⟨⟩, after, ran⟩ := store before
      refine ⟨after, ?_⟩
      rw [loadView, bind_assoc, bind_of_ok read]
      simpa only [bind_assoc] using ran

/-- A string store leaves what the standard asks for exactly when it is not overtaken, and without
runtime checks it always comes to its end. -/
theorem bytes_eq_storedString_iff {path : StringStorePath} (positive : 1 ≤ targetByteLength)
    (fits : targetByteLength < 2 ^ 64)
    (found : context.findStorage binding.bindingName = .ok storage)
    (emitted : path.emit context binding targetByteLength offset = .ok code)
    (viewed : path.source = .ok view) (read : view.run machine = .ok (place, before))
    (own : path.HasOwnStorage context
      (bindingAddress before storage binding.bindingName offset) targetByteLength) :
    (context.checked = false → ∃ after, code machine = .ok ((), after)) ∧
      ∀ after, code machine = .ok ((), after) →
        ((Place.located (bindingAddress before storage binding.bindingName offset)).bytes after
            targetByteLength =
          storedString (place.bytes before view.byteLength) targetByteLength ↔
        ¬path.IsOvertaken (bindingAddress before storage binding.bindingName offset)
          targetByteLength place view.byteLength before) := by
  refine ⟨fun unchecked => ?_, fun after ran => ?_⟩
  · exact path.completes unchecked emitted viewed read own
  · cases path with
    | literal bytes =>
        cases viewed
        cases read
        have listed : (Place.temporary (bytes.getD · 0)).bytes machine bytes.length = bytes := by
          apply List.ext_getElem (by simp [Place.bytes])
          intro index inside bound
          simp [Place.bytes, Place.byte, bound]
        rw [listed]
        exact iff_of_true (literal_stores positive fits found emitted ran) not_false
    | copied source sourceCode =>
        exact copyString_stores_iff positive fits rfl
          (emitStringCopyStore_eq_ok found viewed emitted read ran)
    | materialized temporary source sourceCode =>
        obtain ⟨ownStorage, foundOwn, notRebound, ownFits, apart⟩ := own
        obtain ⟨sameLength, copied⟩ :=
          materialized_eq_ok found foundOwn notRebound viewed emitted read ran
        refine iff_of_true ?_ not_false
        have same : (Place.located ownStorage.address).bytes
            (filled ownStorage source.byteLength place before) source.byteLength =
              place.bytes before source.byteLength :=
          List.map_congr_left fun index inside =>
            filled_byte ownStorage.address ownFits.le (List.mem_range.mp inside)
        rw [sameLength, ← same]
        refine (copyString_stores_iff positive fits rfl copied).mpr ?_
        refine not_overtakes_of_le (Nat.le_of_not_lt fun bound => ?_)
        have inside : (bindingAddress before storage binding.bindingName offset -
            ownStorage.address).toNat < min source.byteLength (targetByteLength - 1) := bound
        refine apart (bindingAddress before storage binding.bindingName offset -
          ownStorage.address).toNat (by omega) 0 (by omega) ?_
        rw [BitVec.ofNat_toNat, BitVec.setWidth_eq, BitVec.add_comm, BitVec.sub_add_cancel]
        exact (BitVec.add_zero _).symm

end Stores

/-- Every accepted string assignment takes one of these paths: a literal, a name or a member, and
any other source through a temporary. -/
theorem statementCode_lowerStringAssignment {context : Context} {target : Sema.MemoryReference}
    {op : Ast.AssignmentSpelling} {value : Ast.Expr} {source : Sema.Analysis Hir.Expr}
    {statement : Hir.Statement}
    (lowers : Sema.lowerStringAssignment target op value source = .ok statement) :
    ∃ path : StringStorePath, statementCode context statement =
      path.emit context target.binding target.byteLength target.offset := by
  unfold Sema.lowerStringAssignment at lowers
  split at lowers
  · next bytes =>
      cases lowers
      exact ⟨.literal bytes, rfl⟩
  · split at lowers
    · cases lowers
    · next lowered =>
        split at lowers
        · cases lowers
        · split at lowers
          · rename_i binding offset result accepted
            cases lowers
            refine ⟨.copied (.variableRef binding offset result)
              (exprCode context (.variableRef binding offset result)), ?_⟩
            simp only [statementCode]
            rfl
          · split at lowers
            · cases lowers
            · split at lowers
              · cases lowers
              · cases lowers
                refine ⟨.materialized
                  { bindingName := "$assignment.string", storage := .local } lowered
                  (exprCode context lowered), ?_⟩
                simp only [statementCode]
                rfl

end StringStorePath

/-- A name `x` at address 1000 and a name `y` rebound to its second byte. -/
def Context.ofOverlap : Context :=
  { Context.ofObject 1000 8 with
    storage := fun name => some {
      address := 1000
      byteLength := if name = "x" then 8 else 4
      isPointerStorage := false
      isRebound := name != "x"
      isBorrowed := false
      isDeclaration := false } }

def Machine.ofOverlap (bytes : List Byte) : Machine where
  memory := fun cell => bytes.getD (cell - 1000).toNat 0
  bindings := fun _ => 1001
  isAccessible := fun _ _ => true

namespace StringStorePath

/-- The store `y %s= x`. -/
def ofOverlap : StringStorePath :=
  .copied (.variableRef { bindingName := "x", storage := .local } 0 (mutableResult .cstr 8))
    (exprCode .ofOverlap
      (.variableRef { bindingName := "x", storage := .local } 0 (mutableResult .cstr 8)))

/-- Storing `abc` one byte above itself leaves `aaa`. -/
theorem overlapping_bytes_differ : ∃ code after,
    ofOverlap.emit .ofOverlap { bindingName := "y", storage := .local } 4 0 = .ok code ∧
      code (.ofOverlap [97, 98, 99]) = .ok ((), after) ∧
      (Place.located 1001).bytes after 4 = [97, 97, 97, 0] ∧
      storedString ((Place.located 1000).bytes (.ofOverlap [97, 98, 99]) 8) 4 =
        [97, 98, 99, 0] := by
  refine ⟨_, _, rfl, rfl, ?_, ?_⟩
  · decide
  · decide

/-- Equal bytes may be stored above themselves. -/
theorem bytes_eq_storedString_overlapping : ∃ code after,
    ofOverlap.emit .ofOverlap { bindingName := "y", storage := .local } 4 0 = .ok code ∧
      code (.ofOverlap [97, 97, 97]) = .ok ((), after) ∧
      (Place.located 1001).bytes after 4 = [97, 97, 97, 0] := by
  have iff := (@bytes_eq_storedString_iff .ofOverlap { bindingName := "y", storage := .local } 4 0 _
    (.ofOverlap [97, 97, 97]) _ (.located 1000) _ _ ofOverlap (by omega) (by omega) rfl rfl rfl rfl trivial).2 _ rfl
  refine ⟨_, _, rfl, rfl, (iff.mpr ?_).trans (by decide)⟩
  show ¬Overtakes 3 1 ((Place.located 1000).byte (.ofOverlap [97, 97, 97]))
  decide

end StringStorePath

end HitSimple.Codegen

/-
This file says what the logger prints, while its positions do not wrap.

The claimed positions that are not printed are fewer than the ring has slots, because a
call claims only after it has found room behind the released tail and no position is
released before it is printed. So each of them has a slot of its own, which only the call
that claimed it writes. The stamp of a record names its position, so the drainer finds
the stamp it waits for only when that call has written all of its record, and what it
then reads is what the call wrote.
-/

import Mathlib.Data.List.Induction
import TradingEngine.LoggerDrops

namespace Trading

namespace Logger

open RingBuffer Transition

/-! ### Records -/

/-- The record of a call that has returned. -/
structure Record.Holds (record : Record) (call : LogCall) : Prop where
  level : record.level = call.level
  wallNs : record.wallNs = call.wallNs
  text : ∀ index < call.copied, record.text.getD index 0 = call.line.getD index 0
  terminated : record.text.getD call.copied 0 = 0

/-- The record of a call that is about to write a field. -/
def Record.Written (record : Record) (call : LogCall) : Stage → Prop
  | .level => True
  | .wallNs => record.level = call.level
  | .text index => record.level = call.level ∧ record.wallNs = call.wallNs ∧ index < call.copied ∧
      ∀ earlier < index, record.text.getD earlier 0 = call.line.getD earlier 0
  | .terminator => record.level = call.level ∧ record.wallNs = call.wallNs ∧
      ∀ earlier < call.copied, record.text.getD earlier 0 = call.line.getD earlier 0
  | .ready => record.Holds call

/-- The bytes of the line that fit in a record. -/
def LogCall.bytes (call : LogCall) : List UInt8 := call.line.take (maxLine - 1)

/-- The line a call is printed as: its time, its level, and its text up to a zero byte. -/
def LogCall.shown (call : LogCall) : Line where
  sec := call.wallNs.tdiv 1000000000
  nsec := call.wallNs.tmod 1000000000
  level := call.level
  text := call.bytes.takeWhile (· ≠ 0)

section Records

variable {record : Record} {call : LogCall} {stage later : Stage} {head : BitVec 64}
  {text rest : List UInt8}

theorem copied_lt (call : LogCall) : call.copied < maxLine := by
  have bound : call.copied ≤ maxLine - 1 := Nat.min_le_right _ _
  have positive : 0 < maxLine := by decide
  omega

theorem length_bytes (call : LogCall) : call.bytes.length = call.copied := by
  rw [LogCall.bytes, List.length_take, LogCall.copied, Nat.min_comm]

theorem store_ready (more : call.nextStage stage = some later) :
    (call.store head stage record).ready = record.ready := by
  cases stage with
  | ready => cases more
  | _ => rfl

/-- The bytes that are in place stay there when the next one is written. -/
theorem text_store {index count : Nat} {bytes : Vector UInt8 maxLine} {byte : UInt8}
    (before : ∀ earlier < index, bytes.getD earlier 0 = call.line.getD earlier 0)
    (inside : index < maxLine) (upTo : count ≤ index + 1)
    (next : index < count → byte = call.line.getD index 0) :
    ∀ earlier < count,
      (bytes.setIfInBounds index byte).getD earlier 0 = call.line.getD earlier 0 := by
  intro earlier bound
  rw [Slots.getD_setIfInBounds]
  split
  · rename_i here
    rw [here.1] at bound ⊢
    exact next bound
  · exact before earlier (by omega)

theorem Record.Written.store (written : record.Written call stage)
    (more : call.nextStage stage = some later) :
    (call.store head stage record).Written call later := by
  cases stage with
  | level =>
    obtain rfl := Option.some.inj more
    exact rfl
  | wallNs =>
    obtain rfl := Option.some.inj more
    split
    · exact ⟨written, rfl, ‹_›, fun _ none => absurd none (Nat.not_lt_zero _)⟩
    · refine ⟨written, rfl, fun earlier bound => absurd bound ?_⟩
      omega
  | text index =>
    obtain rfl := Option.some.inj more
    obtain ⟨level, wallNs, bound, before⟩ := written
    have inside := lt_trans bound (copied_lt call)
    split
    · rename_i next
      exact ⟨level, wallNs, next, text_store before inside (le_refl _) fun _ => rfl⟩
    · exact ⟨level, wallNs, text_store before inside (by omega) fun _ => rfl⟩
  | terminator =>
    obtain rfl := Option.some.inj more
    obtain ⟨level, wallNs, before⟩ := written
    refine ⟨level, wallNs, text_store before (copied_lt call) (Nat.le_succ _)
      fun past => absurd past (lt_irrefl _), ?_⟩
    show (record.text.setIfInBounds call.copied 0).getD call.copied 0 = 0
    rw [Slots.getD_setIfInBounds, if_pos ⟨rfl, copied_lt call⟩]
  | ready => cases more

theorem Record.Holds.store (holds : record.Holds call) :
    (call.store head .ready record).Holds call :=
  ⟨holds.level, holds.wallNs, holds.text, holds.terminated⟩

/-- The byte behind a part of the text is the next one, or the terminator. -/
theorem Record.Holds.byte (holds : record.Holds call) (whole : text ++ rest = call.bytes) :
    record.text.getD text.length 0 = rest.headD 0 := by
  have length := congrArg List.length whole
  rw [List.length_append, length_bytes] at length
  cases rest with
  | nil =>
    rw [List.length_nil, Nat.add_zero] at length
    rw [length]
    exact holds.terminated
  | cons byte later =>
    rw [List.length_cons] at length
    have found : call.bytes[text.length]? = some byte := by
      rw [← whole, List.getElem?_append_right (le_refl _), Nat.sub_self]
      rfl
    have inside : text.length < maxLine - 1 := by
      have bound := copied_lt call
      omega
    rw [LogCall.bytes, List.getElem?_take_of_lt inside] at found
    rw [holds.text text.length (by omega), List.getD_eq_getElem?_getD, found]
    rfl

theorem shown_text (whole : text ++ rest = call.bytes) (nonzero : ∀ byte ∈ text, byte ≠ 0)
    (terminated : rest.headD 0 = 0) : call.shown.text = text := by
  show call.bytes.takeWhile (· ≠ 0) = text
  rw [← whole, List.takeWhile_append_of_pos fun byte member => decide_eq_true (nonzero byte member)]
  cases rest with
  | nil => rw [List.takeWhile_nil, List.append_nil]
  | cons byte later =>
    rw [List.takeWhile_cons_of_neg, List.append_nil]
    simpa using terminated

end Records

/-! ### Slots -/

theorem isPowerOfTwo_ringSize : ringSize.isPowerOfTwo := ⟨12, rfl⟩

theorem ringSize_lt : ringSize < 2 ^ 64 := by decide

/-- Positions that are closer than the ring is long have slots of their own. -/
theorem slot_advance_inj {low first second : Nat} (firstLow : low ≤ first)
    (firstHigh : first < low + ringSize) (secondLow : low ≤ second)
    (secondHigh : second < low + ringSize)
    (same : slot (advance 0 first) = slot (advance 0 second)) : first = second := by
  have values := congrArg Fin.val same
  rcases Nat.le_total first second with before | before
  · have later : second = first + (second - first) := by omega
    rw [later] at values
    have zero := (slotOf_advance_add_eq_iff isPowerOfTwo_ringSize ringSize_lt 0 first
      (second - first) (by omega)).mp values
    omega
  · have later : first = second + (first - second) := by omega
    rw [later] at values
    have zero := (slotOf_advance_add_eq_iff isPowerOfTwo_ringSize ringSize_lt 0 second
      (first - second) (by omega)).mp values.symm
    omega

theorem advance_inj {first second : Nat} (firstBound : first < 2 ^ 64)
    (secondBound : second < 2 ^ 64) (same : advance (0 : BitVec 64) first = advance 0 second) :
    first = second := by
  have values := congrArg BitVec.toNat same
  rw [toNat_advance, toNat_advance, show (0 : BitVec 64).toNat = 0 from rfl, Nat.zero_add,
    Nat.zero_add, Nat.mod_eq_of_lt firstBound, Nat.mod_eq_of_lt secondBound] at values
  exact values

/-! ### What holds between the steps -/

variable {Id : Type} {s after : Logger Id}

/-- A claim is made only while the positions do not wrap. -/
def Unwrapped (s : Logger Id) : Action Id → Prop
  | .claim _ => s.claims.length + 1 < 2 ^ 64
  | _ => True

instance (s : Logger Id) (action : Action Id) : Decidable (s.Unwrapped action) :=
  match action with
  | .claim _ => inferInstanceAs (Decidable (s.claims.length + 1 < 2 ^ 64))
  | .log _ _ => inferInstanceAs (Decidable True)
  | .loadTail _ => inferInstanceAs (Decidable True)
  | .claimFails _ => inferInstanceAs (Decidable True)
  | .countDrop _ => inferInstanceAs (Decidable True)
  | .write _ => inferInstanceAs (Decidable True)
  | .drain => inferInstanceAs (Decidable True)
  | .stop => inferInstanceAs (Decidable True)
  | .join => inferInstanceAs (Decidable True)

/-- What a thread knows in `log`: room behind the head it holds once it has tested for it, and
its own unprinted position and what it has written there once it has claimed one. -/
def Fits (s : Logger Id) (id : Id) : Producer → Prop
  | .claiming _ _ seen => seen < s.released + ringSize
  | .writing call head position stage => s.claims[position]? = some (id, call) ∧
      position ∉ s.completed ∧ s.printed.length ≤ position ∧
      (s.ring (slot head)).Written call stage
  | _ => True

/-- The record the drainer is at is complete, and what it has read is of the call that wrote
it. -/
def Reading (s : Logger Id) (fact : LogCall → Prop) : Prop :=
  s.printed.length ∈ s.completed ∧
    ∀ owner call, s.claims[s.printed.length]? = some (owner, call) → fact call

/-- What the drainer knows in its loop. -/
def Reads (s : Logger Id) : Drainer → Prop
  | .testReady head tail => tail < head
  | .readSec _ _ => s.Reading fun _ => True
  | .readNsec _ _ sec => s.Reading fun call => sec = call.shown.sec
  | .readLevel _ _ sec nsec =>
    s.Reading fun call => sec = call.shown.sec ∧ nsec = call.shown.nsec
  | .readText _ _ sec nsec level text => s.Reading fun call => sec = call.shown.sec ∧
      nsec = call.shown.nsec ∧ level = call.level ∧ text <+: call.bytes ∧ ∀ byte ∈ text, byte ≠ 0
  | _ => True

/-- The line printed for a position is the one of the call that claimed it. -/
def Shows (s : Logger Id) (position : Nat) (entry : Printed) : Prop :=
  ∃ owner call, s.claims[position]? = some (owner, call) ∧ entry.position = advance 0 position ∧
    entry.record.Holds call ∧ entry.line = call.shown

/-- What holds of the ring between any two steps. -/
structure Consistent (s : Logger Id) : Prop where
  few : s.claims.length < 2 ^ 64
  room : s.claims.length ≤ s.released + ringSize
  released_le : s.released ≤ s.printed.length
  printed_le : s.printed.length ≤ s.claims.length
  producers : ∀ id, s.Fits id (s.producers id)
  stamps : ∀ slot position, position + 1 < 2 ^ 64 →
    (s.ring slot).ready = advance 0 (position + 1) → position ∈ s.completed
  completed : ∀ position ∈ s.completed, ∃ owner call, s.claims[position]? = some (owner, call) ∧
    (s.printed.length ≤ position → (s.ring (slot (advance 0 position))).Holds call)
  drainer : s.Reads s.drainer
  lines : ∀ position entry, s.printed[position]? = some entry → s.Shows position entry

theorem consistent_initial (ring : Fin ringSize → Record) :
    (initial ring : Logger Id).Consistent where
  few := Nat.two_pow_pos 64
  room := Nat.zero_le _
  released_le := le_refl _
  printed_le := le_refl _
  producers := fun _ => trivial
  stamps := by
    intro slot position bound stamped
    have zero : position + 1 = 0 := advance_inj bound (by decide)
      (stamped.symm.trans (advance_zero 0).symm)
    cases zero
  completed := List.forall_mem_nil _
  drainer := trivial
  lines := nofun

/-- The count of dropped messages and the two flags of `stop` have no part in it. -/
theorem Consistent.setFlags (consistent : s.Consistent) (dropped : BitVec 64) (running : Bool)
    (stopper : Stopper) (drops : List (Nat × Nat)) :
    ({ s with dropped, running, stopper, drops } : Logger Id).Consistent :=
  ⟨consistent.few, consistent.room, consistent.released_le, consistent.printed_le,
    consistent.producers, consistent.stamps, consistent.completed, consistent.drainer,
    consistent.lines⟩

theorem Consistent.completed_lt (consistent : s.Consistent) {position : Nat}
    (completed : position ∈ s.completed) : position < s.claims.length := by
  obtain ⟨owner, call, found, -⟩ := consistent.completed position completed
  exact (List.getElem?_eq_some_iff.mp found).1

theorem getElem?_concat_of_some {Value : Type} {values : List Value} {index : Nat} {value : Value}
    (found : values[index]? = some value) (last : Value) :
    (values ++ [last])[index]? = some value := by
  rw [List.getElem?_append_left (List.getElem?_eq_some_iff.mp found).1]
  exact found

/-- A claim leaves alone what the drainer knows of the record it is at. -/
theorem Reading.claim {fact : LogCall → Prop} (reading : s.Reading fact)
    (consistent : s.Consistent) {claimed : Logger Id} {last : Id × LogCall}
    (claims : claimed.claims = s.claims ++ [last]) (completed : claimed.completed = s.completed)
    (printed : claimed.printed = s.printed) : claimed.Reading fact := by
  unfold Reading
  rw [claims, completed, printed, List.getElem?_append_left (consistent.completed_lt reading.1)]
  exact reading

/-- What a thread knows stays true when no less is released and, if it writes, its position and
its record are left alone. -/
theorem Fits.transfer {id : Id} {producer : Producer} (fits : s.Fits id producer)
    (released : s.released ≤ after.released)
    (writer : ∀ call head position stage, producer = .writing call head position stage →
      s.Fits id (.writing call head position stage) →
        after.Fits id (.writing call head position stage)) : after.Fits id producer := by
  cases producer with
  | claiming call head seen => exact lt_of_lt_of_le fits (Nat.add_le_add_right released _)
  | writing call head position stage => exact writer call head position stage rfl fits
  | _ => trivial

theorem Reads.transfer {drainer : Drainer} (reads : s.Reads drainer)
    (reading : ∀ fact, s.Reading fact → after.Reading fact) : after.Reads drainer := by
  cases drainer <;> first | exact reading _ reads | exact reads

/-! ### Threads that write -/

variable {id : Id} {call : LogCall} {head : BitVec 64} {position : Nat} {stage : Stage}

/-- What a thread that writes knows of its position and of the record there. -/
theorem Consistent.writer (consistent : s.Consistent)
    (writing : s.producers id = .writing call head position stage) :
    s.claims[position]? = some (id, call) ∧ position ∉ s.completed ∧
      s.printed.length ≤ position ∧ (s.ring (slot head)).Written call stage := by
  have fits := consistent.producers id
  rw [writing] at fits
  exact fits

/-- A position is written by the one thread that claimed it. -/
theorem Consistent.writer_unique (consistent : s.Consistent)
    (writing : s.producers id = .writing call head position stage) {other : Id} {call' : LogCall}
    {head' : BitVec 64} {stage' : Stage}
    (also : s.producers other = .writing call' head' position stage') : other = id := by
  have found := (consistent.writer also).1
  rw [(consistent.writer writing).1, Option.some.injEq, Prod.mk.injEq] at found
  exact found.1.symm

/-- A position whose slot is written has no slot in common with another one that is claimed and
not printed. -/
theorem Consistent.slot_ne (consistent : s.Consistent) (counted : s.Counted)
    (writing : s.producers id = .writing call head position stage) {other : Nat}
    (unprinted : s.printed.length ≤ other) (claimed : other < s.claims.length)
    (different : other ≠ position) : slot (advance 0 other) ≠ slot head := by
  have word := (counted.held id (head, position) (by rw [writing]; rfl)).1
  have fits := consistent.writer writing
  have bound := (List.getElem?_eq_some_iff.mp fits.1).1
  have room := consistent.room
  have released := consistent.released_le
  intro same
  dsimp only at word
  rw [word] at same
  exact different (slot_advance_inj unprinted (by omega) fits.2.2.1 (by omega) same)

/-- A write leaves what the other threads know alone. -/
theorem Consistent.fits_setRecord (consistent : s.Consistent) (counted : s.Counted)
    (writing : s.producers id = .writing call head position stage) (record : Record) {other : Id}
    (different : other ≠ id) : (s.setRecord (slot head) record).Fits other (s.producers other) := by
  refine (consistent.producers other).transfer (le_refl _) ?_
  rintro call' head' position' stage' phase ⟨found, unfinished, unprinted, written⟩
  have word := (counted.held other (head', position') (by rw [phase]; rfl)).1
  have apart : position' ≠ position := by
    rintro rfl
    exact different (consistent.writer_unique writing phase)
  have elsewhere := consistent.slot_ne counted writing unprinted
    (List.getElem?_eq_some_iff.mp found).1 apart
  refine ⟨found, unfinished, unprinted, ?_⟩
  dsimp only at word
  rw [setRecord_ring, if_neg (word ▸ elsewhere)]
  exact written

/-- A write leaves the records of the calls that returned alone. -/
theorem Consistent.completed_setRecord (consistent : s.Consistent) (counted : s.Counted)
    (writing : s.producers id = .writing call head position stage) (record : Record) {other : Nat}
    (completed : other ∈ s.completed) :
    ∃ owner caller, s.claims[other]? = some (owner, caller) ∧ (s.printed.length ≤ other →
      ((s.setRecord (slot head) record).ring (slot (advance 0 other))).Holds caller) := by
  obtain ⟨owner, caller, found, stored⟩ := consistent.completed other completed
  refine ⟨owner, caller, found, fun unprinted => ?_⟩
  rw [setRecord_ring, if_neg]
  · exact stored unprinted
  · refine consistent.slot_ne counted writing unprinted (consistent.completed_lt completed) ?_
    rintro rfl
    exact (consistent.writer writing).2.1 completed

/-! ### The steps of `log` -/

section Log

variable [DecidableEq Id]

theorem Consistent.setProducer (consistent : s.Consistent) {id : Id} {producer : Producer}
    (fits : s.Fits id producer) : (s.setProducer id producer).Consistent where
  few := consistent.few
  room := consistent.room
  released_le := consistent.released_le
  printed_le := consistent.printed_le
  producers := by
    intro other
    rw [setProducer_producers]
    split
    · rename_i same
      rw [same]
      exact fits
    · exact consistent.producers other
  stamps := consistent.stamps
  completed := consistent.completed
  drainer := consistent.drainer
  lines := consistent.lines

/-- The test for room finds it, also when the drainer has passed the head. -/
theorem Consistent.loadTail (consistent : s.Consistent) (counted : s.Counted) {id : Id}
    {call : LogCall} {head : BitVec 64} {seen : Nat}
    (loading : s.producers id = .loadingTail call head seen) :
    (s.loadTail id call head seen).Consistent := by
  obtain ⟨word, bound⟩ := counted.held id (head, seen) (by rw [loading]; rfl)
  unfold Logger.loadTail
  split
  · have moved := @Consistent.setProducer _ _ _ consistent id .dropping trivial
    exact moved.setFlags _ _ _ _
  · rename_i test
    refine consistent.setProducer ?_
    show seen < s.released + ringSize
    by_contra far
    have between : seen = s.released + (seen - s.released) := by omega
    have few := consistent.few
    have distance := toNat_advance_sub (0 : BitVec 64) s.released (seen - s.released)
      (by dsimp only at bound; omega)
    rw [← between, ← word, ← counted.tail] at distance
    dsimp only at distance
    omega

/-- A thread that claims found room behind the head, so the slot it claims is free. -/
theorem Consistent.claim (consistent : s.Consistent) (counted : s.Counted) {id : Id}
    {call : LogCall} {head : BitVec 64} {seen : Nat}
    (claiming : s.producers id = .claiming call head seen) (current : s.head = head)
    (unwrapped : s.claims.length + 1 < 2 ^ 64) : (s.claim id call head).Consistent := by
  obtain ⟨word, bound⟩ := counted.held id (head, seen) (by rw [claiming]; rfl)
  have few := consistent.few
  have last : seen = s.claims.length := by
    refine advance_inj (lt_of_le_of_lt bound few) few ?_
    rw [← counted.head, current]
    exact word.symm
  have fits := consistent.producers id
  rw [claiming] at fits
  have room : seen < s.released + ringSize := fits
  have length : (s.claim id call head).claims.length = s.claims.length + 1 := by
    simp [Logger.claim]
  constructor
  case few => rwa [length]
  case room =>
    rw [length]
    exact last ▸ room
  case released_le => exact consistent.released_le
  case printed_le =>
    rw [length]
    exact Nat.le_succ_of_le consistent.printed_le
  case producers =>
    intro other
    show Fits _ other ((s.setProducer id _).producers other)
    rw [setProducer_producers]
    split
    · rename_i same
      subst same
      refine ⟨List.getElem?_concat_length, fun completed => ?_, consistent.printed_le, trivial⟩
      exact absurd (consistent.completed_lt completed) (lt_irrefl _)
    · refine (consistent.producers other).transfer (le_refl _) ?_
      rintro call' head' position stage - ⟨found, unfinished, unprinted, written⟩
      exact ⟨getElem?_concat_of_some found _, unfinished, unprinted, written⟩
  case stamps => exact consistent.stamps
  case completed =>
    intro position member
    obtain ⟨owner, caller, found, stored⟩ := consistent.completed position member
    exact ⟨owner, caller, getElem?_concat_of_some found _, stored⟩
  case drainer =>
    exact consistent.drainer.transfer fun _ reading => reading.claim consistent rfl rfl rfl
  case lines =>
    intro position entry listed
    obtain ⟨owner, caller, found, shown⟩ := consistent.lines position entry listed
    exact ⟨owner, caller, getElem?_concat_of_some found _, shown⟩

/-- A field of the record is written and the call goes on. -/
theorem Consistent.writeMore (consistent : s.Consistent) (counted : s.Counted)
    (writing : s.producers id = .writing call head position stage) {later : Stage}
    (more : call.nextStage stage = some later) :
    ((s.setRecord (slot head) (call.store head stage (s.ring (slot head)))).setProducer id
      (.writing call head position later)).Consistent := by
  have fits := consistent.writer writing
  refine ⟨consistent.few, consistent.room, consistent.released_le, consistent.printed_le, ?_, ?_,
    fun other => consistent.completed_setRecord counted writing _, consistent.drainer,
    consistent.lines⟩
  · intro other
    rw [setProducer_producers]
    split
    · rename_i same
      subst same
      refine ⟨fits.1, fits.2.1, fits.2.2.1, ?_⟩
      show ((s.setRecord _ _).ring (slot head)).Written call later
      rw [setRecord_ring, if_pos rfl]
      exact fits.2.2.2.store more
    · exact consistent.fits_setRecord counted writing _ ‹_›
  · intro other stamp bound stamped
    refine consistent.stamps other stamp bound ?_
    rw [← stamped]
    show _ = ((s.setRecord _ _).ring other).ready
    rw [setRecord_ring]
    split
    · rename_i same
      rw [store_ready more, same]
    · rfl

/-- The record is stamped and the call returns. -/
theorem Consistent.writeReady (consistent : s.Consistent) (counted : s.Counted)
    (writing : s.producers id = .writing call head position .ready) :
    ({ (s.setRecord (slot head) (call.store head .ready (s.ring (slot head)))).setProducer id
      .idle with completed := s.completed ++ [position] } : Logger Id).Consistent := by
  have fits := consistent.writer writing
  have word := (counted.held id (head, position) (by rw [writing]; rfl)).1
  dsimp only at word
  have bound := (List.getElem?_eq_some_iff.mp fits.1).1
  have few := consistent.few
  refine ⟨consistent.few, consistent.room, consistent.released_le, consistent.printed_le, ?_, ?_,
    ?_, ?_, consistent.lines⟩
  · intro other
    show Fits _ other ((Logger.setProducer _ id .idle).producers other)
    rw [setProducer_producers]
    split
    · trivial
    · rename_i different
      have others := consistent.fits_setRecord counted writing
        (call.store head .ready (s.ring (slot head))) different
      refine others.transfer (le_refl _) ?_
      rintro call' head' position' stage' phase ⟨found, unfinished, unprinted, written⟩
      refine ⟨found, fun member => ?_, unprinted, written⟩
      rcases List.mem_append.mp member with earlier | last
      · exact unfinished earlier
      · rw [List.mem_singleton.mp last] at phase
        exact different (consistent.writer_unique writing phase)
  · intro other stamp unwrapped stamped
    change ((s.setRecord _ _).ring other).ready = _ at stamped
    rw [setRecord_ring] at stamped
    split at stamped
    · have same : position + 1 = stamp + 1 := by
        refine advance_inj (by omega) unwrapped ?_
        rw [advance_succ, ← word]
        exact stamped
      refine List.mem_append_right _ (List.mem_singleton.mpr ?_)
      omega
    · exact List.mem_append_left _ (consistent.stamps other stamp unwrapped stamped)
  · intro other member
    rcases List.mem_append.mp member with earlier | last
    · exact consistent.completed_setRecord counted writing _ earlier
    · rw [List.mem_singleton.mp last]
      refine ⟨id, call, fits.1, fun _ => ?_⟩
      show ((s.setRecord _ _).ring _).Holds call
      rw [setRecord_ring, if_pos (by rw [word])]
      exact Record.Holds.store fits.2.2.2
  · exact consistent.drainer.transfer fun _ reading =>
      ⟨List.mem_append_left _ reading.1, reading.2⟩

theorem Consistent.write (consistent : s.Consistent) (counted : s.Counted)
    (writing : s.producers id = .writing call head position stage) :
    (s.write id call head position stage).Consistent := by
  unfold Logger.write
  cases more : call.nextStage stage with
  | some later => exact consistent.writeMore counted writing more
  | none =>
    cases stage with
    | ready => exact consistent.writeReady counted writing
    | _ => cases more

end Log

/-! ### The steps of the drainer -/

theorem Consistent.setDrainer (consistent : s.Consistent) {drainer : Drainer}
    (reads : s.Reads drainer) : ({ s with drainer } : Logger Id).Consistent :=
  ⟨consistent.few, consistent.room, consistent.released_le, consistent.printed_le,
    consistent.producers, consistent.stamps, consistent.completed, reads, consistent.lines⟩

theorem reads_nextRecord (s : Logger Id) (head tail : BitVec 64) :
    s.Reads (nextRecord head tail) := by
  unfold nextRecord
  split
  · exact ‹tail < head›
  · trivial

/-- The record the drainer is at is the one of the call that claimed its position. -/
theorem Consistent.reading (consistent : s.Consistent) (counted : s.Counted) {tail : BitVec 64}
    (inside : s.drainer.tail? = some tail) {fact : LogCall → Prop} (reading : s.Reading fact) :
    ∃ owner call, s.claims[s.printed.length]? = some (owner, call) ∧ fact call ∧
      (s.ring (slot tail)).Holds call := by
  obtain ⟨owner, call, found, stored⟩ := consistent.completed _ reading.1
  rw [counted.inside tail inside]
  exact ⟨owner, call, found, reading.2 owner call found, stored (le_refl _)⟩

theorem Reading.of_found {fact : LogCall → Prop} {owner : Id} {call : LogCall}
    (completed : s.printed.length ∈ s.completed)
    (found : s.claims[s.printed.length]? = some (owner, call)) (holds : fact call) :
    s.Reading fact := by
  refine ⟨completed, fun other caller also => ?_⟩
  rw [found, Option.some.injEq, Prod.mk.injEq] at also
  exact also.2 ▸ holds

/-- The stamp the drainer waits for is set only when the record is complete. -/
theorem Consistent.testReady (consistent : s.Consistent) (counted : s.Counted)
    {head tail : BitVec 64} (stands : s.drainer = .testReady head tail)
    (ready : (s.ring (slot tail)).ready = tail + 1) : s.printed.length ∈ s.completed := by
  have word := counted.inside tail (by rw [stands]; rfl)
  have before : tail < head := by
    have reads := consistent.drainer
    rwa [stands] at reads
  have number : tail.toNat = s.printed.length := by
    rw [word, toNat_advance, show (0 : BitVec 64).toNat = 0 from rfl, Nat.zero_add,
      Nat.mod_eq_of_lt (lt_of_le_of_lt consistent.printed_le consistent.few)]
  have unwrapped : s.printed.length + 1 < 2 ^ 64 := by
    have bound := head.isLt
    have less : tail.toNat < head.toNat := before
    omega
  refine consistent.stamps (slot tail) s.printed.length unwrapped ?_
  rw [ready, word, advance_succ]

/-- A line is printed, and the next position is not the one of a call that still writes. -/
theorem Consistent.print (consistent : s.Consistent) (completed : s.printed.length ∈ s.completed)
    {entry : Printed} (shows : s.Shows s.printed.length entry) (head tail : BitVec 64) :
    ({ s with
      drainer := nextRecord head tail
      printed := s.printed ++ [entry] } : Logger Id).Consistent := by
  have length : (s.printed ++ [entry]).length = s.printed.length + 1 := by
    rw [List.length_append, List.length_singleton]
  constructor
  case few => exact consistent.few
  case room => exact consistent.room
  case released_le =>
    rw [length]
    exact Nat.le_succ_of_le consistent.released_le
  case printed_le =>
    rw [length]
    exact consistent.completed_lt completed
  case producers =>
    intro id
    refine (consistent.producers id).transfer (le_refl _) ?_
    rintro call head' position stage - ⟨found, unfinished, unprinted, written⟩
    refine ⟨found, unfinished, ?_, written⟩
    rw [length]
    refine Nat.lt_of_le_of_ne unprinted ?_
    rintro rfl
    exact unfinished completed
  case stamps => exact consistent.stamps
  case completed =>
    intro position member
    obtain ⟨owner, call, found, stored⟩ := consistent.completed position member
    refine ⟨owner, call, found, fun unprinted => stored ?_⟩
    rw [length] at unprinted
    exact Nat.le_of_succ_le unprinted
  case drainer => exact reads_nextRecord _ _ _
  case lines =>
    intro position other listed
    by_cases earlier : position < s.printed.length
    · rw [List.getElem?_append_left earlier] at listed
      exact consistent.lines position other listed
    · have bound := (List.getElem?_eq_some_iff.mp listed).1
      rw [length] at bound
      obtain rfl : position = s.printed.length := by omega
      rw [List.getElem?_concat_length, Option.some.injEq] at listed
      exact listed ▸ shows

/-- The next byte of the text is read, or the line is printed. -/
theorem Consistent.readText (consistent : s.Consistent) (counted : s.Counted)
    {head tail : BitVec 64} {sec nsec : Int} {level : LogLevel} {text : List UInt8}
    (stands : s.drainer = .readText head tail sec nsec level text) :
    (s.readText head tail sec nsec level text).Consistent := by
  have inside : s.drainer.tail? = some tail := by rw [stands]; rfl
  have reads := consistent.drainer
  rw [stands] at reads
  obtain ⟨owner, call, found, ⟨sameSec, sameNsec, sameLevel, ⟨rest, whole⟩, nonzero⟩, holds⟩ :=
    consistent.reading counted inside reads
  have byte := holds.byte whole
  unfold Logger.readText
  dsimp only
  rw [byte]
  split
  · rename_i terminated
    refine consistent.print reads.1 ⟨owner, call, found, counted.inside tail inside, holds, ?_⟩ _ _
    rw [← shown_text whole nonzero terminated, sameSec, sameNsec, sameLevel]
    rfl
  · rename_i more
    refine consistent.setDrainer (Reading.of_found reads.1 found
      ⟨sameSec, sameNsec, sameLevel, ?_, ?_⟩)
    · cases rest with
      | nil => exact absurd rfl more
      | cons next later => exact ⟨later, by rw [← whole, List.append_assoc]; rfl⟩
    · intro other member
      rcases List.mem_append.mp member with earlier | last
      · exact nonzero other earlier
      · rw [List.mem_singleton.mp last]
        exact more

/-- The tail gives back only what is printed. -/
theorem Consistent.storeTail (consistent : s.Consistent) (tail : BitVec 64) :
    ({ s with
      drainer := .loadHead
      tail := tail
      released := s.printed.length } : Logger Id).Consistent := by
  have released := consistent.released_le
  have room := consistent.room
  refine ⟨consistent.few, by dsimp only; omega, le_refl _, consistent.printed_le, fun id => ?_,
    consistent.stamps, consistent.completed, trivial, consistent.lines⟩
  exact (consistent.producers id).transfer released fun _ _ _ _ _ fits => fits

theorem Consistent.drains (consistent : s.Consistent) (counted : s.Counted)
    (drains : s.Drains after) : after.Consistent := by
  have reads := consistent.drainer
  cases drains with
  | loadHead stands => exact consistent.setDrainer trivial
  | loadTail head stands =>
    refine consistent.setDrainer ?_
    split
    · trivial
    · exact reads_nextRecord _ _ _
  | testRunning stands =>
    refine consistent.setDrainer ?_
    split <;> trivial
  | testReady head tail stands =>
    refine consistent.setDrainer ?_
    split
    · exact ⟨consistent.testReady counted stands ‹_›, fun _ _ _ => trivial⟩
    · trivial
  | readSec head tail stands =>
    rw [stands] at reads
    obtain ⟨owner, call, found, -, holds⟩ :=
      consistent.reading counted (by rw [stands]; rfl) reads
    refine consistent.setDrainer (Reading.of_found reads.1 found ?_)
    rw [holds.wallNs]
    rfl
  | readNsec head tail sec stands =>
    rw [stands] at reads
    obtain ⟨owner, call, found, sameSec, holds⟩ :=
      consistent.reading counted (by rw [stands]; rfl) reads
    refine consistent.setDrainer (Reading.of_found reads.1 found ⟨sameSec, ?_⟩)
    rw [holds.wallNs]
    rfl
  | readLevel head tail sec nsec stands =>
    rw [stands] at reads
    obtain ⟨owner, call, found, ⟨sameSec, sameNsec⟩, holds⟩ :=
      consistent.reading counted (by rw [stands]; rfl) reads
    exact consistent.setDrainer (Reading.of_found reads.1 found
      ⟨sameSec, sameNsec, holds.level, List.nil_prefix,
        List.forall_mem_nil _⟩)
  | readText head tail sec nsec level text stands => exact consistent.readText counted stands
  | storeTail tail stands => exact consistent.storeTail tail

/-! ### Every run -/

variable [DecidableEq Id]

theorem Consistent.moves (consistent : s.Consistent) (counted : s.Counted) {action : Action Id}
    (unwrapped : s.Unwrapped action) (moves : s.Moves action after) : after.Consistent := by
  cases moves with
  | log id call idle => exact consistent.setProducer trivial
  | loadTail id call head seen loading => exact consistent.loadTail counted loading
  | claim id call head seen claiming current =>
    exact consistent.claim counted claiming current unwrapped
  | claimFails id call head seen claiming => exact consistent.setProducer trivial
  | countDrop id dropping =>
    have moved := @Consistent.setProducer _ _ _ consistent id .idle trivial
    exact moved.setFlags _ _ _ _
  | write id call head position stage writing => exact consistent.write counted writing
  | drain drains => exact consistent.drains counted drains
  | stop idle => exact consistent.setFlags _ _ _ _
  | join joining exited => exact consistent.setFlags _ _ _ _

theorem consistent {ring : Fin ringSize → Record}
    (reached : Reaches step Unwrapped (initial ring) s) : s.Counted ∧ s.Consistent :=
  @Reaches.invariant _ _ step _ _ (fun s => s.Counted ∧ s.Consistent)
    ⟨counted_initial ring, consistent_initial ring⟩
    (fun _ _ _ holds unwrapped stepped => ⟨holds.1.moves (moves_of_step stepped),
      holds.2.moves holds.1 unwrapped (moves_of_step stepped)⟩) _ reached

/-- In every run in which the positions do not wrap, the drainer prints the claimed positions one
after another from the first one on, each from a record that holds the whole level and text of
the call that claimed it; and a call that writes owns its position, which is the only claimed
and unprinted one with that slot. -/
theorem prints_claims_in_order (Id : Type) [DecidableEq Id] (ring : Fin ringSize → Record)
    (s : Logger Id) (reached : Reaches step Unwrapped (initial ring) s) :
    s.printed.length ≤ s.claims.length ∧
    (∀ (position : Nat) (entry : Printed), s.printed[position]? = some entry →
      ∃ (owner : Id) (call : LogCall), s.claims[position]? = some (owner, call) ∧
        entry.position.toNat = position ∧ entry.record.Holds call ∧ entry.line = call.shown) ∧
    ∀ id call head position stage, s.producers id = .writing call head position stage →
      s.claims[position]? = some (id, call) ∧ s.printed.length ≤ position ∧
      ∀ other, s.printed.length ≤ other → other < s.claims.length →
        slot (advance 0 other) = slot head → other = position := by
  obtain ⟨counted, consistent⟩ := consistent reached
  refine ⟨consistent.printed_le, fun position entry listed => ?_, ?_⟩
  · obtain ⟨owner, call, found, word, holds, line⟩ := consistent.lines position entry listed
    have bound := lt_trans (List.getElem?_eq_some_iff.mp found).1 consistent.few
    refine ⟨owner, call, found, ?_, holds, line⟩
    rw [word, toNat_advance, show (0 : BitVec 64).toNat = 0 from rfl, Nat.zero_add,
      Nat.mod_eq_of_lt bound]
  · intro id call head position stage writing
    obtain ⟨found, -, unprinted, -⟩ := consistent.writer writing
    refine ⟨found, unprinted, fun other unprinted' claimed same => ?_⟩
    by_contra different
    exact consistent.slot_ne counted writing unprinted' claimed different same

/-! ### A ring that is used again -/

section Reuse

variable {s : Logger Unit} {byte : UInt8}

/-- A message of one byte. -/
def letter (byte : UInt8) : LogCall := ⟨.info, [byte], 0⟩

theorem update_unit {Value : Type} (f : Unit → Value) (value : Value) :
    Function.update f () value = fun _ => value :=
  funext fun _ => Function.update_self _ _ _

/-- The only thread has claimed the next position and writes its record. -/
def noted (s : Logger Unit) (byte : UInt8) (stage : Stage) (record : Record) : Logger Unit :=
  { s with
    head := s.head + 1
    claims := s.claims ++ [((), letter byte)]
    producers := fun _ => .writing (letter byte) s.head s.claims.length stage
    ring := Function.update s.ring (slot s.head) record }

/-- The next field of the record is written. -/
theorem step_write_noted (s : Logger Unit) {stage later : Stage} {record : Record}
    (next : (letter byte).nextStage stage = some later) :
    (s.noted byte stage record).step (.write ()) =
      some (s.noted byte later ((letter byte).store s.head stage record)) := by
  show some ((s.noted byte stage record).write () (letter byte) s.head s.claims.length stage) = _
  unfold write setRecord setProducer noted
  dsimp only
  rw [next]
  dsimp only
  rw [update_unit, Function.update_self, Function.update_idem]

/-- The record of a message, but for the bytes past its end. -/
def letterRecord (s : Logger Unit) (byte : UInt8) : Record :=
  [Stage.level, .wallNs, .text 0, .terminator, .ready].foldl
    (fun record stage => (letter byte).store s.head stage record) (s.ring (slot s.head))

/-- The message is written. -/
def posted (s : Logger Unit) (byte : UInt8) : Logger Unit :=
  { s with
    head := s.head + 1
    claims := s.claims ++ [((), letter byte)]
    producers := fun _ => .idle
    ring := Function.update s.ring (slot s.head) (s.letterRecord byte)
    completed := s.completed ++ [s.claims.length] }

/-- A message is logged while the ring is empty. -/
theorem reaches_posted (byte : UInt8) {start : Logger Unit}
    (reached : Reaches step Unwrapped start s)
    (idle : s.producers () = .idle) (empty : s.tail = s.head)
    (unwrapped : s.claims.length + 1 < 2 ^ 64) : Reaches step Unwrapped start (s.posted byte) := by
  have room : ¬ringSize ≤ (s.head - s.tail).toNat := by
    rw [empty, BitVec.sub_self]
    decide
  have logged := Reaches.next (Action.log () (letter byte)) reached trivial
    (step_log idle (letter byte))
  have loading : (s.loadHead () (letter byte)).producers () =
      .loadingTail (letter byte) s.head s.claims.length := by
    rw [loadHead, setProducer_producers, if_pos rfl]
  have tested := Reaches.next (Action.loadTail ()) logged trivial (step_loadTail loading)
  rw [Logger.loadTail, if_neg (show ¬ringSize ≤
    (s.head - (s.loadHead () (letter byte)).tail).toNat from room)] at tested
  have claiming : ((s.loadHead () (letter byte)).setProducer ()
      (.claiming (letter byte) s.head s.claims.length)).producers () =
        .claiming (letter byte) s.head s.claims.length := by
    rw [setProducer_producers, if_pos rfl]
  have claimed := Reaches.next (Action.claim ()) tested unwrapped (step_claim claiming)
  have first : ((s.loadHead () (letter byte)).setProducer ()
      (.claiming (letter byte) s.head s.claims.length)).claim () (letter byte) s.head =
        s.noted byte .level (s.ring (slot s.head)) := by
    unfold claim loadHead setProducer noted
    dsimp only
    rw [update_unit, Function.update_eq_self]
  change Reaches step Unwrapped start (((s.loadHead () (letter byte)).setProducer ()
      (.claiming (letter byte) s.head s.claims.length)).claim () (letter byte) s.head) at claimed
  rw [first] at claimed
  have wallNs := Reaches.next (Action.write ()) claimed trivial (step_write_noted s rfl)
  have text := Reaches.next (Action.write ()) wallNs trivial (step_write_noted s rfl)
  have terminator := Reaches.next (Action.write ()) text trivial (step_write_noted s rfl)
  have ready := Reaches.next (Action.write ()) terminator trivial (step_write_noted s rfl)
  refine Reaches.next (Action.write ()) ready trivial ?_
  show some (write _ () (letter byte) s.head s.claims.length .ready) = _
  unfold write setRecord setProducer noted posted
  dsimp only [LogCall.nextStage]
  rw [update_unit, Function.update_self, Function.update_idem]
  rfl

theorem shown_letter (nonzero : byte ≠ 0) :
    (letter byte).shown = ⟨0, 0, .info, [byte]⟩ := by
  have text : [byte].takeWhile (· ≠ 0) = [byte] := by
    rw [List.takeWhile_cons_of_pos (by simpa using nonzero), List.takeWhile_nil]
  show Line.mk 0 0 .info ([byte].takeWhile (· ≠ 0)) = _
  rw [text]

/-- The message that is next is printed, and its position given back. -/
def shown (s : Logger Unit) (byte : UInt8) : Logger Unit :=
  { s with
    drainer := .loadHead
    tail := s.head
    printed := s.printed ++ [⟨s.tail, s.ring (slot s.tail), (letter byte).shown⟩]
    released := s.printed.length + 1 }

/-- A complete record of one byte is printed and given back. -/
theorem reaches_shown {start : Logger Unit} (reached : Reaches step Unwrapped start s)
    (nonzero : byte ≠ 0) (stands : s.drainer = .loadHead) (one : s.head = s.tail + 1)
    (unwrapped : s.tail < s.head)
    (ready : (s.ring (slot s.tail)).ready = s.tail + 1)
    (wallNs : (s.ring (slot s.tail)).wallNs = 0) (level : (s.ring (slot s.tail)).level = .info)
    (text : (s.ring (slot s.tail)).text.getD 0 0 = byte)
    (terminator : (s.ring (slot s.tail)).text.getD 1 0 = 0) :
    Reaches step Unwrapped start (s.shown byte) := by
  have drains {drainer next : Drainer}
      (before : Reaches step Unwrapped start { s with drainer })
      (stepped : ({ s with drainer } : Logger Unit).drain = some { s with drainer := next }) :
      Reaches step Unwrapped start { s with drainer := next } :=
    .next Action.drain before trivial stepped
  have begun : Reaches step Unwrapped start { s with drainer := .loadHead } := by
    rw [← stands]
    exact reached
  have loaded := drains begun rfl
  have differs : s.tail ≠ s.head := BitVec.ne_of_lt unwrapped
  have compared := @drains _ (.testReady s.head s.tail) loaded (by
    unfold drain nextRecord
    dsimp only
    rw [if_neg differs, if_pos unwrapped])
  have tested := @drains _ (.readSec s.head s.tail) compared (by
    unfold drain
    dsimp only
    rw [if_pos ready])
  have sec := @drains _ (.readNsec s.head s.tail 0) tested (by
    unfold drain
    dsimp only
    rw [wallNs]
    rfl)
  have nsec := @drains _ (.readLevel s.head s.tail 0 0) sec (by
    unfold drain
    dsimp only
    rw [wallNs]
    rfl)
  have shows := @drains _ (.readText s.head s.tail 0 0 .info []) nsec (by
    unfold drain
    dsimp only
    rw [level])
  have first := @drains _ (.readText s.head s.tail 0 0 .info [byte]) shows (by
    unfold drain readText
    dsimp only
    rw [show ([] : List UInt8).length = 0 from rfl, text, if_neg nonzero]
    rfl)
  have printed : Reaches step Unwrapped start { s with
      drainer := .storeTail s.head
      printed := s.printed ++ [⟨s.tail, s.ring (slot s.tail), (letter byte).shown⟩] } := by
    refine .next Action.drain first trivial ?_
    show ({ s with drainer := .readText s.head s.tail 0 0 .info [byte] } : Logger Unit).drain = _
    unfold drain readText nextRecord
    dsimp only
    rw [show ([byte] : List UInt8).length = 1 from rfl, terminator, if_pos rfl, ← one,
      if_neg (BitVec.lt_irrefl _), shown_letter nonzero]
  refine .next Action.drain printed trivial ?_
  show some _ = _
  rw [List.length_append]
  rfl

theorem letterRecord_text (s : Logger Unit) (byte : UInt8) :
    (s.letterRecord byte).text.getD 0 0 = byte ∧ (s.letterRecord byte).text.getD 1 0 = 0 := by
  have text : (s.letterRecord byte).text =
      ((s.ring (slot s.head)).text.setIfInBounds 0 byte).setIfInBounds 1 0 := rfl
  rw [text, Slots.getD_setIfInBounds, Slots.getD_setIfInBounds, Slots.getD_setIfInBounds]
  exact ⟨by rw [if_neg (by decide), if_pos (by decide)], if_pos (by decide)⟩

/-- Any messages of one byte, each printed before the next one is logged. -/
theorem reaches_letters (bytes : List UInt8) (few : bytes.length < 2 ^ 64)
    (nonzero : ∀ byte ∈ bytes, byte ≠ 0) :
    ∃ s : Logger Unit, Reaches step Unwrapped (initial fun _ => blank) s ∧
      s.producers () = .idle ∧ s.drainer = .loadHead ∧
      s.claims = bytes.map (fun byte => ((), letter byte)) ∧
      s.printed.length = bytes.length ∧ s.released = bytes.length := by
  induction bytes using List.reverseRecOn with
  | nil => exact ⟨_, .start, rfl, rfl, rfl, rfl, rfl⟩
  | append_singleton bytes byte inductionHypothesis =>
    rw [List.length_append, List.length_singleton] at few
    obtain ⟨s, reached, idle, stands, claims, printed, released⟩ := inductionHypothesis (by omega)
      fun earlier listed => nonzero earlier (List.mem_append_left _ listed)
    have length : s.claims.length = bytes.length := by rw [claims, List.length_map]
    have counted := (consistent reached).1
    have empty : s.tail = s.head := by
      rw [counted.tail, counted.head, released, length]
    have later : (s.posted byte).tail < (s.posted byte).head := by
      show s.tail < s.head + 1
      rw [empty, counted.head, length, BitVec.lt_def, BitVec.toNat_add, toNat_advance]
      show (0 + bytes.length) % 2 ^ 64 < ((0 + bytes.length) % 2 ^ 64 + 1) % 2 ^ 64
      omega
    have posted := reaches_posted byte reached idle empty (by omega)
    have record : (s.posted byte).ring (slot (s.posted byte).tail) = s.letterRecord byte := by
      show Function.update s.ring (slot s.head) (s.letterRecord byte) (slot s.tail) = _
      rw [empty, Function.update_self]
    obtain ⟨first, terminator⟩ := s.letterRecord_text byte
    have shown := reaches_shown posted (nonzero byte List.mem_concat_self) stands
      (congrArg (· + 1) empty.symm) later
      (by rw [record]; exact congrArg (· + 1) empty.symm) (by rw [record]; rfl)
      (by rw [record]; rfl) (by rw [record]; exact first) (by rw [record]; exact terminator)
    refine ⟨_, shown, rfl, rfl, ?_, ?_, ?_⟩
    · show s.claims ++ [((), letter byte)] = _
      rw [claims, List.map_append, List.map_singleton]
    · show (s.printed ++ [_]).length = _
      rw [List.length_append, List.length_append, printed]
      rfl
    · show s.printed.length + 1 = _
      rw [List.length_append, printed]
      rfl

/-- More messages than the ring has slots: the last one is printed from the slot of the first
one, and each shows the text of its own call. -/
theorem prints_claims_in_order_reusedSlot :
    ∃ s : Logger Unit, Reaches step Unwrapped (initial fun _ => blank) s ∧
      s.printed.length = ringSize + 1 ∧
      ∃ first last : Printed, s.printed[0]? = some first ∧ s.printed[ringSize]? = some last ∧
        slot first.position = slot last.position ∧
        first.line = ⟨0, 0, .info, [104]⟩ ∧ last.line = ⟨0, 0, .info, [105]⟩ := by
  have nonzero : ∀ byte ∈ List.replicate ringSize 104 ++ [105], byte ≠ (0 : UInt8) := by
    intro byte listed
    rcases List.mem_append.mp listed with early | late
    · rw [List.eq_of_mem_replicate early]
      decide
    · rw [List.mem_singleton.mp late]
      decide
  have count : (List.replicate ringSize 104 ++ [(105 : UInt8)]).length = ringSize + 1 := by
    rw [List.length_append, List.length_replicate, List.length_singleton]
  obtain ⟨s, reached, -, -, claims, printed, -⟩ := reaches_letters _ (by rw [count]; decide) nonzero
  rw [count] at printed
  have shows := (prints_claims_in_order Unit _ s reached).2.1
  have first : 0 < s.printed.length := by omega
  have last : ringSize < s.printed.length := by omega
  obtain ⟨owner, call, found, word, -, line⟩ := shows 0 _ (List.getElem?_eq_getElem first)
  obtain ⟨owner', later, found', word', -, line'⟩ :=
    shows ringSize _ (List.getElem?_eq_getElem last)
  rw [claims, List.getElem?_map, List.getElem?_append_left (by
    rw [List.length_replicate]
    decide), List.getElem?_replicate_of_lt (by decide)] at found
  rw [claims, List.getElem?_map, List.getElem?_append_right (by
    rw [List.length_replicate]), List.length_replicate, Nat.sub_self] at found'
  refine ⟨s, reached, printed, _, _, List.getElem?_eq_getElem first,
    List.getElem?_eq_getElem last, ?_, ?_, ?_⟩
  · have start : s.printed[0].position = 0 := BitVec.eq_of_toNat_eq word
    have around : s.printed[ringSize].position = 4096 := BitVec.eq_of_toNat_eq word'
    rw [start, around]
    decide
  · obtain rfl : letter 104 = call := congrArg Prod.snd (Option.some.inj found)
    rw [line, shown_letter (by decide)]
  · obtain rfl : letter 105 = later := congrArg Prod.snd (Option.some.inj found')
    rw [line', shown_letter (by decide)]

end Reuse

end Logger

end Trading

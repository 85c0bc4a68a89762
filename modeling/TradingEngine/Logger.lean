/-
This file models the logger of `logger.hpp` and `logger.cpp`: any number of threads in
`log`, the one thread in `drainLoop` and one call of `stop`, each atomic load, exchange
and store and each write or read of a field of a record one step, in any interleaving.
The text of a record is written and read one byte at a time. The positions are 64-bit
words and wrap; sleeping and flushing change nothing here and are left out.

Some fields are no state of the program. `claims` lists the calls that claimed a
position, in the order of the positions, `completed` the positions whose record was
stamped ready, `printed` what the drainer printed, `released` counts the positions its
last store of `tail_` gave back, and `drops` records for each dropped message how many
positions were claimed and released when it was found that the ring is full.
-/

import Mathlib.Logic.Function.Basic
import TradingEngine.Lib.RingBuffer
import TradingEngine.Lib.Slots

namespace Trading

open RingBuffer

/-- How urgent a message is. -/
inductive LogLevel where
  | debug
  | info
  | warn
  | error
deriving DecidableEq, Repr

namespace Logger

/-- `RING_SIZE`, the number of records of the ring. -/
def ringSize : Nat := 4096

/-- `MAX_LINE`, the number of bytes of a record's text, its terminator included. -/
def maxLine : Nat := 512

/-- One slot of the ring. -/
structure Record where
  /-- position + 1 once fully written -/
  ready : BitVec 64
  level : LogLevel
  wallNs : Int
  text : Vector UInt8 maxLine
deriving DecidableEq

/-- One call of `log`, with the wall clock it reads. -/
structure LogCall where
  level : LogLevel
  line : List UInt8
  wallNs : Int
deriving DecidableEq

/-- What one line on the error stream shows: the time, the level and the text. -/
structure Line where
  sec : Int
  nsec : Int
  level : LogLevel
  text : List UInt8
deriving DecidableEq

/-- What the drainer printed: from which position, which record was there, and the line. -/
structure Printed where
  position : BitVec 64
  record : Record
  line : Line
deriving DecidableEq

/-- The slot `position & (RING_SIZE - 1)`. -/
def slot (position : BitVec 64) : Fin ringSize :=
  ⟨slotOf ringSize position, slotOf_lt (by decide) position⟩

/-! ### Writing a record -/

/-- The field of its record a call writes next. -/
inductive Stage where
  | level
  | wallNs
  | text (index : Nat)
  | terminator
  | ready
deriving DecidableEq

namespace LogCall

/-- How many bytes of the line are copied. -/
def copied (call : LogCall) : Nat := min call.line.length (maxLine - 1)

/-- Write one field, or one byte, of the record. -/
def store (call : LogCall) (head : BitVec 64) : Stage → Record → Record
  | .level, record => { record with level := call.level }
  | .wallNs, record => { record with wallNs := call.wallNs }
  | .text index, record =>
    { record with text := record.text.setIfInBounds index (call.line.getD index 0) }
  | .terminator, record => { record with text := record.text.setIfInBounds call.copied 0 }
  | .ready, record => { record with ready := head + 1 }

/-- What is written after a field, if the call does not return then. -/
def nextStage (call : LogCall) : Stage → Option Stage
  | .level => some .wallNs
  | .wallNs => some (if 0 < call.copied then .text 0 else .terminator)
  | .text index => some (if index + 1 < call.copied then .text (index + 1) else .terminator)
  | .terminator => some .ready
  | .ready => none

end LogCall

/-! ### Where the threads stand -/

/-- Where a thread stands in `log`. -/
inductive Producer where
  | idle
  /-- holding the head it loaded when `seen` positions were claimed -/
  | loadingTail (call : LogCall) (head : BitVec 64) (seen : Nat)
  | claiming (call : LogCall) (head : BitVec 64) (seen : Nat)
  | dropping
  /-- holding the position it claimed -/
  | writing (call : LogCall) (head : BitVec 64) (position : Nat) (stage : Stage)
deriving DecidableEq

/-- Where the drainer stands in `drainLoop`. -/
inductive Drainer where
  | loadHead
  | loadTail (head : BitVec 64)
  | testRunning
  | testReady (head tail : BitVec 64)
  | readSec (head tail : BitVec 64)
  | readNsec (head tail : BitVec 64) (sec : Int)
  | readLevel (head tail : BitVec 64) (sec nsec : Int)
  | readText (head tail : BitVec 64) (sec nsec : Int) (level : LogLevel) (text : List UInt8)
  | storeTail (tail : BitVec 64)
  | exited
deriving DecidableEq

/-- Where the caller of `stop` stands. -/
inductive Stopper where
  | idle
  | joining
  | returned
deriving DecidableEq

/-- One step; `log` begins a call and `stop` begins the one call of `stop`. -/
inductive Action (Id : Type) where
  | log (id : Id) (call : LogCall)
  | loadTail (id : Id)
  | claim (id : Id)
  | claimFails (id : Id)
  | countDrop (id : Id)
  | write (id : Id)
  | drain
  | stop
  | join
deriving DecidableEq

end Logger

open Logger

/-- The ring, its positions and flags, where each thread stands, and what was logged and printed. -/
structure Logger (Id : Type) where
  ring : Fin ringSize → Record
  head : BitVec 64
  tail : BitVec 64
  dropped : BitVec 64
  running : Bool
  producers : Id → Producer
  drainer : Drainer
  stopper : Stopper
  claims : List (Id × LogCall)
  completed : List Nat
  printed : List Printed
  released : Nat
  drops : List (Nat × Nat)

namespace Logger

variable {Id : Type}

/-- A logger no call was made on, over any records that are not stamped. -/
def initial (ring : Fin ringSize → Record) : Logger Id where
  ring := fun slot => { ring slot with ready := 0 }
  head := 0
  tail := 0
  dropped := 0
  running := true
  producers := fun _ => .idle
  drainer := .loadHead
  stopper := .idle
  claims := []
  completed := []
  printed := []
  released := 0
  drops := []

/-- Put a record in a slot. -/
def setRecord (s : Logger Id) (slot : Fin ringSize) (record : Record) : Logger Id :=
  { s with ring := Function.update s.ring slot record }

theorem setRecord_ring (s : Logger Id) (slot other : Fin ringSize) (record : Record) :
    (s.setRecord slot record).ring other = if other = slot then record else s.ring other :=
  Function.update_apply _ _ _ _

/-! ### `log` -/

section Log

variable [DecidableEq Id]

/-- Move a thread to where it stands next. -/
def setProducer (s : Logger Id) (id : Id) (producer : Producer) : Logger Id :=
  { s with producers := Function.update s.producers id producer }

theorem setProducer_producers (s : Logger Id) (id other : Id) (producer : Producer) :
    (s.setProducer id producer).producers other =
      if other = id then producer else s.producers other :=
  Function.update_apply _ _ _ _

/-- Load `head_`, at the start of a call or in a failed exchange. -/
def loadHead (s : Logger Id) (id : Id) (call : LogCall) : Logger Id :=
  s.setProducer id (.loadingTail call s.head s.claims.length)

/-- Load `tail_` and drop the message if the ring is full. -/
def loadTail (s : Logger Id) (id : Id) (call : LogCall) (head : BitVec 64) (seen : Nat) :
    Logger Id :=
  if ringSize ≤ (head - s.tail).toNat then
    { s.setProducer id .dropping with drops := s.drops ++ [(s.claims.length, s.released)] }
  else s.setProducer id (.claiming call head seen)

/-- Exchange `head_` for the next position. -/
def claim (s : Logger Id) (id : Id) (call : LogCall) (head : BitVec 64) : Logger Id :=
  { s.setProducer id (.writing call head s.claims.length .level) with
    head := head + 1
    claims := s.claims ++ [(id, call)] }

/-- Count a dropped message; the call returns. -/
def countDrop (s : Logger Id) (id : Id) : Logger Id :=
  { s.setProducer id .idle with dropped := s.dropped + 1 }

/-- Write one field of the record; the call returns after the last one. -/
def write (s : Logger Id) (id : Id) (call : LogCall) (head : BitVec 64) (position : Nat)
    (stage : Stage) : Logger Id :=
  let written := s.setRecord (slot head) (call.store head stage (s.ring (slot head)))
  match call.nextStage stage with
  | some later => written.setProducer id (.writing call head position later)
  | none => { written.setProducer id .idle with completed := s.completed ++ [position] }

end Log

/-! ### `drainLoop` -/

/-- The test of the inner loop. -/
def nextRecord (head tail : BitVec 64) : Drainer :=
  if tail < head then .testReady head tail else .storeTail tail

/-- Read one byte of the text, up to its terminator, and print the line there. -/
def readText (s : Logger Id) (head tail : BitVec 64) (sec nsec : Int) (level : LogLevel)
    (text : List UInt8) : Logger Id :=
  let byte := (s.ring (slot tail)).text.getD text.length 0
  if byte = 0 then
    { s with
      drainer := nextRecord head (tail + 1)
      printed := s.printed ++ [⟨tail, s.ring (slot tail), ⟨sec, nsec, level, text⟩⟩] }
  else { s with drainer := .readText head tail sec nsec level (text ++ [byte]) }

/-- One step of the drainer. -/
def drain (s : Logger Id) : Option (Logger Id) :=
  match s.drainer with
  | .loadHead => some { s with drainer := .loadTail s.head }
  | .loadTail head =>
    some { s with drainer := if s.tail = head then .testRunning else nextRecord head s.tail }
  | .testRunning => some { s with drainer := if s.running then .loadHead else .exited }
  | .testReady head tail =>
    some { s with drainer := if (s.ring (slot tail)).ready = tail + 1 then .readSec head tail
      else .storeTail tail }
  | .readSec head tail =>
    some { s with drainer := .readNsec head tail ((s.ring (slot tail)).wallNs.tdiv 1000000000) }
  | .readNsec head tail sec =>
    some { s with
      drainer := .readLevel head tail sec ((s.ring (slot tail)).wallNs.tmod 1000000000) }
  | .readLevel head tail sec nsec =>
    some { s with drainer := .readText head tail sec nsec (s.ring (slot tail)).level [] }
  | .readText head tail sec nsec level text => some (s.readText head tail sec nsec level text)
  | .storeTail tail =>
    some { s with drainer := .loadHead, tail := tail, released := s.printed.length }
  | .exited => none

/-- The steps of the drainer, each with where it stands and what it leaves. -/
inductive Drains (s : Logger Id) : Logger Id → Prop where
  | loadHead (stands : s.drainer = .loadHead) : Drains s { s with drainer := .loadTail s.head }
  | loadTail (head : BitVec 64) (stands : s.drainer = .loadTail head) :
      Drains s { s with
        drainer := if s.tail = head then .testRunning else nextRecord head s.tail }
  | testRunning (stands : s.drainer = .testRunning) :
      Drains s { s with drainer := if s.running then .loadHead else .exited }
  | testReady (head tail : BitVec 64) (stands : s.drainer = .testReady head tail) :
      Drains s { s with
        drainer := if (s.ring (slot tail)).ready = tail + 1 then .readSec head tail
          else .storeTail tail }
  | readSec (head tail : BitVec 64) (stands : s.drainer = .readSec head tail) :
      Drains s { s with
        drainer := .readNsec head tail ((s.ring (slot tail)).wallNs.tdiv 1000000000) }
  | readNsec (head tail : BitVec 64) (sec : Int) (stands : s.drainer = .readNsec head tail sec) :
      Drains s { s with
        drainer := .readLevel head tail sec ((s.ring (slot tail)).wallNs.tmod 1000000000) }
  | readLevel (head tail : BitVec 64) (sec nsec : Int)
      (stands : s.drainer = .readLevel head tail sec nsec) :
      Drains s { s with
        drainer := .readText head tail sec nsec (s.ring (slot tail)).level [] }
  | readText (head tail : BitVec 64) (sec nsec : Int) (level : LogLevel) (text : List UInt8)
      (stands : s.drainer = .readText head tail sec nsec level text) :
      Drains s (s.readText head tail sec nsec level text)
  | storeTail (tail : BitVec 64) (stands : s.drainer = .storeTail tail) :
      Drains s { s with drainer := .loadHead, tail := tail, released := s.printed.length }

theorem drains_of_drain {s after : Logger Id} (drained : s.drain = some after) :
    s.Drains after := by
  unfold drain at drained
  split at drained <;> rename_i stands <;> try obtain rfl := Option.some.inj drained
  · exact .loadHead stands
  · exact .loadTail _ stands
  · exact .testRunning stands
  · exact .testReady _ _ stands
  · exact .readSec _ _ stands
  · exact .readNsec _ _ _ stands
  · exact .readLevel _ _ _ _ stands
  · exact .readText _ _ _ _ _ _ stands
  · exact .storeTail _ stands
  · cases drained

/-! ### Steps -/

variable [DecidableEq Id]

/-- One step, if the thread that makes it stands there. -/
def step (s : Logger Id) : Action Id → Option (Logger Id)
  | .log id call => match s.producers id with
      | .idle => some (s.loadHead id call)
      | _ => none
  | .loadTail id => match s.producers id with
      | .loadingTail call head seen => some (s.loadTail id call head seen)
      | _ => none
  | .claim id => match s.producers id with
      | .claiming call head _ => if s.head = head then some (s.claim id call head) else none
      | _ => none
  | .claimFails id => match s.producers id with
      | .claiming call _ _ => some (s.loadHead id call)
      | _ => none
  | .countDrop id => match s.producers id with
      | .dropping => some (s.countDrop id)
      | _ => none
  | .write id => match s.producers id with
      | .writing call head position stage => some (s.write id call head position stage)
      | _ => none
  | .drain => s.drain
  | .stop => match s.stopper with
      | .idle => some { s with
          running := false
          stopper := if s.running then .joining else .returned }
      | _ => none
  | .join => match s.stopper, s.drainer with
      | .joining, .exited => some { s with stopper := .returned }
      | _, _ => none

/-- The steps of the logger, each with where its thread stands and what it leaves. -/
inductive Moves (s : Logger Id) : Action Id → Logger Id → Prop where
  | log (id : Id) (call : LogCall) (idle : s.producers id = .idle) :
      Moves s (.log id call) (s.loadHead id call)
  | loadTail (id : Id) (call : LogCall) (head : BitVec 64) (seen : Nat)
      (loading : s.producers id = .loadingTail call head seen) :
      Moves s (.loadTail id) (s.loadTail id call head seen)
  | claim (id : Id) (call : LogCall) (head : BitVec 64) (seen : Nat)
      (claiming : s.producers id = .claiming call head seen) (current : s.head = head) :
      Moves s (.claim id) (s.claim id call head)
  | claimFails (id : Id) (call : LogCall) (head : BitVec 64) (seen : Nat)
      (claiming : s.producers id = .claiming call head seen) :
      Moves s (.claimFails id) (s.loadHead id call)
  | countDrop (id : Id) (dropping : s.producers id = .dropping) :
      Moves s (.countDrop id) (s.countDrop id)
  | write (id : Id) (call : LogCall) (head : BitVec 64) (position : Nat) (stage : Stage)
      (writing : s.producers id = .writing call head position stage) :
      Moves s (.write id) (s.write id call head position stage)
  | drain {after : Logger Id} (drains : Drains s after) : Moves s .drain after
  | stop (idle : s.stopper = .idle) :
      Moves s .stop { s with
        running := false
        stopper := if s.running then .joining else .returned }
  | join (joining : s.stopper = .joining) (exited : s.drainer = .exited) :
      Moves s .join { s with stopper := .returned }

theorem moves_of_step {s after : Logger Id} {action : Action Id}
    (stepped : s.step action = some after) : s.Moves action after := by
  cases action <;> simp only [step] at stepped
  case drain => exact .drain (drains_of_drain stepped)
  all_goals split at stepped <;> try cases stepped
  · exact .log _ _ ‹_›
  · exact .loadTail _ _ _ _ ‹_›
  · split at stepped
    · rename_i current
      obtain rfl := Option.some.inj stepped
      exact .claim _ _ _ _ ‹_› current
    · cases stepped
  · exact .claimFails _ _ _ _ ‹_›
  · exact .countDrop _ ‹_›
  · exact .write _ _ _ _ _ ‹_›
  · exact .stop ‹_›
  · exact .join ‹_› ‹_›

end Logger

end Trading

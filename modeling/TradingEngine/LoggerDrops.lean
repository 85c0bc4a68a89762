/-
This file says when the logger drops a message. The words it computes with are the counts
of claimed, printed and released positions modulo 2^64, whether or not they have wrapped,
so the difference a call tests is the number of positions between the head it holds and
the tail it has just loaded, as long as the drainer has not passed that head. If it has,
the difference wraps and the message is dropped, however empty the ring is.

The condition is one on the moment in which a call loads the tail: the head it holds was
loaded before that, and other threads may have claimed, and the drainer released, any
number of positions in between.
-/

import TradingEngine.Lib.Transition
import TradingEngine.Logger

namespace Trading

namespace Logger

open RingBuffer Transition

variable {Id : Type} {s after : Logger Id}

/-! ### The words as counts -/

/-- The head or position a thread holds, with the count it stands for. -/
def Producer.held? : Producer → Option (BitVec 64 × Nat)
  | .loadingTail _ head seen => some (head, seen)
  | .claiming _ head seen => some (head, seen)
  | .writing _ head position _ => some (head, position)
  | _ => none

/-- The tail the drainer holds inside its loop. -/
def Drainer.tail? : Drainer → Option (BitVec 64)
  | .testReady _ tail => some tail
  | .readSec _ tail => some tail
  | .readNsec _ tail _ => some tail
  | .readLevel _ tail _ _ => some tail
  | .readText _ tail _ _ _ _ => some tail
  | .storeTail tail => some tail
  | _ => none

/-- Every word of the logger is the count it stands for. -/
structure Counted (s : Logger Id) : Prop where
  head : s.head = advance 0 s.claims.length
  tail : s.tail = advance 0 s.released
  held : ∀ id held, (s.producers id).held? = some held →
    held.1 = advance 0 held.2 ∧ held.2 ≤ s.claims.length
  between : s.drainer.tail? = none → s.released = s.printed.length
  inside : ∀ tail, s.drainer.tail? = some tail → tail = advance 0 s.printed.length

theorem nextRecord_tail? (head tail : BitVec 64) : (nextRecord head tail).tail? = some tail := by
  unfold nextRecord
  split <;> rfl

theorem counted_initial (ring : Fin ringSize → Record) :
    (initial ring : Logger Id).Counted where
  head := (advance_zero 0).symm
  tail := (advance_zero 0).symm
  held := nofun
  between := fun _ => rfl
  inside := nofun

theorem Counted.setDrainer (counted : s.Counted) {drainer : Drainer}
    (same : drainer.tail? = s.drainer.tail?) : ({ s with drainer } : Logger Id).Counted where
  head := counted.head
  tail := counted.tail
  held := counted.held
  between := fun outside => counted.between (same.symm.trans outside)
  inside := fun tail found => counted.inside tail (same.symm.trans found)

/-- Outside its loop the drainer has released all it printed, so the tail it loads is the number
of its next position. -/
theorem Counted.enterLoop (counted : s.Counted) (outside : s.drainer.tail? = none)
    (head : BitVec 64) : ({ s with drainer := nextRecord head s.tail } : Logger Id).Counted where
  head := counted.head
  tail := counted.tail
  held := counted.held
  between := by
    intro found
    rw [nextRecord_tail?] at found
    cases found
  inside := by
    intro tail found
    rw [nextRecord_tail?] at found
    obtain rfl := Option.some.inj found
    rw [← counted.between outside]
    exact counted.tail

/-- A printed line counts one more position. -/
theorem Counted.print (counted : s.Counted) {tail : BitVec 64}
    (inside : s.drainer.tail? = some tail) (head : BitVec 64) (entry : Printed) :
    ({ s with
      drainer := nextRecord head (tail + 1)
      printed := s.printed ++ [entry] } : Logger Id).Counted where
  head := counted.head
  tail := counted.tail
  held := counted.held
  between := by
    intro found
    rw [nextRecord_tail?] at found
    cases found
  inside := by
    intro next found
    rw [nextRecord_tail?] at found
    obtain rfl := Option.some.inj found
    rw [counted.inside tail inside, List.length_append, List.length_singleton, advance_succ]

theorem Counted.drains (counted : s.Counted) (drains : s.Drains after) : after.Counted := by
  cases drains with
  | loadHead stands => exact counted.setDrainer (by rw [stands]; rfl)
  | loadTail head stands =>
    split
    · exact counted.setDrainer (by rw [stands]; rfl)
    · exact counted.enterLoop (by rw [stands]; rfl) head
  | testRunning stands =>
    split
    · exact counted.setDrainer (by rw [stands]; rfl)
    · exact counted.setDrainer (by rw [stands]; rfl)
  | testReady head tail stands =>
    split
    · exact counted.setDrainer (by rw [stands]; rfl)
    · exact counted.setDrainer (by rw [stands]; rfl)
  | readSec head tail stands => exact counted.setDrainer (by rw [stands]; rfl)
  | readNsec head tail sec stands => exact counted.setDrainer (by rw [stands]; rfl)
  | readLevel head tail sec nsec stands => exact counted.setDrainer (by rw [stands]; rfl)
  | readText head tail sec nsec level text stands =>
    unfold Logger.readText
    dsimp only
    split
    · exact counted.print (by rw [stands]; rfl) head _
    · exact counted.setDrainer (by rw [stands]; rfl)
  | storeTail tail stands =>
    have stored := counted.inside tail (by rw [stands]; rfl)
    exact ⟨counted.head, stored, counted.held, fun _ => rfl, nofun⟩

section Steps

variable [DecidableEq Id]

/-- A thread moved on and holds a count again. -/
theorem Counted.setProducer (counted : s.Counted) (id : Id) {producer : Producer}
    (holds : ∀ held, producer.held? = some held →
      held.1 = advance 0 held.2 ∧ held.2 ≤ s.claims.length) :
    (s.setProducer id producer).Counted where
  head := counted.head
  tail := counted.tail
  held := by
    intro other held found
    rw [setProducer_producers] at found
    split at found
    · exact holds held found
    · exact counted.held other held found
  between := counted.between
  inside := counted.inside

theorem Counted.loadHead (counted : s.Counted) (id : Id) (call : LogCall) :
    (s.loadHead id call).Counted := by
  refine counted.setProducer id fun held found => ?_
  obtain rfl := Option.some.inj found
  exact ⟨counted.head, le_refl _⟩

theorem Counted.claim (counted : s.Counted) (id : Id) (call : LogCall) {head : BitVec 64}
    (current : s.head = head) : (s.claim id call head).Counted := by
  have length : (s.claim id call head).claims.length = s.claims.length + 1 := by
    simp [Logger.claim]
  have moved : (s.setProducer id (.writing call head s.claims.length .level)).Counted := by
    refine counted.setProducer id fun held found => ?_
    obtain rfl := Option.some.inj found
    exact ⟨current.symm.trans counted.head, le_refl _⟩
  constructor
  · rw [length, advance_succ, ← counted.head, current]
    rfl
  · exact moved.tail
  · intro other held found
    obtain ⟨word, bound⟩ := moved.held other held found
    exact ⟨word, by rw [length]; exact Nat.le_succ_of_le bound⟩
  · exact moved.between
  · exact moved.inside

/-- A write counts nothing. -/
theorem Counted.write (counted : s.Counted) {id : Id} {call : LogCall} {head : BitVec 64}
    {position : Nat} {stage : Stage}
    (writing : s.producers id = .writing call head position stage) :
    (s.write id call head position stage).Counted := by
  have own := counted.held id (head, position) (by rw [writing]; rfl)
  have written : (s.setRecord (slot head) (call.store head stage (s.ring (slot head)))).Counted :=
    ⟨counted.head, counted.tail, counted.held, counted.between, counted.inside⟩
  unfold Logger.write
  dsimp only
  split
  · refine written.setProducer id fun held found => ?_
    obtain rfl := Option.some.inj found
    exact own
  · have moved := @Counted.setProducer _ _ _ written id .idle nofun
    exact ⟨moved.head, moved.tail, moved.held, moved.between, moved.inside⟩

theorem Counted.moves (counted : s.Counted) {action : Action Id} (moves : s.Moves action after) :
    after.Counted := by
  cases moves with
  | log id call idle => exact counted.loadHead id call
  | loadTail id call head seen loading =>
    have own := counted.held id (head, seen) (by rw [loading]; rfl)
    unfold Logger.loadTail
    split
    · have moved := @Counted.setProducer _ _ _ counted id .dropping nofun
      exact ⟨moved.head, moved.tail, moved.held, moved.between, moved.inside⟩
    · refine counted.setProducer id fun held found => ?_
      obtain rfl := Option.some.inj found
      exact own
  | claim id call head seen claiming current => exact counted.claim id call current
  | claimFails id call head seen claiming => exact counted.loadHead id call
  | countDrop id dropping =>
    have moved := @Counted.setProducer _ _ _ counted id .idle nofun
    exact ⟨moved.head, moved.tail, moved.held, moved.between, moved.inside⟩
  | write id call head position stage writing => exact counted.write writing
  | drain drains => exact counted.drains drains
  | stop idle => exact ⟨counted.head, counted.tail, counted.held, counted.between, counted.inside⟩
  | join joining exited =>
    exact ⟨counted.head, counted.tail, counted.held, counted.between, counted.inside⟩

theorem counted {allowed : Logger Id → Action Id → Prop} {ring : Fin ringSize → Record}
    (reached : Reaches step allowed (initial ring) s) : s.Counted :=
  @Reaches.invariant _ _ step _ _ (fun s => s.Counted) (counted_initial ring)
    (fun _ _ _ counted _ stepped => counted.moves (moves_of_step stepped)) _ reached

end Steps

/-! ### Dropped messages -/

/-- When a call loads `tail_`, the drainer has not released past the head the call holds. -/
def HeadNotPassed (s : Logger Id) : Action Id → Prop
  | .loadTail id => ∀ held, (s.producers id).held? = some held → s.released ≤ held.2
  | _ => True

/-- Every dropped message found the ring full when it was dropped. -/
def DropsWhenFull (s : Logger Id) : Prop := ∀ drop ∈ s.drops, ringSize ≤ drop.1 - drop.2

variable [DecidableEq Id]

theorem DropsWhenFull.moves (full : s.DropsWhenFull) (counted : s.Counted) {action : Action Id}
    (notPassed : s.HeadNotPassed action) (moves : s.Moves action after) :
    after.DropsWhenFull := by
  cases moves with
  | loadTail id call head seen loading =>
    obtain ⟨word, bound⟩ := counted.held id (head, seen) (by rw [loading]; rfl)
    have released : s.released ≤ seen := notPassed (head, seen) (by rw [loading]; rfl)
    unfold Logger.loadTail
    split
    · rename_i test
      intro drop member
      rcases List.mem_append.mp member with earlier | last
      · exact full drop earlier
      · obtain rfl := List.mem_singleton.mp last
        have between : seen = s.released + (seen - s.released) := by omega
        have distance := toNat_advance_sub_le (0 : BitVec 64) s.released (seen - s.released)
        rw [← between, ← word, ← counted.tail] at distance
        dsimp only at bound distance ⊢
        omega
    · exact full
  | write id call head position stage writing =>
    unfold Logger.write
    dsimp only
    split <;> exact full
  | drain drains =>
    cases drains with
    | readText head tail sec nsec level text stands =>
      unfold Logger.readText
      dsimp only
      split <;> exact full
    | _ => exact full
  | _ => exact full

/-- In every run in which no call tests a head the drainer has passed, wrapped or not: a message
is dropped only at a moment when as many positions are claimed and not released as the ring has
slots. -/
theorem drops_only_when_full (Id : Type) [DecidableEq Id] (ring : Fin ringSize → Record)
    (s : Logger Id) (reached : Reaches step HeadNotPassed (initial ring) s) :
    ∀ drop ∈ s.drops, ringSize ≤ drop.1 - drop.2 := by
  have both := @Reaches.invariant _ _ step _ _ (fun s => s.Counted ∧ s.DropsWhenFull)
    ⟨counted_initial ring, nofun⟩
    (fun _ _ _ holds notPassed stepped => ⟨holds.1.moves (moves_of_step stepped),
      holds.2.moves holds.1 notPassed (moves_of_step stepped)⟩) _ reached
  exact both.2

/-- A record nothing was written in. -/
def blank : Record := ⟨0, .debug, 0, Vector.replicate _ 0⟩

/-- A message of one byte. -/
def note : LogCall := ⟨.info, [104], 0⟩

/-- A thread that is not in a call loads `head_`. -/
theorem step_log {id : Id} (idle : s.producers id = .idle) (call : LogCall) :
    s.step (.log id call) = some (s.loadHead id call) := by
  rw [step, idle]

theorem step_loadTail {id : Id} {call : LogCall} {head : BitVec 64} {seen : Nat}
    (loading : s.producers id = .loadingTail call head seen) :
    s.step (.loadTail id) = some (s.loadTail id call head seen) := by
  rw [step, loading]

theorem step_claim {id : Id} {call : LogCall} {seen : Nat}
    (claiming : s.producers id = .claiming call s.head seen) :
    s.step (.claim id) = some (s.claim id call s.head) := by
  rw [step, claiming]
  exact if_pos rfl

/-- While nothing is released, a call may load the head and test it. -/
theorem reaches_tested {start : Logger Id} (reached : Reaches step HeadNotPassed start s)
    (released : s.released = 0) {id : Id} (idle : s.producers id = .idle) (call : LogCall) :
    Reaches step HeadNotPassed start
      ((s.loadHead id call).loadTail id call s.head s.claims.length) := by
  have logged : Reaches step HeadNotPassed start (s.loadHead id call) :=
    .next (Action.log id call) reached trivial (step_log idle call)
  have notPassed : HeadNotPassed (s.loadHead id call) (.loadTail id) :=
    fun held _ => le_of_eq_of_le released (Nat.zero_le _)
  exact .next (Action.loadTail id) logged notPassed (step_loadTail (Function.update_self _ _ _))

/-- So many threads have each claimed a position and nothing is printed yet. -/
theorem flooded (count : Nat) (bound : count ≤ ringSize) :
    ∃ s : Logger Nat, Reaches step HeadNotPassed (initial fun _ => blank) s ∧
      s.claims.length = count ∧ s.released = 0 ∧ s.drops = [] ∧
      ∀ id, count ≤ id → s.producers id = .idle := by
  induction count with
  | zero => exact ⟨_, .start, rfl, rfl, rfl, fun _ _ => rfl⟩
  | succ count inductionHypothesis =>
    obtain ⟨s, reached, length, released, drops, idle⟩ := inductionHypothesis (by omega)
    have room : ¬ringSize ≤ (s.head - (s.loadHead count note).tail).toNat := by
      have distance := toNat_advance_sub_le (0 : BitVec 64) 0 count
      rw [Nat.zero_add] at distance
      rw [show (s.loadHead count note).tail = s.tail from rfl, (counted reached).head,
        (counted reached).tail, length, released]
      omega
    have tested := reaches_tested reached released (idle count (le_refl _)) note
    rw [Logger.loadTail, if_neg room] at tested
    have claimed := Reaches.next (Action.claim count) tested trivial
      (step_claim (Function.update_self _ _ _))
    refine ⟨_, claimed, ?_, released, drops, fun id later => ?_⟩
    · rw [Logger.claim, List.length_append, List.length_singleton]
      exact congrArg (· + 1) length
    · have other : id ≠ count := by omega
      show (((s.loadHead count note).setProducer count _).setProducer count _).producers id = _
      rw [setProducer_producers, if_neg other, setProducer_producers, if_neg other,
        Logger.loadHead, setProducer_producers, if_neg other]
      exact idle id (by omega)

/-- The call after those that filled the ring is dropped, and it finds the ring full. -/
theorem drops_only_when_full_flooded :
    ∃ s : Logger Nat, Reaches step HeadNotPassed (initial fun _ => blank) s ∧ s.drops ≠ [] ∧
      ∀ drop ∈ s.drops, ringSize ≤ drop.1 - drop.2 := by
  obtain ⟨s, reached, length, released, drops, idle⟩ := flooded ringSize (le_refl _)
  have full : ringSize ≤ (s.head - (s.loadHead ringSize note).tail).toNat := by
    have distance := toNat_advance_sub (0 : BitVec 64) 0 ringSize (by decide)
    rw [Nat.zero_add] at distance
    rw [show (s.loadHead ringSize note).tail = s.tail from rfl, (counted reached).head,
      (counted reached).tail, length, released]
    exact le_of_eq distance.symm
  have tested := reaches_tested reached released (idle ringSize (le_refl _)) note
  refine ⟨_, tested, ?_, drops_only_when_full Nat _ _ tested⟩
  rw [Logger.loadTail, if_pos full]
  exact List.append_ne_nil_of_right_ne_nil _ (List.cons_ne_nil _ _)

/-! ### A message dropped on an empty ring -/

/-- A thread loads the head, another one logs a message, the drainer prints and releases it, and
the first thread goes on with the head it holds. -/
def staleHead : List (Action Bool) :=
  [.log false note, .log true note, .loadTail true, .claim true] ++
    List.replicate 5 (.write true) ++ List.replicate 9 .drain ++ [.loadTail false, .countDrop false]

/-- Positions are claimed and never given up. -/
theorem claims_length_mono {allowed : Logger Id → Action Id → Prop}
    (reached : Reaches step allowed s after) : s.claims.length ≤ after.claims.length := by
  refine @Reaches.invariant _ _ step _ _ (fun later => s.claims.length ≤ later.claims.length)
    (le_refl _) (fun before action next bound _ stepped => ?_) _ reached
  cases moves_of_step stepped with
  | claim id call head seen claiming current =>
    rw [Logger.claim, List.length_append]
    exact Nat.le_add_right_of_le bound
  | loadTail id call head seen loading =>
    unfold Logger.loadTail
    split <;> exact bound
  | write id call head position stage writing =>
    unfold Logger.write
    dsimp only
    split <;> exact bound
  | drain drains =>
    cases drains with
    | readText head tail sec nsec level text stands =>
      unfold Logger.readText
      dsimp only
      split <;> exact bound
    | _ => exact bound
  | _ => exact bound

/-- The message is dropped although at no moment of the run the ring holds more than one. -/
theorem drops_on_empty_ring :
    ∃ s : Logger Bool, execute step Free (initial fun _ => blank) staleHead = some s ∧
      s.drops.length = 1 ∧ s.dropped = 1 ∧
      ∀ earlier before, earlier <+: staleHead →
        execute step Free (initial fun _ => blank) earlier = some before →
        before.claims.length - before.released < ringSize := by
  have run : (execute step Free (initial fun _ => blank) staleHead).map
      (fun s => (s.drops.length, s.dropped, s.claims.length)) = some (1, 1, 1) := by
    decide +kernel
  obtain ⟨s, executed, facts⟩ := Option.map_eq_some_iff.mp run
  obtain ⟨drops, dropped, claims⟩ : s.drops.length = 1 ∧ s.dropped = 1 ∧ s.claims.length = 1 := by
    simpa using facts
  refine ⟨s, executed, drops, dropped, fun earlier before isPrefix reached => ?_⟩
  obtain ⟨later, whole⟩ := isPrefix
  rw [← whole, execute_append, reached, Option.bind_some] at executed
  have grown := claims_length_mono (Reaches.execute .start executed)
  have small : 1 < ringSize := by decide
  omega

end Logger

end Trading

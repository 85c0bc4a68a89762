/-
This file says which messages are printed when `stop` returns.

The drainer leaves its loop only from a test of `running_` that follows a load of `head_`
that was equal to the tail. A drainer that loads the head after `stop` has cleared the
flag sees every position claimed before, so it leaves with all of them printed. A drainer
that had loaded the head before, when the ring was empty, leaves without another look:
what was logged since then is never printed.
-/

import TradingEngine.LoggerRecords

namespace Trading

namespace Logger

open RingBuffer Transition

variable {Id : Type} {s after : Logger Id}

/-! ### The end of the drainer -/

/-- The drainer has loaded a head that is equal to the tail and has not passed a test of
`running_` since. -/
def Drainer.LeavesAt (tail : BitVec 64) : Drainer → Prop
  | .loadTail head => tail = head
  | .testRunning => True
  | .exited => True
  | _ => False

/-- The drainer stands where it leaves its loop if the flag is cleared. -/
def Leaving (s : Logger Id) : Prop := s.drainer.LeavesAt s.tail

/-- The drainer has taken the ring for empty, and a call has returned whose record is not
printed. -/
def Blind (s : Logger Id) : Prop :=
  s.Leaving ∧ ∃ position ∈ s.completed, s.printed.length ≤ position

/-- The record of the call that claimed a position is printed. -/
def IsPrinted (s : Logger Id) (position : Nat) : Prop :=
  ∃ owner call entry, s.claims[position]? = some (owner, call) ∧
    s.printed[position]? = some entry ∧ entry.record.Holds call ∧ entry.line = call.shown

theorem Consistent.isPrinted_iff (consistent : s.Consistent) (position : Nat) :
    s.IsPrinted position ↔ position < s.printed.length := by
  constructor
  · rintro ⟨owner, call, entry, -, listed, -⟩
    exact (List.getElem?_eq_some_iff.mp listed).1
  · intro bound
    have listed := List.getElem?_eq_getElem bound
    obtain ⟨owner, call, found, -, shown⟩ := consistent.lines position _ listed
    exact ⟨owner, call, _, found, listed, shown⟩

theorem not_leavesAt_nextRecord (head tail published : BitVec 64) :
    ¬(nextRecord head tail).LeavesAt published := by
  unfold nextRecord
  split <;> exact id

/-- A load of the head finds the ring empty only when everything claimed is printed. -/
theorem Consistent.printed_of_empty (consistent : s.Consistent) (counted : s.Counted)
    (empty : s.tail = s.head) : s.printed.length = s.claims.length := by
  have few := consistent.few
  have released := consistent.released_le
  have printed := consistent.printed_le
  have same : s.released = s.claims.length := by
    refine advance_inj (by omega) few ?_
    rw [← counted.head, ← counted.tail]
    exact empty
  omega

/-- When the drainer is leaving, the given positions are printed. -/
def PrintedOnLeaving (s : Logger Id) (positions : List Nat) : Prop :=
  s.Leaving → ∀ position ∈ positions, position < s.printed.length

/-- The drainer does not come to leave before these positions are printed. -/
theorem PrintedOnLeaving.drains {positions : List Nat} (covered : s.PrintedOnLeaving positions)
    (consistent : s.Consistent) (counted : s.Counted)
    (claimed : ∀ position ∈ positions, position < s.claims.length) (drains : s.Drains after) :
    after.PrintedOnLeaving positions := by
  cases drains with
  | loadHead stands =>
    intro empty position member
    rw [consistent.printed_of_empty counted empty]
    exact claimed position member
  | loadTail head stands =>
    intro leaving
    by_cases empty : s.tail = head
    · refine covered ?_
      rw [Leaving, stands]
      exact empty
    · rw [Leaving, if_neg empty] at leaving
      exact absurd leaving (not_leavesAt_nextRecord _ _ _)
  | testRunning stands =>
    intro _
    refine covered ?_
    rw [Leaving, stands]
    trivial
  | testReady head tail stands =>
    intro leaving
    rw [Leaving] at leaving
    split at leaving <;> exact absurd leaving id
  | readText head tail sec nsec level text stands =>
    intro leaving
    unfold Logger.readText at leaving
    dsimp only at leaving
    split at leaving
    · exact absurd leaving (not_leavesAt_nextRecord _ _ _)
    · exact absurd leaving id
  | readSec head tail stands => exact fun leaving => absurd leaving id
  | readNsec head tail sec stands => exact fun leaving => absurd leaving id
  | readLevel head tail sec nsec stands => exact fun leaving => absurd leaving id
  | storeTail tail stands => exact fun leaving => absurd leaving id

/-- A drainer that is leaving after `running_` was cleared goes on to leave and prints nothing
more. -/
structure LeavesWith (s : Logger Id) (printed : List Printed) : Prop where
  cleared : s.running = false
  leaving : s.Leaving
  same : s.printed = printed

theorem LeavesWith.drains {printed : List Printed} (leaves : s.LeavesWith printed)
    (drains : s.Drains after) : after.LeavesWith printed := by
  obtain ⟨cleared, leaving, same⟩ := leaves
  rw [Leaving] at leaving
  cases drains with
  | loadTail head stands =>
    rw [stands] at leaving
    have empty : s.tail = head := leaving
    refine ⟨cleared, ?_, same⟩
    rw [Leaving, if_pos empty]
    trivial
  | testRunning stands =>
    refine ⟨cleared, ?_, same⟩
    rw [Leaving, cleared]
    trivial
  | loadHead stands => exact absurd leaving (by rw [stands]; exact id)
  | testReady head tail stands => exact absurd leaving (by rw [stands]; exact id)
  | readSec head tail stands => exact absurd leaving (by rw [stands]; exact id)
  | readNsec head tail sec stands => exact absurd leaving (by rw [stands]; exact id)
  | readLevel head tail sec nsec stands => exact absurd leaving (by rw [stands]; exact id)
  | readText head tail sec nsec level text stands =>
    exact absurd leaving (by rw [stands]; exact id)
  | storeTail tail stands => exact absurd leaving (by rw [stands]; exact id)

/-- Until `stop` is called the flag is set, and `stop` returns when the drainer has left. -/
structure StopsInOrder (s : Logger Id) : Prop where
  flag : s.stopper = .idle → s.running = true
  joined : s.stopper = .returned → s.drainer = .exited

theorem StopsInOrder.drains (inOrder : s.StopsInOrder) (drains : s.Drains after) :
    after.StopsInOrder := by
  have left : after.stopper = s.stopper ∧ after.running = s.running ∧ s.drainer ≠ .exited := by
    cases drains with
    | readText head tail sec nsec level text stands =>
      unfold Logger.readText
      dsimp only
      split <;> exact ⟨rfl, rfl, by rw [stands]; exact Drainer.noConfusion⟩
    | _ => exact ⟨rfl, rfl, by rename_i stands; rw [stands]; exact Drainer.noConfusion⟩
  constructor
  · rw [left.1, left.2.1]
    exact inOrder.flag
  · rw [left.1]
    exact fun returned => absurd (inOrder.joined returned) left.2.2

/-! ### The steps of the other threads -/

/-- Nothing the drainer or the caller of `stop` goes by has changed. -/
structure KeepsDrainer (before after : Logger Id) : Prop where
  drainer : after.drainer = before.drainer
  tail : after.tail = before.tail
  running : after.running = before.running
  stopper : after.stopper = before.stopper
  printed : after.printed = before.printed

section Steps

variable [DecidableEq Id]

/-- A step of the logger is one of the drainer, of the caller of `stop`, or keeps what these go
by. -/
theorem moves_cases {action : Action Id} (moves : s.Moves action after) :
    s.Drains after ∨ KeepsDrainer s after ∨
      s.stopper = .idle ∧ after = { s with
        running := false
        stopper := if s.running then .joining else .returned } ∨
      s.stopper = .joining ∧ s.drainer = .exited ∧ after = { s with stopper := .returned } := by
  cases moves with
  | drain drains => exact Or.inl drains
  | stop idle => exact Or.inr (Or.inr (Or.inl ⟨idle, rfl⟩))
  | join joining exited => exact Or.inr (Or.inr (Or.inr ⟨joining, exited, rfl⟩))
  | loadTail id call head seen loading =>
    unfold Logger.loadTail
    split <;> exact Or.inr (Or.inl ⟨rfl, rfl, rfl, rfl, rfl⟩)
  | write id call head position stage writing =>
    unfold Logger.write
    dsimp only
    split <;> exact Or.inr (Or.inl ⟨rfl, rfl, rfl, rfl, rfl⟩)
  | claim id call head seen claiming current =>
    exact Or.inr (Or.inl ⟨rfl, rfl, rfl, rfl, rfl⟩)
  | log id call idle => exact Or.inr (Or.inl ⟨rfl, rfl, rfl, rfl, rfl⟩)
  | claimFails id call head seen claiming => exact Or.inr (Or.inl ⟨rfl, rfl, rfl, rfl, rfl⟩)
  | countDrop id dropping => exact Or.inr (Or.inl ⟨rfl, rfl, rfl, rfl, rfl⟩)

/-- No step of any thread lets the drainer leave before these positions are printed. -/
theorem PrintedOnLeaving.moves {positions : List Nat} (covered : s.PrintedOnLeaving positions)
    (consistent : s.Consistent) (counted : s.Counted)
    (claimed : ∀ position ∈ positions, position < s.claims.length) {action : Action Id}
    (moves : s.Moves action after) : after.PrintedOnLeaving positions := by
  obtain drains | keeps | ⟨-, rfl⟩ | ⟨-, -, rfl⟩ := moves_cases moves
  · exact covered.drains consistent counted claimed drains
  · unfold PrintedOnLeaving Leaving
    rw [keeps.drainer, keeps.tail, keeps.printed]
    exact covered
  · exact covered
  · exact covered

theorem LeavesWith.moves {printed : List Printed} (leaves : s.LeavesWith printed)
    {action : Action Id} (moves : s.Moves action after) : after.LeavesWith printed := by
  obtain drains | keeps | ⟨-, rfl⟩ | ⟨-, -, rfl⟩ := moves_cases moves
  · exact leaves.drains drains
  · refine ⟨keeps.running.trans leaves.cleared, ?_, keeps.printed.trans leaves.same⟩
    rw [Leaving, keeps.drainer, keeps.tail]
    exact leaves.leaving
  · exact ⟨rfl, leaves.leaving, leaves.same⟩
  · exact ⟨leaves.cleared, leaves.leaving, leaves.same⟩

theorem StopsInOrder.moves (inOrder : s.StopsInOrder) {action : Action Id}
    (moves : s.Moves action after) : after.StopsInOrder := by
  obtain drains | keeps | ⟨idle, rfl⟩ | ⟨-, exited, rfl⟩ := moves_cases moves
  · exact inOrder.drains drains
  · constructor
    · rw [keeps.stopper, keeps.running]
      exact inOrder.flag
    · rw [keeps.stopper, keeps.drainer]
      exact inOrder.joined
  · rw [inOrder.flag idle]
    exact ⟨Stopper.noConfusion, Stopper.noConfusion⟩
  · exact ⟨Stopper.noConfusion, fun _ => exited⟩

theorem stopsInOrder {allowed : Logger Id → Action Id → Prop} {ring : Fin ringSize → Record}
    (reached : Reaches step allowed (initial ring) s) : s.StopsInOrder :=
  @Reaches.invariant _ _ step _ _ (fun s => s.StopsInOrder)
    ⟨fun _ => rfl, Stopper.noConfusion⟩
    (fun _ _ _ inOrder _ stepped => inOrder.moves (moves_of_step stepped)) _ reached

/-- What `stop` leaves behind at once. -/
theorem stopped_eq (stops : s.step .stop = some after) :
    after.running = false ∧ after.drainer = s.drainer ∧ after.tail = s.tail ∧
      after.printed = s.printed ∧ after.completed = s.completed := by
  cases moves_of_step stops with
  | stop idle => exact ⟨rfl, rfl, rfl, rfl, rfl⟩

/-! ### Every run -/

variable {ring : Fin ringSize → Record} {stopped final : Logger Id}

/-- What was completed before `stop` is printed when the drainer leaves, unless it had taken the
ring for empty. -/
theorem printedOnLeaving_of_not_blind
    (reached : Reaches step Unwrapped (initial ring) s) (stops : s.step .stop = some stopped)
    (later : Reaches step Unwrapped stopped final) (aware : ¬s.Blind) :
    final.PrintedOnLeaving s.completed := by
  obtain ⟨-, drainer, tail, printed, completed⟩ := stopped_eq stops
  have start := consistent (Reaches.next Action.stop reached trivial stops)
  have covered : stopped.PrintedOnLeaving s.completed := by
    intro leaving position member
    rw [Leaving, drainer, tail] at leaving
    rw [printed]
    exact not_le.mp fun unprinted => aware ⟨leaving, position, member, unprinted⟩
  have claimed : ∀ position ∈ s.completed, position < stopped.claims.length := by
    rw [← completed]
    exact fun position => start.2.completed_lt
  have holds := @Reaches.invariant _ _ step _ _
    (fun x => (x.Counted ∧ x.Consistent) ∧ x.PrintedOnLeaving s.completed ∧
      ∀ position ∈ s.completed, position < x.claims.length)
    ⟨start, covered, claimed⟩
    (fun x action next holds unwrapped stepped => ⟨⟨holds.1.1.moves (moves_of_step stepped),
        holds.1.2.moves holds.1.1 unwrapped (moves_of_step stepped)⟩,
      holds.2.1.moves holds.1.2 holds.1.1 holds.2.2 (moves_of_step stepped),
      fun position member => lt_of_lt_of_le (holds.2.2 position member)
        (claims_length_mono (Reaches.next action .start unwrapped stepped))⟩) _ later
  exact holds.2.1

/-- In every run in which the positions do not wrap: when `stop` has returned, every call that had
returned without dropping before `stop` was called is printed, exactly if the drainer had not
taken the ring for empty while the record of such a call was not printed. -/
theorem stop_prints_iff (Id : Type) [DecidableEq Id] (ring : Fin ringSize → Record)
    (s stopped final : Logger Id) (reached : Reaches step Unwrapped (initial ring) s)
    (stops : s.step .stop = some stopped) (later : Reaches step Unwrapped stopped final)
    (returned : final.stopper = .returned) :
    (∀ position ∈ s.completed, final.IsPrinted position) ↔ ¬s.Blind := by
  have whole : Reaches step Unwrapped (initial ring) final :=
    (Reaches.next Action.stop reached trivial stops).trans later
  have exited := (stopsInOrder whole).joined returned
  have printed := (consistent whole).2.isPrinted_iff
  simp only [printed]
  constructor
  · rintro all ⟨leaving, position, member, unprinted⟩
    obtain ⟨cleared, drainer, tail, same, -⟩ := stopped_eq stops
    have start : stopped.LeavesWith s.printed := by
      refine ⟨cleared, ?_, same⟩
      rw [Leaving, drainer, tail]
      exact leaving
    have leaves := @Reaches.invariant _ _ step _ _ (fun x => x.LeavesWith s.printed) start
      (fun _ _ _ leaves _ stepped => leaves.moves (moves_of_step stepped)) _ later
    have bound := all position member
    rw [leaves.same] at bound
    exact absurd bound (not_lt.mpr unprinted)
  · intro aware
    refine printedOnLeaving_of_not_blind reached stops later aware ?_
    rw [Leaving, exited]
    trivial

end Steps

/-! ### Messages before `stop` -/

/-- One call of `log` from its first step to its last. -/
def oneCall : List (Action Unit) :=
  [.log () note, .loadTail (), .claim ()] ++ List.replicate 5 (.write ())

/-- Run `before`, call `stop`, run `later`, and look at the ends of the two runs. -/
def stopBetween {Result : Type} (before later : List (Action Unit))
    (result : Logger Unit → Logger Unit → Result) : Option Result :=
  (execute step Unwrapped (initial fun _ => blank) before).bind fun s =>
    (s.step .stop).bind fun stopped =>
      (execute step Unwrapped stopped later).map fun final => result s final

theorem reaches_of_stopBetween {Result : Type} {before later : List (Action Unit)}
    {result : Logger Unit → Logger Unit → Result} {value : Result}
    (found : stopBetween before later result = some value) :
    ∃ s stopped final, Reaches step Unwrapped (initial fun _ => blank) s ∧
      s.step .stop = some stopped ∧ Reaches step Unwrapped stopped final ∧
      result s final = value := by
  obtain ⟨s, executed, rest⟩ := Option.bind_eq_some_iff.mp found
  obtain ⟨stopped, stops, rest⟩ := Option.bind_eq_some_iff.mp rest
  obtain ⟨final, later, same⟩ := Option.map_eq_some_iff.mp rest
  exact ⟨s, stopped, final, Reaches.execute .start executed, stops, Reaches.execute .start later,
    same⟩

/-- The drainer is in the middle of one record, and another message is logged, when `stop` is
called: both are printed. -/
theorem stop_prints_iff_twoCalls :
    ∃ s stopped final : Logger Unit, Reaches step Unwrapped (initial fun _ => blank) s ∧
      s.step .stop = some stopped ∧ Reaches step Unwrapped stopped final ∧
      final.stopper = .returned ∧ s.completed = [0, 1] ∧ s.printed = [] ∧
      ∀ position ∈ s.completed, final.IsPrinted position := by
  have run : stopBetween (oneCall ++ List.replicate 4 .drain ++ oneCall)
      (List.replicate 17 .drain ++ [.join])
      (fun s final => (s.drainer, s.completed, s.printed, final.stopper)) =
        some (.readNsec 1 0 0, [0, 1], [], .returned) := by
    decide +kernel
  obtain ⟨s, stopped, final, reached, stops, later, same⟩ := reaches_of_stopBetween run
  obtain ⟨drainer, completed, printed, returned⟩ : s.drainer = .readNsec 1 0 0 ∧
      s.completed = [0, 1] ∧ s.printed = [] ∧ final.stopper = .returned := by
    simpa using same
  refine ⟨s, stopped, final, reached, stops, later, returned, completed, printed,
    (stop_prints_iff Unit _ s stopped final reached stops later returned).mpr fun blind => ?_⟩
  have leaving := blind.1
  rw [Leaving, drainer] at leaving
  exact leaving

/-- A message logged after the drainer has loaded the head of the empty ring is never printed. -/
theorem stop_loses_message :
    ∃ s stopped final : Logger Unit, Reaches step Unwrapped (initial fun _ => blank) s ∧
      s.step .stop = some stopped ∧ Reaches step Unwrapped stopped final ∧
      final.stopper = .returned ∧ 0 ∈ s.completed ∧ ¬final.IsPrinted 0 := by
  have run : stopBetween ([.drain, .drain] ++ oneCall) [.drain, .join]
      (fun s final => (s.completed, final.stopper, final.printed)) =
        some ([0], .returned, []) := by
    decide +kernel
  obtain ⟨s, stopped, final, reached, stops, later, same⟩ := reaches_of_stopBetween run
  obtain ⟨completed, returned, printed⟩ :
      s.completed = [0] ∧ final.stopper = .returned ∧ final.printed = [] := by
    simpa using same
  refine ⟨s, stopped, final, reached, stops, later, returned, ?_, ?_⟩
  · rw [completed]
    exact List.mem_singleton_self 0
  · rintro ⟨owner, call, entry, -, listed, -⟩
    rw [printed] at listed
    cases listed

end Logger

end Trading

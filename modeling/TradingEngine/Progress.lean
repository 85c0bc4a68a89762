/-
This file is about what the threads are bound to do while the engine runs. The network thread
hands a message over in finitely many pushes. The strategy thread waits for nobody: every turn of
its loop takes an invalidation and, off a queue that holds one, an event. So if each of the two
that can make a step for good makes one, every event of every message received is counted as
dropped or handled, in the order the events came in, and every invalidation is taken unless the
loop is left before.
-/

import TradingEngine.FeedCounters
import TradingEngine.FeedOrder
import TradingEngine.StopReturns
import TradingEngine.TradingSteps

namespace Trading

open Transition

/-! ### What only grows -/

namespace Pipeline

/-- The events offered to the queue come in the order they were received, none twice. -/
def Offered (p : Pipeline) : Prop := p.offeredEvents.Sublist p.receivedEvents

theorem Offered.step {p after : Pipeline} {action : Action} (offered : p.Offered)
    (step : p.Step action after) : after.Offered := by
  unfold Offered offeredEvents at offered ⊢
  cases step with
  | connect | invalidate | pop | handle => exact offered
  | receive msg recvTs parseDone idle connected =>
    rw [idle, List.append_nil] at offered
    have more : receivedEvents { p with
          received := p.received ++ [(msg, recvTs)]
          pending := msg.events p.tickSize recvTs } =
        p.receivedEvents ++ msg.events p.tickSize recvTs :=
      eventsOf_concat p.tickSize p.received msg recvTs
    rw [more]
    exact offered.append (List.Sublist.refl _)
  | push event rest waiting room =>
    rw [waiting] at offered
    rw [List.map_append, List.append_assoc]
    exact offered
  | lose event rest waiting full =>
    rw [waiting] at offered
    exact ((List.sublist_cons_self event rest).append_left _).trans offered

/-- Messages received and events accepted are only added to. -/
structure Grows (before after : Pipeline) : Prop where
  received : before.received <+: after.received
  accepted : before.accepted <+: after.accepted

theorem Grows.refl (p : Pipeline) : p.Grows p := ⟨List.prefix_refl _, List.prefix_refl _⟩

/-- No step takes anything back from the histories. -/
theorem Grows.step {start p after : Pipeline} {action : Action} (grows : start.Grows p)
    (step : p.Step action after) : start.Grows after := by
  obtain ⟨received, accepted⟩ := grows
  cases step with
  | connect | lose | invalidate | pop | handle => exact ⟨received, accepted⟩
  | receive => exact ⟨received.trans (List.prefix_append _ _), accepted⟩
  | push => exact ⟨received, accepted.trans (List.prefix_append _ _)⟩

end Pipeline

namespace System

variable {cfg : RuntimeConfig} {run : Run System.step} {n : Nat}

theorem dialed_of_reaches {s : System} (reached : Reaches step Free (initial cfg) s) : s.Dialed :=
  @Reaches.invariant _ _ step Free (initial cfg) Dialed (Or.inl rfl)
    (fun _ _ _ dialed _ stepped => dialed.step stepped) s reached

theorem grows_of_reaches (reached : Reaches step Free (initial cfg) (run.state n)) {m : Nat}
    (later : n ≤ m) : (run.state n).pipeline.Grows (run.state m).pipeline := by
  refine (@Run.invariant _ _ _ run (fun s => s.Dialed ∧ (run.state n).pipeline.Grows s.pipeline) n
    (fun s action after holds stepped => ⟨holds.1.step stepped, ?_⟩)
    ⟨dialed_of_reaches reached, .refl _⟩ m later).2
  rcases step_pipeline holds.1 stepped with same | moved
  · rw [same]
    exact holds.2
  · exact holds.2.step moved

/-! ### The network thread hands its message over -/

/-- No event waits to be pushed. -/
theorem eventually_handedOver (network : run.Fair Action.OfNetwork) :
    ∃ m ≥ n, (run.state m).network.unpushed = 0 := by
  refine @Run.eventually _ _ _ run _ (fun _ => True) n _ _ _
    (fun s => s.network.unpushed = 0) networkRank network (fun _ _ _ _ _ => trivial)
    (fun s _ waiting => network_can fun exited => waiting (by rw [exited]; rfl))
    (fun s action after _ own stepped waiting => ?_)
    (fun s action after _ other stepped _ => ?_) trivial
  · cases moves_of_step stepped with
    | receive msg recvTs parseDone reading =>
      have rank : s.networkRank = toLex (1, 0) := by
        rw [networkRank, reading]
      rw [rank]
      exact networkRank_receive s msg recvTs parseDone
    | push event retries rest pushing => exact networkRank_push pushing
    | connect dialing =>
      unfold connect at waiting
      dsimp only at waiting
      split at waiting <;> exact absurd rfl waiting
    | dial | testWsRunning =>
      exfalso
      dsimp only at waiting
      split at waiting <;> exact waiting rfl
    | connectFailed | readTimeout | parseError | disconnect | measure => exact absurd rfl waiting
    | testRunning | exchange | pop | drain | handle | stop | joinNetwork | clearRunning
    | joinStrategy => exact own.elim
  · rw [networkRank, networkRank, network_of_others other stepped]

/-! ### The strategy thread handles the queue -/

/-- The other threads leave the strategy thread and what it handled alone. -/
theorem strategy_of_others {s after : System} {action : Action} (other : ¬action.OfStrategy)
    (stepped : s.step action = some after) :
    after.strategy = s.strategy ∧ after.handled = s.handled := by
  cases moves_of_step stepped with
  | connect =>
    unfold connect
    dsimp only
    split <;> exact ⟨rfl, rfl⟩
  | receive msg recvTs parseDone =>
    exact ⟨(receive_keepsOthers s msg recvTs parseDone).strategy,
      (receive_keepsTrading s msg recvTs parseDone).handled⟩
  | push event retries rest =>
    exact ⟨(push_keepsOthers s event retries rest).strategy,
      (push_keepsTrading s event retries rest).handled⟩
  | testRunning | exchange | pop | drain | handle => exact absurd trivial other
  | dial | connectFailed | testWsRunning | readTimeout | parseError | disconnect | measure
  | stop | joinNetwork | clearRunning | joinStrategy => exact ⟨rfl, rfl⟩

/-- How far the strategy thread is from having handled `count` events, if they are accepted. -/
def handleRank (count : Nat) (s : System) : Nat :=
  4 * (count - s.handled.length) + match s.strategy with
    | .head => 3
    | .exchanging => 2
    | .popping | .draining => 1
    | .handling _ _ | .done => 0

/-- An event accepted and not handled is on the queue, unless one is in hand. -/
theorem queue_ne_nil {s : System} (reached : Reaches step Free (initial cfg) s)
    (free : s.pipeline.held = none) (behind : s.handled.length < s.accepted.length) :
    s.queue ≠ [] := by
  intro empty
  have fifo : s.accepted = s.handled ++ s.pipeline.held.toList ++ s.queue := (inOrder reached).fifo
  rw [free, empty, Option.toList_none, List.append_nil, List.append_nil] at fifo
  rw [fifo] at behind
  exact lt_irrefl _ behind

theorem handleRank_pop {s : System} {drained : Bool} {count : Nat}
    (popping : s.strategy = if drained then .draining else .popping) (waiting : s.queue ≠ []) :
    (s.pop drained).handleRank count < s.handleRank count := by
  unfold pop
  split
  · rename_i empty
    exact absurd empty waiting
  · cases drained <;> simp [handleRank, popping]

/-- While an accepted event is left to handle, every step of the strategy thread brings it
closer. -/
theorem handleRank_lt {s after : System} {action : Action} {count : Nat}
    (reached : Reaches step Free (initial cfg) s) (accepted : count ≤ s.accepted.length)
    (own : action.OfStrategy) (stepped : s.step action = some after)
    (behind : after.handled.length < count) : after.handleRank count < s.handleRank count := by
  cases moves_of_step stepped with
  | testRunning head =>
    cases s.running <;> simp [handleRank, head]
  | exchange exchanging =>
    unfold exchange
    split <;> simp [handleRank, exchanging]
  | pop popping =>
    have free : s.pipeline.held = none := by simp only [pipeline, popping]
    have still : s.handled.length < count := by
      unfold pop at behind
      split at behind <;> exact behind
    exact @handleRank_pop s false count popping
      (queue_ne_nil reached free (lt_of_lt_of_le still accepted))
  | drain draining =>
    have free : s.pipeline.held = none := by simp only [pipeline, draining]
    have still : s.handled.length < count := by
      unfold pop at behind
      split at behind <;> exact behind
    exact @handleRank_pop s true count draining
      (queue_ne_nil reached free (lt_of_lt_of_le still accepted))
  | handle entry drained clock handling =>
    have one : (s.handled ++ [entry]).length = s.handled.length + 1 := List.length_append
    have less : (s.handled ++ [entry]).length < count := behind
    cases drained <;> simp only [handleRank, handling, handle, one, Bool.false_eq_true, if_true,
      if_false] <;> omega
  | dial | connect | connectFailed | testWsRunning | readTimeout | parseError | disconnect
  | receive | push | measure | stop | joinNetwork | clearRunning | joinStrategy =>
    exact own.elim

/-- As many events are handled as were accepted. -/
theorem eventually_handled_length (reached : Reaches step Free (initial cfg) (run.state n))
    (strategy : run.Fair Action.OfStrategy) :
    ∃ m ≥ n, (run.state n).accepted.length ≤ (run.state m).handled.length := by
  refine @Run.eventually _ _ _ run _ (fun s => Reaches step Free (initial cfg) s ∧
      (run.state n).accepted.length ≤ s.accepted.length) n _ _ _
    (fun s => (run.state n).accepted.length ≤ s.handled.length)
    (handleRank (run.state n).accepted.length) strategy
    (fun s action after holds stepped => ⟨holds.1.next action trivial stepped, ?_⟩)
    (fun s holds behind => strategy_can fun done => ?_)
    (fun s action after holds own stepped behind =>
      handleRank_lt holds.1 holds.2 own stepped (not_le.mp behind))
    (fun s action after _ other stepped _ => ?_) ⟨reached, le_refl _⟩
  · rcases step_pipeline (dialed_of_reaches holds.1) stepped with same | moved
    · rw [show after.accepted = s.accepted from congrArg Pipeline.accepted same]
      exact holds.2
    · exact le_trans holds.2 ((Pipeline.Grows.refl _).step moved).accepted.length_le
  · have free : s.pipeline.held = none := by simp only [pipeline, done]
    exact queue_ne_nil holds.1 free (lt_of_lt_of_le (not_le.mp behind) holds.2)
      ((ordered_of_reaches holds.1).drained done)
  · obtain ⟨same, handled⟩ := strategy_of_others other stepped
    rw [handleRank, handleRank, same, handled]

/-- Every event the queue took is handled. -/
theorem eventually_handled (reached : Reaches step Free (initial cfg) (run.state n))
    (strategy : run.Fair Action.OfStrategy) :
    ∃ m ≥ n, (run.state n).accepted <+: (run.state m).handled := by
  obtain ⟨m, later, handled⟩ := eventually_handled_length reached strategy
  have grown := (grows_of_reaches reached later).accepted
  have fifo : (run.state m).accepted = (run.state m).handled ++
      (run.state m).pipeline.held.toList ++ (run.state m).queue :=
    (inOrder (Run.reaches reached later)).fifo
  refine ⟨m, later, List.prefix_of_prefix_length_le grown ?_ handled⟩
  show (run.state m).handled <+: (run.state m).accepted
  rw [fifo, List.append_assoc]
  exact List.prefix_append _ _

/-! ### The strategy thread takes an invalidation -/

/-- How far the strategy thread is, in its loop, from the exchange. -/
def takeRank (s : System) : Nat :=
  match s.strategy with
  | .popping => 3
  | .handling _ _ => 2
  | .head => 1
  | .exchanging | .draining | .done => 0

/-- Every step of the strategy thread brings it closer to taking the invalidation. -/
theorem takeRank_lt {s after : System} {action : Action} (ordered : s.Ordered)
    (own : action.OfStrategy) (stepped : s.step action = some after)
    (untaken : ¬(after.bookInvalidate = false ∨ after.running = false)) :
    after.takeRank < s.takeRank := by
  obtain ⟨flagged, running⟩ := not_or.mp untaken
  cases moves_of_step stepped with
  | testRunning head =>
    have looping : s.running = true := Bool.eq_true_of_not_eq_false running
    simp [takeRank, head, looping]
  | exchange exchanging =>
    unfold exchange at flagged
    split at flagged
    · exact absurd rfl flagged
    · rename_i unflagged
      exact absurd (Bool.eq_false_of_not_eq_true unflagged) flagged
  | pop popping =>
    unfold pop
    split <;> simp [takeRank, popping]
  | drain draining =>
    have left : s.strategy.Left := by rw [draining]; trivial
    unfold pop at running
    split at running <;> exact absurd (ordered.left left) running
  | handle entry drained clock handling =>
    cases drained with
    | true =>
      have left : s.strategy.Left := by rw [handling]; rfl
      exact absurd (ordered.left left) running
    | false => simp [takeRank, handling, handle]
  | dial | connect | connectFailed | testWsRunning | readTimeout | parseError | disconnect
  | receive | push | measure | stop | joinNetwork | clearRunning | joinStrategy =>
    exact own.elim

/-- An invalidation is taken, unless the loop is left before. -/
theorem eventually_taken (reached : Reaches step Free (initial cfg) (run.state n))
    (strategy : run.Fair Action.OfStrategy) :
    ∃ m ≥ n, (run.state m).bookInvalidate = false ∨ (run.state m).running = false := by
  refine @Run.eventually _ _ _ run _ (Reaches step Free (initial cfg)) n _ _ _
    (fun s => s.bookInvalidate = false ∨ s.running = false) takeRank strategy
    (fun s action after reached stepped => reached.next action trivial stepped)
    (fun s reached untaken => strategy_can fun done => ?_)
    (fun s action after reached own stepped untaken =>
      takeRank_lt (ordered_of_reaches reached) own stepped untaken)
    (fun s action after _ other stepped _ => ?_) reached
  · have left : s.strategy.Left := by rw [done]; trivial
    exact untaken (Or.inr ((ordered_of_reaches reached).left left))
  · rw [takeRank, takeRank, (strategy_of_others other stepped).1]

/-- Only the strategy thread clears the flag, and then it resets what it has. -/
theorem reset_of_unflagged {s after : System} {action : Action} (dialed : s.Dialed)
    (flagged : s.bookInvalidate = true) (stepped : s.step action = some after)
    (unflagged : after.bookInvalidate = false) : after.rt = s.rt.reset := by
  have before : s.pipeline.bookInvalidate = true := flagged
  have exchanged : action = .exchange := by
    have cleared : after.pipeline.bookInvalidate = false := unflagged
    rcases step_pipeline dialed stepped with same | moved
    · rw [same, before] at cleared
      cases cleared
    · generalize after.pipeline = p at moved cleared
      cases moved with
      | invalidate => rfl
      | connect =>
        rw [before] at cleared
        cases cleared
      | receive | push | lose | pop | handle => cases before.symm.trans cleared
  subst exchanged
  cases moves_of_step stepped with
  | exchange exchanging =>
    unfold exchange
    rw [if_pos flagged]
    rfl

/-- The moment an invalidation is taken. -/
theorem eventually_reset (reached : Reaches step Free (initial cfg) (run.state n))
    (strategy : run.Fair Action.OfStrategy) (flagged : (run.state n).bookInvalidate = true) :
    ∃ m ≥ n, (run.state m).running = false ∨
      (run.state (m + 1)).rt = (run.state m).rt.reset := by
  obtain ⟨m, later, goal⟩ := eventually_taken reached strategy
  by_contra never
  have still : ∀ k ≥ n, (run.state k).bookInvalidate = true := by
    intro k after
    induction k, after using Nat.le_induction with
    | base => exact flagged
    | succ k after inductionHypothesis =>
      rcases run.next k with same | ⟨label, _, stepped⟩
      · rw [same]
        exact inductionHypothesis
      · refine Bool.eq_true_of_not_eq_false fun unflagged => never ⟨k, after, Or.inr ?_⟩
        exact reset_of_unflagged (dialed_of_reaches (Run.reaches reached after))
          inductionHypothesis stepped unflagged
  rcases goal with unflagged | left
  · exact Bool.noConfusion (unflagged.symm.trans (still m later))
  · exact never ⟨m, later, Or.inl left⟩

/-! ### Nothing is left waiting -/

theorem offered_of_reaches {s : System} (reached : Reaches step Free (initial cfg) s) :
    s.pipeline.Offered :=
  reaches_pipeline Pipeline.Offered List.Sublist.slnil
    (fun _ _ _ offered _ moved => offered.step moved) reached

/-- In every run in which the network thread and the strategy thread, whenever they can make a
step for good, make one, from any moment on: there comes a moment at which the events of all
messages received, of those so far and maybe more, were counted as dropped or accepted, and all
accepted, in the order in which they were received, get handled; and if the connection changed,
the strategy thread resets what it has, unless `stop` has cleared its flag. -/
theorem everything_settles (cfg : RuntimeConfig) (run : Run step)
    (start : run.state 0 = initial cfg) (network : run.Fair Action.OfNetwork)
    (strategy : run.Fair Action.OfStrategy) (n : Nat) :
    (∃ settled ≥ n, ∃ m ≥ settled,
      (run.state n).received <+: (run.state settled).received ∧
      ((run.state settled).accepted.map Entry.event).Sublist
        (eventsOf (run.state settled).rt.cfg.tickSize (run.state settled).received) ∧
      (run.state settled).accepted.length + (run.state settled).rt.metrics.queueFullDrops =
        (eventsOf (run.state settled).rt.cfg.tickSize (run.state settled).received).length ∧
      (run.state settled).accepted <+: (run.state m).handled) ∧
    ((run.state n).bookInvalidate = true → ∃ m ≥ n, (run.state m).running = false ∨
      (run.state (m + 1)).rt = (run.state m).rt.reset) := by
  have reached : Reaches step Free (initial cfg) (run.state n) :=
    Run.reaches (start ▸ Reaches.start) (Nat.zero_le n)
  refine ⟨?_, eventually_reset reached strategy⟩
  obtain ⟨settled, later, handedOver⟩ := eventually_handedOver (n := n) network
  have reachedLater := Run.reaches reached later
  obtain ⟨m, afterwards, handled⟩ := eventually_handled reachedLater strategy
  refine ⟨settled, later, m, afterwards, (grows_of_reaches reached later).received, ?_, ?_,
    handled⟩
  · exact (List.sublist_append_left _ _).trans (offered_of_reaches reachedLater)
  · have counted := (balanced_of_reaches reachedLater).1.events
    rw [handedOver, Nat.add_zero] at counted
    exact counted

/-- The message of `stopReading` is received, and its event is not yet pushed. -/
theorem everything_settles_stopReading :
    ∃ run : Run step, (run.state 6).received.length = 1 ∧ (run.state 6).accepted = [] ∧
      ∃ settled ≥ 6, ∃ m ≥ settled, (run.state settled).received ≠ [] ∧
        (run.state settled).accepted <+: (run.state m).handled := by
  obtain ⟨final, executed, halted⟩ := stopReading_ends
  have fair := Run.fair_ofLabels executed halted
  have one : ((Run.ofLabels executed halted).state 6).received.length = 1 := rfl
  obtain ⟨settled, later, m, afterwards, received, -, -, handled⟩ :=
    (everything_settles {} (Run.ofLabels executed halted) rfl (fair _) (fair _) 6).1
  refine ⟨Run.ofLabels executed halted, one, rfl, settled, later, m, afterwards, ?_, handled⟩
  intro none
  have atMost := received.length_le
  rw [none, one] at atMost
  cases atMost

end System

end Trading

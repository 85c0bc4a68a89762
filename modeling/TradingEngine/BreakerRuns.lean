/-
This file follows a tripped breaker through a run. A trip leaves at least one error in its
window; no order passes a tripped breaker, so no further error is recorded. The end of the
window of the trip therefore clears the errors and stays tripped, and the end of the next
window finds none and untrips: the breaker holds until the second window end after the
trip, wherever in its window the trip was.

The messages that count are the events of the run, one each, so how long the breaker holds
can be told in events: at least a window, and at most two.
-/

import TradingEngine.Ledgers

namespace Trading

/-! ### The breaker alone -/

namespace CircuitBreaker

/-- The only window end between a message and the second one after it. -/
theorem window_end {window trip count : Nat} (positive : 0 < window) (ends : count % window = 0)
    (later : trip < count) (before : count < (trip / window + 2) * window) :
    count = (trip / window + 1) * window := by
  obtain ⟨windows, rfl⟩ := Nat.dvd_of_mod_eq_zero ends
  have least : trip / window < windows := by
    rw [Nat.div_lt_iff_lt_mul positive, mul_comm]
    exact later
  have most : windows < trip / window + 2 := by
    rw [mul_comm] at before
    exact Nat.lt_of_mul_lt_mul_right before
  rw [mul_comm, show windows = trip / window + 1 by omega]

/-- A breaker that tripped at message `trip`, after `count` messages: errors from the trip are
counted until the window ends, and none is counted from there on. -/
structure Holding (window trip count : Nat) (breaker : CircuitBreaker) : Prop where
  windows : breaker.windowMessages = window
  counted : breaker.msgs = count
  tripped : breaker.tripped = true
  early : count < (trip / window + 1) * window → 0 < breaker.errors
  late : (trip / window + 1) * window ≤ count → breaker.errors = 0

variable {window trip count : Nat} {breaker : CircuitBreaker}

/-- Until the second window end a message leaves the breaker tripped. -/
theorem Holding.recordMessage (holding : Holding window trip count breaker)
    (positive : 0 < window) (since : trip ≤ count)
    (before : count + 1 < (trip / window + 2) * window) :
    Holding window trip (count + 1) breaker.recordMessage := by
  obtain ⟨windows, counted, tripped, early, late⟩ := holding
  rw [recordMessage_eq positive windows, counted]
  split
  · rename_i ends
    have first := window_end positive ends (Nat.lt_succ_of_le since) before
    have errors : breaker.errors ≠ 0 := Nat.pos_iff_ne_zero.mp (early (by omega))
    exact ⟨windows, rfl, (if_neg errors).trans tripped, fun short => absurd short (by omega),
      fun _ => rfl⟩
  · rename_i inside
    have between : count + 1 ≠ (trip / window + 1) * window := by
      rintro equal
      exact inside (by rw [equal, Nat.mul_mod_left])
    exact ⟨windows, rfl, tripped, fun short => early (by omega), fun long => late (by omega)⟩

/-- The second window end untrips it. -/
theorem Holding.release (holding : Holding window trip count breaker) (positive : 0 < window)
    (ends : count + 1 = (trip / window + 2) * window) :
    breaker.recordMessage.isTripped = false := by
  obtain ⟨windows, counted, tripped, early, late⟩ := holding
  have clean : breaker.errors = 0 := by
    refine late ?_
    rw [add_mul] at ends ⊢
    omega
  rw [recordMessage_eq positive windows, counted, if_pos (by rw [ends, Nat.mul_mod_left])]
  exact if_pos clean

theorem recordMessage_counts (positive : 0 < window) (windows : breaker.windowMessages = window) :
    breaker.recordMessage.windowMessages = window ∧
      breaker.recordMessage.msgs = breaker.msgs + 1 := by
  rw [recordMessage_eq positive windows]
  split <;> exact ⟨windows, rfl⟩

end CircuitBreaker

/-! ### The breaker under one event -/

/-- An event counts one message, and one error if its order passed an untripped breaker and was
rejected. -/
theorem Desk.Handles.breaker {cfg : RuntimeConfig} {book : BoundedBook bookCapacity}
    {now : Timestamp} {before after : Desk} {sent : Option NewOrder}
    (handles : Desk.Handles cfg book now before sent after) :
    after.breaker = before.breaker.recordMessage ∨
      after.breaker = before.breaker.recordMessage.recordError ∧
        before.breaker.recordMessage.isTripped = false := by
  cases handles with
  | rejected keeps untripped => exact Or.inr ⟨rfl, untripped⟩
  | _ => exact Or.inl rfl

/-- Under a tripped breaker an order is blocked, and nothing else moves. -/
theorem Desk.Handles.of_tripped {cfg : RuntimeConfig} {book : BoundedBook bookCapacity}
    {now : Timestamp} {before after : Desk} {sent : Option NewOrder}
    (handles : Desk.Handles cfg book now before sent after)
    (tripped : before.breaker.recordMessage.isTripped = true) :
    after.breaker = before.breaker.recordMessage ∧
      after.circuitBlocked = before.circuitBlocked + sent.toList.length ∧
      after.risk = before.risk ∧ after.strategy.pnl = before.strategy.pnl := by
  cases handles with
  | quiet keeps => exact ⟨rfl, rfl, rfl, keeps.pnl⟩
  | blocked keeps => exact ⟨rfl, rfl, rfl, keeps.pnl⟩
  | rejected keeps untripped => exact absurd (tripped.symm.trans untripped) nofun
  | missed keeps untripped => exact absurd (tripped.symm.trans untripped) nofun
  | filled keeps untripped => exact absurd (tripped.symm.trans untripped) nofun

/-- Past an untripped breaker an order is rejected or approved. -/
theorem Desk.Handles.of_untripped {cfg : RuntimeConfig} {book : BoundedBook bookCapacity}
    {now : Timestamp} {before after : Desk} {sent : Option NewOrder}
    (handles : Desk.Handles cfg book now before sent after)
    (untripped : before.breaker.recordMessage.isTripped = false) :
    after.circuitBlocked = before.circuitBlocked ∧
      after.ordersRejected + after.ordersApproved =
        before.ordersRejected + before.ordersApproved + sent.toList.length := by
  cases handles with
  | quiet keeps => exact ⟨rfl, rfl⟩
  | blocked keeps tripped => exact absurd (tripped.symm.trans untripped) nofun
  | rejected => exact ⟨rfl, Nat.add_right_comm _ _ _⟩
  | missed => exact ⟨rfl, rfl⟩
  | filled => exact ⟨rfl, rfl⟩

/-- A refused order counts as an error. -/
theorem Desk.Handles.of_refused {cfg : RuntimeConfig} {book : BoundedBook bookCapacity}
    {now : Timestamp} {before after : Desk} {order : NewOrder}
    (handles : Desk.Handles cfg book now before (some order) after)
    (untripped : before.breaker.recordMessage.isTripped = false)
    (refused : before.risk.approve order = false) :
    after.breaker = before.breaker.recordMessage.recordError := by
  cases handles with
  | blocked keeps tripped => exact absurd (tripped.symm.trans untripped) nofun
  | rejected => rfl
  | missed keeps untripped approved => exact absurd (approved.symm.trans refused) nofun
  | filled keeps untripped approved => exact absurd (approved.symm.trans refused) nofun

namespace Runtime

/-- An event handled under a tripped breaker: its order, if it sends one, is counted as blocked,
and neither ledger moves. -/
structure Blocks (before after : Runtime) (sent : Option NewOrder) : Prop where
  during : before.breaker.recordMessage.isTripped = true
  still : after.breaker.isTripped = true
  blocked : after.metrics.circuitBlocked = before.metrics.circuitBlocked + sent.toList.length
  risk : after.risk = before.risk
  pnl : after.strategy.pnl = before.strategy.pnl

/-- An event that untrips the breaker: its order, if it sends one, reaches the risk check, which
approves or rejects it. -/
structure Releases (before after : Runtime) (sent : Option NewOrder) : Prop where
  held : before.breaker.isTripped = true
  during : before.breaker.recordMessage.isTripped = false
  blocked : after.metrics.circuitBlocked = before.metrics.circuitBlocked
  checked : after.metrics.ordersRejected + after.metrics.ordersApproved =
    before.metrics.ordersRejected + before.metrics.ordersApproved + sent.toList.length

/-- The breaker trips while the `trip`-th event is handled: untripped once the event is counted,
and tripped when it is done. -/
structure Trips (cfg : RuntimeConfig) (events : List (EventClock × MarketEvent)) (trip : Nat) :
    Prop where
  positive : 0 < trip
  bound : trip ≤ events.length
  untripped : (run cfg (events.take (trip - 1))).breaker.recordMessage.isTripped = false
  tripped : (run cfg (events.take trip)).breaker.isTripped = true

/-! ### The breaker along a run -/

theorem run_take_succ (cfg : RuntimeConfig) (events : List (EventClock × MarketEvent))
    {count : Nat} (bound : count < events.length) :
    run cfg (events.take (count + 1)) =
      (run cfg (events.take count)).processEvent events[count].1 events[count].2 := by
  rw [← run_concat, List.take_append_getElem bound]

theorem run_wellFormed (cfg : RuntimeConfig) (events : List (EventClock × MarketEvent)) :
    (run cfg events).book.WellFormed :=
  (run_invariant (fun _ => True) trivial (fun _ _ _ _ _ _ => trivial) events).2.1

/-- An event counts one message, and one error at most, which needs an untripped breaker. -/
theorem processEvent_breaker {rt : Runtime} (wellFormed : rt.book.WellFormed) (clock : EventClock)
    (ev : MarketEvent) :
    (rt.processEvent clock ev).breaker = rt.breaker.recordMessage ∨
      (rt.processEvent clock ev).breaker = rt.breaker.recordMessage.recordError ∧
        rt.breaker.recordMessage.isTripped = false :=
  (processEvent_handles wellFormed clock ev).breaker

theorem processEvent_breaker_of_tripped {rt : Runtime} (wellFormed : rt.book.WellFormed)
    (clock : EventClock) (ev : MarketEvent) (tripped : rt.breaker.recordMessage.isTripped = true) :
    (rt.processEvent clock ev).breaker = rt.breaker.recordMessage :=
  ((processEvent_handles wellFormed clock ev).of_tripped tripped).1

/-- The breaker of a run counts its events. -/
theorem run_breaker_counts {cfg : RuntimeConfig} (positive : 0 < cfg.circuitWindowMsgs)
    (events : List (EventClock × MarketEvent)) :
    (run cfg events).breaker.windowMessages = cfg.circuitWindowMsgs ∧
      (run cfg events).breaker.msgs = events.length := by
  induction events using List.reverseRecOn with
  | nil => exact ⟨rfl, rfl⟩
  | append_singleton events handled inductionHypothesis =>
    obtain ⟨windows, counted⟩ := inductionHypothesis
    have counts := CircuitBreaker.recordMessage_counts positive windows
    rw [counted] at counts
    rw [run_concat, List.length_append, List.length_singleton]
    rcases processEvent_breaker (run_wellFormed cfg events) handled.1 handled.2 with
      message | ⟨error, -⟩
    · rw [message]
      exact counts
    · rw [error]
      exact counts

/-- A trip is an error. -/
theorem Trips.errors_pos {cfg : RuntimeConfig} {events : List (EventClock × MarketEvent)}
    {trip : Nat} (trips : Trips cfg events trip) :
    0 < (run cfg (events.take trip)).breaker.errors := by
  obtain ⟨positive, bound, untripped, tripped⟩ := trips
  obtain ⟨count, rfl⟩ : ∃ count, trip = count + 1 := ⟨trip - 1, by omega⟩
  rw [Nat.add_sub_cancel] at untripped
  rw [run_take_succ cfg events bound] at tripped ⊢
  rcases processEvent_breaker (run_wellFormed cfg (events.take count)) events[count].1
    events[count].2 with message | ⟨error, -⟩
  · rw [message] at tripped
    exact absurd (tripped.symm.trans untripped) nofun
  · rw [error]
    exact Nat.succ_pos _

/-- From a trip to before the second window end the breaker is holding. -/
theorem Trips.holding {cfg : RuntimeConfig} {events : List (EventClock × MarketEvent)} {trip : Nat}
    (trips : Trips cfg events trip) (positive : 0 < cfg.circuitWindowMsgs) {count : Nat}
    (since : trip ≤ count) (bound : count ≤ events.length)
    (before : count < (trip / cfg.circuitWindowMsgs + 2) * cfg.circuitWindowMsgs) :
    (run cfg (events.take count)).breaker.Holding cfg.circuitWindowMsgs trip count := by
  induction count, since using Nat.le_induction with
  | base =>
    obtain ⟨windows, counted⟩ := run_breaker_counts positive (events.take trip)
    rw [List.length_take, min_eq_left bound] at counted
    refine ⟨windows, counted, trips.tripped, fun _ => trips.errors_pos, fun late => ?_⟩
    exact absurd late (Nat.not_le.mpr (Nat.lt_mul_of_div_lt (Nat.lt_succ_self _) positive))
  | succ count since inductionHypothesis =>
    have holding := inductionHypothesis (by omega) (by omega)
    have next := holding.recordMessage positive since before
    rw [run_take_succ cfg events bound,
      processEvent_breaker_of_tripped (run_wellFormed cfg (events.take count)) _ _ next.tripped]
    exact next

/-- A breaker that trips on an event blocks every order, and moves neither ledger, up to the
second window end from there; that event untrips it and its order reaches the risk check. -/
theorem tripped_breaker_blocks (cfg : RuntimeConfig) (positive : 0 < cfg.circuitWindowMsgs)
    (events : List (EventClock × MarketEvent)) (trip : Nat) (trips : Trips cfg events trip) :
    let release := (trip / cfg.circuitWindowMsgs + 2) * cfg.circuitWindowMsgs
    ∀ (count : Nat) (bound : count < events.length), trip ≤ count →
      (count + 1 < release → Blocks (run cfg (events.take count))
        (run cfg (events.take (count + 1)))
        ((run cfg (events.take count)).sentOrder events[count].1 events[count].2)) ∧
      (count + 1 = release → Releases (run cfg (events.take count))
        (run cfg (events.take (count + 1)))
        ((run cfg (events.take count)).sentOrder events[count].1 events[count].2)) := by
  intro release count bound since
  have handles := processEvent_handles (run_wellFormed cfg (events.take count)) events[count].1
    events[count].2
  rw [run_take_succ cfg events bound]
  constructor
  · intro before
    have holding := trips.holding positive since (le_of_lt bound) (by omega)
    have tripped := (holding.recordMessage positive since before).tripped
    obtain ⟨-, blocked, risk, pnl⟩ := handles.of_tripped tripped
    refine ⟨tripped, ?_, blocked, risk, pnl⟩
    rw [processEvent_breaker_of_tripped (run_wellFormed cfg (events.take count)) _ _ tripped]
    exact tripped
  · intro ends
    have holding := trips.holding positive since (le_of_lt bound) (by omega)
    have untripped := holding.release positive ends
    obtain ⟨blocked, checked⟩ := handles.of_untripped untripped
    exact ⟨holding.tripped, untripped, blocked, checked⟩

/-- An order the risk check turns down past an untripped breaker is an error. -/
theorem breaker_of_refused {rt : Runtime} (wellFormed : rt.book.WellFormed) {clock : EventClock}
    {ev : MarketEvent} {order : NewOrder} (sent : rt.sentOrder clock ev = some order)
    (untripped : rt.breaker.recordMessage.isTripped = false)
    (refused : rt.risk.approve order = false) :
    (rt.processEvent clock ev).breaker = rt.breaker.recordMessage.recordError := by
  have handles := processEvent_handles wellFormed clock ev
  rw [sent] at handles
  exact handles.of_refused untripped refused

/-- One error trips, in windows of two messages; the entry is for more than the position limit. -/
def tripConfig : RuntimeConfig := entryConfig (1 / 10) 5 1 2

/-- Four quotes, each of which asks for the entry. -/
def tripEvents : List (EventClock × MarketEvent) := List.replicate 4 entryQuote

theorem tripEvents_trips : Trips tripConfig tripEvents 1 := by
  have valid : tripConfig.Valid :=
    entryConfig_valid (by norm_num) (by norm_num) (by norm_num) Nat.one_pos Nat.two_pos
  have sent := @entryQuote_order (1 / 10) 5 1 2 (by norm_num) (by norm_num)
  have refused : (create tripConfig).risk.approve
      ⟨1, 0, .bid, ⟨10001⟩, ⟨1 / 10 * 10000 / (20001 / 200)⟩, 3000000001⟩ = false := by
    rw [Bool.eq_false_iff, ne_eq, create_approve_iff valid rfl rfl (by norm_num)]
    rintro ⟨fits, -⟩
    refine absurd fits (not_le.mpr ?_)
    show (5 : ℚ) < 1 / 10 * 10000 / (20001 / 200)
    norm_num
  have untripped : (run tripConfig []).breaker.recordMessage.isTripped = false := rfl
  have error := breaker_of_refused (run_wellFormed tripConfig []) sent untripped refused
  have first : tripEvents.take 1 = [] ++ [entryQuote] := rfl
  refine ⟨Nat.one_pos, Nat.le_add_left 1 3, untripped, ?_⟩
  rw [first, run_concat, error]
  rfl

/-- The entry of the first snapshot trips the breaker; the entries of the second and the third
are blocked, and that of the fourth is checked. -/
theorem tripped_breaker_blocks_tripEvents :
    Blocks (run tripConfig (tripEvents.take 1)) (run tripConfig (tripEvents.take 2))
        ((run tripConfig (tripEvents.take 1)).sentOrder entryQuote.1 entryQuote.2) ∧
      Releases (run tripConfig (tripEvents.take 3)) (run tripConfig (tripEvents.take 4))
        ((run tripConfig (tripEvents.take 3)).sentOrder entryQuote.1 entryQuote.2) := by
  have held := tripped_breaker_blocks tripConfig Nat.two_pos tripEvents 1 tripEvents_trips
  exact ⟨(held 1 (Nat.le_add_left 2 2) (le_refl 1)).1 (by decide),
    (held 3 (Nat.le_refl 4) (by decide)).2 (by decide)⟩

end Runtime

end Trading

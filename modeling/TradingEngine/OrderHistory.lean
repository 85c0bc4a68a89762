/-
This file keeps a log beside the threads and says what the log of every run looks like:
when orders were sent and whether the strategy held nothing then, which imbalances were
recorded since the strategy thread last took an invalidation, and whether the book was
rebuilt since.

Two things follow in every interleaving. The cooldown spaces the entries: under clocks
that do not go back, an order sent while flat comes a cooldown after every earlier order,
so a stretch of time holds only so many of them. And a reconnect is forgotten by nobody:
an order needs a book rebuilt since, and an imbalance recorded and passed over since.
-/

import TradingEngine.Lib.Spacing
import TradingEngine.StrategyUpdates
import TradingEngine.TradingSteps

namespace Trading

open Transition
open ImbalanceStrategy (Recorded SameSignals Updates)

/-- An order of the log: when the strategy decided on it, and whether it held nothing. -/
structure SentOrder where
  decided : Timestamp
  flat : Bool
deriving DecidableEq, Repr

/-- The system with its log. Nothing but `system` is state of the program. -/
structure LoggedSystem where
  system : System
  now : Timestamp
  orders : List SentOrder
  samples : List ℚ
  reconnected : Bool
  rebuilt : Bool

/-- The clock readings of a step. -/
def Action.clock : Action → Option EventClock
  | .handle clock => some clock
  | _ => none

namespace LoggedSystem

/-- Nothing has been logged. -/
def initial (cfg : RuntimeConfig) : LoggedSystem where
  system := System.initial cfg
  now := 0
  orders := []
  samples := []
  reconnected := false
  rebuilt := false

/-- The log after an event. -/
def logEvent (t : LoggedSystem) (after : System) (event : MarketEvent) (clock : EventClock) :
    LoggedSystem where
  system := after
  now := clock.bookDone
  orders := t.orders ++ ((t.system.rt.sentOrder clock event).map fun _ =>
    ⟨clock.bookDone, decide (t.system.rt.strategy.position = 0)⟩).toList
  samples := t.samples ++ (t.system.rt.sample event).toList
  reconnected := t.reconnected
  rebuilt := t.rebuilt || decide (event.kind = .snapshot)

/-- The log after an invalidation was taken. -/
def logReset (t : LoggedSystem) (after : System) : LoggedSystem :=
  { t with system := after, samples := [], reconnected := true, rebuilt := false }

/-- A step of the system, logged. -/
def step (t : LoggedSystem) (action : Action) : Option LoggedSystem :=
  (t.system.step action).map fun after =>
    match action, t.system.strategy with
    | .handle clock, .handling entry _ => t.logEvent after entry.event clock
    | .exchange, _ =>
      if t.system.bookInvalidate then t.logReset after else { t with system := after }
    | _, _ => { t with system := after }

/-- The clock does not go back. -/
def ClockForward (t : LoggedSystem) (action : Action) : Prop :=
  ∀ clock ∈ action.clock, t.now ≤ clock.bookDone

instance (t : LoggedSystem) (action : Action) : Decidable (t.ClockForward action) :=
  inferInstanceAs (Decidable (∀ clock ∈ action.clock, _))

/-- What a step does to the runtime and to the log. -/
inductive Moves (t : LoggedSystem) : Action → LoggedSystem → Prop where
  | counts {action : Action} (after : System) (counted : t.system.rt.Counts after.rt) :
      Moves t action { t with system := after }
  | reset (after : System) (resets : after.rt = t.system.rt.reset) :
      Moves t .exchange (t.logReset after)
  | event (entry : Entry) (clock : EventClock) (after : System)
      (handled : after.rt = t.system.rt.processEvent clock entry.event) :
      Moves t (.handle clock) (t.logEvent after entry.event clock)

theorem moves_of_step {t after : LoggedSystem} {action : Action}
    (stepped : t.step action = some after) : t.Moves action after := by
  obtain ⟨next, made, logged⟩ := Option.map_eq_some_iff.mp stepped
  have moved := System.runtime_of_step made
  cases System.moves_of_step made with
  | exchange exchanging =>
    obtain rfl := logged
    show t.Moves .exchange (if t.system.bookInvalidate then t.logReset t.system.exchange
      else { t with system := t.system.exchange })
    unfold System.exchange
    split
    · exact .reset _ rfl
    · exact .counts _ (.refl _)
  | handle entry drained clock handling =>
    rw [handling] at logged
    obtain rfl := logged
    exact .event entry clock _ rfl
  | _ =>
    obtain rfl := logged
    cases moved with
    | counts counted => exact .counts _ counted

/-! ### What the strategy remembers, told by the log -/

/-- When the last order was sent; zero before the first. -/
def lastOrder (t : LoggedSystem) : Timestamp := (t.orders.getLast?.map SentOrder.decided).getD 0

/-- The strategy's memory is what the log says: the imbalances since the reset, the skip until the
first of them, the time of the last order, and a book that is ready once it was rebuilt. -/
structure Agrees (cfg : RuntimeConfig) (t : LoggedSystem) : Prop where
  wellFormed : t.system.rt.book.WellFormed
  recorded : Recorded (Runtime.create cfg).strategy t.system.rt.strategy t.samples
  skips : t.system.rt.strategy.skipNextSignal = (t.reconnected && t.samples.isEmpty)
  ready : t.system.rt.bookReady = t.rebuilt
  last : t.system.rt.strategy.lastTradeNs = t.lastOrder

theorem create_params (cfg : RuntimeConfig) :
    (Runtime.create cfg).strategy.params = (ImbalanceStrategy.create cfg.strategy).params :=
  (ImbalanceStrategy.setInitialCash_keepsRing _ cfg.initialCash).params

theorem smoothingWindow_between (cfg : RuntimeConfig) :
    1 ≤ (Runtime.create cfg).strategy.params.smoothingWindow ∧
      (Runtime.create cfg).strategy.params.smoothingWindow ≤ maxRolling := by
  rw [create_params]
  exact ImbalanceStrategy.clamp_between _ (by decide)

theorem initial_agrees (cfg : RuntimeConfig) : Agrees cfg (initial cfg) := by
  have keeps := ImbalanceStrategy.setInitialCash_keepsRing
    ((ImbalanceStrategy.create cfg.strategy).setSymbol cfg.symbolId cfg.tickSize) cfg.initialCash
  have ring : (Runtime.create cfg).strategy.RingHolds [] :=
    (show ((ImbalanceStrategy.create cfg.strategy).setSymbol cfg.symbolId
      cfg.tickSize).RingHolds [] from MovingWindow.holds_nil _).of_keepsRing keeps
  have memory : (Runtime.create cfg).strategy.skipNextSignal = false ∧
      (Runtime.create cfg).strategy.lastTradeNs = 0 := by
    show (ImbalanceStrategy.setInitialCash _ _).skipNextSignal = false ∧
      (ImbalanceStrategy.setInitialCash _ _).lastTradeNs = 0
    unfold ImbalanceStrategy.setInitialCash
    split <;> exact ⟨rfl, rfl⟩
  exact ⟨BoundedBook.fresh_wellFormed, ⟨rfl, rfl, ring, List.forall_mem_nil _⟩, memory.1, rfl,
    memory.2⟩

theorem Agrees.counts {cfg : RuntimeConfig} {t : LoggedSystem} (agrees : Agrees cfg t)
    {after : System} (counted : t.system.rt.Counts after.rt) :
    Agrees cfg { t with system := after } := by
  obtain ⟨wellFormed, recorded, skips, ready, last⟩ := agrees
  have rest := counted.rest
  constructor
  all_goals
    dsimp only
    rw [rest]
    assumption

theorem Agrees.reset {cfg : RuntimeConfig} {t : LoggedSystem} (agrees : Agrees cfg t)
    {after : System} (resets : after.rt = t.system.rt.reset) : Agrees cfg (t.logReset after) := by
  obtain ⟨wellFormed, recorded, -, -, last⟩ := agrees
  constructor
  all_goals
    unfold logReset
    dsimp only
    rw [resets]
  · exact wellFormed
  · exact ⟨recorded.params, recorded.tickSize, MovingWindow.holds_nil _, List.forall_mem_nil _⟩
  · rfl
  · rfl
  · exact last

/-- The time of the last order after an event. -/
theorem lastOrder_logEvent (t : LoggedSystem) (after : System) (event : MarketEvent)
    (clock : EventClock) :
    (t.logEvent after event clock).lastOrder =
      if (t.system.rt.sentOrder clock event).isSome then clock.bookDone else t.lastOrder := by
  unfold lastOrder logEvent
  cases t.system.rt.sentOrder clock event with
  | none => simp
  | some order => simp

theorem keepsRing_of_sameSignals {before after : ImbalanceStrategy}
    (same : SameSignals before after) : ImbalanceStrategy.KeepsRing before after := by
  rw [same]
  exact ⟨rfl, rfl, rfl, rfl, rfl⟩

/-- The strategy's memory after an update, against a log that gained the imbalance and, if an
order was sent, its time. -/
theorem Recorded.updates {start strategy after : ImbalanceStrategy} {samples : List ℚ}
    {book : BoundedBook bookCapacity} {now : Timestamp} {decided : Signal × ImbalanceStrategy}
    (recorded : Recorded start strategy samples)
    (window : 1 ≤ start.params.smoothingWindow ∧ start.params.smoothingWindow ≤ maxRolling)
    (wellFormed : book.WellFormed) (updates : strategy.Updates book now decided)
    (same : SameSignals decided.2 after) :
    Recorded start after (samples ++ (strategy.imbalanceOf book).toList) := by
  have keeps := keepsRing_of_sameSignals same
  cases updates with
  | unread unreadable =>
    rw [unreadable, Option.toList_none, List.append_nil]
    exact recorded.of_keepsRing keeps
  | skipped imbalance found skips =>
    rw [found]
    exact (recorded.record window wellFormed found).of_keepsRing
      (keeps.after ⟨rfl, rfl, rfl, rfl, rfl⟩)
  | heeded imbalance found heeds emits =>
    rw [found]
    refine (recorded.record window wellFormed found).of_keepsRing (keeps.after ?_)
    cases emits <;> exact ⟨rfl, rfl, rfl, rfl, rfl⟩

/-- The log of an event agrees with what the event does. -/
theorem Agrees.event {cfg : RuntimeConfig} {t : LoggedSystem} (agrees : Agrees cfg t)
    {after : System} {event : MarketEvent} {clock : EventClock}
    (handled : after.rt = t.system.rt.processEvent clock event) :
    Agrees cfg (t.logEvent after event clock) := by
  obtain ⟨wellFormed, recorded, skips, ready, last⟩ := agrees
  have nowReady : after.rt.bookReady = (t.rebuilt || decide (event.kind = .snapshot)) := by
    rw [handled, Runtime.processEvent_bookReady, ready]
  have bookWellFormed := Runtime.processEvent_wellFormed wellFormed clock event
  cases t.system.rt.processEvent_remembers clock event with
  | early unsampled unsent same =>
    rw [← handled] at same
    refine ⟨handled ▸ bookWellFormed, ?_, ?_, nowReady, ?_⟩
    · rw [logEvent, unsampled, Option.toList_none, List.append_nil, same]
      exact recorded
    · rw [logEvent, unsampled, Option.toList_none, List.append_nil, same]
      exact skips
    · rw [lastOrder_logEvent, unsent]
      exact (congrArg ImbalanceStrategy.lastTradeNs same).trans last
  | updated decided update getsThere sampled sent same =>
    have updates := t.system.rt.strategy.onMarketUpdate_updates
      (t.system.rt.processEvent clock event).book clock.bookDone
    rw [← update] at updates
    rw [← handled] at same
    refine ⟨handled ▸ bookWellFormed, ?_, ?_, nowReady, ?_⟩
    · rw [logEvent, sampled]
      exact Recorded.updates recorded (smoothingWindow_between cfg) bookWellFormed updates same
    · have skip : after.rt.strategy.skipNextSignal = decided.2.skipNextSignal := by rw [same]
      rw [logEvent, sampled]
      dsimp only
      rw [skip, updates.skipNextSignal, skips]
      cases t.system.rt.strategy.imbalanceOf _ <;> cases t.reconnected <;> simp
    · have time : after.rt.strategy.lastTradeNs = decided.2.lastTradeNs := by rw [same]
      rw [lastOrder_logEvent, sent, ← last, ← updates.lastTradeNs]
      exact time

theorem Agrees.step {cfg : RuntimeConfig} {t after : LoggedSystem} {action : Action}
    (agrees : Agrees cfg t) (stepped : t.step action = some after) : Agrees cfg after := by
  cases moves_of_step stepped with
  | counts next counted => exact agrees.counts counted
  | reset next resets => exact agrees.reset resets
  | event entry clock next handled => exact agrees.event handled

theorem reaches_agrees {allowed : LoggedSystem → Action → Prop} {cfg : RuntimeConfig}
    {t : LoggedSystem} (reached : Reaches step allowed (initial cfg) t) : Agrees cfg t :=
  @Reaches.invariant _ _ step allowed _ (Agrees cfg) (initial_agrees cfg)
    (fun _ _ _ agrees _ stepped => agrees.step stepped) _ reached

/-! ### Orders after a reconnect -/

/-- The mean of the last imbalances, as many as the window has. -/
def recentMean (window : Nat) (samples : List ℚ) : ℚ :=
  let recent := samples.drop (samples.length - window)
  recent.sum / recent.length

/-- What an order rests on. -/
theorem Agrees.sends {cfg : RuntimeConfig} {t : LoggedSystem} (agrees : Agrees cfg t)
    {event : MarketEvent} {clock : EventClock} {order : NewOrder}
    (sent : t.system.rt.sentOrder clock event = some order) :
    (event.kind = .snapshot ∨ t.rebuilt = true) ∧ (t.reconnected = true → t.samples ≠ []) ∧
      ∃ imbalance, t.system.rt.sample event = some imbalance ∧
        (t.system.rt.strategy.position = 0 →
          cfg.strategy.cooldownS ≤ ((clock.bookDone - t.lastOrder : Int) : ℚ) / 10 ^ 9 ∧
          cfg.strategy.entryImbalance <
            |recentMean (ImbalanceStrategy.clamp cfg.strategy.smoothingWindow maxRolling)
              (t.samples ++ [imbalance])|) := by
  obtain ⟨wellFormed, recorded, skips, ready, last⟩ := agrees
  have params := recorded.params.trans (create_params cfg)
  cases t.system.rt.processEvent_remembers clock event with
  | early unsampled unsent same =>
    rw [sent] at unsent
    cases unsent
  | updated decided update getsThere sampled isSent same =>
    have updates := t.system.rt.strategy.onMarketUpdate_updates
      (t.system.rt.processEvent clock event).book clock.bookDone
    rw [← update] at updates
    rw [sent] at isSent
    obtain ⟨heeds, imbalance, found, entry⟩ := updates.sends isSent.symm
    refine ⟨ready ▸ getsThere, fun reconnected => ?_, imbalance, sampled.trans found,
      fun flat => ?_⟩
    · rw [heeds, reconnected, Bool.true_and] at skips
      intro none
      rw [none] at skips
      cases skips
    · obtain ⟨cooled, strong⟩ := entry flat
      have bookWellFormed := Runtime.processEvent_wellFormed wellFormed clock event
      have ring := (recorded.record (smoothingWindow_between cfg) bookWellFormed found).ring
      have mean := ring.smoothed_eq
      rw [show (t.system.rt.strategy.record imbalance).params = _ from params] at cooled strong mean
      rw [show (t.system.rt.strategy.record imbalance).lastTradeNs = _ from last] at cooled
      rw [mean] at strong
      exact ⟨cooled, strong⟩

/-- In every interleaving an order rests on what came after the invalidation the strategy thread
took last: the book was rebuilt since, at the latest by the event at hand, an earlier event since
had its imbalance recorded and passed over, and an entry is sent on the mean of nothing but the
imbalances recorded since. -/
theorem order_rests_on_connection (cfg : RuntimeConfig) (t : LoggedSystem)
    (reached : Reaches step Free (initial cfg) t) (event : MarketEvent) (clock : EventClock)
    (order : NewOrder) (sent : t.system.rt.sentOrder clock event = some order) :
    (event.kind = .snapshot ∨ t.rebuilt = true) ∧
      (t.reconnected = true → t.samples ≠ []) ∧
      ∃ imbalance, t.system.rt.sample event = some imbalance ∧
        (t.system.rt.strategy.position = 0 → cfg.strategy.entryImbalance <
          |recentMean (ImbalanceStrategy.clamp cfg.strategy.smoothingWindow maxRolling)
            (t.samples ++ [imbalance])|) := by
  obtain ⟨rebuilt, passed, imbalance, sampled, entryHeeds⟩ := (reaches_agrees reached).sends sent
  exact ⟨rebuilt, passed, imbalance, sampled, fun flat => (entryHeeds flat).2⟩

/-- The entry of the day rests on the snapshot that was passed over. -/
theorem order_rests_on_connection_day :
    ∃ (t : LoggedSystem) (imbalance : ℚ), t.reconnected = true ∧ t.rebuilt = true ∧
      t.samples ≠ [] ∧ t.system.rt.sample (snapshotEvent thinMessage 5) = some imbalance ∧
      3 / 10 < |recentMean 5 (t.samples ++ [imbalance])| := by
  have executed : ∃ t metrics,
      execute step Free (initial Runtime.boldConfig) dayUntilEntry = some t ∧
        t.reconnected = true ∧ t.rebuilt = true ∧
        t.system.rt =
          Runtime.beforeEntry { Runtime.create Runtime.boldConfig with metrics } ∧
        Runtime.Untraded metrics :=
    ⟨_, _, rfl, rfl, rfl, rfl, ⟨rfl, rfl, rfl, rfl, rfl, rfl, rfl⟩⟩
  obtain ⟨t, metrics, executed, reconnected, rebuilt, rest, untraded⟩ := executed
  obtain ⟨-, -, bought, -⟩ := untraded.morning.orders
  obtain ⟨⟨before, -⟩, -⟩ := untraded.morning.desks
  rw [← rest] at bought before
  obtain ⟨order, sent⟩ := Option.isSome_iff_exists.mp bought
  have flat : t.system.rt.strategy.position = 0 := by
    rw [(Runtime.of_desk before).2.2.2]
    exact Desk.day_before.2.2.2.2
  obtain ⟨-, passed, imbalance, sampled, strong⟩ := order_rests_on_connection Runtime.boldConfig t
    (Reaches.start.execute executed) (snapshotEvent thinMessage 5) (.instant 6000000000) order sent
  exact ⟨t, imbalance, reconnected, rebuilt, passed reconnected, sampled, strong flat⟩

/-! ### The cooldown -/

/-- The cooldown in nanoseconds. -/
def cooldownNs (cfg : RuntimeConfig) : ℚ := cfg.strategy.cooldownS * 10 ^ 9

/-- An order that came after the other ones keeps the cooldown if it was sent while flat. -/
def Cooled (cfg : RuntimeConfig) (earlier later : SentOrder) : Prop :=
  later.flat = true → cooldownNs cfg ≤ (later.decided : ℚ) - earlier.decided

/-- The times of a log under clocks that do not go back. -/
structure Spaced (cfg : RuntimeConfig) (t : LoggedSystem) : Prop where
  agrees : Agrees cfg t
  started : (0 : Int) ≤ t.lastOrder
  past : (t.lastOrder : Int) ≤ t.now
  sorted : ∀ order ∈ t.orders, (order.decided : Int) ≤ t.lastOrder
  cooled : t.orders.Pairwise (Cooled cfg)
  first : ∀ order ∈ t.orders, order.flat = true → cooldownNs cfg ≤ (order.decided : ℚ)

theorem Spaced.of_orders {cfg : RuntimeConfig} {t after : LoggedSystem} (spaced : Spaced cfg t)
    (agrees : Agrees cfg after) (orders : after.orders = t.orders)
    (later : (t.now : Int) ≤ after.now) : Spaced cfg after := by
  have last : after.lastOrder = t.lastOrder := by rw [lastOrder, lastOrder, orders]
  refine ⟨agrees, ?_, ?_, ?_, ?_, ?_⟩
  · rw [last]
    exact spaced.started
  · rw [last]
    exact le_trans spaced.past later
  · rw [last, orders]
    exact spaced.sorted
  · rw [orders]
    exact spaced.cooled
  · rw [orders]
    exact spaced.first

/-- An event that comes later than those before it keeps the spacing. -/
theorem Spaced.event {cfg : RuntimeConfig} {t : LoggedSystem} (spaced : Spaced cfg t)
    {after : System} {event : MarketEvent} {clock : EventClock}
    (forward : (t.now : Int) ≤ clock.bookDone)
    (handled : after.rt = t.system.rt.processEvent clock event) :
    Spaced cfg (t.logEvent after event clock) := by
  have agrees := spaced.agrees.event handled
  cases sent : t.system.rt.sentOrder clock event with
  | none =>
    refine spaced.of_orders agrees ?_ forward
    rw [logEvent, sent]
    exact List.append_nil _
  | some order =>
    have orders : (t.logEvent after event clock).orders = t.orders ++
        [⟨clock.bookDone, decide (t.system.rt.strategy.position = 0)⟩] := by
      rw [logEvent, sent]
      rfl
    have last : (t.logEvent after event clock).lastOrder = clock.bookDone := by
      rw [lastOrder_logEvent, sent]
      rfl
    have later : (t.lastOrder : Int) ≤ clock.bookDone := le_trans spaced.past forward
    obtain ⟨-, -, imbalance, -, entry⟩ := spaced.agrees.sends sent
    have cooled : t.system.rt.strategy.position = 0 →
        cooldownNs cfg ≤ ((clock.bookDone : Int) : ℚ) - (t.lastOrder : Int) := by
      intro flat
      have waited := (le_div_iff₀ (by norm_num : (0 : ℚ) < 10 ^ 9)).mp (entry flat).1
      rw [cooldownNs]
      exact_mod_cast waited
    refine ⟨agrees, ?_, ?_, ?_, ?_, ?_⟩
    · rw [last]
      exact le_trans spaced.started later
    · rw [last]
      exact le_refl _
    · rw [last, orders]
      intro other mem
      rcases List.mem_append.mp mem with earlier | new
      · exact le_trans (spaced.sorted other earlier) later
      · rw [List.mem_singleton.mp new]
    · rw [orders]
      refine List.pairwise_append.mpr ⟨spaced.cooled, List.pairwise_singleton _ _, ?_⟩
      intro earlier mem new isNew flat
      obtain rfl := List.mem_singleton.mp isNew
      have before : ((earlier.decided : Int) : ℚ) ≤ (t.lastOrder : Int) :=
        Int.cast_le.mpr (spaced.sorted earlier mem)
      exact le_trans (cooled (of_decide_eq_true flat)) (sub_le_sub_left before _)
    · rw [orders]
      intro other mem flat
      rcases List.mem_append.mp mem with earlier | new
      · exact spaced.first other earlier flat
      · obtain rfl := List.mem_singleton.mp new
        have positive : (0 : ℚ) ≤ (t.lastOrder : Int) := Int.cast_nonneg spaced.started
        exact le_trans (cooled (of_decide_eq_true flat)) (sub_le_self _ positive)

theorem Spaced.step {cfg : RuntimeConfig} {t after : LoggedSystem} {action : Action}
    (spaced : Spaced cfg t) (forward : t.ClockForward action)
    (stepped : t.step action = some after) : Spaced cfg after := by
  have agrees := spaced.agrees.step stepped
  cases moves_of_step stepped with
  | counts next counted => exact spaced.of_orders agrees rfl (le_refl _)
  | reset next resets => exact spaced.of_orders agrees rfl (le_refl _)
  | event entry clock next handled => exact spaced.event (forward clock rfl) handled

theorem reaches_spaced {cfg : RuntimeConfig} {t : LoggedSystem}
    (reached : Reaches step ClockForward (initial cfg) t) : Spaced cfg t :=
  @Reaches.invariant _ _ step ClockForward _ (Spaced cfg)
    ⟨initial_agrees cfg, le_refl _, le_refl _, List.forall_mem_nil _, List.Pairwise.nil,
      List.forall_mem_nil _⟩
    (fun _ _ _ spaced forward stepped => spaced.step forward stepped) _ reached

/-- In every interleaving with clocks that do not go back an order sent while flat comes at least
the cooldown after every earlier order, through any reconnects; so the entries of any stretch of
time number at most one more than the cooldowns that fit into it. -/
theorem entries_spaced (cfg : RuntimeConfig) (t : LoggedSystem)
    (reached : Reaches step ClockForward (initial cfg) t) :
    t.orders.Pairwise (Cooled cfg) ∧
      (∀ order ∈ t.orders, order.flat = true → cooldownNs cfg ≤ (order.decided : ℚ)) ∧
      ∀ low high : ℚ, low ≤ high →
        (((t.orders.filter fun order => order.flat ∧ low ≤ order.decided ∧
          (order.decided : ℚ) ≤ high).length - 1 : ℕ) : ℚ) * cooldownNs cfg ≤ high - low := by
  have spaced := reaches_spaced reached
  refine ⟨spaced.cooled, spaced.first, fun low high ordered => ?_⟩
  have flat : ((t.orders.filter fun order => order.flat ∧ low ≤ order.decided ∧
      (order.decided : ℚ) ≤ high).map fun order => (order.decided : ℚ)).Pairwise
        fun earlier later => cooldownNs cfg ≤ later - earlier := by
    refine List.pairwise_map.mpr ?_
    refine (spaced.cooled.filter _).imp_of_mem fun _ mem cooled => ?_
    exact cooled (of_decide_eq_true (List.mem_filter.mp mem).2).1
  have inside : ∀ moment ∈ (t.orders.filter fun order => order.flat ∧ low ≤ order.decided ∧
      (order.decided : ℚ) ≤ high).map fun order => (order.decided : ℚ),
        low ≤ moment ∧ moment ≤ high := by
    intro moment mem
    obtain ⟨order, kept, rfl⟩ := List.mem_map.mp mem
    exact (of_decide_eq_true (List.mem_filter.mp kept).2).2
  have fits := Spacing.gaps_le flat inside ordered
  rwa [List.length_map, nsmul_eq_mul] at fits

/-- What an event adds to the orders of the log. -/
def loggedOrders (rt : Runtime) (now : Timestamp) (event : MarketEvent) : List SentOrder :=
  ((rt.sentOrder (.instant now) event).map fun _ =>
    ⟨now, decide (rt.strategy.position = 0)⟩).toList

theorem loggedOrders_of_isSome {rt : Runtime} {now : Timestamp} {event : MarketEvent}
    (sent : (rt.sentOrder (.instant now) event).isSome = true) :
    loggedOrders rt now event = [⟨now, decide (rt.strategy.position = 0)⟩] := by
  obtain ⟨order, sent⟩ := Option.isSome_iff_exists.mp sent
  rw [loggedOrders, sent]
  rfl

/-- Two orders sent while flat, with a reconnect between them, and an exit sooner than the cooldown
would let an entry go. -/
theorem entries_spaced_day :
    ∃ t : LoggedSystem,
      t.orders = [⟨3000000000, true⟩, ⟨6000000000, true⟩, ⟨7000000000, false⟩] ∧
      cooldownNs Runtime.boldConfig ≤ 6000000000 - 3000000000 := by
  have executed : ∃ t metrics,
      execute step ClockForward (initial Runtime.boldConfig) wholeDay = some t ∧
        (t.orders =
          [] ++ loggedOrders { Runtime.create Runtime.boldConfig with metrics } 3000000000
              (snapshotEvent entryMessage 1) ++
            loggedOrders ({ Runtime.create Runtime.boldConfig with metrics }.processEvent
              (.instant 3000000000) (snapshotEvent entryMessage 1)).reset 4000000000
              (snapshotEvent entryMessage 3) ++
            loggedOrders (Runtime.beforeEntry { Runtime.create Runtime.boldConfig with metrics })
              6000000000 (snapshotEvent thinMessage 5) ++
            loggedOrders (Runtime.beforeExit { Runtime.create Runtime.boldConfig with metrics })
              7000000000 (snapshotEvent rallyMessage 7)) ∧
        Runtime.Untraded metrics :=
    ⟨_, _, rfl, rfl, ⟨rfl, rfl, rfl, rfl, rfl, rfl, rfl⟩⟩
  obtain ⟨t, metrics, executed, logged, untraded⟩ := executed
  obtain ⟨refused, passed, bought, sold⟩ := untraded.morning.orders
  obtain ⟨⟨before, -⟩, ⟨holding, -⟩, -⟩ := untraded.morning.desks
  have fresh : (Runtime.create Runtime.boldConfig).strategy.position = 0 := by decide +kernel
  have flat := (congrArg ImbalanceStrategy.position (Runtime.of_desk before).2.2.2).trans
    Desk.day_before.2.2.2.2
  have held := (congrArg ImbalanceStrategy.position (Runtime.of_desk holding).2.2.2).trans
    Desk.day_after.2.2.1
  have orders : t.orders =
      [⟨3000000000, true⟩, ⟨6000000000, true⟩, ⟨7000000000, false⟩] := by
    rw [logged, loggedOrders_of_isSome refused, loggedOrders_of_isSome bought,
      loggedOrders_of_isSome sold, flat, held, loggedOrders, passed]
    show [_, _, _] = _
    rw [decide_eq_true fresh]
    rfl
  obtain ⟨cooled, -⟩ := entries_spaced Runtime.boldConfig t (Reaches.start.execute executed)
  rw [orders] at cooled
  refine ⟨t, orders, ?_⟩
  exact (List.pairwise_cons.mp cooled).1 ⟨6000000000, true⟩ List.mem_cons_self rfl

end LoggedSystem

end Trading

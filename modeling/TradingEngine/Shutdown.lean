/-
This file proves that `stop` loses nothing. The network thread is joined before `running`
is cleared, so once the strategy thread can leave its loop there is nobody left to push;
whatever is on the queue by then is handled in the drain, and the drain ends on an empty
queue. When `stop` returns, everything the queue took has been handled, in the order it
was pushed.

The invariant says for each place `stop` can be at what is already over: the client is
told to stop, the network thread is gone, the flag is cleared, the strategy thread is
gone. It needs no assumption about the feed or the scheduler, except that `stop` has
returned.
-/

import TradingEngine.OneConnection
import TradingEngine.Pipeline

namespace Trading

/-! ### The order of a shutdown -/

/-- The caller of `stop` has joined the network thread. -/
def Caller.Joined : Caller → Prop
  | .running => False
  | .joiningNetwork => False
  | _ => True

/-- The strategy thread has left its loop. -/
def StrategyThread.Left : StrategyThread → Prop
  | .draining => True
  | .handling _ drained => drained = true
  | .done => True
  | _ => False

namespace System

/-- The stages of a shutdown come one after the other: the network thread is gone before
`running` is cleared, `running` is cleared before the strategy thread leaves its loop, and it is
done only on an empty queue. -/
structure Ordered (s : System) : Prop where
  producer : s.caller.Joined → s.network = .exited
  cleared : s.running = false → s.caller.Joined
  left : s.strategy.Left → s.running = false
  drained : s.strategy = .done → s.queue = []
  returned : s.caller = .returned → s.strategy = .done

theorem ordered_initial (cfg : RuntimeConfig) : (initial cfg).Ordered :=
  ⟨nofun, nofun, nofun, nofun, nofun⟩

/-- The flag of the strategy thread, where it stands and where the caller stands are unchanged. -/
structure KeepsOthers (before after : System) : Prop where
  running : after.running = before.running
  strategy : after.strategy = before.strategy
  caller : after.caller = before.caller

theorem offer_keepsOthers (s : System) (events : List MarketEvent) :
    s.KeepsOthers (s.offer events) := by
  cases events with
  | nil => exact ⟨rfl, rfl, rfl⟩
  | cons event rest => cases rest <;> exact ⟨rfl, rfl, rfl⟩

theorem push_keepsOthers (s : System) (event : MarketEvent) (retries : Nat)
    (rest : List MarketEvent) : s.KeepsOthers (s.push event retries rest) := by
  unfold push
  dsimp only
  split
  · obtain ⟨running, strategy, caller⟩ := offer_keepsOthers
      { s with
        queue := s.queue ++ [⟨s.connection, event⟩]
        accepted := s.accepted ++ [⟨s.connection, event⟩] } rest
    exact ⟨running, strategy, caller⟩
  · split
    · exact ⟨rfl, rfl, rfl⟩
    · obtain ⟨running, strategy, caller⟩ := offer_keepsOthers s.countDrop rest
      exact ⟨running, strategy, caller⟩

theorem receive_keepsOthers (s : System) (msg : CoinbaseMessage) (recvTs parseDone : Timestamp) :
    s.KeepsOthers (s.receive msg recvTs parseDone) := by
  unfold receive
  dsimp only
  split
  · exact ⟨rfl, rfl, rfl⟩
  · obtain ⟨running, strategy, caller⟩ := offer_keepsOthers
      ({ s with received := s.received ++ [(msg, recvTs)] }.countWire msg.type recvTs parseDone)
      (msg.events s.rt.cfg.tickSize recvTs)
    exact ⟨running, strategy, caller⟩

theorem connect_keepsOthers (s : System) : s.KeepsOthers s.connect := by
  unfold connect
  dsimp only
  split <;> exact ⟨rfl, rfl, rfl⟩

/-- While the network thread has not exited nobody has joined it, and no other thread has left:
its steps cannot disturb the order. -/
theorem Ordered.network {s after : System} (ordered : s.Ordered) (live : s.network ≠ .exited)
    (keeps : s.KeepsOthers after) : after.Ordered := by
  have before : ¬s.caller.Joined := fun joined => live (ordered.producer joined)
  have looping : ¬s.strategy.Left := fun left => before (ordered.cleared (ordered.left left))
  obtain ⟨running, strategy, caller⟩ := keeps
  refine ⟨?_, ?_, ?_, ?_, ?_⟩
  · rw [caller]
    exact fun joined => absurd joined before
  · rw [running, caller]
    exact ordered.cleared
  · rw [strategy]
    exact fun left => absurd left looping
  · rw [strategy]
    intro done
    rw [done] at looping
    exact absurd trivial looping
  · rw [caller, strategy]
    exact ordered.returned

/-- A step of the strategy thread that does not leave it done. -/
theorem Ordered.strategy {s after : System} (ordered : s.Ordered) (pending : s.strategy ≠ .done)
    (left : after.strategy.Left → s.running = false) (unfinished : after.strategy ≠ .done)
    (network : after.network = s.network) (running : after.running = s.running)
    (caller : after.caller = s.caller) : after.Ordered := by
  refine ⟨?_, ?_, ?_, fun done => absurd done unfinished, ?_⟩
  · rw [caller, network]
    exact ordered.producer
  · rw [running, caller]
    exact ordered.cleared
  · rw [running]
    exact left
  · rw [caller]
    exact fun returned => absurd (ordered.returned returned) pending

theorem Ordered.pop {s : System} (ordered : s.Ordered) {drained : Bool}
    (popping : s.strategy = if drained then .draining else .popping) :
    (s.pop drained).Ordered := by
  have pending : s.strategy ≠ .done := by
    rw [popping]
    cases drained <;> nofun
  have cleared : drained = true → s.running = false := by
    rintro rfl
    exact ordered.left (by rw [popping]; trivial)
  unfold System.pop
  split
  · rename_i empty
    cases drained with
    | false => exact ordered.strategy pending nofun nofun rfl rfl rfl
    | true =>
      exact ⟨ordered.producer, ordered.cleared, fun _ => cleared rfl, fun _ => empty,
        fun returned => absurd (ordered.returned returned) pending⟩
  · exact ordered.strategy pending cleared nofun rfl rfl rfl

theorem Ordered.step {s after : System} {action : Action} (ordered : s.Ordered)
    (stepped : s.step action = some after) : after.Ordered := by
  have live : ∀ {phase : NetworkThread}, s.network = phase → phase ≠ .exited →
      s.network ≠ .exited :=
    fun there other => there ▸ other
  have pending : ∀ {phase : StrategyThread}, s.strategy = phase → phase ≠ .done →
      s.strategy ≠ .done :=
    fun there other => there ▸ other
  cases moves_of_step stepped with
  | dial offline => exact ordered.network (live offline nofun) ⟨rfl, rfl, rfl⟩
  | connect dialing => exact ordered.network (live dialing nofun) (connect_keepsOthers s)
  | connectFailed dialing => exact ordered.network (live dialing nofun) ⟨rfl, rfl, rfl⟩
  | testWsRunning online => exact ordered.network (live online nofun) ⟨rfl, rfl, rfl⟩
  | readTimeout reading => exact ordered.network (live reading nofun) ⟨rfl, rfl, rfl⟩
  | parseError reading => exact ordered.network (live reading nofun) ⟨rfl, rfl, rfl⟩
  | disconnect connected =>
    rcases connected with online | reading
    · exact ordered.network (live online nofun) ⟨rfl, rfl, rfl⟩
    · exact ordered.network (live reading nofun) ⟨rfl, rfl, rfl⟩
  | receive msg recvTs parseDone reading =>
    exact ordered.network (live reading nofun) (receive_keepsOthers s msg recvTs parseDone)
  | push event retries rest pushing =>
    exact ordered.network (live pushing nofun) (push_keepsOthers s event retries rest)
  | measure measuring => exact ordered.network (live measuring nofun) ⟨rfl, rfl, rfl⟩
  | testRunning head =>
    cases running : s.running with
    | false =>
      exact ordered.strategy (pending head nofun) (fun _ => running) nofun rfl running.symm rfl
    | true => exact ordered.strategy (pending head nofun) nofun nofun rfl running.symm rfl
  | exchange exchanging =>
    unfold exchange
    split <;> exact ordered.strategy (pending exchanging nofun) nofun nofun rfl rfl rfl
  | pop popping => exact ordered.pop popping
  | drain draining => exact ordered.pop draining
  | handle entry drained clock handling =>
    cases drained with
    | false => exact ordered.strategy (pending handling nofun) nofun nofun rfl rfl rfl
    | true =>
      have cleared : s.running = false := ordered.left (by rw [handling]; rfl)
      exact ordered.strategy (pending handling nofun) (fun _ => cleared) nofun rfl rfl rfl
  | stop running =>
    have before : ¬s.caller.Joined := by rw [running]; exact id
    have looping : s.running = true := by
      rw [← Bool.not_eq_false]
      exact fun cleared => before (ordered.cleared cleared)
    exact ⟨nofun, fun cleared => absurd (looping.symm.trans cleared) nofun, ordered.left,
      ordered.drained, nofun⟩
  | joinNetwork joining exited =>
    exact ⟨fun _ => exited, fun _ => trivial, ordered.left, ordered.drained, nofun⟩
  | clearRunning clearing =>
    have exited : s.network = .exited := ordered.producer (by rw [clearing]; trivial)
    exact ⟨fun _ => exited, fun _ => trivial, fun _ => rfl, ordered.drained, nofun⟩
  | joinStrategy joining done =>
    have exited : s.network = .exited := ordered.producer (by rw [joining]; trivial)
    exact ⟨fun _ => exited, fun _ => trivial, ordered.left, ordered.drained, fun _ => done⟩

theorem ordered_of_reaches {allowed : System → Action → Prop} {cfg : RuntimeConfig} {s : System}
    (reached : Transition.Reaches step allowed (initial cfg) s) : s.Ordered :=
  reached.invariant (ordered_initial cfg) fun _ _ _ ordered _ stepped => ordered.step stepped

/-- In every interleaving, when `stop` returns the events handled are the events the queue took,
each once and in the order they were pushed, and the queue is empty. -/
theorem stop_handles_everything (cfg : RuntimeConfig) (s : System)
    (reached : Transition.Reaches step Transition.Free (initial cfg) s)
    (returned : s.caller = .returned) : s.handled = s.accepted ∧ s.queue = [] := by
  have ordered := ordered_of_reaches reached
  have done := ordered.returned returned
  have empty := ordered.drained done
  have fifo : s.accepted = s.handled ++ s.pipeline.held.toList ++ s.queue :=
    (inOrder reached).fifo
  have free : s.pipeline.held = none := by
    unfold pipeline
    rw [done]
  rw [empty, free, Option.toList_none, List.append_nil, List.append_nil] at fifo
  exact ⟨fifo.symm, empty⟩

/-- An update comes too early, then the snapshot, another update and a heartbeat. The strategy
thread holds the first of them when `stop` is called, and finds the others in the drain. -/
def stopLate : List Action :=
  [.dial, .connect, .testWsRunning, .receive liftMessage 1 1, .push, .measure, .testRunning,
    .exchange, .pop, .testWsRunning, .receive quoteMessage 2 2, .push, .measure, .testWsRunning,
    .receive liftMessage 3 3, .push, .measure, .testWsRunning,
    .receive ⟨.heartbeat, [], [], []⟩ 4 4, .push, .measure, .stop, .testWsRunning, .dial,
    .joinNetwork, .clearRunning, .handle ⟨1, 2, 3, 4, 5, 6⟩, .testRunning, .pop,
    .handle ⟨2, 3, 4, 5, 6, 7⟩, .pop, .handle ⟨3, 4, 5, 6, 7, 8⟩, .pop,
    .handle ⟨4, 5, 6, 7, 8, 9⟩, .pop, .joinStrategy]

theorem stop_handles_everything_stopLate :
    ∃ s : System, Transition.Reaches step Transition.Free (initial {}) s ∧
      s.accepted.map (fun entry => (entry.event.kind, entry.event.recvNs)) =
        [(.l2Update, 1), (.snapshot, 2), (.l2Update, 3), (.heartbeat, 4)] ∧
      s.handled = s.accepted ∧ s.queue = [] := by
  have executed : ∃ s, Transition.execute step Transition.Free (initial {}) stopLate = some s ∧
      s.caller = .returned ∧
      s.accepted.map (fun entry => (entry.event.kind, entry.event.recvNs)) =
        [(.l2Update, 1), (.snapshot, 2), (.l2Update, 3), (.heartbeat, 4)] := ⟨_, rfl, rfl, rfl⟩
  obtain ⟨s, executed, returned, pushed⟩ := executed
  have reached := Transition.Reaches.start.execute executed
  exact ⟨s, reached, pushed, stop_handles_everything {} s reached returned⟩

end System

end Trading

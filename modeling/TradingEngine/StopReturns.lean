/-
This file proves that `stop` returns. Once it has cleared the client's flag, every step of the
network thread brings it closer to its exit: a read in progress may still end in one more
message, whose pushes and retries are finitely many, and after it the thread leaves both loops.
With the network thread gone and `running` cleared, every step of the strategy thread empties
the queue or leaves the loop. Neither waits for the other, so it is enough that each thread that
can make a step makes one in the end.
-/

import Mathlib.Data.Prod.Lex
import TradingEngine.Lib.Fairness
import TradingEngine.Shutdown

namespace Trading

open Transition

/-! ### The parties -/

/-- The network thread makes this step. -/
def Action.OfNetwork : Action → Prop
  | .dial | .connect | .connectFailed | .testWsRunning | .readTimeout | .parseError
  | .disconnect | .receive _ _ _ | .push | .measure => True
  | _ => False

instance : (action : Action) → Decidable action.OfNetwork
  | .dial | .connect | .connectFailed | .testWsRunning | .readTimeout | .parseError | .disconnect
  | .receive _ _ _ | .push | .measure => .isTrue trivial
  | .testRunning | .exchange | .pop | .handle _ | .stop | .joinNetwork | .clearRunning
  | .joinStrategy => .isFalse id

/-- The strategy thread makes this step. -/
def Action.OfStrategy : Action → Prop
  | .testRunning | .exchange | .pop | .handle _ => True
  | _ => False

/-- The caller of `stop` makes this step. -/
def Action.OfCaller : Action → Prop
  | .stop | .joinNetwork | .clearRunning | .joinStrategy => True
  | _ => False

namespace System

theorem network_can {s : System} (live : s.network ≠ .exited) :
    ∃ action : Action, action.OfNetwork ∧ (s.step action).isSome = true := by
  cases there : s.network with
  | offline => exact ⟨.dial, trivial, by simp [step, there]⟩
  | dialing => exact ⟨.connectFailed, trivial, by simp [step, there]⟩
  | online => exact ⟨.testWsRunning, trivial, by simp [step, there]⟩
  | reading => exact ⟨.readTimeout, trivial, by simp [step, there]⟩
  | pushing event retries rest => exact ⟨.push, trivial, by simp [step, there]⟩
  | measuring => exact ⟨.measure, trivial, by simp [step, there]⟩
  | exited => exact absurd there live

theorem strategy_can {s : System} (pending : s.strategy ≠ .done) :
    ∃ action : Action, action.OfStrategy ∧ (s.step action).isSome = true := by
  cases there : s.strategy with
  | head => exact ⟨.testRunning, trivial, by simp [step, there]⟩
  | exchanging => exact ⟨.exchange, trivial, by simp [step, there]⟩
  | popping => exact ⟨.pop, trivial, by simp [step, there]⟩
  | handling entry drained => exact ⟨.handle ⟨0, 0, 0, 0, 0, 0⟩, trivial, by simp [step, there]⟩
  | draining => exact ⟨.pop, trivial, by simp [step, there]⟩
  | done => exact absurd there pending

/-! ### The stages of a shutdown -/

/-- What the caller of `stop` sets, and when. -/
structure Called (s : System) : Prop where
  flagged : s.caller ≠ .running → s.wsRunning = false
  cleared : s.running = false ↔ s.caller = .joiningStrategy ∨ s.caller = .returned

theorem Called.of_same {s after : System} (called : s.Called)
    (caller : after.caller = s.caller) (wsRunning : after.wsRunning = s.wsRunning)
    (running : after.running = s.running) : after.Called := by
  constructor
  · rw [caller, wsRunning]
    exact called.flagged
  · rw [caller, running]
    exact called.cleared

theorem offer_wsRunning (s : System) (events : List MarketEvent) :
    (s.offer events).wsRunning = s.wsRunning := by
  cases events with
  | nil => rfl
  | cons event rest => cases rest <;> rfl

theorem push_wsRunning (s : System) (event : MarketEvent) (retries : Nat)
    (rest : List MarketEvent) : (s.push event retries rest).wsRunning = s.wsRunning := by
  unfold push
  split
  · exact offer_wsRunning _ _
  · split
    · rfl
    · exact offer_wsRunning _ _

theorem receive_wsRunning (s : System) (msg : CoinbaseMessage) (recvTs parseDone : Timestamp) :
    (s.receive msg recvTs parseDone).wsRunning = s.wsRunning := by
  unfold receive
  dsimp only
  split
  · rfl
  · exact offer_wsRunning _ _

theorem Called.network {s after : System} (called : s.Called) (keeps : s.KeepsOthers after)
    (wsRunning : after.wsRunning = s.wsRunning) : after.Called :=
  called.of_same keeps.caller wsRunning keeps.running

theorem Called.step {s after : System} {action : Action} (called : s.Called)
    (stepped : s.step action = some after) : after.Called := by
  cases moves_of_step stepped with
  | connect dialing =>
    refine called.network (connect_keepsOthers s) ?_
    unfold connect
    dsimp only
    split <;> rfl
  | receive msg recvTs parseDone reading =>
    exact called.network (receive_keepsOthers s msg recvTs parseDone) (receive_wsRunning _ _ _ _)
  | push event retries rest pushing =>
    exact called.network (push_keepsOthers s event retries rest) (push_wsRunning _ _ _ _)
  | dial | connectFailed | testWsRunning | readTimeout | parseError | disconnect | measure
  | testRunning | handle => exact called.of_same rfl rfl rfl
  | exchange exchanging =>
    unfold exchange
    split <;> exact called.of_same rfl rfl rfl
  | pop popping =>
    unfold pop
    split <;> exact called.of_same rfl rfl rfl
  | drain draining =>
    unfold pop
    split <;> exact called.of_same rfl rfl rfl
  | stop running =>
    refine ⟨fun _ => rfl, called.cleared.trans ?_⟩
    simp [running]
  | joinNetwork joining exited =>
    refine ⟨fun _ => called.flagged (by simp [joining]), called.cleared.trans ?_⟩
    simp [joining]
  | clearRunning clearing =>
    exact ⟨fun _ => called.flagged (by simp [clearing]), by simp⟩
  | joinStrategy joining done =>
    refine ⟨fun _ => called.flagged (by simp [joining]), called.cleared.trans ?_⟩
    simp [joining]

theorem called_of_reaches {cfg : RuntimeConfig} {s : System}
    (reached : Reaches step Free (initial cfg) s) : s.Called :=
  reached.invariant ⟨fun called => absurd rfl called, by simp [initial]⟩
    fun _ _ _ called _ stepped => called.step stepped

/-! ### The network thread leaves -/

/-- The pushes an event takes at most. -/
def pushesOf (event : MarketEvent) : Nat :=
  1 + if event.kind = .snapshot then snapshotRetries else 0

/-- How far the network thread is from its exit, once the client's flag is cleared: a read or a
connection may still begin a message of any length. -/
def networkRank (s : System) : ℕ ×ₗ ℕ :=
  match s.network with
  | .exited => toLex (0, 0)
  | .offline => toLex (0, 1)
  | .online => toLex (0, 2)
  | .measuring => toLex (0, 3)
  | .pushing _ retries rest => toLex (0, 3 + (1 + retries) + (rest.map pushesOf).sum)
  | .reading | .dialing => toLex (1, 0)

theorem networkRank_offer (s : System) (events : List MarketEvent) :
    (s.offer events).networkRank = toLex (0, 3 + (events.map pushesOf).sum) := by
  cases events with
  | nil => rfl
  | cons event rest =>
    rw [List.map_cons, List.sum_cons, ← add_assoc]
    cases rest <;> rfl

theorem rank_lt {first second : Nat} (less : first < second) :
    (toLex (0, first) : ℕ ×ₗ ℕ) < toLex (0, second) :=
  Prod.Lex.toLex_lt_toLex.mpr (Or.inr ⟨rfl, less⟩)

theorem rank_lt_one (value : Nat) : (toLex (0, value) : ℕ ×ₗ ℕ) < toLex (1, 0) :=
  Prod.Lex.toLex_lt_toLex.mpr (Or.inl Nat.zero_lt_one)

theorem networkRank_receive (s : System) (msg : CoinbaseMessage) (recvTs parseDone : Timestamp) :
    (s.receive msg recvTs parseDone).networkRank < toLex (1, 0) := by
  unfold receive
  dsimp only
  split
  · exact rank_lt_one 2
  · rw [networkRank_offer]
    exact rank_lt_one _

theorem networkRank_push {s : System} {event : MarketEvent} {retries : Nat}
    {rest : List MarketEvent} (pushing : s.network = .pushing event retries rest) :
    (s.push event retries rest).networkRank < s.networkRank := by
  have before : s.networkRank = toLex (0, 3 + (1 + retries) + (rest.map pushesOf).sum) := by
    rw [networkRank, pushing]
  rw [before]
  unfold push
  split
  · rw [networkRank_offer]
    exact rank_lt (by omega)
  · split
    · exact rank_lt (by omega)
    · rw [networkRank_offer]
      exact rank_lt (by omega)

/-- Once the client's flag is cleared, every step of the network thread brings it closer to its
exit. -/
theorem networkRank_lt {s after : System} {action : Action} (flagged : s.wsRunning = false)
    (own : action.OfNetwork) (stepped : s.step action = some after) :
    after.networkRank < s.networkRank := by
  have rank : ∀ {phase : NetworkThread}, s.network = phase →
      s.networkRank = networkRank { s with network := phase } :=
    fun there => there ▸ rfl
  cases moves_of_step stepped with
  | dial offline =>
    rw [rank offline, flagged]
    exact rank_lt (by decide)
  | connect dialing =>
    rw [rank dialing]
    unfold connect
    dsimp only
    split <;> exact rank_lt_one 2
  | connectFailed dialing =>
    rw [rank dialing]
    exact rank_lt_one 1
  | testWsRunning online =>
    rw [rank online, flagged]
    exact rank_lt (by decide)
  | readTimeout reading =>
    rw [rank reading]
    exact rank_lt_one 2
  | parseError reading =>
    rw [rank reading]
    exact rank_lt_one 2
  | disconnect connected =>
    rcases connected with online | reading
    · rw [rank online]
      exact rank_lt (by decide)
    · rw [rank reading]
      exact rank_lt_one 1
  | receive msg recvTs parseDone reading =>
    rw [rank reading]
    exact networkRank_receive s msg recvTs parseDone
  | push event retries rest pushing => exact networkRank_push pushing
  | measure measuring =>
    rw [rank measuring]
    exact rank_lt (by decide)
  | testRunning | exchange | pop | drain | handle | stop | joinNetwork | clearRunning
  | joinStrategy => exact own.elim

/-- The other threads leave the network thread where it is. -/
theorem network_of_others {s after : System} {action : Action} (other : ¬action.OfNetwork)
    (stepped : s.step action = some after) : after.network = s.network := by
  cases moves_of_step stepped with
  | dial | connect | connectFailed | testWsRunning | readTimeout | parseError | disconnect
  | receive | push | measure => exact absurd trivial other
  | exchange exchanging =>
    unfold exchange
    split <;> rfl
  | pop popping =>
    unfold pop
    split <;> rfl
  | drain draining =>
    unfold pop
    split <;> rfl
  | testRunning | handle | stop | joinNetwork | clearRunning | joinStrategy => rfl

/-- An exited network thread makes no step. -/
theorem not_ofNetwork {s after : System} {action : Action} (exited : s.network = .exited)
    (stepped : s.step action = some after) : ¬action.OfNetwork := by
  cases moves_of_step stepped with
  | disconnect connected => simp [exited] at connected
  | dial there | connect there | connectFailed there | testWsRunning there | readTimeout there
  | parseError there | receive _ _ _ there | push _ _ _ there | measure there =>
    cases exited.symm.trans there
  | testRunning | exchange | pop | drain | handle | stop | joinNetwork | clearRunning
  | joinStrategy => exact id

/-! ### The strategy thread leaves -/

/-- How far the strategy thread is from its end, once `running` is cleared and nothing is
pushed any more. -/
def strategyRank (s : System) : Nat :=
  2 * s.queue.length + match s.strategy with
    | .done => 0
    | .draining => 1
    | .head | .handling _ true => 2
    | .popping | .handling _ false => 3
    | .exchanging => 4

theorem strategyRank_pop {s : System} {drained : Bool}
    (popping : s.strategy = if drained then .draining else .popping) :
    (s.pop drained).strategyRank < s.strategyRank := by
  unfold pop
  split
  · rename_i empty
    cases drained <;> simp [strategyRank, popping, empty]
  · rename_i entry queue first
    cases drained <;> simp only [strategyRank, popping, first, List.length_cons, if_true,
      Bool.false_eq_true, if_false] <;> omega

/-- Once `running` is cleared, every step of the strategy thread brings it closer to its end. -/
theorem strategyRank_lt {s after : System} {action : Action} (cleared : s.running = false)
    (own : action.OfStrategy) (stepped : s.step action = some after) :
    after.strategyRank < s.strategyRank := by
  cases moves_of_step stepped with
  | testRunning head => simp [strategyRank, head, cleared]
  | exchange exchanging =>
    unfold exchange
    split <;> simp [strategyRank, exchanging]
  | pop popping => exact @strategyRank_pop s false popping
  | drain draining => exact @strategyRank_pop s true draining
  | handle entry drained clock handling =>
    cases drained <;> simp [strategyRank, handling, handle]
  | dial | connect | connectFailed | testWsRunning | readTimeout | parseError | disconnect
  | receive | push | measure | stop | joinNetwork | clearRunning | joinStrategy =>
    exact own.elim

/-- The caller leaves the strategy thread and the queue alone. -/
theorem strategyRank_of_caller {s after : System} {action : Action} (own : action.OfCaller)
    (stepped : s.step action = some after) : after.strategyRank = s.strategyRank := by
  cases moves_of_step stepped with
  | stop | joinNetwork | clearRunning | joinStrategy => rfl
  | _ => exact own.elim

/-! ### The caller returns -/

theorem caller_of_others {s after : System} {action : Action} (other : ¬action.OfCaller)
    (stepped : s.step action = some after) : after.caller = s.caller := by
  cases moves_of_step stepped with
  | connect => exact (connect_keepsOthers s).caller
  | receive msg recvTs parseDone => exact (receive_keepsOthers s msg recvTs parseDone).caller
  | push event retries rest => exact (push_keepsOthers s event retries rest).caller
  | exchange exchanging =>
    unfold exchange
    split <;> rfl
  | pop popping =>
    unfold pop
    split <;> rfl
  | drain draining =>
    unfold pop
    split <;> rfl
  | stop | joinNetwork | clearRunning | joinStrategy => exact absurd trivial other
  | dial | connectFailed | testWsRunning | readTimeout | parseError | disconnect | measure
  | testRunning | handle => rfl

theorem caller_ne_running {s after : System} {action : Action} (called : s.caller ≠ .running)
    (stepped : s.step action = some after) : after.caller ≠ .running := by
  by_cases own : action.OfCaller
  · cases moves_of_step stepped with
    | stop | joinNetwork | clearRunning | joinStrategy => exact nofun
    | _ => exact own.elim
  · rw [caller_of_others own stepped]
    exact called

/-- The calls the caller has before it. -/
def callerRank (s : System) : Nat :=
  match s.caller with
  | .running => 4
  | .joiningNetwork => 3
  | .clearing => 2
  | .joiningStrategy => 1
  | .returned => 0

theorem callerRank_lt {s after : System} {action : Action} (own : action.OfCaller)
    (stepped : s.step action = some after) : after.callerRank < s.callerRank := by
  cases moves_of_step stepped with
  | stop there | joinNetwork there | clearRunning there | joinStrategy there =>
    simp [callerRank, there]
  | _ => exact own.elim

theorem callerRank_of_others {s after : System} {action : Action} (other : ¬action.OfCaller)
    (stepped : s.step action = some after) : after.callerRank = s.callerRank := by
  rw [callerRank, callerRank, caller_of_others other stepped]

/-- A strategy thread that is done stays done. -/
theorem done_of_step {s after : System} {action : Action} (done : s.strategy = .done)
    (stepped : s.step action = some after) : after.strategy = .done := by
  cases moves_of_step stepped with
  | connect => exact (connect_keepsOthers s).strategy.trans done
  | receive msg recvTs parseDone =>
    exact (receive_keepsOthers s msg recvTs parseDone).strategy.trans done
  | push event retries rest => exact (push_keepsOthers s event retries rest).strategy.trans done
  | testRunning there | exchange there | pop there | drain there | handle _ _ _ there =>
    cases done.symm.trans there
  | dial | connectFailed | testWsRunning | readTimeout | parseError | disconnect | measure
  | stop | joinNetwork | clearRunning | joinStrategy => exact done

/-! ### The stages one after the other -/

/-- `stop` has been called. -/
structure Stopping (s : System) : Prop where
  called : s.Called
  begun : s.caller ≠ .running

theorem Stopping.step {s after : System} {action : Action} (stopping : s.Stopping)
    (stepped : s.step action = some after) : after.Stopping :=
  ⟨stopping.called.step stepped, caller_ne_running stopping.begun stepped⟩

/-- The network thread is gone. -/
structure Unfed (s : System) : Prop extends s.Stopping where
  exited : s.network = .exited

theorem Unfed.step {s after : System} {action : Action} (unfed : s.Unfed)
    (stepped : s.step action = some after) : after.Unfed :=
  ⟨unfed.toStopping.step stepped,
    (network_of_others (not_ofNetwork unfed.exited stepped) stepped).trans unfed.exited⟩

/-- The network thread is gone and `running` is cleared. -/
structure Draining (s : System) : Prop extends s.Unfed where
  cleared : s.running = false

theorem Draining.step {s after : System} {action : Action} (draining : s.Draining)
    (stepped : s.step action = some after) : after.Draining := by
  have unfed := draining.toUnfed.step stepped
  refine ⟨unfed, unfed.called.cleared.mpr ?_⟩
  have before := draining.called.cleared.mp draining.cleared
  by_cases own : action.OfCaller
  · cases moves_of_step stepped with
    | stop there | joinNetwork there | clearRunning there => simp [there] at before
    | joinStrategy => exact Or.inr rfl
    | _ => exact own.elim
  · rw [caller_of_others own stepped]
    exact before

/-- The other two threads are gone. -/
structure Alone (s : System) : Prop extends s.Draining where
  done : s.strategy = .done

theorem Alone.step {s after : System} {action : Action} (alone : s.Alone)
    (stepped : s.step action = some after) : after.Alone :=
  ⟨alone.toDraining.step stepped, done_of_step alone.done stepped⟩

section

variable {run : Run System.step} {n : Nat}

theorem Stopping.eventually_exited (stopping : (run.state n).Stopping)
    (network : run.Fair Action.OfNetwork) : ∃ m ≥ n, (run.state m).network = .exited := by
  refine Run.eventually (fun s => s.network = .exited) networkRank network
    (fun _ _ _ stopping stepped => stopping.step stepped)
    (fun _ _ live => network_can live) (fun s action after stopping own stepped _ => ?_)
    (fun s action after _ other stepped _ => ?_) stopping
  · exact networkRank_lt (stopping.called.flagged stopping.begun) own stepped
  · rw [networkRank, networkRank, network_of_others other stepped]

theorem Unfed.eventually_cleared (unfed : (run.state n).Unfed)
    (caller : run.Fair Action.OfCaller) : ∃ m ≥ n, (run.state m).running = false := by
  refine Run.eventually (fun s => s.running = false) callerRank caller
    (fun _ _ _ unfed stepped => unfed.step stepped) (fun s unfed uncleared => ?_)
    (fun _ _ _ _ own stepped _ => callerRank_lt own stepped)
    (fun _ _ _ _ other stepped _ => le_of_eq (callerRank_of_others other stepped)) unfed
  cases there : s.caller with
  | running => exact absurd there unfed.begun
  | joiningNetwork => exact ⟨.joinNetwork, trivial, by simp [System.step, there, unfed.exited]⟩
  | clearing => exact ⟨.clearRunning, trivial, by simp [System.step, there]⟩
  | joiningStrategy => exact absurd (unfed.called.cleared.mpr (Or.inl there)) uncleared
  | returned => exact absurd (unfed.called.cleared.mpr (Or.inr there)) uncleared

theorem Draining.eventually_done (draining : (run.state n).Draining)
    (strategy : run.Fair Action.OfStrategy) : ∃ m ≥ n, (run.state m).strategy = .done := by
  refine Run.eventually (fun s => s.strategy = .done) strategyRank strategy
    (fun _ _ _ draining stepped => draining.step stepped)
    (fun _ _ pending => strategy_can pending)
    (fun _ _ _ draining own stepped _ => strategyRank_lt draining.cleared own stepped)
    (fun s action after draining other stepped _ => ?_) draining
  have quiet := not_ofNetwork draining.exited stepped
  have own : action.OfCaller := by
    cases action <;> first | exact trivial | exact absurd trivial quiet | exact absurd trivial other
  exact le_of_eq (strategyRank_of_caller own stepped)

theorem Alone.eventually_returned (alone : (run.state n).Alone)
    (caller : run.Fair Action.OfCaller) : ∃ m ≥ n, (run.state m).caller = .returned := by
  refine Run.eventually (fun s => s.caller = .returned) callerRank caller
    (fun _ _ _ alone stepped => alone.step stepped)
    (fun s alone pending => ⟨.joinStrategy, trivial, ?_⟩)
    (fun _ _ _ _ own stepped _ => callerRank_lt own stepped)
    (fun _ _ _ _ other stepped _ => le_of_eq (callerRank_of_others other stepped)) alone
  have joining := (alone.called.cleared.mp alone.cleared).resolve_right pending
  simp [System.step, joining, alone.done]

end

/-- In every run in which each thread that can make a step for good makes one, a call of `stop`
returns. -/
theorem stop_returns (cfg : RuntimeConfig) (run : Run step) (start : run.state 0 = initial cfg)
    (network : run.Fair Action.OfNetwork) (strategy : run.Fair Action.OfStrategy)
    (caller : run.Fair Action.OfCaller) (n : Nat) (called : (run.state n).caller ≠ .running) :
    ∃ m ≥ n, (run.state m).caller = .returned := by
  have reached : Reaches step Free (initial cfg) (run.state n) :=
    Run.reaches (start ▸ Reaches.start) (Nat.zero_le n)
  have stopping : (run.state n).Stopping := ⟨called_of_reaches reached, called⟩
  obtain ⟨first, later, exited⟩ := stopping.eventually_exited network
  have unfed : (run.state first).Unfed :=
    ⟨Run.invariant (fun _ _ _ holds stepped => holds.step stepped) stopping later, exited⟩
  obtain ⟨second, afterFirst, cleared⟩ := unfed.eventually_cleared caller
  have draining : (run.state second).Draining :=
    ⟨Run.invariant (fun _ _ _ holds stepped => holds.step stepped) unfed afterFirst, cleared⟩
  obtain ⟨third, afterSecond, done⟩ := draining.eventually_done strategy
  have alone : (run.state third).Alone :=
    ⟨Run.invariant (fun _ _ _ holds stepped => holds.step stepped) draining afterSecond, done⟩
  obtain ⟨m, afterThird, returned⟩ := alone.eventually_returned caller
  exact ⟨m, by omega, returned⟩

/-- `stop` is called during a read that ends in one more message. -/
def stopReading : List Action :=
  [.dial, .connect, .testWsRunning, .testRunning, .stop, .receive ⟨.heartbeat, [], [], []⟩ 1 1,
    .push, .exchange, .measure, .testWsRunning, .dial, .joinNetwork, .pop, .clearRunning,
    .handle ⟨1, 2, 3, 4, 5, 6⟩, .testRunning, .pop, .joinStrategy]

theorem stopReading_ends :
    ∃ final, execute step Free (initial {}) stopReading = some final ∧
      ∀ action, final.step action = none := by
  have executed : ∃ final, execute step Free (initial {}) stopReading = some final ∧
      final.network = .exited ∧ final.strategy = .done ∧ final.caller = .returned :=
    ⟨_, rfl, rfl, rfl, rfl⟩
  obtain ⟨final, executed, exited, done, returned⟩ := executed
  refine ⟨final, executed, fun action => ?_⟩
  cases action <;> simp [step, exited, done, returned]

theorem stop_returns_stopReading :
    ∃ (run : Run step) (n : Nat), run.state 0 = initial {} ∧
      (run.state n).caller = .joiningNetwork ∧ ∃ m ≥ n, (run.state m).caller = .returned := by
  obtain ⟨final, executed, halted⟩ := stopReading_ends
  have fair := Run.fair_ofLabels executed halted
  have called : ((Run.ofLabels executed halted).state 5).caller = .joiningNetwork := rfl
  exact ⟨Run.ofLabels executed halted, 5, rfl, called,
    stop_returns {} _ rfl (fair _) (fair _) (fair _) 5 (by rw [called]; exact nofun)⟩

end System

end Trading

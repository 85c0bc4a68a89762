/-
This file proves what the client's timers are for. A pause after a failure is as long as
its number since the last connection says, it is slept in short slices, and a client that
is told to stop sleeps at most one slice more. A connection on which nothing parses is
given up: the client makes no read once the dead-man time has passed, so if no read takes
longer than some bound, the last parsed message is never older than that time and the
bound.

Only a message that parses sets the timer back, and so does a new connection. Reads that
time out are counted between two such moments, and their number is bounded by the seconds
of the dead-man time.
-/

import TradingEngine.WsClient

namespace Trading

open Strtod (Double)
open Transition

/-- The thread is between a subscription and the end of its connection. -/
def ClientThread.Connected : ClientThread → Prop
  | .loop | .checking | .reading | .calling => True
  | _ => False

/-! ### Pauses -/

/-- The length of a pause, by the number of pauses since the last connection. The first one is the
initial length, whatever the maximum; only a doubled length is cut. -/
def CoinbaseWSConfig.wait (ws : CoinbaseWSConfig) (pauses : Nat) : Nat :=
  if pauses = 0 then ws.backoffInitial else min (2 ^ pauses * ws.backoffInitial) ws.backoffMax

theorem CoinbaseWSConfig.wait_succ (ws : CoinbaseWSConfig) (pauses : Nat) :
    ws.wait (pauses + 1) = min (ws.wait pauses * 2) ws.backoffMax := by
  unfold wait
  rw [if_neg (Nat.succ_ne_zero pauses), pow_succ]
  split
  · rename_i first
    rw [first, pow_zero, one_mul, mul_comm]
  · rw [mul_right_comm]
    omega

namespace System

/-- The client's flag is never set again. -/
theorem wsRunning_of_step {s after : System} {action : Action} (flagged : s.wsRunning = false)
    (stepped : s.step action = some after) : after.wsRunning = false := by
  cases moves_of_step stepped with
  | connect =>
    unfold connect
    dsimp only
    split <;> exact flagged
  | receive msg recvTs parseDone => exact (receive_wsRunning s msg recvTs parseDone).trans flagged
  | push event retries rest => exact (push_wsRunning s event retries rest).trans flagged
  | exchange exchanging =>
    unfold exchange
    split <;> exact flagged
  | pop popping =>
    unfold pop
    split <;> exact flagged
  | drain draining =>
    unfold pop
    split <;> exact flagged
  | stop => rfl
  | dial | connectFailed | testWsRunning | readTimeout | parseError | disconnect | measure
  | testRunning | handle | joinNetwork | clearRunning | joinStrategy => exact flagged

end System

namespace CoinbaseWSClient

variable {ws : CoinbaseWSConfig} {round : ℚ → Double} {c after : CoinbaseWSClient}
  {action : ClientAction} {cfg : RuntimeConfig}

/-- What the client knows of its pauses. -/
structure Paced (ws : CoinbaseWSConfig) (c : CoinbaseWSClient) : Prop where
  backoff : c.backoff = ws.wait c.pauses
  slept : ∀ remaining, c.thread = .pausing remaining ∨ c.thread = .sleeping remaining →
    c.naps.sum + remaining = c.backoff
  asleep : ∀ remaining, c.thread = .sleeping remaining → 0 < remaining ∧ c.lateNaps = []
  naps : ∀ nap ∈ c.naps, 0 < nap ∧ nap ≤ napMs
  running : c.system.wsRunning = true → c.lateNaps = []
  late : c.lateNaps.length ≤ 1 ∧ c.lateNaps.sum ≤ napMs

theorem paced_start (ws : CoinbaseWSConfig) (cfg : RuntimeConfig) : (start ws cfg).Paced ws :=
  ⟨by simp [start, CoinbaseWSConfig.wait], by simp [start], by simp [start], by simp [start],
    fun _ => rfl, Nat.zero_le _, Nat.zero_le _⟩

/-- A step that leaves the pauses alone, to a place where the thread is not asleep. -/
theorem Paced.awake (paced : c.Paced ws) (backoff : after.backoff = c.backoff)
    (pauses : after.pauses = c.pauses) (naps : after.naps = c.naps)
    (lateNaps : after.lateNaps = c.lateNaps)
    (flag : c.system.wsRunning = false → after.system.wsRunning = false)
    (awake : ∀ remaining, after.thread ≠ .pausing remaining ∧ after.thread ≠ .sleeping remaining) :
    after.Paced ws := by
  refine ⟨?_, ?_, fun remaining sleeping => absurd sleeping (awake remaining).2, ?_, ?_, ?_⟩
  · rw [backoff, pauses]
    exact paced.backoff
  · rintro remaining (pausing | sleeping)
    · exact absurd pausing (awake remaining).1
    · exact absurd sleeping (awake remaining).2
  · rw [naps]
    exact paced.naps
  · intro running
    rw [lateNaps]
    refine paced.running ?_
    rw [← Bool.not_eq_false]
    intro stopped
    exact absurd ((flag stopped).symm.trans running) nofun
  · rw [lateNaps]
    exact paced.late

theorem Paced.testPause (paced : c.Paced ws) {remaining : Nat}
    (there : c.thread = .pausing remaining) : (c.testPause ws remaining).Paced ws := by
  unfold CoinbaseWSClient.testPause
  split
  · rename_i goes
    refine ⟨paced.backoff, ?_, ?_, paced.naps, paced.running, paced.late⟩
    · rintro later (pausing | sleeping)
      · cases pausing
      · cases sleeping
        exact paced.slept remaining (Or.inl there)
    · intro later sleeping
      cases sleeping
      exact ⟨goes.1, paced.running goes.2⟩
  · refine ⟨?_, ?_, nofun, paced.naps, paced.running, paced.late⟩
    · dsimp only
      rw [CoinbaseWSConfig.wait_succ, paced.backoff]
    · rintro later (pausing | sleeping)
      · cases pausing
      · cases sleeping

theorem Paced.wake (paced : c.Paced ws) {remaining : Nat}
    (there : c.thread = .sleeping remaining) : (c.wake remaining).Paced ws := by
  obtain ⟨positive, none⟩ := paced.asleep remaining there
  have slice : min remaining napMs ≤ napMs := Nat.min_le_right _ _
  refine ⟨paced.backoff, ?_, nofun, ?_, ?_, ?_⟩
  · rintro later (pausing | sleeping)
    · obtain rfl := ClientThread.pausing.inj pausing
      have before := paced.slept remaining (Or.inr there)
      simp only [CoinbaseWSClient.wake, List.sum_append, List.sum_singleton]
      omega
    · cases sleeping
  · intro nap member
    rcases List.mem_append.mp member with earlier | last
    · exact paced.naps nap earlier
    · rw [List.mem_singleton.mp last]
      exact ⟨lt_min positive (by decide), slice⟩
  · intro running
    have still : c.system.wsRunning = true := running
    simp only [CoinbaseWSClient.wake, still, if_true]
    exact none
  · simp only [CoinbaseWSClient.wake, none]
    split
    · exact ⟨Nat.zero_le _, Nat.zero_le _⟩
    · rw [List.nil_append, List.sum_singleton]
      exact ⟨le_rfl, slice⟩

theorem Paced.step (paced : c.Paced ws) (stepped : c.step ws round action = some after) :
    after.Paced ws := by
  cases moves_of_step stepped with
  | testHead there =>
    refine paced.awake rfl rfl rfl rfl id fun remaining => ?_
    dsimp only
    split <;> exact ⟨nofun, nofun⟩
  | subscribe | connectThrew | readTimeout | readThrew =>
    exact paced.awake rfl rfl rfl rfl id fun _ => ⟨nofun, nofun⟩
  | announce now there =>
    refine ⟨by simp [announce, CoinbaseWSConfig.wait], ?_, nofun, paced.naps, fun running => ?_,
      paced.late⟩
    · rintro remaining (pausing | sleeping)
      · cases pausing
      · cases sleeping
    · refine paced.running ?_
      rw [← running]
      unfold announce
      dsimp only
      split <;> rfl
  | testLoop there =>
    refine paced.awake rfl rfl rfl rfl id fun remaining => ?_
    dsimp only
    split <;> exact ⟨nofun, nofun⟩
  | check now there =>
    refine paced.awake rfl rfl rfl rfl id fun remaining => ?_
    unfold check
    dsimp only
    split <;> exact ⟨nofun, nofun⟩
  | message document recvTs seen parseDone msg there =>
    refine paced.awake rfl rfl rfl rfl
      (fun stopped => (System.receive_wsRunning _ _ _ _).trans stopped) fun remaining => ?_
    unfold resume
    dsimp only
    split <;> exact ⟨nofun, nofun⟩
  | malformed => exact paced.awake rfl rfl rfl rfl id fun _ => ⟨nofun, nofun⟩
  | callback action system there inside moved =>
    refine paced.awake rfl rfl rfl rfl
      (fun stopped => System.wsRunning_of_step (s := c.view) stopped moved) fun remaining => ?_
    unfold resume
    dsimp only
    split <;> exact ⟨nofun, nofun⟩
  | testCaught there =>
    refine ⟨paced.backoff, ?_, ?_, by simp, paced.running, paced.late⟩
    · intro remaining
      dsimp only
      split
      · rintro (pausing | sleeping)
        · cases pausing
          simp
        · cases sleeping
      · rintro (pausing | sleeping)
        · cases pausing
        · cases sleeping
    · intro remaining
      dsimp only
      split <;> exact nofun
  | testPause remaining there => exact paced.testPause there
  | wake remaining there => exact paced.wake there
  | other action system others moved =>
    refine ⟨paced.backoff, paced.slept, paced.asleep, paced.naps, fun running => ?_, paced.late⟩
    refine paced.running ?_
    rw [← Bool.not_eq_false]
    intro stopped
    exact absurd ((System.wsRunning_of_step (s := c.view) stopped moved).symm.trans running) nofun

/-- In every run, the pause after a failure lasts as long as its number since the last connection
says, the slices slept and what remains of it add up to that, no slice is longer than `napMs`, and
at most one slice ends after the client is told to stop. -/
theorem waits_double (ws : CoinbaseWSConfig) (round : ℚ → Double) (cfg : RuntimeConfig)
    (c : CoinbaseWSClient) (reached : Reaches (step ws round) Free (start ws cfg) c) :
    c.backoff = ws.wait c.pauses ∧
      (∀ remaining, c.thread = .pausing remaining ∨ c.thread = .sleeping remaining →
        c.naps.sum + remaining = ws.wait c.pauses) ∧
      (∀ nap ∈ c.naps, 0 < nap ∧ nap ≤ napMs) ∧ c.lateNaps.length ≤ 1 ∧
      c.lateNaps.sum ≤ napMs := by
  have paced : c.Paced ws := reached.invariant (paced_start ws cfg)
    fun _ _ _ paced _ stepped => paced.step stepped
  refine ⟨paced.backoff, fun remaining there => ?_, paced.naps, paced.late⟩
  rw [← paced.backoff]
  exact paced.slept remaining there

/-- The run of `deadManRun`, told to stop in the second slice of its pause. -/
def stopAsleep : List ClientAction :=
  [.testHead, .connectThrew, .testCaught, .testPause, .wake, .testPause, .other .stop, .wake,
    .testPause, .testHead, .other .joinNetwork]

theorem waits_double_stopAsleep :
    ∃ c : CoinbaseWSClient, c.thread = .exited ∧ c.naps = [100, 100] ∧ c.backoff = 2000 ∧
      c.backoff = CoinbaseWSConfig.wait {} c.pauses ∧ c.lateNaps.length ≤ 1 := by
  have executed : ∃ c, execute (step {} Double.finite) Free (start {} {}) stopAsleep = some c ∧
      c.thread = .exited ∧ c.naps = [100, 100] ∧ c.backoff = 2000 := ⟨_, rfl, rfl, rfl, rfl⟩
  obtain ⟨c, executed, exited, naps, doubled⟩ := executed
  obtain ⟨backoff, _, _, late, _⟩ :=
    waits_double {} Double.finite {} c (Reaches.start.execute executed)
  exact ⟨c, exited, naps, doubled, backoff, late⟩

/-! ### The dead-man timer -/

/-- Time does not run backwards, a read that times out waited for a second, and no read takes
longer than some bound. -/
def Timed (limit : Nat) (c : CoinbaseWSClient) : ClientAction → Prop
  | .announce now | .check now => c.clock ≤ now
  | .readTimeout now => c.clock + nsPerSecond ≤ now ∧ now ≤ c.clock + limit
  | .read _ _ seen _ => c.clock ≤ seen ∧ seen ≤ c.clock + limit
  | _ => True

instance (limit : Nat) (c : CoinbaseWSClient) :
    (action : ClientAction) → Decidable (c.Timed limit action)
  | .announce now | .check now => inferInstanceAs (Decidable (c.clock ≤ now))
  | .readTimeout now =>
    inferInstanceAs (Decidable (c.clock + nsPerSecond ≤ now ∧ now ≤ c.clock + limit))
  | .read _ _ seen _ => inferInstanceAs (Decidable (c.clock ≤ seen ∧ seen ≤ c.clock + limit))
  | .testHead | .subscribe | .connectThrew | .testLoop | .readThrew | .callback _ | .testCaught
  | .testPause | .wake | .other _ => .isTrue trivial

/-- What the dead-man timer keeps true of a connection. -/
structure Watched (ws : CoinbaseWSConfig) (limit : Nat) (c : CoinbaseWSClient) : Prop where
  waited : c.thread.Connected → c.timeouts * nsPerSecond ≤ c.clock - c.lastSeen
  fresh : c.thread = .reading → c.clock - c.lastSeen ≤ ws.heartbeatTimeout * nsPerSecond
  recent : c.thread.Connected →
    c.clock - c.lastSeen ≤ ws.heartbeatTimeout * nsPerSecond + limit
  counted : c.thread.Connected → c.timeouts ≤ ws.heartbeatTimeout + 1

/-- A read is begun after at most as many time-outs as the dead-man time has seconds. -/
theorem Watched.reading {limit : Nat} (watched : c.Watched ws limit)
    (there : c.thread = .reading) : c.timeouts ≤ ws.heartbeatTimeout := by
  have waited := watched.waited (by rw [there]; trivial)
  have fresh := watched.fresh there
  have counted := le_of_mul_le_mul_right (le_trans waited fresh) (by decide : 0 < nsPerSecond)
  exact Int.ofNat_le.mp counted

/-- A step to a place off the connection. -/
theorem Watched.left {limit : Nat} (off : ¬c.thread.Connected) : c.Watched ws limit :=
  ⟨fun on => absurd on off, fun reading => absurd (by rw [reading]; trivial) off,
    fun on => absurd on off, fun on => absurd on off⟩

/-- A step along the connection, to its loop, its timer or its callback. -/
theorem Watched.along {limit : Nat} (watched : c.Watched ws limit) (on : c.thread.Connected)
    (clock : after.clock = c.clock) (lastSeen : after.lastSeen = c.lastSeen)
    (timeouts : after.timeouts = c.timeouts) (elsewhere : after.thread ≠ .reading) :
    after.Watched ws limit := by
  refine ⟨fun _ => ?_, fun reading => absurd reading elsewhere, fun _ => ?_, fun _ => ?_⟩
  · rw [clock, lastSeen, timeouts]
    exact watched.waited on
  · rw [clock, lastSeen]
    exact watched.recent on
  · rw [timeouts]
    exact watched.counted on

/-- A message that parses starts the timer again. -/
theorem Watched.again {limit : Nat} (clock : after.clock = after.lastSeen)
    (timeouts : after.timeouts = 0) : after.Watched ws limit := by
  have span : 0 ≤ ws.heartbeatTimeout * nsPerSecond :=
    mul_nonneg (Int.natCast_nonneg _) (by decide)
  refine ⟨fun _ => ?_, fun _ => ?_, fun _ => ?_, fun _ => ?_⟩
  · rw [clock, timeouts]
    simp
  · rw [clock, sub_self]
    exact span
  · rw [clock, sub_self]
    exact add_nonneg span (Int.natCast_nonneg _)
  · rw [timeouts]
    exact Nat.zero_le _

theorem Watched.step {limit : Nat} (watched : c.Watched ws limit)
    (timed : c.Timed limit action) (stepped : c.step ws round action = some after) :
    after.Watched ws limit := by
  cases moves_of_step stepped with
  | testHead there =>
    refine .left ?_
    dsimp only
    split <;> exact id
  | subscribe | connectThrew | readThrew => exact .left id
  | announce now there => exact .again rfl rfl
  | testLoop there =>
    refine watched.along (by rw [there]; trivial) rfl rfl rfl ?_
    dsimp only
    split <;> exact nofun
  | check now there =>
    have later : c.clock ≤ now := timed
    have waited := watched.waited (by rw [there]; trivial)
    by_cases late : ws.heartbeatTimeout * nsPerSecond < now - c.lastSeen
    · refine .left ?_
      rw [check, if_pos late]
      exact id
    · rw [check, if_neg late]
      have counted := watched.counted (by rw [there]; trivial)
      refine ⟨fun _ => ?_, fun _ => ?_, fun _ => ?_, fun _ => counted⟩ <;> dsimp only <;> linarith
  | readTimeout now there =>
    obtain ⟨second, bounded⟩ : c.clock + nsPerSecond ≤ now ∧ now ≤ c.clock + limit := timed
    have waited := watched.waited (by rw [there]; trivial)
    have fresh := watched.fresh there
    refine ⟨fun _ => ?_, nofun, fun _ => ?_, fun _ => Nat.succ_le_succ (watched.reading there)⟩
    · dsimp only
      rw [Nat.cast_succ, add_mul, one_mul]
      linarith
    · dsimp only
      linarith
  | message document recvTs seen parseDone msg there => exact .again rfl rfl
  | malformed document recvTs seen parseDone there =>
    obtain ⟨later, bounded⟩ : c.clock ≤ seen ∧ seen ≤ c.clock + limit := timed
    have waited := watched.waited (by rw [there]; trivial)
    have fresh := watched.fresh there
    have counted := watched.counted (by rw [there]; trivial)
    refine ⟨fun _ => ?_, nofun, fun _ => ?_, fun _ => counted⟩ <;> dsimp only <;> linarith
  | callback action system there inside moved =>
    refine watched.along (by rw [there]; trivial) rfl rfl rfl ?_
    unfold resume
    dsimp only
    split <;> exact nofun
  | testCaught there =>
    refine .left ?_
    dsimp only
    split <;> exact id
  | testPause remaining there =>
    refine .left ?_
    unfold CoinbaseWSClient.testPause
    split <;> exact id
  | wake => exact .left id
  | other => exact ⟨watched.waited, watched.fresh, watched.recent, watched.counted⟩

/-- In every run whose reads take no longer than a bound, a read is begun only while the last parsed
message is no older than the dead-man time, so after no more time-outs in a row than it has
seconds; and while a connection is kept, that message is never older than that time and the bound,
and at most one read more has timed out. -/
theorem deadMan (ws : CoinbaseWSConfig) (round : ℚ → Double) (cfg : RuntimeConfig) (limit : Nat)
    (c : CoinbaseWSClient) (reached : Reaches (step ws round) (Timed limit) (start ws cfg) c) :
    (c.thread = .reading → c.clock - c.lastSeen ≤ ws.heartbeatTimeout * nsPerSecond ∧
      c.timeouts ≤ ws.heartbeatTimeout) ∧
    (c.thread.Connected → c.clock - c.lastSeen ≤ ws.heartbeatTimeout * nsPerSecond + limit ∧
      c.timeouts ≤ ws.heartbeatTimeout + 1) := by
  have watched : c.Watched ws limit := reached.invariant (.left id)
    fun _ _ _ watched timed stepped => watched.step timed stepped
  exact ⟨fun reading => ⟨watched.fresh reading, watched.reading reading⟩,
    fun on => ⟨watched.recent on, watched.counted on⟩⟩

/-- The first connection has stood at its loop, with nothing parsed, for as many time-outs of a
second. -/
structure Silent (count : Nat) (c : CoinbaseWSClient) : Prop where
  there : c.thread = .loop
  running : c.system.wsRunning = true
  timeouts : c.timeouts = count
  clock : c.clock = count * nsPerSecond
  lastSeen : c.lastSeen = 0

/-- The next read is begun if the dead-man time is not over, and may time out like the others. -/
theorem Silent.next {count : Nat} (silent : c.Silent count) (inTime : count ≤ ws.heartbeatTimeout)
    (reached : Reaches (step ws round) (Timed (10 ^ 9)) (start ws cfg) c) :
    ∃ after, Reaches (step ws round) (Timed (10 ^ 9)) (start ws cfg) after ∧
      after.Silent (count + 1) := by
  obtain ⟨there, running, timeouts, clock, lastSeen⟩ := silent
  let checking := { c with thread := ClientThread.checking }
  let reading := { c with thread := ClientThread.reading, clock := count * nsPerSecond }
  have tested : c.step ws round .testLoop = some checking := by
    simp only [step, there, running, if_true, checking]
  have fresh : ¬ws.heartbeatTimeout * nsPerSecond < count * nsPerSecond - c.lastSeen := by
    have seconds : (count : Int) ≤ ws.heartbeatTimeout := Int.ofNat_le.mpr inTime
    have time := mul_le_mul_of_nonneg_right seconds (by decide : 0 ≤ nsPerSecond)
    rw [lastSeen, sub_zero]
    exact not_lt.mpr time
  have checked : checking.step ws round (.check (count * nsPerSecond)) = some reading := by
    show some (checking.check ws (count * nsPerSecond)) = some reading
    rw [check, if_neg fresh]
  have second : nsPerSecond = 10 ^ 9 := rfl
  have begun := reached.next .testLoop (show c.Timed (10 ^ 9) .testLoop from trivial) tested
  refine ⟨_, (begun.next _ ?_ checked).next (.readTimeout ((count + 1) * nsPerSecond)) ?_ rfl,
    rfl, running, ?_, ?_, lastSeen⟩
  · exact le_of_eq clock
  · show count * nsPerSecond + nsPerSecond ≤ (count + 1) * nsPerSecond ∧
      (count + 1) * nsPerSecond ≤ count * nsPerSecond + (10 ^ 9 : Nat)
    rw [second]
    push_cast
    constructor <;> linarith
  · exact congrArg (· + 1) timeouts
  · exact congrArg (· * nsPerSecond) (Nat.cast_succ count).symm

/-- A connection may be silent until one read has timed out more than the dead-man time has
seconds. -/
theorem reaches_silent (ws : CoinbaseWSConfig) (round : ℚ → Double) (cfg : RuntimeConfig)
    {count : Nat} (most : count ≤ ws.heartbeatTimeout + 1) :
    ∃ c, Reaches (step ws round) (Timed (10 ^ 9)) (start ws cfg) c ∧ c.Silent count := by
  induction count with
  | zero =>
    have executed : execute (step ws round) (Timed (10 ^ 9)) (start ws cfg)
        [.testHead, .subscribe, .announce 0] =
          some ({ start ws cfg with thread := .subscribed }.announce ws 0) := rfl
    exact ⟨_, Reaches.start.execute executed, rfl, rfl, rfl, rfl, rfl⟩
  | succ count inductionHypothesis =>
    obtain ⟨c, reached, silent⟩ := inductionHypothesis (by omega)
    exact silent.next (by omega) reached

/-- Both bounds on a kept connection are met: with the default of thirty seconds, a connection on
which every read times out after a second is kept for thirty-one of them. -/
theorem deadMan_silent :
    ∃ c : CoinbaseWSClient, c.thread = .loop ∧ c.timeouts = 31 ∧
      c.clock - c.lastSeen = 31 * nsPerSecond ∧
      c.clock - c.lastSeen ≤ 30 * nsPerSecond + 10 ^ 9 ∧ c.timeouts ≤ 30 + 1 := by
  obtain ⟨c, reached, silent⟩ := reaches_silent {} Double.finite {} (le_refl 31)
  have on : c.thread.Connected := by rw [silent.there]; trivial
  refine ⟨c, silent.there, silent.timeouts, ?_, (deadMan {} _ {} (10 ^ 9) c reached).2 on⟩
  rw [silent.clock, silent.lastSeen, sub_zero]
  rfl

end CoinbaseWSClient

end Trading

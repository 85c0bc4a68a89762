/-
This file is the thread of `coinbase_ws_client.cpp`: the connection loop with its pauses, the
read loop with its dead-man timer, and the callbacks into the runtime. What the network and the
clocks deliver is read from outside. The runtime, the other threads and the inside of the
message callback are the system of `Threads.lean`.

That system has a network thread of its own, which dials, connects, reads and fails as it
likes. The client is one such thread: every step it makes is a step the system can make, or
changes nothing the system knows of.

Five fields are no state of the program: `pauses` counts the pauses since the last connection,
`naps` are the slices slept in the present pause, `lateNaps` those that ended after the client's
flag was cleared, `clock` is the last time read, and `timeouts` counts the reads that timed out
since a message was last parsed.
-/

import TradingEngine.CoinbaseParser
import TradingEngine.StopReturns

namespace Trading

open Strtod (Double)
open Transition

/-- The times `run` waits: seconds for the dead-man timer, milliseconds between connections. -/
structure CoinbaseWSConfig where
  heartbeatTimeout : Nat := 30
  backoffInitial : Nat := 1000
  backoffMax : Nat := 30000
deriving DecidableEq, Repr

/-- Nanoseconds in a second. -/
def nsPerSecond : Int := 10 ^ 9

/-- The longest slice of a pause, in milliseconds. -/
def napMs : Nat := 100

/-- Where the thread stands. -/
inductive ClientThread where
  /-- at the head of the connection loop -/
  | head
  /-- between resolving the host and writing the subscription -/
  | connecting
  /-- subscribed, about to exchange `hasConnectedOnce` -/
  | subscribed
  /-- at the head of the read loop -/
  | loop
  /-- about to look at the dead-man timer -/
  | checking
  | reading
  /-- in the message callback -/
  | calling
  /-- holding an exception -/
  | caught
  /-- at the head of the loop over the slices of a pause -/
  | pausing (remaining : Nat)
  | sleeping (remaining : Nat)
  | exited
deriving DecidableEq, Repr

/-- The state of `run()`: where its thread stands, its back-off and timer, and the system behind it.
-/
structure CoinbaseWSClient where
  thread : ClientThread
  backoff : Nat
  hasConnectedOnce : Bool
  lastSeen : Timestamp
  system : System
  pauses : Nat
  naps : List Nat
  lateNaps : List Nat
  clock : Timestamp
  timeouts : Nat

/-- One step of the client's thread with what it reads from outside, or of another thread. -/
inductive ClientAction where
  | testHead
  | subscribe
  | connectThrew
  | announce (now : Timestamp)
  | testLoop
  | check (now : Timestamp)
  | readTimeout (now : Timestamp)
  | readThrew
  | read (document : Option Json) (recvTs seen parseDone : Timestamp)
  | callback (action : Action)
  | testCaught
  | testPause
  | wake
  | other (action : Action)

/-- The thread as the system knows it: it knows the callback, not the loops around it. -/
def ClientThread.view (callback : NetworkThread) : ClientThread → NetworkThread
  | .head | .caught | .pausing _ | .sleeping _ => .offline
  | .connecting | .subscribed => .dialing
  | .loop => .online
  | .checking | .reading => .reading
  | .calling => callback
  | .exited => .exited

namespace CoinbaseWSClient

/-- The client before its thread has made a step. -/
def start (ws : CoinbaseWSConfig) (cfg : RuntimeConfig) : CoinbaseWSClient where
  thread := .head
  backoff := ws.backoffInitial
  hasConnectedOnce := false
  lastSeen := 0
  system := System.initial cfg
  pauses := 0
  naps := []
  lateNaps := []
  clock := 0
  timeouts := 0

/-- The system the client is part of. -/
def view (c : CoinbaseWSClient) : System :=
  { c.system with network := c.thread.view c.system.network }

/-! ### The steps of the thread -/

/-- A connection is made: all but the first one run the reconnect callback, the backoff starts
again and so does the dead-man timer. -/
def announce (c : CoinbaseWSClient) (ws : CoinbaseWSConfig) (now : Timestamp) : CoinbaseWSClient :=
  let connected := { c.system with connection := c.system.connection + 1 }
  { c with
    thread := .loop
    backoff := ws.backoffInitial
    hasConnectedOnce := true
    lastSeen := now
    system := if c.hasConnectedOnce then connected.onReconnect else connected
    pauses := 0
    clock := now
    timeouts := 0 }

/-- Too long without a message that parses is a reason to connect anew, without a pause. -/
def check (c : CoinbaseWSClient) (ws : CoinbaseWSConfig) (now : Timestamp) : CoinbaseWSClient :=
  { c with
    thread := if ws.heartbeatTimeout * nsPerSecond < now - c.lastSeen then .head else .reading
    clock := now }

/-- Back to the read loop if the callback has returned. -/
def resume (c : CoinbaseWSClient) (system : System) : CoinbaseWSClient :=
  { c with thread := if system.network = .online then .loop else .calling, system }

/-- A text is read and parsed, and then either the message or the error is handed on. Numbers
that are not finite are left out of the model. -/
def read (c : CoinbaseWSClient) (round : ℚ → Double) (document : Option Json)
    (recvTs seen parseDone : Timestamp) : Option CoinbaseWSClient :=
  match CoinbaseParser.parse round document with
  | (.ok, parsed) => parsed.message?.map fun msg =>
    { c with lastSeen := seen, clock := seen, timeouts := 0 }.resume
      (c.view.receive msg recvTs parseDone)
  | (_, _) => some { c with thread := .loop, system := c.system.onParseError, clock := seen }

/-- The head of the loop over the slices; after the last one the backoff doubles. -/
def testPause (c : CoinbaseWSClient) (ws : CoinbaseWSConfig) (remaining : Nat) :
    CoinbaseWSClient :=
  if 0 < remaining ∧ c.system.wsRunning then { c with thread := .sleeping remaining }
  else
    { c with
      thread := .head
      backoff := min (c.backoff * 2) ws.backoffMax
      pauses := c.pauses + 1 }

/-- A slice is over. -/
def wake (c : CoinbaseWSClient) (remaining : Nat) : CoinbaseWSClient :=
  let slice := min remaining napMs
  { c with
    thread := .pausing (remaining - slice)
    naps := c.naps ++ [slice]
    lateNaps := if c.system.wsRunning then c.lateNaps else c.lateNaps ++ [slice] }

/-- One step of the client's thread or of another thread, if it stands there. -/
def step (ws : CoinbaseWSConfig) (round : ℚ → Double) (c : CoinbaseWSClient) :
    ClientAction → Option CoinbaseWSClient
  | .testHead => if c.thread = .head then
      some { c with thread := if c.system.wsRunning then .connecting else .exited } else none
  | .subscribe => if c.thread = .connecting then some { c with thread := .subscribed } else none
  | .connectThrew => if c.thread = .connecting then some { c with thread := .caught } else none
  | .announce now => if c.thread = .subscribed then some (c.announce ws now) else none
  | .testLoop => if c.thread = .loop then
      some { c with thread := if c.system.wsRunning then .checking else .head } else none
  | .check now => if c.thread = .checking then some (c.check ws now) else none
  | .readTimeout now => if c.thread = .reading then
      some { c with thread := .loop, clock := now, timeouts := c.timeouts + 1 } else none
  | .readThrew => if c.thread = .reading then some { c with thread := .caught } else none
  | .read document recvTs seen parseDone => if c.thread = .reading then
      c.read round document recvTs seen parseDone else none
  | .callback action => if c.thread = .calling ∧ (action = .push ∨ action = .measure) then
      (c.view.step action).map c.resume else none
  | .testCaught => if c.thread = .caught then
      some { c with
        thread := if c.system.wsRunning then .pausing c.backoff else .exited
        naps := [] } else none
  | .testPause => match c.thread with
      | .pausing remaining => some (c.testPause ws remaining)
      | _ => none
  | .wake => match c.thread with
      | .sleeping remaining => some (c.wake remaining)
      | _ => none
  | .other action => if action.OfNetwork then none else
      (c.view.step action).map fun system => { c with system }

/-! ### What a step can do -/

/-- The steps of the client, each with where its thread stands and what it leaves. -/
inductive Moves (ws : CoinbaseWSConfig) (round : ℚ → Double) (c : CoinbaseWSClient) :
    ClientAction → CoinbaseWSClient → Prop where
  | testHead (there : c.thread = .head) :
      Moves ws round c .testHead
        { c with thread := if c.system.wsRunning then .connecting else .exited }
  | subscribe (there : c.thread = .connecting) :
      Moves ws round c .subscribe { c with thread := .subscribed }
  | connectThrew (there : c.thread = .connecting) :
      Moves ws round c .connectThrew { c with thread := .caught }
  | announce (now : Timestamp) (there : c.thread = .subscribed) :
      Moves ws round c (.announce now) (c.announce ws now)
  | testLoop (there : c.thread = .loop) :
      Moves ws round c .testLoop
        { c with thread := if c.system.wsRunning then .checking else .head }
  | check (now : Timestamp) (there : c.thread = .checking) :
      Moves ws round c (.check now) (c.check ws now)
  | readTimeout (now : Timestamp) (there : c.thread = .reading) :
      Moves ws round c (.readTimeout now)
        { c with thread := .loop, clock := now, timeouts := c.timeouts + 1 }
  | readThrew (there : c.thread = .reading) :
      Moves ws round c .readThrew { c with thread := .caught }
  | message (document : Option Json) (recvTs seen parseDone : Timestamp) (msg : CoinbaseMessage)
      (there : c.thread = .reading) :
      Moves ws round c (.read document recvTs seen parseDone)
        ({ c with lastSeen := seen, clock := seen, timeouts := 0 }.resume
          (c.view.receive msg recvTs parseDone))
  | malformed (document : Option Json) (recvTs seen parseDone : Timestamp)
      (there : c.thread = .reading) :
      Moves ws round c (.read document recvTs seen parseDone)
        { c with thread := .loop, system := c.system.onParseError, clock := seen }
  | callback (action : Action) (system : System) (there : c.thread = .calling)
      (inside : action = .push ∨ action = .measure)
      (moved : c.view.step action = some system) :
      Moves ws round c (.callback action) (c.resume system)
  | testCaught (there : c.thread = .caught) :
      Moves ws round c .testCaught
        { c with
          thread := if c.system.wsRunning then .pausing c.backoff else .exited
          naps := [] }
  | testPause (remaining : Nat) (there : c.thread = .pausing remaining) :
      Moves ws round c .testPause (c.testPause ws remaining)
  | wake (remaining : Nat) (there : c.thread = .sleeping remaining) :
      Moves ws round c .wake (c.wake remaining)
  | other (action : Action) (system : System) (others : ¬action.OfNetwork)
      (moved : c.view.step action = some system) :
      Moves ws round c (.other action) { c with system }

variable {ws : CoinbaseWSConfig} {round : ℚ → Double} {c after : CoinbaseWSClient}
  {action : ClientAction}

theorem moves_of_step (stepped : c.step ws round action = some after) :
    c.Moves ws round action after := by
  unfold step at stepped
  cases action with
  | read document recvTs seen parseDone =>
    simp only [Option.ite_none_right_eq_some] at stepped
    obtain ⟨there, stepped⟩ := stepped
    unfold read at stepped
    split at stepped
    · obtain ⟨msg, _, rfl⟩ := Option.map_eq_some_iff.mp stepped
      exact .message document recvTs seen parseDone msg there
    · obtain rfl := Option.some.inj stepped
      exact .malformed document recvTs seen parseDone there
  | callback action =>
    simp only [Option.ite_none_right_eq_some] at stepped
    obtain ⟨⟨there, inside⟩, stepped⟩ := stepped
    obtain ⟨system, moved, rfl⟩ := Option.map_eq_some_iff.mp stepped
    exact .callback action system there inside moved
  | testPause =>
    dsimp only at stepped
    split at stepped
    · obtain rfl := Option.some.inj stepped
      exact .testPause _ ‹_›
    · cases stepped
  | wake =>
    dsimp only at stepped
    split at stepped
    · obtain rfl := Option.some.inj stepped
      exact .wake _ ‹_›
    · cases stepped
  | other action =>
    simp only [Option.ite_none_left_eq_some] at stepped
    obtain ⟨others, stepped⟩ := stepped
    obtain ⟨system, moved, rfl⟩ := Option.map_eq_some_iff.mp stepped
    exact .other action system others moved
  | _ =>
    simp only [Option.ite_none_right_eq_some, Option.some.injEq] at stepped
    obtain ⟨there, rfl⟩ := stepped
    constructor
    exact there

end CoinbaseWSClient

/-! ### The client is a network thread of the system -/

namespace System

theorem connection_of_step {s after : System} {action : Action} (others : action ≠ .connect)
    (stepped : s.step action = some after) : after.connection = s.connection := by
  cases moves_of_step stepped with
  | connect => exact absurd rfl others
  | receive msg recvTs parseDone => exact receive_connection s msg recvTs parseDone
  | push event retries rest => exact push_connection s event retries rest
  | exchange exchanging =>
    unfold exchange
    split <;> rfl
  | pop popping =>
    unfold pop
    split <;> rfl
  | drain draining =>
    unfold pop
    split <;> rfl
  | dial | connectFailed | testWsRunning | readTimeout | parseError | disconnect | measure
  | testRunning | handle | stop | joinNetwork | clearRunning | joinStrategy => rfl

end System

namespace CoinbaseWSClient

variable {ws : CoinbaseWSConfig} {round : ℚ → Double} {c after : CoinbaseWSClient}
  {action : ClientAction}

/-- The client remembers having connected when the system counts a connection. -/
def Remembers (c : CoinbaseWSClient) : Prop :=
  c.hasConnectedOnce = decide (0 < c.system.connection)

theorem Remembers.step (remembers : c.Remembers) (stepped : c.step ws round action = some after) :
    after.Remembers := by
  have same : ∀ {system : System}, system.connection = c.view.connection →
      c.hasConnectedOnce = decide (0 < system.connection) :=
    fun equal => equal ▸ remembers
  cases moves_of_step stepped with
  | announce now there =>
    unfold Remembers announce
    dsimp only
    split <;> simp [System.onReconnect, System.setMetrics]
  | check now there => exact remembers
  | message document recvTs seen parseDone msg there => exact same (System.receive_connection ..)
  | malformed => exact remembers
  | callback action system there inside moved =>
    refine same (System.connection_of_step ?_ moved)
    rcases inside with rfl | rfl <;> intro connects <;> cases connects
  | testPause remaining there =>
    unfold CoinbaseWSClient.testPause
    split <;> exact remembers
  | other action system others moved =>
    refine same (System.connection_of_step ?_ moved)
    rintro rfl
    exact others trivial
  | testHead | subscribe | connectThrew | testLoop | readTimeout | readThrew | testCaught
  | wake => exact remembers

theorem resume_view (c : CoinbaseWSClient) (system : System) : (c.resume system).view = system := by
  unfold view resume
  dsimp only
  split
  · rename_i online
    rw [ClientThread.view, ← online]
  · rfl

/-- The other threads leave the system's network thread where the client's thread has it. -/
theorem view_other {system : System} (kept : system.network = c.thread.view c.system.network) :
    view { c with system } = system := by
  have again : c.thread.view system.network = system.network := by
    rw [kept]
    cases c.thread <;> rfl
  rw [view, again]

theorem announce_view (remembers : c.Remembers) (there : c.thread = .subscribed)
    (now : Timestamp) : c.view.step .connect = some (c.announce ws now).view := by
  have known : c.hasConnectedOnce = decide (0 < c.system.connection) := remembers
  have dialing : c.view.network = .dialing := by
    unfold view
    rw [there]
    rfl
  rw [System.step, if_pos dialing]
  unfold System.connect announce view
  rw [known, there]
  by_cases again : 0 < c.system.connection
  · simp only [again, decide_true, if_true, ClientThread.view, System.onReconnect,
      System.setMetrics]
  · simp only [again, decide_false, if_false, ClientThread.view, Bool.false_eq_true]

/-- Every step of the client and the threads around it is a step of the system, or changes
nothing the system knows of. -/
theorem step_view (remembers : c.Remembers) (stepped : c.step ws round action = some after) :
    after.view = c.view ∨ ∃ taken : Action, c.view.step taken = some after.view := by
  have stands : ∀ {thread : ClientThread} {network : NetworkThread}, c.thread = thread →
      thread.view c.system.network = network → c.view.network = network :=
    fun there seen => (congrArg (ClientThread.view c.system.network) there).trans seen
  cases moves_of_step stepped with
  | testHead there =>
    refine Or.inr ⟨.dial, ?_⟩
    have offline : c.view.network = .offline := stands there rfl
    rw [System.step, if_pos offline]
    cases running : c.system.wsRunning <;> simp [view, running, ClientThread.view]
  | subscribe there =>
    left
    simp only [view, there, ClientThread.view]
  | connectThrew there =>
    refine Or.inr ⟨.connectFailed, ?_⟩
    have dialing : c.view.network = .dialing := stands there rfl
    rw [System.step, if_pos dialing]
    rfl
  | announce now there => exact Or.inr ⟨.connect, announce_view remembers there now⟩
  | testLoop there =>
    refine Or.inr ⟨.testWsRunning, ?_⟩
    have online : c.view.network = .online := stands there rfl
    rw [System.step, if_pos online]
    cases running : c.system.wsRunning <;> simp [view, running, ClientThread.view]
  | check now there =>
    unfold CoinbaseWSClient.check
    by_cases late : ws.heartbeatTimeout * nsPerSecond < now - c.lastSeen
    · rw [if_pos late]
      refine Or.inr ⟨.disconnect, ?_⟩
      have reading : c.view.network = .reading := stands there rfl
      rw [System.step, if_pos (Or.inr reading)]
      rfl
    · rw [if_neg late]
      left
      simp only [view, there, ClientThread.view]
  | readTimeout now there =>
    refine Or.inr ⟨.readTimeout, ?_⟩
    have reading : c.view.network = .reading := stands there rfl
    rw [System.step, if_pos reading]
    rfl
  | readThrew there =>
    refine Or.inr ⟨.disconnect, ?_⟩
    have reading : c.view.network = .reading := stands there rfl
    rw [System.step, if_pos (Or.inr reading)]
    rfl
  | message document recvTs seen parseDone msg there =>
    refine Or.inr ⟨.receive msg recvTs parseDone, ?_⟩
    have reading : c.view.network = .reading := stands there rfl
    rw [System.step, if_pos reading, resume_view]
  | malformed document recvTs seen parseDone there =>
    refine Or.inr ⟨.parseError, ?_⟩
    have reading : c.view.network = .reading := stands there rfl
    rw [System.step, if_pos reading]
    rfl
  | callback action system there inside moved =>
    refine Or.inr ⟨action, ?_⟩
    rw [resume_view]
    exact moved
  | testCaught there =>
    cases running : c.system.wsRunning with
    | true =>
      left
      simp [view, there, ClientThread.view]
    | false =>
      refine Or.inr ⟨.dial, ?_⟩
      have offline : c.view.network = .offline := stands there rfl
      rw [System.step, if_pos offline]
      simp [view, running, ClientThread.view]
  | testPause remaining there =>
    left
    unfold CoinbaseWSClient.testPause
    split <;> simp only [view, there, ClientThread.view]
  | wake remaining there =>
    left
    simp only [view, there, wake, ClientThread.view]
  | other action system others moved =>
    refine Or.inr ⟨action, ?_⟩
    have kept : system.network = c.thread.view c.system.network :=
      System.network_of_others others moved
    rw [moved, view_other kept]

/-- Whatever the client does with the other threads around it, the system can do. -/
theorem reaches_view (ws : CoinbaseWSConfig) (round : ℚ → Double) (cfg : RuntimeConfig)
    (c : CoinbaseWSClient) (reached : Reaches (step ws round) Free (start ws cfg) c) :
    Reaches System.step Free (System.initial cfg) c.view := by
  have fresh : (start ws cfg).Remembers := rfl
  exact reached.simulate Remembers fresh (fun _ _ _ remembers stepped => remembers.step stepped)
    (fun _ _ _ remembers stepped => step_view remembers stepped)

/-- The text of a heartbeat. -/
def heartbeatText : Json := .object [("type".toList, .string "heartbeat".toList)]

/-- A connection that fails, a pause of two slices, a connection on which one heartbeat is read,
and another one once the dead-man timer has run out. -/
def deadManRun : List ClientAction :=
  [.testHead, .connectThrew, .testCaught, .testPause, .wake, .testPause, .wake, .testPause,
    .testHead, .subscribe, .announce 0, .testLoop, .check 1, .read (some heartbeatText) 2 3 4,
    .callback .push, .callback .measure, .other .testRunning, .testLoop, .check 30000000004,
    .testHead, .subscribe, .announce 30000000005]

theorem reaches_view_deadManRun :
    ∃ c : CoinbaseWSClient, c.pauses = 0 ∧ c.naps = [100, 50] ∧ c.system.connection = 2 ∧
      c.system.rt.metrics.reconnects = 1 ∧
      Reaches System.step Free (System.initial {}) c.view := by
  have executed : ∃ c, execute (step { backoffInitial := 150 } Double.finite) Free
      (start { backoffInitial := 150 } {}) deadManRun = some c ∧ c.pauses = 0 ∧
      c.naps = [100, 50] ∧ c.system.connection = 2 ∧ c.system.rt.metrics.reconnects = 1 :=
    ⟨_, rfl, rfl, rfl, rfl, rfl⟩
  obtain ⟨c, executed, pauses, naps, connections, reconnects⟩ := executed
  exact ⟨c, pauses, naps, connections, reconnects,
    reaches_view _ _ _ c (Reaches.start.execute executed)⟩

end CoinbaseWSClient

end Trading

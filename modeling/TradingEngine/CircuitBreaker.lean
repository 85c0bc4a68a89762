/-
This file is the circuit breaker of `circuit_breaker.hpp`. It trips on enough errors
inside a tumbling window of messages and untrips at the end of a window without errors. A
reset untrips it at once and forgets the errors, but not how far the window has come.

The windows are counted in messages from the first one on, so a trip late in a window is
seen by two window ends soon after it. A window of no messages never ends: `recordMessage`
does nothing then, and only a reset untrips. The 64-bit counters are natural numbers, and
since only the strategy thread makes these calls, an atomic field is a field.
-/

import Mathlib.Tactic.Common

namespace Trading

/-- Trips once the errors within one window of messages reach the threshold. -/
structure CircuitBreaker where
  threshold : Nat
  windowMessages : Nat
  msgs : Nat := 0
  errors : Nat := 0
  tripped : Bool := false
deriving DecidableEq, Repr

namespace CircuitBreaker

/-- Count a message; each full window forgets the errors. A window of 0 counts nothing. -/
def recordMessage (breaker : CircuitBreaker) : CircuitBreaker :=
  if breaker.windowMessages = 0 then breaker
  else
    let n := breaker.msgs + 1
    let counted := { breaker with msgs := n }
    if n % breaker.windowMessages = 0 then
      { counted with
        errors := 0
        tripped := if breaker.errors = 0 then false else breaker.tripped }
    else counted

/-- Count an error, and trip at the threshold. -/
def recordError (breaker : CircuitBreaker) : CircuitBreaker :=
  let e := breaker.errors + 1
  { breaker with
    errors := e
    tripped := if breaker.threshold ≤ e then true else breaker.tripped }

/-- The breaker has tripped and was not reset since. -/
def isTripped (breaker : CircuitBreaker) : Bool := breaker.tripped

/-- Clear the trip and the errors; the message count goes on. -/
def reset (breaker : CircuitBreaker) : CircuitBreaker :=
  { breaker with tripped := false, errors := 0 }

/-- What a message does, without the case of a window that never ends. -/
theorem recordMessage_eq {breaker : CircuitBreaker} {window : Nat} (positive : 0 < window)
    (windows : breaker.windowMessages = window) :
    breaker.recordMessage =
      if (breaker.msgs + 1) % window = 0 then
        { breaker with
          msgs := breaker.msgs + 1
          errors := 0
          tripped := if breaker.errors = 0 then false else breaker.tripped }
      else { breaker with msgs := breaker.msgs + 1 } := by
  unfold recordMessage
  rw [windows, if_neg (Nat.pos_iff_ne_zero.mp positive)]

end CircuitBreaker

end Trading

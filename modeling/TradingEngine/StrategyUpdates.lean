/-
This file says what one market update does to what the strategy remembers besides its
account: the ring of imbalances, the time of its last order and the signal it skips after
a reconnect. An update that can read the book records exactly one imbalance; it sends an
order only if the skip is over, and when flat only after the cooldown and on a smoothed
imbalance beyond the threshold.

The time of the last order moves with every order that is sent, also with one that the
breaker holds back or the risk manager rejects, and with the close of a position as much
as with an entry.
-/

import TradingEngine.OrderPath
import TradingEngine.Smoothing

namespace Trading

namespace ImbalanceStrategy

variable {capacity : Nat}

/-- What the strategy checks before it opens a position. -/
structure EntryHeeds (strategy : ImbalanceStrategy) (now : Timestamp) : Prop where
  cooled : strategy.params.cooldownS ≤ ((now - strategy.lastTradeNs : Int) : ℚ) / 10 ^ 9
  strong : strategy.params.entryImbalance < |strategy.smoothed|

/-- A decision sends nothing and keeps everything, or sends an order and notes the time. -/
inductive Emits (strategy : ImbalanceStrategy) (now : Timestamp) :
    Signal × ImbalanceStrategy → Prop where
  | silent : Emits strategy now (Signal.none, strategy)
  | sent (signal : Signal) (actionable : signal.isActionable = true)
      (entry : strategy.position = 0 → strategy.EntryHeeds now) :
      Emits strategy now (signal, { strategy with lastTradeNs := now })

theorem emit_emits {strategy : ImbalanceStrategy} {now : Timestamp}
    (entry : strategy.position = 0 → strategy.EntryHeeds now) (signal : Signal) :
    strategy.Emits now (strategy.emit signal now) := by
  unfold emit
  cases actionable : signal.isActionable with
  | false => exact .silent
  | true => exact .sent _ actionable entry

theorem decision_emits (strategy : ImbalanceStrategy) (book : BoundedBook capacity)
    (now : Timestamp) (bestBid bestAsk : ℚ) :
    strategy.Emits now (strategy.decision book now bestBid bestAsk) := by
  unfold decision
  dsimp only
  split
  · rename_i long
    split
    · exact emit_emits (fun flat => absurd flat (ne_of_gt long)) _
    · exact .silent
  · split
    · rename_i short
      split
      · exact emit_emits (fun flat => absurd flat (ne_of_lt short)) _
      · exact .silent
    · split
      · exact .silent
      · rename_i cooled
        split
        · exact .silent
        · split
          · exact .silent
          · split
            · rename_i strong
              refine emit_emits (fun _ => ⟨not_lt.mp cooled, ?_⟩) _
              exact lt_of_lt_of_le strong (le_abs_self _)
            · split
              · rename_i strong
                exact emit_emits (fun _ => ⟨not_lt.mp cooled,
                  lt_of_lt_of_le (lt_neg.mpr strong.2) (neg_le_abs _)⟩) _
              · exact .silent

/-- The ways an update can go. -/
inductive Updates (strategy : ImbalanceStrategy) (book : BoundedBook capacity) (now : Timestamp) :
    Signal × ImbalanceStrategy → Prop where
  | unread (unreadable : strategy.imbalanceOf book = none) :
      Updates strategy book now (Signal.none, strategy)
  | skipped (imbalance : ℚ) (found : strategy.imbalanceOf book = some imbalance)
      (skips : strategy.skipNextSignal = true) :
      Updates strategy book now
        (Signal.none, { strategy.record imbalance with skipNextSignal := false })
  | heeded (imbalance : ℚ) (found : strategy.imbalanceOf book = some imbalance)
      (heeds : strategy.skipNextSignal = false) {decided : Signal × ImbalanceStrategy}
      (emits : (strategy.record imbalance).Emits now decided) :
      Updates strategy book now decided

theorem onMarketUpdate_updates (strategy : ImbalanceStrategy) (book : BoundedBook capacity)
    (now : Timestamp) : strategy.Updates book now (strategy.onMarketUpdate book now) := by
  rcases strategy.onMarketUpdate_cases book now with
    ⟨unreadable, stops⟩ | ⟨imbalance, bestBid, bestAsk, found, goesOn⟩
  · rw [stops]
    exact .unread unreadable
  · rw [goesOn]
    unfold afterRecord
    split
    · rename_i skips
      exact .skipped imbalance found skips
    · rename_i heeds
      exact .heeded imbalance found (Bool.eq_false_iff.mpr heeds)
        (decision_emits _ book now bestBid bestAsk)

/-- The skip ends with the first imbalance recorded. -/
theorem Updates.skipNextSignal {strategy : ImbalanceStrategy} {book : BoundedBook capacity}
    {now : Timestamp} {decided : Signal × ImbalanceStrategy}
    (updates : strategy.Updates book now decided) :
    decided.2.skipNextSignal =
      (strategy.skipNextSignal && (strategy.imbalanceOf book).isNone) := by
  cases updates with
  | unread unreadable =>
    rw [unreadable]
    exact (Bool.and_true _).symm
  | skipped imbalance found skips =>
    rw [found]
    exact (Bool.and_false _).symm
  | heeded imbalance found heeds emits =>
    rw [heeds]
    cases emits <;> exact heeds

/-- The time of the last order moves with an order only. -/
theorem Updates.lastTradeNs {strategy : ImbalanceStrategy} {book : BoundedBook capacity}
    {now : Timestamp} {decided : Signal × ImbalanceStrategy}
    (updates : strategy.Updates book now decided) :
    decided.2.lastTradeNs = if decided.1.isActionable then now else strategy.lastTradeNs := by
  cases updates with
  | unread | skipped => rfl
  | heeded imbalance found heeds emits =>
    cases emits with
    | silent => rfl
    | sent signal actionable entry => exact (if_pos actionable).symm

/-- An update that sends an order heeds the book, and when flat all that is checked before an
entry. -/
theorem Updates.sends {strategy : ImbalanceStrategy} {book : BoundedBook capacity}
    {now : Timestamp} {decided : Signal × ImbalanceStrategy}
    (updates : strategy.Updates book now decided) (actionable : decided.1.isActionable = true) :
    strategy.skipNextSignal = false ∧ ∃ imbalance, strategy.imbalanceOf book = some imbalance ∧
      (strategy.position = 0 → (strategy.record imbalance).EntryHeeds now) := by
  cases updates with
  | unread | skipped => cases actionable
  | heeded imbalance found heeds emits =>
    cases emits with
    | silent => cases actionable
    | sent signal actionable entry => exact ⟨heeds, imbalance, found, entry⟩

/-- Only the account differs. -/
def SameSignals (before after : ImbalanceStrategy) : Prop :=
  after = { before with pnl := after.pnl }

end ImbalanceStrategy

namespace Runtime

open ImbalanceStrategy (SameSignals)

theorem dispatchOrder_sameSignals (rt : Runtime) (signal : Signal) (clock : EventClock) :
    SameSignals rt.strategy (rt.dispatchOrder signal clock).strategy := by
  unfold dispatchOrder
  dsimp only
  split
  · rfl
  · split
    · rfl
    · unfold executeOrder bookFill
      split
      · rfl
      · rfl

/-- The imbalance an event makes the strategy record. -/
def sample (rt : Runtime) (ev : MarketEvent) : Option ℚ :=
  (rt.withBook ev).bind fun ready => ready.strategy.imbalanceOf ready.book

/-- What an event does to the strategy's memory: nothing if it does not get to the book, else
what the update on the book with the event in it does, and an order is sent if the update sends
one. -/
inductive Remembers (rt : Runtime) (clock : EventClock) (ev : MarketEvent) : Prop where
  | early (unsampled : rt.sample ev = none) (unsent : rt.sentOrder clock ev = none)
      (same : (rt.processEvent clock ev).strategy = rt.strategy)
  | updated (decided : Signal × ImbalanceStrategy)
      (update : decided =
        rt.strategy.onMarketUpdate (rt.processEvent clock ev).book clock.bookDone)
      (ready : ev.kind = .snapshot ∨ rt.bookReady = true)
      (sampled : rt.sample ev = rt.strategy.imbalanceOf (rt.processEvent clock ev).book)
      (sent : (rt.sentOrder clock ev).isSome = decided.1.isActionable)
      (same : SameSignals decided.2 (rt.processEvent clock ev).strategy)

theorem processEvent_remembers (rt : Runtime) (clock : EventClock) (ev : MarketEvent) :
    rt.Remembers clock ev := by
  cases found : rt.withBook ev with
  | none =>
    refine .early ?_ ?_ (congrArg Desk.strategy (desk_of_withBook_none found clock))
    · rw [sample, found]
      rfl
    · rw [sentOrder, found]
      rfl
  | some ready =>
    have strategy : ready.strategy = rt.strategy :=
      congrArg Desk.strategy (withBook_keeps found).2.2
    have book := withBook_book found clock
    refine .updated (rt.strategy.onMarketUpdate ready.book clock.bookDone) (by rw [book])
      ?_ ?_ ?_ ?_
    · unfold withBook at found
      split at found
      · rename_i kind
        exact .inl kind
      · split at found
        · rename_i ready
          exact .inr ready
        · cases found
      · cases found
    · rw [sample, found, book, ← strategy]
      rfl
    · rw [sentOrder, found, Option.bind_some, orderOn, strategy]
      split
      · rename_i actionable
        exact actionable.symm
      · rename_i silent
        exact (Bool.eq_false_iff.mpr silent).symm
    · rw [processEvent_of_withBook found, evaluate_eq, strategy]
      dsimp only
      split
      · exact dispatchOrder_sameSignals _ _ _
      · rfl

end Runtime

end Trading

/-
This file follows the position through whole runs. The strategy never adds to a position
and never flips it: while it holds one it only asks to close it, the sizer asks for no
more than that, a fill is for no more than its order, and snapping only moves a position
to zero. Nothing enforces this; it follows from the four together.

Where shorts are off, an entry buys, and as a close never overshoots, no position is ever
below zero.
-/

import TradingEngine.Ledgers

namespace Trading

/-- Moving a position towards zero: it lies between zero and where it was. -/
def Shrinks (before after : ℚ) : Prop :=
  0 ≤ after ∧ after ≤ before ∨ before ≤ after ∧ after ≤ 0

namespace Desk

open ImbalanceStrategy (KeepsAccount Asks)

/-- A filled order closes part of a held position, or opens one; it opens a short one only if
that is allowed. -/
theorem position_fill {strategy : ImbalanceStrategy} {report : ExecutionReport}
    {mid targetQty : ℚ} (asks : Asks strategy mid report.side targetQty)
    (fills : report.isFill = true) (own : report.symbolId = strategy.symbol)
    (inside : strategy.symbol < maxSymbols) (positive : 0 < report.execQty.value)
    (bounded : report.execQty.value ≤ targetQty) :
    (strategy.position = 0 ∨ Shrinks strategy.position (strategy.onFill report).position) ∧
      (strategy.params.allowShort = false → 0 ≤ strategy.position →
        0 ≤ (strategy.onFill report).position) := by
  have moved : (strategy.onFill report).position =
      if |strategy.position + signedQty report.side report.execQty.value| ≤ tinyQty then 0
      else strategy.position + signedQty report.side report.execQty.value := by
    unfold ImbalanceStrategy.position
    rw [strategy.state_onFill fills own inside, PnlTracker.fillState_position]
  rw [moved]
  generalize report.execQty.value = filled at *
  generalize report.side = side at *
  cases asks with
  | closeLong long =>
    have sold : signedQty .ask filled = -filled := by
      simp only [signedQty, reduceCtorEq, if_false, mul_neg, mul_one]
    rw [sold]
    have left : 0 ≤ strategy.position + -filled ∧
        strategy.position + -filled ≤ strategy.position := by
      constructor <;> linarith
    split
    · exact ⟨Or.inr (Or.inl ⟨le_refl 0, le_of_lt long⟩), fun _ _ => le_refl 0⟩
    · exact ⟨Or.inr (Or.inl left), fun _ _ => left.1⟩
  | closeShort short =>
    have bought : signedQty .bid filled = filled := by
      simp only [signedQty, if_true, mul_one]
    rw [bought]
    have left : strategy.position ≤ strategy.position + filled ∧
        strategy.position + filled ≤ 0 := by
      constructor <;> linarith
    refine ⟨Or.inr ?_, fun _ nonneg => absurd short (not_lt.mpr nonneg)⟩
    split
    · exact Or.inr ⟨le_of_lt short, le_refl 0⟩
    · exact Or.inr left
  | openLong flat funded =>
    have bought : signedQty .bid filled = filled := by
      simp only [signedQty, if_true, mul_one]
    refine ⟨Or.inl flat, fun _ _ => ?_⟩
    rw [flat, bought, zero_add]
    split
    · exact le_refl 0
    · exact le_of_lt positive
  | openShort flat funded allowed =>
    refine ⟨Or.inl flat, fun forbidden => ?_⟩
    rw [allowed] at forbidden
    cases forbidden

/-- What handling an event does to the position: nothing without a fill, and with one it closes
part of a held position or opens one from flat. -/
theorem Handles.position {cfg : RuntimeConfig} {book : BoundedBook bookCapacity}
    {now : Timestamp} {before after : Desk} {sent : Option NewOrder}
    (handles : Handles cfg book now before sent after) (ledgers : Ledgers cfg before)
    (valid : cfg.Valid) (wellFormed : book.WellFormed)
    (symbol : ∀ order, sent = some order → order.symbolId = cfg.symbolId)
    (placed : ∀ order, sent = some order → ∃ bid ask targetQty,
      Runtime.Placed before.strategy book order bid ask targetQty) :
    (after.fills = before.fills ∧ after.strategy.position = before.strategy.position ∨
      after.fills = before.fills + 1 ∧ (before.strategy.position = 0 ∨
        Shrinks before.strategy.position after.strategy.position)) ∧
    (cfg.strategy.allowShort = false → 0 ≤ before.strategy.position →
      0 ≤ after.strategy.position) := by
  have quiet : ∀ strategy, KeepsAccount before.strategy strategy →
      strategy.position = before.strategy.position :=
    fun strategy keeps => congrArg PnlState.position keeps.state
  cases handles with
  | quiet keeps => exact ⟨Or.inl ⟨rfl, quiet _ keeps⟩, fun _ nonneg => quiet _ keeps ▸ nonneg⟩
  | blocked keeps => exact ⟨Or.inl ⟨rfl, quiet _ keeps⟩, fun _ nonneg => quiet _ keeps ▸ nonneg⟩
  | rejected keeps => exact ⟨Or.inl ⟨rfl, quiet _ keeps⟩, fun _ nonneg => quiet _ keeps ▸ nonneg⟩
  | missed keeps => exact ⟨Or.inl ⟨rfl, quiet _ keeps⟩, fun _ nonneg => quiet _ keeps ▸ nonneg⟩
  | @filled strategy order keeps untripped approved fills =>
    obtain ⟨bid, ask, targetQty, found⟩ := placed order rfl
    have heard : Ledgers cfg (before.hear strategy) := ledgers.keepsAccount keeps rfl rfl
    have bounded := (ExecutionEngine.simulate_sized wellFormed valid.tickSize found.sized now).2.2
    have most : order.qty.value ≤ targetQty := by
      rw [found.sized.quantity]
      exact min_le_left _ _
    have moved := @position_fill strategy (ExecutionEngine.simulate order book cfg.tickSize now)
      _ targetQty (found.asks.of_keepsAccount keeps.symm) fills
      ((symbol order rfl).trans heard.symbol.symm) (heard.symbol ▸ valid.symbolId)
      (of_decide_eq_true fills) (le_trans bounded most)
    rw [quiet strategy keeps, show strategy.params = _ from heard.params] at moved
    exact ⟨Or.inr ⟨rfl, moved.1⟩, moved.2⟩

end Desk

namespace Runtime

/-- What one event does to the position: nothing, or one fill that opens or shrinks it. -/
theorem Sound.position {cfg : RuntimeConfig} {rt : Runtime} (sound : Sound cfg rt)
    (valid : cfg.Valid) (clock : EventClock) (ev : MarketEvent) :
    ((rt.processEvent clock ev).metrics.fills = rt.metrics.fills ∧
        (rt.processEvent clock ev).strategy.position = rt.strategy.position ∨
      (rt.processEvent clock ev).metrics.fills = rt.metrics.fills + 1 ∧
        (rt.strategy.position = 0 ∨
          Shrinks rt.strategy.position (rt.processEvent clock ev).strategy.position)) ∧
    (cfg.strategy.allowShort = false → 0 ≤ rt.strategy.position →
      0 ≤ (rt.processEvent clock ev).strategy.position) := by
  have handles := processEvent_handles sound.wellFormed clock ev
  rw [sound.configured] at handles
  refine handles.position sound.ledgers valid (processEvent_wellFormed sound.wellFormed clock ev)
    ?_ ?_
  · intro order sent
    rw [(sentOrder_symbolId sent).1, sound.configured]
  · exact fun order sent => sound.placed valid.tickSize sent

theorem run_position_nonneg {cfg : RuntimeConfig} (valid : cfg.Valid)
    (forbidden : cfg.strategy.allowShort = false) (events : List (EventClock × MarketEvent)) :
    0 ≤ (run cfg events).strategy.position := by
  induction events using List.reverseRecOn with
  | nil =>
    show 0 ≤ (create cfg).strategy.state.position
    rw [create_state valid.symbolId]
  | append_singleton events handled inductionHypothesis =>
    rw [run_concat]
    exact ((run_sound valid events).position valid handled.1 handled.2).2 forbidden
      inductionHypothesis

/-- Over every run, each fill either opens a position from flat or moves a held one towards
zero: it is never added to and never flipped. Without shorting the position is never negative. -/
theorem run_fills_reduce (cfg : RuntimeConfig) (valid : cfg.Valid)
    (events : List (EventClock × MarketEvent)) (clock : EventClock) (ev : MarketEvent) :
    let before := run cfg events
    let after := run cfg (events ++ [(clock, ev)])
    (after.metrics.fills = before.metrics.fills ∧
        after.strategy.position = before.strategy.position ∨
      after.metrics.fills = before.metrics.fills + 1 ∧ (before.strategy.position = 0 ∨
        Shrinks before.strategy.position after.strategy.position)) ∧
    (cfg.strategy.allowShort = false → 0 ≤ after.strategy.position) := by
  intro before after
  have moved := ((run_sound valid events).position valid clock ev).1
  rw [← run_concat cfg events (clock, ev)] at moved
  exact ⟨moved, fun forbidden => run_position_nonneg valid forbidden _⟩

/-- An entry of five from flat, and an exit of three of them. -/
theorem run_fills_reduce_tradingDay :
    ((run boldConfig [entryQuote, thinQuote]).metrics.fills =
        (run boldConfig [entryQuote]).metrics.fills + 1 ∧
      (run boldConfig [entryQuote]).strategy.position = 0 ∧
      0 ≤ (run boldConfig [entryQuote, thinQuote]).strategy.position) ∧
    (run boldConfig tradingDay).metrics.fills =
        (run boldConfig [entryQuote, thinQuote]).metrics.fills + 1 ∧
      Shrinks (run boldConfig [entryQuote, thinQuote]).strategy.position
        (run boldConfig tradingDay).strategy.position ∧
      0 ≤ (run boldConfig tradingDay).strategy.position := by
  obtain ⟨⟨noFill, flat⟩, ⟨oneFill, long⟩, -, -, twoFills, -⟩ := run_tradingDay
  have first : [entryQuote] ++ [(thinQuote.1, thinQuote.2)] = [entryQuote, thinQuote] := rfl
  have second : [entryQuote, thinQuote] ++ [(rallyQuote.1, rallyQuote.2)] = tradingDay := rfl
  have entry := run_fills_reduce boldConfig boldConfig_valid [entryQuote] thinQuote.1 thinQuote.2
  have exit := run_fills_reduce boldConfig boldConfig_valid [entryQuote, thinQuote] rallyQuote.1
    rallyQuote.2
  dsimp only at entry exit
  rw [first] at entry
  rw [second] at exit
  obtain ⟨-, entered⟩ := entry
  obtain ⟨moved, left⟩ := exit
  refine ⟨⟨by rw [oneFill, noFill], flat, entered rfl⟩, ?_⟩
  rcases moved with ⟨same, -⟩ | ⟨fills, opened | shrunk⟩
  · exact absurd (twoFills.symm.trans (same.trans oneFill)) (by decide)
  · exact absurd (long.symm.trans opened) (by norm_num)
  · exact ⟨fills, shrunk, left rfl⟩

end Runtime

end Trading

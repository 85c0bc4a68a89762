/-
This file is the fill simulator of `execution_engine.hpp`: it walks the opposing side of
the book best first, as far as the limit and the remaining quantity go, and reports the
volume-weighted price rounded to a whole tick.

The walk sees at most `maxBookWalk` levels, and it stops early once no more than the
tolerance `tinyQty` is left, so a fill can be smaller than its order by that much. It
takes nothing from the book: an order that is filled twice is filled from the same levels.
The lemmas say between which prices the average lies and what a report may contain, which
is all that the ledgers need to know of a fill.
-/

import Mathlib.Tactic.Ring
import TradingEngine.BookLevels
import TradingEngine.Orders

namespace Trading

namespace ExecutionEngine

/-- The running totals of the walk. -/
structure Walk where
  remaining : ℚ
  filled : ℚ
  cost : ℚ
deriving DecidableEq, Repr

/-- Whether a level is priced at or better than the limit. -/
def marketable : Side → (lvlPx limitPx : ℚ) → Bool
  | .bid, lvlPx, limitPx => lvlPx ≤ limitPx
  | .ask, lvlPx, limitPx => limitPx ≤ lvlPx

/-- Take what is left to take, or what the level holds. -/
def take (totals : Walk) (lvlPx lvlSize : ℚ) : Walk :=
  let fillSize := if totals.remaining < lvlSize then totals.remaining else lvlSize
  { remaining := totals.remaining - fillSize
    filled := totals.filled + fillSize
    cost := totals.cost + fillSize * lvlPx }

/-- Take from the levels, best first, until one is not marketable or nothing is left to fill. -/
def walk (side : Side) (tickSize limitPx : ℚ) : List PriceLevel → Walk → Walk
  | [], totals => totals
  | level :: rest, totals =>
    let lvlPx := level.price.toDouble tickSize
    if !marketable side lvlPx limitPx then totals
    else
      let totals := take totals lvlPx level.qty.value
      if totals.remaining ≤ tinyQty then totals else walk side tickSize limitPx rest totals

/-- Fill an order against a book. -/
def simulate [DoubleDivision] {capacity : Nat} (order : NewOrder) (book : BoundedBook capacity)
    (tickSize : ℚ) (now : Timestamp) : ExecutionReport :=
  let levels := book.depth (opposite order.side) maxBookWalk
  let totals := walk order.side tickSize (order.price.toDouble tickSize) levels
    ⟨order.qty.value, 0, 0⟩
  { id := order.id
    symbolId := order.symbolId
    side := order.side
    isFill := 0 < totals.filled
    execPrice := if 0 < totals.filled then Price.fromDouble (totals.cost / totals.filled) tickSize
      else order.price
    execQty := ⟨totals.filled⟩
    completedNs := now }

/-! ### What a walk fills, and at which average price -/

/-- A walk that has accounted for `quantity`, at prices between `low` and `high`. -/
structure Within (low high quantity : ℚ) (totals : Walk) : Prop where
  remaining : 0 ≤ totals.remaining
  filled : 0 ≤ totals.filled
  accounted : totals.filled + totals.remaining = quantity
  aboveLow : low * totals.filled ≤ totals.cost
  belowHigh : totals.cost ≤ high * totals.filled

theorem within_start {low high quantity : ℚ} (nonneg : 0 ≤ quantity) :
    Within low high quantity ⟨quantity, 0, 0⟩ where
  remaining := nonneg
  filled := le_refl 0
  accounted := zero_add quantity
  aboveLow := by simp
  belowHigh := by simp

theorem Within.take {low high quantity lvlPx lvlSize : ℚ} {totals : Walk}
    (within : Within low high quantity totals) (size : 0 ≤ lvlSize) (above : low ≤ lvlPx)
    (below : lvlPx ≤ high) : Within low high quantity (take totals lvlPx lvlSize) := by
  obtain ⟨remaining, filled, accounted, aboveLow, belowHigh⟩ := within
  have taken : ∃ fillSize : ℚ, 0 ≤ fillSize ∧ fillSize ≤ totals.remaining ∧
      ExecutionEngine.take totals lvlPx lvlSize =
        ⟨totals.remaining - fillSize, totals.filled + fillSize,
          totals.cost + fillSize * lvlPx⟩ := by
    refine ⟨if totals.remaining < lvlSize then totals.remaining else lvlSize, ?_, ?_, rfl⟩
    · split <;> assumption
    · split
      · exact le_refl _
      · exact not_lt.mp ‹_›
  obtain ⟨fillSize, fillNonneg, fillBound, result⟩ := taken
  rw [result]
  have lowCost : low * fillSize ≤ fillSize * lvlPx := by
    rw [mul_comm low]
    exact mul_le_mul_of_nonneg_left above fillNonneg
  have highCost : fillSize * lvlPx ≤ high * fillSize := by
    rw [mul_comm high]
    exact mul_le_mul_of_nonneg_left below fillNonneg
  constructor
  · exact sub_nonneg.mpr fillBound
  · exact add_nonneg filled fillNonneg
  · show totals.filled + fillSize + (totals.remaining - fillSize) = quantity
    rw [← accounted]
    ring
  · show low * (totals.filled + fillSize) ≤ totals.cost + fillSize * lvlPx
    rw [mul_add]
    exact add_le_add aboveLow lowCost
  · show totals.cost + fillSize * lvlPx ≤ high * (totals.filled + fillSize)
    rw [mul_add]
    exact add_le_add belowHigh highCost

/-- What a walk fills, and at which prices, stays within the bounds of its levels. -/
theorem Within.walk {side : Side} {tickSize limitPx low high quantity : ℚ}
    {levels : List PriceLevel} {totals : Walk} (within : Within low high quantity totals)
    (sizes : ∀ level ∈ levels, 0 ≤ level.qty.value)
    (prices : ∀ level ∈ levels, marketable side (level.price.toDouble tickSize) limitPx = true →
      low ≤ level.price.toDouble tickSize ∧ level.price.toDouble tickSize ≤ high) :
    Within low high quantity (walk side tickSize limitPx levels totals) := by
  induction levels generalizing totals with
  | nil => exact within
  | cons level rest inductionHypothesis =>
    rw [ExecutionEngine.walk]
    split
    · exact within
    · rename_i matched
      have bounds := prices level List.mem_cons_self (by simpa using matched)
      have next := within.take (sizes level List.mem_cons_self) bounds.1 bounds.2
      dsimp only
      split
      · exact next
      · exact inductionHypothesis next
          (fun other member => sizes other (List.mem_cons_of_mem _ member))
          (fun other member => prices other (List.mem_cons_of_mem _ member))

/-- An order for nothing fills nothing. -/
theorem walk_filled_of_nonpos {side : Side} {tickSize limitPx : ℚ} {levels : List PriceLevel}
    {totals : Walk} (sizes : ∀ level ∈ levels, 0 < level.qty.value)
    (nonpos : totals.remaining ≤ 0) :
    (walk side tickSize limitPx levels totals).filled ≤ totals.filled := by
  cases levels with
  | nil => exact le_refl _
  | cons level rest =>
    have size := sizes level List.mem_cons_self
    have all : take totals (level.price.toDouble tickSize) level.qty.value =
        ⟨0, totals.filled + totals.remaining,
          totals.cost + totals.remaining * level.price.toDouble tickSize⟩ := by
      simp only [take, if_pos (lt_of_le_of_lt nonpos size), sub_self]
    rw [walk]
    split
    · exact le_refl _
    · rw [all]
      dsimp only
      rw [if_pos (le_of_lt tinyQty_pos)]
      exact add_le_of_nonpos_right nonpos

/-! ### What a report may say -/

/-- A report for an order: of a positive part of it, at no worse than a buy's limit and at
no less than `least` ticks. -/
structure FillsWithin (least : Int) (order : NewOrder) (report : ExecutionReport) : Prop where
  symbolId : report.symbolId = order.symbolId
  side : report.side = order.side
  positive : report.isFill = true → 0 < report.execQty.value
  bounded : report.isFill = true → report.execQty.value ≤ order.qty.value
  priced : report.isFill = true → least ≤ report.execPrice.ticks
  limited : report.isFill = true → order.side = .bid → report.execPrice.ticks ≤ order.price.ticks

/-- The average price, rounded to a tick, lies between the ticks of the levels. -/
theorem averagePrice_between {low high : Int} {tickSize quantity : ℚ} {totals : Walk}
    (positive : 0 < tickSize) (fills : 0 < totals.filled)
    (within : Within (low * tickSize) (high * tickSize) quantity totals) :
    low ≤ (Price.fromDouble (totals.cost / totals.filled) tickSize).ticks ∧
      (Price.fromDouble (totals.cost / totals.filled) tickSize).ticks ≤ high := by
  rw [Price.fromDouble_eq]
  constructor
  · refine Rounding.le_llround_of_le ?_
    rw [le_div_iff₀ positive, le_div_iff₀ fills]
    exact within.aboveLow
  · refine Rounding.llround_le_of_le ?_
    rw [div_le_iff₀ positive, div_le_iff₀ fills]
    exact within.belowHigh

/-- The simulator's report fills within its order, whatever the order asks for. -/
theorem simulate_fillsWithin {capacity : Nat} [ValidCapacity capacity]
    {book : BoundedBook capacity} (indexed : book.Indexed) {least : Int}
    (held : ∀ side tick quantity, book.levelAt side tick = some quantity → least ≤ tick)
    (order : NewOrder) {tickSize : ℚ} (positive : 0 < tickSize) (now : Timestamp) :
    FillsWithin least order (simulate order book tickSize now) := by
  have listed : ∀ level ∈ book.depth (opposite order.side) maxBookWalk,
      book.levelAt (opposite order.side) level.price.ticks = some level.qty.value := by
    intro level member
    rw [BoundedBook.depth_eq indexed] at member
    exact BoundedBook.mem_levels.mp (List.mem_of_mem_take member)
  have sizes : ∀ level ∈ book.depth (opposite order.side) maxBookWalk, 0 < level.qty.value :=
    fun level member => BoundedBook.levelAt_pos (listed level member)
  obtain ⟨high, limit, below⟩ : ∃ high : Int, (order.side = .bid → high ≤ order.price.ticks) ∧
      ∀ level ∈ book.depth (opposite order.side) maxBookWalk,
        marketable order.side (level.price.toDouble tickSize)
          (order.price.toDouble tickSize) = true → level.price.ticks ≤ high := by
    cases side : order.side with
    | bid =>
      refine ⟨order.price.ticks, fun _ => le_refl _, fun level _ matched => ?_⟩
      exact Price.ticks_le_of_toDouble_le positive (of_decide_eq_true matched)
    | ask =>
      refine ⟨book.refTick + BoundedBook.center capacity, nofun, fun level member _ => ?_⟩
      rw [← side] at member
      exact le_of_lt (BoundedBook.covers_of_levelAt (listed level member)).2
  have fills : 0 < (walk order.side tickSize (order.price.toDouble tickSize)
      (book.depth (opposite order.side) maxBookWalk) ⟨order.qty.value, 0, 0⟩).filled →
      Within (least * tickSize) (high * tickSize) order.qty.value
        (walk order.side tickSize (order.price.toDouble tickSize)
          (book.depth (opposite order.side) maxBookWalk) ⟨order.qty.value, 0, 0⟩) := by
    intro filled
    have asked : 0 ≤ order.qty.value := by
      by_contra negative
      exact absurd filled (not_lt.mpr (walk_filled_of_nonpos sizes (le_of_not_ge negative)))
    refine (within_start asked).walk (fun level member => le_of_lt (sizes level member)) ?_
    intro level member matched
    exact ⟨@Price.toDouble_le_toDouble ⟨least⟩ level.price tickSize positive
        (held _ _ _ (listed level member)),
      @Price.toDouble_le_toDouble level.price ⟨high⟩ tickSize positive
        (below level member matched)⟩
  constructor
  · rfl
  · rfl
  · exact of_decide_eq_true
  · intro filled
    have within := fills (of_decide_eq_true filled)
    have accounted := within.accounted
    have remaining := within.remaining
    show (walk _ _ _ _ _).filled ≤ order.qty.value
    linarith
  · intro filled
    have filled := of_decide_eq_true filled
    simp only [simulate, if_pos filled]
    exact (averagePrice_between positive filled (fills filled)).1
  · intro filled buy
    have filled := of_decide_eq_true filled
    simp only [simulate, if_pos filled]
    exact le_trans (averagePrice_between positive filled (fills filled)).2 (limit buy)

end ExecutionEngine

end Trading

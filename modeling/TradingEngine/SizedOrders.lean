/-
This file joins the two walks of the ladder: the one that sizes an order and the one
that fills it. The sizer adds up the opposing levels until the target is met and keeps
the price of the last one; the simulator takes the same levels off a remainder as long
as they are within the limit. Since the levels are listed best first, the price of the
last level the sizer took from admits every level it took from, and so an order it
sized is filled up to the simulator's tolerance.
-/

import Mathlib.Algebra.Order.BigOperators.Group.List
import Mathlib.Data.List.Pairwise
import TradingEngine.Runtime

namespace Trading

/-! ### The levels a target reaches -/

/-- The total quantity of some levels. -/
def offered (levels : List PriceLevel) : ℚ := (levels.map fun level => level.qty.value).sum

/-- The levels a target takes from: those before which less than the target is offered. -/
def reached (targetQty : ℚ) : List PriceLevel → (ahead : ℚ) → List PriceLevel
  | [], _ => []
  | level :: rest, ahead =>
    if targetQty ≤ ahead then [] else level :: reached targetQty rest (ahead + level.qty.value)

theorem offered_cons (level : PriceLevel) (rest : List PriceLevel) :
    offered (level :: rest) = level.qty.value + offered rest := by
  unfold offered
  rw [List.map_cons, List.sum_cons]

theorem offered_nonneg {levels : List PriceLevel}
    (sizes : ∀ level ∈ levels, 0 < level.qty.value) : 0 ≤ offered levels := by
  refine List.sum_nonneg fun size member => ?_
  obtain ⟨level, listed, rfl⟩ := List.mem_map.mp member
  exact le_of_lt (sizes level listed)

theorem reached_isPrefix (targetQty : ℚ) (levels : List PriceLevel) (ahead : ℚ) :
    reached targetQty levels ahead <+: levels := by
  induction levels generalizing ahead with
  | nil => exact List.prefix_refl _
  | cons level rest inductionHypothesis =>
    unfold reached
    split
    · exact List.nil_prefix
    · exact List.cons_prefix_cons.mpr ⟨rfl, inductionHypothesis _⟩

theorem reached_of_le {targetQty ahead : ℚ} (levels : List PriceLevel)
    (met : targetQty ≤ ahead) : reached targetQty levels ahead = [] := by
  cases levels with
  | nil => rfl
  | cons level rest => exact if_pos met

namespace OrderSizer

/-! ### What the sizer's walk returns -/

/-- The walk ends with the target or with all that is offered, at the price of the last level
the target reaches. -/
theorem walk_eq {tickSize targetQty : ℚ} {levels : List PriceLevel} {accSize limitPx : ℚ}
    (sizes : ∀ level ∈ levels, 0 < level.qty.value) (short : accSize < targetQty) :
    walk tickSize targetQty levels accSize limitPx =
      (min targetQty (accSize + offered (reached targetQty levels accSize)),
        ((reached targetQty levels accSize).getLast?.map
          fun level => level.price.toDouble tickSize).getD limitPx) := by
  induction levels generalizing accSize limitPx with
  | nil =>
    have none : min targetQty (accSize + offered []) = accSize := by
      rw [show offered [] = 0 from rfl, add_zero]
      exact min_eq_right (le_of_lt short)
    simp only [walk, reached, none, List.getLast?_nil, Option.map_none, Option.getD_none]
  | cons level rest inductionHypothesis =>
    have size := sizes level List.mem_cons_self
    have later : ∀ other ∈ rest, 0 < other.qty.value :=
      fun other member => sizes other (List.mem_cons_of_mem _ member)
    have fills : ¬min (targetQty - accSize) level.qty.value ≤ 0 :=
      not_le.mpr (lt_min (sub_pos.mpr short) size)
    rw [walk, reached, if_neg (not_le.mpr short), if_neg fills]
    split
    · rename_i met
      have enough : targetQty ≤ accSize + level.qty.value :=
        le_trans met (add_le_add_right (min_le_right _ _) _)
      have capped : min (targetQty - accSize) level.qty.value = targetQty - accSize :=
        min_eq_left (sub_le_iff_le_add'.mpr enough)
      rw [reached_of_le rest enough, offered_cons, show offered [] = 0 from rfl, add_zero, capped,
        min_eq_left enough, add_sub_cancel]
      rfl
    · rename_i unmet
      have whole : min (targetQty - accSize) level.qty.value = level.qty.value := by
        refine min_eq_right (le_of_not_ge fun capped => unmet ?_)
        rw [min_eq_left capped, add_sub_cancel]
      rw [whole] at unmet ⊢
      rw [inductionHypothesis later (not_le.mp unmet), offered_cons, add_assoc]
      rw [List.getLast?_cons]
      cases (reached targetQty rest (accSize + level.qty.value)).getLast? <;> rfl

/-- A limit and a quantity sized for a positive target: the quantity is what the levels the
target reaches offer of it, and the limit is the price of the last of them. -/
structure Sized {capacity : Nat} (book : BoundedBook capacity) (side : Side) (targetQty : ℚ)
    (price : Price) (qty : Qty) : Prop where
  target : 0 < targetQty
  limit : ∃ last, (reached targetQty (book.depth (opposite side) maxBookWalk) 0).getLast? =
    some last ∧ price = last.price
  quantity : qty.value =
    min targetQty (offered (reached targetQty (book.depth (opposite side) maxBookWalk) 0))

/-- Every level a well-formed book lists has a positive size. -/
theorem depth_sizes {capacity : Nat} [ValidCapacity capacity] {book : BoundedBook capacity}
    (wellFormed : book.WellFormed) (side : Side) (n : Nat) :
    ∀ level ∈ book.depth side n, 0 < level.qty.value := by
  intro level member
  rw [BoundedBook.depth_eq wellFormed.indexed] at member
  exact BoundedBook.levelAt_pos (BoundedBook.mem_levels.mp (List.mem_of_mem_take member))

/-- When the sizer finds something to order, and what it then returns. -/
theorem computeOrder_eq {capacity : Nat} {book : BoundedBook capacity} {tickSize : ℚ} {side : Side}
    {targetQty : ℚ} (actionable : (computeOrder book tickSize side targetQty).isActionable = true) :
    0 < targetQty ∧ book.depth (opposite side) maxBookWalk ≠ [] ∧
      computeOrder book tickSize side targetQty =
        { action := if side = .bid then .buy else .sell
          price := Price.fromDouble
            (walk tickSize targetQty (book.depth (opposite side) maxBookWalk) 0 0).2 tickSize
          qty := ⟨(walk tickSize targetQty (book.depth (opposite side) maxBookWalk) 0 0).1⟩
          ts := 0 } := by
  have liquidity : (if side = .bid then Side.ask else Side.bid) = opposite side := by
    cases side <;> rfl
  unfold computeOrder at actionable ⊢
  rw [liquidity] at actionable ⊢
  split at actionable
  · cases actionable
  · rename_i target
    dsimp only at actionable
    split at actionable
    · cases actionable
    · rename_i listed
      split at actionable
      · cases actionable
      · rename_i filled
        refine ⟨not_le.mp target, listed, ?_⟩
        dsimp only
        rw [if_neg target, if_neg listed, if_neg filled]

/-- The order the sizer returns is for the levels its target reaches. -/
theorem computeOrder_sized {capacity : Nat} [ValidCapacity capacity] {book : BoundedBook capacity}
    (wellFormed : book.WellFormed) {tickSize : ℚ} (positive : 0 < tickSize) {side : Side}
    {targetQty : ℚ} (actionable : (computeOrder book tickSize side targetQty).isActionable = true) :
    Sized book side targetQty (computeOrder book tickSize side targetQty).price
      (computeOrder book tickSize side targetQty).qty := by
  obtain ⟨target, listed, result⟩ := computeOrder_eq actionable
  have walked := @walk_eq tickSize targetQty _ 0 0
    (depth_sizes wellFormed (opposite side) maxBookWalk) target
  obtain ⟨last, found⟩ : ∃ last, (reached targetQty
      (book.depth (opposite side) maxBookWalk) 0).getLast? = some last := by
    obtain ⟨best, rest, levels⟩ := List.exists_cons_of_ne_nil listed
    rw [levels, reached, if_neg (not_le.mpr target), List.getLast?_cons]
    exact ⟨_, rfl⟩
  rw [found, zero_add] at walked
  rw [result, walked]
  exact ⟨target, ⟨last, found, Price.fromDouble_toDouble _ positive⟩, rfl⟩

end OrderSizer

/-! ### What the simulator makes of a sized order -/

namespace ExecutionEngine

/-- A remainder of what a target finds, offered at prices within the limit, is taken down to
the tolerance. -/
theorem walk_reached {side : Side} {tickSize limitPx targetQty ahead : ℚ}
    {levels : List PriceLevel} {totals : Walk}
    (within : ∀ level ∈ reached targetQty levels ahead,
      marketable side (level.price.toDouble tickSize) limitPx = true)
    (short : ahead < targetQty)
    (asked : totals.remaining =
      min targetQty (ahead + offered (reached targetQty levels ahead)) - ahead) :
    (walk side tickSize limitPx levels totals).remaining ≤ tinyQty := by
  induction levels generalizing ahead totals with
  | nil =>
    have none : totals.remaining = 0 := by
      rw [asked, reached, show offered [] = 0 from rfl, add_zero,
        min_eq_right (le_of_lt short), sub_self]
    rw [walk, none]
    exact le_of_lt tinyQty_pos
  | cons level rest inductionHypothesis =>
    rw [reached, if_neg (not_le.mpr short)] at within asked
    rw [offered_cons, ← add_assoc] at asked
    rw [walk, within level List.mem_cons_self]
    simp only [Bool.not_true, Bool.false_eq_true, if_false]
    split
    · assumption
    · rename_i left
      have whole : ¬totals.remaining < level.qty.value := by
        intro part
        refine left ?_
        simp only [take, if_pos part, sub_self]
        exact le_of_lt tinyQty_pos
      simp only [take, if_neg whole] at left ⊢
      have more : tinyQty < totals.remaining - level.qty.value := not_le.mp left
      have unmet : ahead + level.qty.value < targetQty := by
        have bound : totals.remaining ≤ targetQty - ahead := by
          rw [asked]
          exact sub_le_sub_right (min_le_left _ _) _
        have positive := tinyQty_pos
        linarith
      refine inductionHypothesis
        (fun other member => within other (List.mem_cons_of_mem _ member)) unmet ?_
      rw [asked]
      ring

/-- What a walk fills it takes off the remainder, and it gives nothing back. -/
theorem walk_accounted {side : Side} {tickSize limitPx : ℚ} {levels : List PriceLevel}
    {totals : Walk} (sizes : ∀ level ∈ levels, 0 < level.qty.value)
    (nonneg : 0 ≤ totals.remaining) :
    (walk side tickSize limitPx levels totals).filled +
        (walk side tickSize limitPx levels totals).remaining =
      totals.filled + totals.remaining ∧
    totals.filled ≤ (walk side tickSize limitPx levels totals).filled ∧
    0 ≤ (walk side tickSize limitPx levels totals).remaining := by
  induction levels generalizing totals with
  | nil => exact ⟨rfl, le_refl _, nonneg⟩
  | cons level rest inductionHypothesis =>
    have size := sizes level List.mem_cons_self
    have later : ∀ other ∈ rest, 0 < other.qty.value :=
      fun other member => sizes other (List.mem_cons_of_mem _ member)
    have taken : (take totals (level.price.toDouble tickSize) level.qty.value).filled +
          (take totals (level.price.toDouble tickSize) level.qty.value).remaining =
        totals.filled + totals.remaining ∧
        totals.filled ≤ (take totals (level.price.toDouble tickSize) level.qty.value).filled ∧
        0 ≤ (take totals (level.price.toDouble tickSize) level.qty.value).remaining := by
      unfold take
      dsimp only
      split
      · exact ⟨by ring, by linarith, by linarith⟩
      · exact ⟨by ring, by linarith, by linarith⟩
    rw [walk]
    split
    · exact ⟨rfl, le_refl _, nonneg⟩
    · dsimp only
      split
      · exact taken
      · obtain ⟨sum, more, left⟩ := inductionHypothesis later taken.2.2
        exact ⟨sum.trans taken.1, le_trans taken.2.1 more, left⟩

/-- A remainder meets a marketable first level with a positive fill. -/
theorem walk_filled_pos {side : Side} {tickSize limitPx : ℚ} {level : PriceLevel}
    {rest : List PriceLevel} {totals : Walk}
    (sizes : ∀ other ∈ level :: rest, 0 < other.qty.value) (nonneg : 0 ≤ totals.filled)
    (asked : 0 < totals.remaining)
    (matched : marketable side (level.price.toDouble tickSize) limitPx = true) :
    0 < (walk side tickSize limitPx (level :: rest) totals).filled := by
  have size := sizes level List.mem_cons_self
  have later : ∀ other ∈ rest, 0 < other.qty.value :=
    fun other member => sizes other (List.mem_cons_of_mem _ member)
  have taken : 0 < (take totals (level.price.toDouble tickSize) level.qty.value).filled := by
    unfold take
    dsimp only
    split <;> linarith
  rw [walk, matched]
  simp only [Bool.not_true, Bool.false_eq_true, if_false]
  split
  · exact taken
  · rename_i left
    exact lt_of_lt_of_le taken
      (walk_accounted later (le_of_lt (lt_trans tinyQty_pos (not_le.mp left)))).2.1

/-- The last level a target reaches is the worst of them, so a limit at its price admits
them all. -/
theorem marketable_of_reached {capacity : Nat} [ValidCapacity capacity]
    {book : BoundedBook capacity} (wellFormed : book.WellFormed) {side : Side} {tickSize : ℚ}
    (positive : 0 < tickSize) {targetQty : ℚ} {last : PriceLevel}
    (found : (reached targetQty (book.depth (opposite side) maxBookWalk) 0).getLast? = some last) :
    ∀ level ∈ reached targetQty (book.depth (opposite side) maxBookWalk) 0,
      marketable side (level.price.toDouble tickSize) (last.price.toDouble tickSize) = true := by
  have sorted : (book.depth (opposite side) maxBookWalk).Pairwise
      (BoundedBook.Better (opposite side)) := by
    rw [BoundedBook.depth_eq wellFormed.indexed]
    exact (BoundedBook.levels_pairwise book (opposite side)).sublist (List.take_sublist _ _)
  have admitted : (reached targetQty (book.depth (opposite side) maxBookWalk) 0).Pairwise
      fun first second => marketable side (first.price.toDouble tickSize)
        (second.price.toDouble tickSize) = true := by
    refine (sorted.sublist (reached_isPrefix targetQty _ 0).sublist).imp fun better => ?_
    cases side <;> exact decide_eq_true (Price.toDouble_le_toDouble positive (le_of_lt better))
  have equal : marketable side (last.price.toDouble tickSize) (last.price.toDouble tickSize) =
      true := by
    cases side <;> exact decide_eq_true (le_refl _)
  intro level member
  rw [List.getLast?_eq_some_getLast (List.ne_nil_of_mem member)] at found
  obtain rfl := Option.some.inj found
  exact admitted.rel_getLast_of_rel_getLast_getLast member equal

/-- An order sized against the book is filled, to within the simulator's tolerance of all of
it. -/
theorem simulate_sized {capacity : Nat} [ValidCapacity capacity] {book : BoundedBook capacity}
    (wellFormed : book.WellFormed) {tickSize : ℚ} (positive : 0 < tickSize) {targetQty : ℚ}
    {order : NewOrder} (sized : OrderSizer.Sized book order.side targetQty order.price order.qty)
    (now : Timestamp) :
    (simulate order book tickSize now).isFill = true ∧
      order.qty.value - tinyQty ≤ (simulate order book tickSize now).execQty.value ∧
      (simulate order book tickSize now).execQty.value ≤ order.qty.value := by
  obtain ⟨target, ⟨last, found, limit⟩, asked⟩ := sized
  have sizes := OrderSizer.depth_sizes wellFormed (opposite order.side) maxBookWalk
  have admitted := marketable_of_reached wellFormed positive found
  rw [← limit] at admitted
  have down : (walk order.side tickSize (order.price.toDouble tickSize)
      (book.depth (opposite order.side) maxBookWalk) ⟨order.qty.value, 0, 0⟩).remaining ≤
      tinyQty := by
    refine walk_reached admitted target ?_
    rw [sub_zero, zero_add]
    exact asked
  obtain ⟨best, rest, levels⟩ : ∃ best rest,
      book.depth (opposite order.side) maxBookWalk = best :: rest := by
    refine List.exists_cons_of_ne_nil fun empty => ?_
    rw [empty] at found
    cases found
  unfold simulate
  rw [levels] at sizes asked admitted down ⊢
  rw [reached, if_neg (not_le.mpr target), zero_add] at asked admitted
  rw [offered_cons] at asked
  have some : 0 < order.qty.value := by
    rw [asked]
    refine lt_min target (add_pos_of_pos_of_nonneg (sizes best List.mem_cons_self) ?_)
    exact offered_nonneg fun level member => sizes level
      (List.mem_cons_of_mem _ ((reached_isPrefix _ _ _).subset member))
  obtain ⟨sum, -, left⟩ := @walk_accounted order.side tickSize (order.price.toDouble tickSize) _
    ⟨order.qty.value, 0, 0⟩ sizes (le_of_lt some)
  have fills := walk_filled_pos sizes (le_refl (Walk.filled ⟨order.qty.value, 0, 0⟩)) some
    (admitted best List.mem_cons_self)
  refine ⟨decide_eq_true fills, ?_, ?_⟩
  · show order.qty.value - tinyQty ≤ Walk.filled _
    linarith
  · show Walk.filled _ ≤ order.qty.value
    linarith

end ExecutionEngine

/-! ### Every book that calls can reach -/

/-- Whatever actionable signal the sizer returns, the simulator fills an order with its side,
limit and quantity against the same book, all of it up to the tolerance, and so the runtime
counts no partial fill for it. -/
theorem sized_orders_fill (capacity : Nat) [ValidCapacity capacity]
    (calls : List BoundedBook.Call) (tickSize : ℚ) (positive : 0 < tickSize) (side : Side)
    (targetQty : ℚ) (order : NewOrder) (now : Timestamp)
    (actionable : (OrderSizer.computeOrder (BoundedBook.run capacity calls) tickSize side
      targetQty).isActionable = true)
    (orderSide : order.side = side)
    (price : order.price =
      (OrderSizer.computeOrder (BoundedBook.run capacity calls) tickSize side targetQty).price)
    (quantity : order.qty =
      (OrderSizer.computeOrder (BoundedBook.run capacity calls) tickSize side targetQty).qty) :
    let report := ExecutionEngine.simulate order (BoundedBook.run capacity calls) tickSize now
    report.isFill = true ∧ order.qty.value - tinyQty ≤ report.execQty.value ∧
      report.execQty.value ≤ order.qty.value ∧
      ∀ rt : Runtime, (rt.bookFill order report).metrics.partialFills =
        rt.metrics.partialFills := by
  intro report
  have wellFormed : (BoundedBook.run capacity calls).WellFormed := BoundedBook.run_wellFormed calls
  subst orderSide
  have sized := OrderSizer.computeOrder_sized wellFormed positive actionable
  rw [← price, ← quantity] at sized
  obtain ⟨fills, least, most⟩ := ExecutionEngine.simulate_sized wellFormed positive sized now
  refine ⟨fills, least, most, fun rt => ?_⟩
  unfold Runtime.bookFill
  rw [if_pos fills]
  exact if_neg (not_lt.mpr least)

/-- Two asks above a bid. -/
def twoAsks : List BoundedBook.Call :=
  [.update .bid ⟨99⟩ ⟨5⟩, .update .ask ⟨101⟩ ⟨2⟩, .update .ask ⟨103⟩ ⟨4⟩]

/-- A buy of three units takes one ask whole and part of the next. -/
theorem sized_orders_fill_twoAsks :
    (ExecutionEngine.simulate ⟨1, 0, .bid, ⟨103⟩, ⟨3⟩, 0⟩ (BoundedBook.run 64 twoAsks) (1 / 100)
        7).isFill = true ∧
      3 - tinyQty ≤ (ExecutionEngine.simulate ⟨1, 0, .bid, ⟨103⟩, ⟨3⟩, 0⟩
        (BoundedBook.run 64 twoAsks) (1 / 100) 7).execQty.value := by
  obtain ⟨fills, least, -, -⟩ := sized_orders_fill 64 twoAsks (1 / 100) (by decide +kernel) .bid 3
    ⟨1, 0, .bid, ⟨103⟩, ⟨3⟩, 0⟩ 7 (by decide +kernel) rfl (by decide +kernel) (by decide +kernel)
  exact ⟨fills, least⟩

end Trading

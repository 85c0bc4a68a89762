/-
This file says that the sizer returns the tightest limit. The levels a target reaches are
the levels at or better than the last of them, because a side is listed strictly best
first; ahead of the last one there is less than the target, and the last one holds
something, so the limit one level better would not admit the quantity. A target that is
not met reaches every level the walk is given.

The walk is given at most `maxBookWalk` levels, so with a larger target the statement is
about the quantity on these, and no deeper level is ever reached.
-/

import TradingEngine.BookDepth
import TradingEngine.SizedOrders

namespace Trading

/-! ### The levels a target reaches, and what is ahead of the last -/

theorem offered_append (front back : List PriceLevel) :
    offered (front ++ back) = offered front + offered back := by
  unfold offered
  rw [List.map_append, List.sum_append]

/-- Ahead of the last level a target reaches, less than the target is offered. -/
theorem offered_ahead_lt {targetQty ahead : ℚ} {levels front : List PriceLevel} {last : PriceLevel}
    (split : reached targetQty levels ahead = front ++ [last]) :
    ahead + offered front < targetQty := by
  induction levels generalizing ahead front with
  | nil => exact absurd split.symm (by simp [reached])
  | cons level rest inductionHypothesis =>
    unfold reached at split
    split at split
    · exact absurd split.symm (by simp)
    · rename_i unmet
      cases front with
      | nil =>
        rw [show offered [] = 0 from rfl, add_zero]
        exact not_le.mp unmet
      | cons first later =>
        rw [List.cons_append, List.cons.injEq] at split
        obtain ⟨rfl, behind⟩ := split
        rw [offered_cons, ← add_assoc]
        exact inductionHypothesis behind

/-- A target that is not met reaches every level. -/
theorem reached_eq_of_short {targetQty ahead : ℚ} {levels : List PriceLevel}
    (sizes : ∀ level ∈ levels, 0 < level.qty.value) (room : ahead < targetQty)
    (short : ahead + offered (reached targetQty levels ahead) < targetQty) :
    reached targetQty levels ahead = levels := by
  induction levels generalizing ahead with
  | nil => rfl
  | cons level rest inductionHypothesis =>
    rw [reached, if_neg (not_le.mpr room)] at short ⊢
    rw [offered_cons, ← add_assoc] at short
    have later : ∀ other ∈ rest, 0 < other.qty.value :=
      fun other member => sizes other (List.mem_cons_of_mem _ member)
    have ahead' : ahead + level.qty.value < targetQty := by
      have behind := offered_nonneg fun other member =>
        later other ((reached_isPrefix targetQty rest (ahead + level.qty.value)).subset member)
      linarith
    rw [inductionHypothesis later ahead' short]

/-- What the reached levels offer of a target is what all of them offer of it. -/
theorem min_offered_reached {targetQty : ℚ} {levels : List PriceLevel} (target : 0 < targetQty)
    (sizes : ∀ level ∈ levels, 0 < level.qty.value) :
    min targetQty (offered (reached targetQty levels 0)) = min targetQty (offered levels) := by
  rcases lt_or_ge (offered (reached targetQty levels 0)) targetQty with short | met
  · rw [reached_eq_of_short sizes target (by rwa [zero_add])]
  · obtain ⟨rest, whole⟩ := reached_isPrefix targetQty levels 0
    have behind : 0 ≤ offered rest := offered_nonneg fun level member => sizes level
      (whole ▸ List.mem_append_right _ member)
    have all : targetQty ≤ offered levels := by
      rw [← whole, offered_append]
      linarith
    rw [min_eq_left met, min_eq_left all]

/-! ### The levels on either side of a limit -/

namespace BoundedBook

variable {side : Side} {front back : List PriceLevel} {last : PriceLevel}

/-- In a list sorted best first, the levels at or better than one of them are those up to it. -/
theorem filter_atLeast_of_sorted (sorted : (front ++ last :: back).Pairwise (Better side)) :
    ((front ++ last :: back).filter fun level =>
      AtLeast side level.price.ticks last.price.ticks) = front ++ [last] := by
  obtain ⟨-, behind, ahead⟩ := List.pairwise_append.mp sorted
  have kept : ∀ level ∈ front ++ [last],
      decide (AtLeast side level.price.ticks last.price.ticks) = true := by
    intro level member
    refine decide_eq_true ?_
    rcases List.mem_append.mp member with first | same
    · have better := ahead level first last List.mem_cons_self
      cases side <;> exact le_of_lt better
    · rw [List.mem_singleton.mp same]
      cases side <;> exact le_refl _
  have dropped : ∀ level ∈ back,
      ¬decide (AtLeast side level.price.ticks last.price.ticks) = true := by
    intro level member atLeast
    have better := (List.pairwise_cons.mp behind).1 level member
    have reversed := of_decide_eq_true atLeast
    cases side <;> exact absurd better (not_lt.mpr reversed)
  rw [List.append_cons, List.filter_append, List.filter_eq_self.mpr kept,
    List.filter_eq_nil_iff.mpr dropped, List.append_nil]

/-- The levels strictly better than one of them are those before it. -/
theorem filter_better_of_sorted (sorted : (front ++ last :: back).Pairwise (Better side)) :
    ((front ++ last :: back).filter fun level =>
      ¬AtLeast side last.price.ticks level.price.ticks) = front := by
  obtain ⟨-, behind, ahead⟩ := List.pairwise_append.mp sorted
  have kept : ∀ level ∈ front,
      decide (¬AtLeast side last.price.ticks level.price.ticks) = true := by
    intro level member
    refine decide_eq_true fun reversed => ?_
    have better := ahead level member last List.mem_cons_self
    cases side <;> exact absurd better (not_lt.mpr reversed)
  have dropped : ∀ level ∈ last :: back,
      ¬decide (¬AtLeast side last.price.ticks level.price.ticks) = true := by
    intro level member strictly
    refine of_decide_eq_true strictly ?_
    rcases List.mem_cons.mp member with same | later
    · rw [same]
      cases side <;> exact le_refl _
    · have better := (List.pairwise_cons.mp behind).1 level later
      cases side <;> exact le_of_lt better
  rw [List.filter_append, List.filter_eq_self.mpr kept, List.filter_eq_nil_iff.mpr dropped,
    List.append_nil]

end BoundedBook

namespace OrderSizer

open BoundedBook (AtLeast)

/-- A positive target on a side with a level is sized. -/
theorem computeOrder_actionable {capacity : Nat} [ValidCapacity capacity]
    {book : BoundedBook capacity} (wellFormed : book.WellFormed) {tickSize : ℚ} {side : Side}
    {targetQty : ℚ} (target : 0 < targetQty)
    (listed : book.depth (opposite side) maxBookWalk ≠ []) :
    (computeOrder book tickSize side targetQty).isActionable = true := by
  have liquidity : (if side = .bid then Side.ask else Side.bid) = opposite side := by
    cases side <;> rfl
  have sizes := depth_sizes wellFormed (opposite side) maxBookWalk
  have walked := @walk_eq tickSize targetQty _ 0 0 sizes target
  have filled : ¬(walk tickSize targetQty (book.depth (opposite side) maxBookWalk) 0 0).1 ≤ 0 := by
    obtain ⟨best, rest, levels⟩ := List.exists_cons_of_ne_nil listed
    rw [walked, zero_add, min_offered_reached target sizes, not_le, levels, offered_cons]
    rw [levels] at sizes
    refine lt_min target (add_pos_of_pos_of_nonneg (sizes best List.mem_cons_self) ?_)
    exact offered_nonneg fun level member => sizes level (List.mem_cons_of_mem _ member)
  unfold computeOrder
  rw [if_neg (not_le.mpr target), liquidity]
  dsimp only
  rw [if_neg listed, if_neg filled]
  cases side <;> rfl

/-- The levels a target reaches are the first ones of the side. -/
theorem levels_split {capacity : Nat} {book : BoundedBook capacity}
    (wellFormed : book.WellFormed) {side : Side} {targetQty : ℚ} {front : List PriceLevel}
    {last : PriceLevel}
    (split : reached targetQty (book.depth side maxBookWalk) 0 = front ++ [last]) :
    ∃ back, front ++ last :: back = book.levels side := by
  obtain ⟨rest, cut⟩ := reached_isPrefix targetQty (book.depth side maxBookWalk) 0
  refine ⟨rest ++ (book.levels side).drop maxBookWalk, ?_⟩
  rw [split, BoundedBook.depth_eq wellFormed.indexed] at cut
  have whole := List.take_append_drop maxBookWalk (book.levels side)
  rw [← cut] at whole
  simpa using whole

/-- For every reachable book with a level on the opposing side, the sizer orders the target or
all that the walked levels hold, at the tightest limit that admits it: a level's price, at or
better than which the levels hold the quantity, and strictly better than which they do not. -/
theorem computeOrder_tightest (capacity : Nat) [ValidCapacity capacity]
    (calls : List BoundedBook.Call) (tickSize : ℚ) (positive : 0 < tickSize) (side : Side)
    (targetQty : ℚ) (target : 0 < targetQty)
    (liquid : 0 < (BoundedBook.run capacity calls).liveCount (opposite side)) :
    let book := BoundedBook.run capacity calls
    let signal := computeOrder book tickSize side targetQty
    signal.action = (if side = .bid then .buy else .sell) ∧
    signal.qty.value = min targetQty (offered (book.depth (opposite side) maxBookWalk)) ∧
    (∃ size, book.levelAt (opposite side) signal.price.ticks = some size) ∧
    signal.qty.value ≤ offered ((book.levels (opposite side)).filter fun level =>
      AtLeast (opposite side) level.price.ticks signal.price.ticks) ∧
    offered ((book.levels (opposite side)).filter fun level =>
      ¬AtLeast (opposite side) signal.price.ticks level.price.ticks) < signal.qty.value := by
  intro book signal
  have wellFormed : book.WellFormed := BoundedBook.run_wellFormed calls
  have sizes := depth_sizes wellFormed (opposite side) maxBookWalk
  have listed : book.depth (opposite side) maxBookWalk ≠ [] := by
    refine List.ne_nil_of_length_pos ?_
    rw [BoundedBook.length_depth wellFormed.indexed]
    exact lt_min (by decide) liquid
  have actionable := @computeOrder_actionable _ _ _ wellFormed tickSize _ _ target listed
  obtain ⟨-, ⟨last, found, limit⟩, quantity⟩ := computeOrder_sized wellFormed positive actionable
  obtain ⟨-, -, result⟩ := computeOrder_eq actionable
  obtain ⟨front, split⟩ := List.getLast?_eq_some_iff.mp found
  obtain ⟨back, whole⟩ := levels_split wellFormed split
  have sorted := book.levels_pairwise (opposite side)
  have price : signal.price = last.price := limit
  have amount : signal.qty.value = min targetQty (offered (front ++ [last])) := by
    rw [← split]
    exact quantity
  refine ⟨?_, ?_, ?_, ?_, ?_⟩
  · rw [show signal = _ from result]
  · rw [← min_offered_reached target sizes]
    exact quantity
  · refine ⟨last.qty.value, ?_⟩
    rw [price]
    exact BoundedBook.mem_levels.mp (whole ▸ by simp)
  · rw [← whole] at sorted ⊢
    rw [price, BoundedBook.filter_atLeast_of_sorted sorted, amount]
    exact min_le_right _ _
  · have ahead := offered_ahead_lt split
    rw [zero_add] at ahead
    have size : 0 < last.qty.value := by
      refine sizes last ((reached_isPrefix targetQty _ 0).subset ?_)
      rw [split]
      exact List.mem_append_right _ (List.mem_singleton_self last)
    rw [← whole] at sorted ⊢
    rw [price, BoundedBook.filter_better_of_sorted sorted, amount, offered_append, offered_cons,
      show offered [] = 0 from rfl, add_zero]
    exact lt_min ahead (lt_add_of_pos_right _ size)

theorem computeOrder_tightest_sell :
    0 < (BoundedBook.run 64 BoundedBook.threeBids).liveCount .bid ∧
      (computeOrder (BoundedBook.run 64 BoundedBook.threeBids) (1 / 100) .ask 2).action =
        .sell := by
  have liquid : 0 < (BoundedBook.run 64 BoundedBook.threeBids).liveCount .bid := by decide
  have tightest := computeOrder_tightest 64 BoundedBook.threeBids (1 / 100) (by norm_num) .ask 2
    (by norm_num) liquid
  exact ⟨liquid, tightest.1⟩

end OrderSizer

end Trading

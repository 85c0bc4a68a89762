/-
This file says what the simulator fills, and at which price.

The loop takes the opposing levels best first and stops at the first one past the limit.
Since a side is listed strictly best first, the levels it may take from are exactly the
listed ones at or better than the limit; it moves on from a level only when a remainder
above the tolerance is left, and then it has taken all of that level. The reported price
is the average of what was taken, rounded to a tick, and both ends of the range the
average lies in are whole ticks.
-/

import Mathlib.Order.Interval.Set.UnorderedInterval
import TradingEngine.SizerLimit

namespace Trading

namespace ExecutionEngine

open BoundedBook (AtLeast Better)

/-! ### The levels the loop takes from -/

/-- The levels the simulator's loop takes from, each with what it takes there. -/
def consumed (side : Side) (tickSize limitPx : ℚ) :
    List PriceLevel → (remaining : ℚ) → List (PriceLevel × ℚ)
  | [], _ => []
  | level :: rest, remaining =>
    if !marketable side (level.price.toDouble tickSize) limitPx then []
    else
      let fillSize := min remaining level.qty.value
      (level, fillSize) ::
        if remaining - fillSize ≤ tinyQty then []
        else consumed side tickSize limitPx rest (remaining - fillSize)

/-- The total quantity of some fills. -/
def quantityOf (fills : List (PriceLevel × ℚ)) : ℚ := (fills.map Prod.snd).sum

/-- What some fills cost, each at the price of its level. -/
def costOf (tickSize : ℚ) (fills : List (PriceLevel × ℚ)) : ℚ :=
  (fills.map fun fill => fill.2 * fill.1.price.toDouble tickSize).sum

@[simp] theorem quantityOf_nil : quantityOf [] = 0 := rfl

@[simp] theorem quantityOf_cons (fill : PriceLevel × ℚ) (rest : List (PriceLevel × ℚ)) :
    quantityOf (fill :: rest) = fill.2 + quantityOf rest := by
  unfold quantityOf
  rw [List.map_cons, List.sum_cons]

@[simp] theorem costOf_nil (tickSize : ℚ) : costOf tickSize [] = 0 := rfl

@[simp] theorem costOf_cons (tickSize : ℚ) (fill : PriceLevel × ℚ)
    (rest : List (PriceLevel × ℚ)) :
    costOf tickSize (fill :: rest) =
      fill.2 * fill.1.price.toDouble tickSize + costOf tickSize rest := by
  unfold costOf
  rw [List.map_cons, List.sum_cons]

section Loop

variable {side : Side} {tickSize limitPx remaining : ℚ} {levels : List PriceLevel}

/-- The running totals of the walk are the totals of the levels it takes from. -/
theorem walk_eq_consumed (side : Side) (tickSize limitPx : ℚ) (levels : List PriceLevel)
    (totals : Walk) :
    walk side tickSize limitPx levels totals =
      ⟨totals.remaining - quantityOf (consumed side tickSize limitPx levels totals.remaining),
        totals.filled + quantityOf (consumed side tickSize limitPx levels totals.remaining),
        totals.cost +
          costOf tickSize (consumed side tickSize limitPx levels totals.remaining)⟩ := by
  induction levels generalizing totals with
  | nil => simp [walk, consumed]
  | cons level rest inductionHypothesis =>
    rw [walk, consumed]
    split
    · simp
    · simp only [take, ← min_def_lt]
      split
      · rw [quantityOf_cons, costOf_cons, quantityOf_nil, costOf_nil, add_zero, add_zero]
      · rw [inductionHypothesis, quantityOf_cons, costOf_cons, Walk.mk.injEq]
        exact ⟨by ring, by ring, by ring⟩

/-- Past the first level that is not marketable nothing is, so the loop sees only the
marketable levels. -/
theorem consumed_filter (sorted : levels.Pairwise (Better (opposite side)))
    (positive : 0 < tickSize) (remaining : ℚ) :
    consumed side tickSize limitPx
        (levels.filter fun level => marketable side (level.price.toDouble tickSize) limitPx)
        remaining =
      consumed side tickSize limitPx levels remaining := by
  induction levels generalizing remaining with
  | nil => rfl
  | cons level rest inductionHypothesis =>
    obtain ⟨ahead, behind⟩ := List.pairwise_cons.mp sorted
    cases matched : marketable side (level.price.toDouble tickSize) limitPx with
    | true =>
      rw [List.filter_cons, if_pos matched, consumed, consumed]
      simp only [inductionHypothesis behind]
    | false =>
      have past : ∀ other ∈ rest,
          ¬marketable side (other.price.toDouble tickSize) limitPx = true := by
        intro other member within
        have better := ahead other member
        cases side with
        | bid =>
          have ordered := @Price.toDouble_le_toDouble _ _ _ positive (le_of_lt better)
          exact of_decide_eq_false matched (le_trans ordered (of_decide_eq_true within))
        | ask =>
          have ordered := @Price.toDouble_le_toDouble _ _ _ positive (le_of_lt better)
          exact of_decide_eq_false matched (le_trans (of_decide_eq_true within) ordered)
      rw [List.filter_cons_of_neg (by simp [matched]), List.filter_eq_nil_iff.mpr past, consumed,
        consumed, matched]
      rfl

theorem consumed_isPrefix (levels : List PriceLevel) (remaining : ℚ) :
    (consumed side tickSize limitPx levels remaining).map Prod.fst <+: levels := by
  induction levels generalizing remaining with
  | nil => exact List.prefix_refl _
  | cons level rest inductionHypothesis =>
    rw [consumed]
    split
    · exact List.nil_prefix
    · dsimp only
      rw [List.map_cons]
      refine List.cons_prefix_cons.mpr ⟨rfl, ?_⟩
      split
      · exact List.nil_prefix
      · exact inductionHypothesis _

/-- A remainder above the tolerance is left only when the whole level is taken. -/
theorem whole_of_left {size : ℚ} (left : ¬remaining - min remaining size ≤ tinyQty) :
    min remaining size = size ∧ 0 < remaining - size := by
  have whole : min remaining size = size := by
    refine min_eq_right (le_of_not_ge fun part => left ?_)
    rw [min_eq_left part, sub_self]
    exact le_of_lt tinyQty_pos
  rw [whole] at left
  exact ⟨whole, lt_trans tinyQty_pos (not_le.mp left)⟩

/-- Each level taken from gives a positive part of its size, and every better level has given
all of its own. -/
theorem consumed_best_first (sorted : levels.Pairwise (Better (opposite side)))
    (sizes : ∀ level ∈ levels, 0 < level.qty.value) (asked : 0 < remaining) :
    ∀ fill ∈ consumed side tickSize limitPx levels remaining,
      0 < fill.2 ∧ fill.2 ≤ fill.1.qty.value ∧
        ∀ better ∈ levels, Better (opposite side) better fill.1 →
          (better, better.qty.value) ∈ consumed side tickSize limitPx levels remaining := by
  induction levels generalizing remaining with
  | nil => exact List.forall_mem_nil _
  | cons level rest inductionHypothesis =>
    obtain ⟨ahead, behind⟩ := List.pairwise_cons.mp sorted
    have size := sizes level List.mem_cons_self
    intro fill member
    rw [consumed] at member ⊢
    split at member
    · exact absurd member List.not_mem_nil
    · rename_i matched
      rw [if_neg matched]
      dsimp only at member ⊢
      rcases List.mem_cons.mp member with here | later
      · rw [here]
        refine ⟨lt_min asked size, min_le_right _ _, fun better listed strictly => ?_⟩
        rcases List.mem_cons.mp listed with same | worse
        · rw [same] at strictly
          cases side <;> exact absurd strictly (lt_irrefl _)
        · have reversed := ahead better worse
          cases side <;> exact absurd strictly (lt_asymm reversed)
      · split at later
        · exact absurd later List.not_mem_nil
        · rename_i left
          obtain ⟨whole, more⟩ := whole_of_left left
          rw [if_neg left]
          rw [whole] at later ⊢
          obtain ⟨some, most, exhausted⟩ := inductionHypothesis behind
            (fun other listed => sizes other (List.mem_cons_of_mem _ listed)) more fill later
          refine ⟨some, most, fun better listed strictly => ?_⟩
          rcases List.mem_cons.mp listed with same | worse
          · rw [same]
            exact List.mem_cons_self
          · exact List.mem_cons_of_mem _ (exhausted better worse strictly)

/-- Of marketable levels the loop takes what is asked for or all there is, up to the
tolerance. -/
theorem quantityOf_consumed (sizes : ∀ level ∈ levels, 0 < level.qty.value)
    (within : ∀ level ∈ levels, marketable side (level.price.toDouble tickSize) limitPx = true)
    (asked : 0 < remaining) :
    quantityOf (consumed side tickSize limitPx levels remaining) ≤
        min remaining (offered levels) ∧
      min remaining (offered levels) - tinyQty ≤
        quantityOf (consumed side tickSize limitPx levels remaining) := by
  have tiny := tinyQty_pos
  induction levels generalizing remaining with
  | nil =>
    rw [consumed, quantityOf_nil, show offered [] = 0 from rfl, min_eq_right (le_of_lt asked)]
    constructor <;> linarith
  | cons level rest inductionHypothesis =>
    have later : ∀ other ∈ rest, 0 < other.qty.value :=
      fun other member => sizes other (List.mem_cons_of_mem _ member)
    have behind := offered_nonneg later
    rw [consumed, within level List.mem_cons_self, offered_cons]
    simp only [Bool.not_true, Bool.false_eq_true, if_false, quantityOf_cons]
    split
    · rename_i met
      rw [quantityOf_nil, add_zero]
      have least := min_le_left remaining (level.qty.value + offered rest)
      refine ⟨min_le_min_left _ ?_, ?_⟩ <;> linarith
    · rename_i left
      obtain ⟨whole, more⟩ := whole_of_left left
      rw [whole]
      obtain ⟨most, least⟩ := inductionHypothesis later
        (fun other member => within other (List.mem_cons_of_mem _ member)) more
      have shifted : min remaining (level.qty.value + offered rest) =
          level.qty.value + min (remaining - level.qty.value) (offered rest) := by
        rw [← min_add_add_left, add_sub_cancel]
      rw [shifted]
      constructor <;> linarith

end Loop

/-! ### The price of the report -/

/-- In ticks, a level is marketable when it is at or better than the limit. -/
theorem marketable_iff_atLeast {side : Side} {tickSize : ℚ} (positive : 0 < tickSize)
    (price limit : Price) :
    marketable side (price.toDouble tickSize) (limit.toDouble tickSize) = true ↔
      AtLeast (opposite side) price.ticks limit.ticks := by
  cases side with
  | bid =>
    exact Iff.trans decide_eq_true_iff
      ⟨Price.ticks_le_of_toDouble_le positive, Price.toDouble_le_toDouble positive⟩
  | ask =>
    exact Iff.trans decide_eq_true_iff
      ⟨Price.ticks_le_of_toDouble_le positive, Price.toDouble_le_toDouble positive⟩

/-- The levels at or better than the limit are the marketable ones. -/
theorem filter_atLeast_eq {side : Side} {tickSize : ℚ} (positive : 0 < tickSize)
    (levels : List PriceLevel) (limit : Price) :
    (levels.filter fun level => AtLeast (opposite side) level.price.ticks limit.ticks) =
      levels.filter fun level =>
        marketable side (level.price.toDouble tickSize) (limit.toDouble tickSize) := by
  refine List.filter_congr fun level _ => Bool.eq_iff_iff.mpr ?_
  rw [marketable_iff_atLeast positive, decide_eq_true_iff]

/-- Rounding an average to a tick moves what the quantity costs by half a tick for each unit. -/
theorem abs_rounded_cost_sub_le {tickSize filled : ℚ} (cost : ℚ) (positive : 0 < tickSize)
    (fills : 0 < filled) :
    |filled * (Price.fromDouble (cost / filled) tickSize).toDouble tickSize - cost| ≤
      filled * tickSize / 2 := by
  have rounded := Rounding.abs_llround_sub_le (cost / filled / tickSize)
  have scaled : filled * (Price.fromDouble (cost / filled) tickSize).toDouble tickSize - cost =
      filled * tickSize *
        ((Rounding.llround (cost / filled / tickSize) : ℚ) - cost / filled / tickSize) := by
    rw [Price.fromDouble_eq]
    unfold Price.toDouble
    field_simp
  rw [scaled, abs_mul, abs_of_pos (mul_pos fills positive)]
  calc filled * tickSize * |(Rounding.llround (cost / filled / tickSize) : ℚ) -
          cost / filled / tickSize|
      ≤ filled * tickSize * (1 / 2) :=
        mul_le_mul_of_nonneg_left rounded (le_of_lt (mul_pos fills positive))
    _ = filled * tickSize / 2 := by ring

/-- The walk of an order, in terms of the levels it takes from. -/
theorem walk_order (side : Side) (tickSize limitPx : ℚ) (levels : List PriceLevel)
    (quantity : ℚ) :
    (walk side tickSize limitPx levels ⟨quantity, 0, 0⟩).filled =
        quantityOf (consumed side tickSize limitPx levels quantity) ∧
      (walk side tickSize limitPx levels ⟨quantity, 0, 0⟩).cost =
        costOf tickSize (consumed side tickSize limitPx levels quantity) := by
  rw [walk_eq_consumed]
  exact ⟨zero_add _, zero_add _⟩

/-- The rounded average of a fill lies between the best listed price and the limit. -/
theorem averagePrice_admitted {side : Side} {tickSize quantity : ℚ} {limit : Price}
    {best : PriceLevel} {rest : List PriceLevel} (positive : 0 < tickSize)
    (sorted : (best :: rest).Pairwise (Better (opposite side)))
    (sizes : ∀ level ∈ best :: rest, 0 < level.qty.value) (asked : 0 ≤ quantity)
    (fills : 0 < quantityOf (consumed side tickSize (limit.toDouble tickSize) (best :: rest)
      quantity)) :
    let taken := consumed side tickSize (limit.toDouble tickSize) (best :: rest) quantity
    let average := Price.fromDouble (costOf tickSize taken / quantityOf taken) tickSize
    AtLeast (opposite side) best.price.ticks average.ticks ∧
      AtLeast (opposite side) average.ticks limit.ticks := by
  obtain ⟨filled, cost⟩ := walk_order side tickSize (limit.toDouble tickSize) (best :: rest)
    quantity
  dsimp only
  rw [← filled] at fills ⊢
  rw [← cost]
  have nonneg : ∀ level ∈ best :: rest, 0 ≤ level.qty.value :=
    fun level member => le_of_lt (sizes level member)
  have first : ∀ level ∈ best :: rest,
      AtLeast (opposite side) best.price.ticks level.price.ticks := by
    intro level member
    rcases List.mem_cons.mp member with same | behind
    · rw [same]
      cases side <;> exact le_refl _
    · have better := (List.pairwise_cons.mp sorted).1 level behind
      cases side <;> exact le_of_lt better
  cases side with
  | bid =>
    refine averagePrice_between positive fills ((within_start asked).walk nonneg ?_)
    intro level member matched
    exact ⟨Price.toDouble_le_toDouble positive (first level member), of_decide_eq_true matched⟩
  | ask =>
    refine (averagePrice_between positive fills ((within_start asked).walk nonneg ?_)).symm
    intro level member matched
    exact ⟨of_decide_eq_true matched, Price.toDouble_le_toDouble positive (first level member)⟩

theorem mem_uIcc_of_atLeast {side : Side} {best price limit : Int}
    (ahead : AtLeast side best price) (limited : AtLeast side price limit) :
    price ∈ Set.uIcc best limit := by
  cases side with
  | bid => exact Set.mem_uIcc.mpr (Or.inr ⟨limited, ahead⟩)
  | ask => exact Set.mem_uIcc.mpr (Or.inl ⟨ahead, limited⟩)

/-- An order for something takes something exactly when it is shown a marketable level. -/
theorem quantityOf_consumed_pos_iff {side : Side} {tickSize limitPx remaining : ℚ}
    {levels : List PriceLevel} (sizes : ∀ level ∈ levels, 0 < level.qty.value)
    (within : ∀ level ∈ levels, marketable side (level.price.toDouble tickSize) limitPx = true)
    (asked : 0 < remaining) :
    0 < quantityOf (consumed side tickSize limitPx levels remaining) ↔ levels ≠ [] := by
  constructor
  · rintro some rfl
    exact absurd some (lt_irrefl 0)
  · intro shown
    obtain ⟨best, rest, rfl⟩ := List.exists_cons_of_ne_nil shown
    have filled := walk_filled_pos sizes (le_refl (Walk.filled ⟨remaining, 0, 0⟩)) asked
      (within best List.mem_cons_self)
    rwa [(walk_order _ _ _ _ _).1] at filled

/-! ### The report of an order -/

/-- The price reported for some fills of an order. -/
def reportedPrice (tickSize : ℚ) (limit : Price) (fills : List (PriceLevel × ℚ)) : Price :=
  if 0 < quantityOf fills then
    Price.fromDouble (costOf tickSize fills / quantityOf fills) tickSize
  else limit

/-- The report of an order, in terms of the levels the loop takes from. -/
theorem simulate_eq {capacity : Nat} (order : NewOrder) (book : BoundedBook capacity)
    (tickSize : ℚ) (now : Timestamp) :
    let report := simulate order book tickSize now
    let taken := consumed order.side tickSize (order.price.toDouble tickSize)
      (book.depth (opposite order.side) maxBookWalk) order.qty.value
    report.execQty.value = quantityOf taken ∧ (report.isFill = true ↔ 0 < quantityOf taken) ∧
      report.execPrice = reportedPrice tickSize order.price taken := by
  intro report taken
  obtain ⟨filled, cost⟩ := walk_order order.side tickSize (order.price.toDouble tickSize)
    (book.depth (opposite order.side) maxBookWalk) order.qty.value
  refine ⟨filled, ?_, ?_⟩
  · rw [← filled]
    exact decide_eq_true_iff
  · rw [reportedPrice, ← filled, ← cost]
    rfl

/-- The price reported for what the loop takes from a side listed best first is no worse than
the limit and lies between it and the best listed price. -/
theorem reportedPrice_admitted {side : Side} {tickSize quantity : ℚ} {limit : Price}
    {levels : List PriceLevel} (positive : 0 < tickSize)
    (sorted : levels.Pairwise (Better (opposite side)))
    (sizes : ∀ level ∈ levels, 0 < level.qty.value) (asked : 0 ≤ quantity) :
    let price := reportedPrice tickSize limit
      (consumed side tickSize (limit.toDouble tickSize) levels quantity)
    AtLeast (opposite side) price.ticks limit.ticks ∧
      ∀ best, levels.head? = some best →
        price.ticks ∈ Set.uIcc best.price.ticks limit.ticks := by
  intro price
  unfold price reportedPrice
  split
  · rename_i some
    cases levels with
    | nil => exact absurd some (lt_irrefl 0)
    | cons best rest =>
      obtain ⟨ahead, limited⟩ := averagePrice_admitted positive sorted sizes asked some
      refine ⟨limited, fun touch found => ?_⟩
      obtain rfl := Option.some.inj found
      exact mem_uIcc_of_atLeast ahead limited
  · refine ⟨?_, fun _ _ => Set.right_mem_uIcc⟩
    cases side <;> exact le_refl _

/-! ### Every order on every reachable book -/

/-- What the simulator reports for an order against a reachable book. The admitted levels are
the opposing ones it is shown that are priced at or better than the limit: an order fills when
there is one, by what it asks for or all they hold, to within the tolerance, taking them
strictly best first. The reported price is no worse than the limit, between it and the best
opposing price, and accounts for the cost of the levels taken to within half a tick a unit. -/
theorem simulate_best_first (capacity : Nat) [ValidCapacity capacity]
    (calls : List BoundedBook.Call) (tickSize : ℚ) (positive : 0 < tickSize) (order : NewOrder)
    (asked : 0 < order.qty.value) (now : Timestamp) :
    let book := BoundedBook.run capacity calls
    let report := simulate order book tickSize now
    let listed := book.depth (opposite order.side) maxBookWalk
    let admitted := listed.filter fun level =>
      AtLeast (opposite order.side) level.price.ticks order.price.ticks
    let taken := consumed order.side tickSize (order.price.toDouble tickSize) listed
      order.qty.value
    (report.isFill = true ↔ admitted ≠ []) ∧
    report.execQty.value ≤ min order.qty.value (offered admitted) ∧
    min order.qty.value (offered admitted) - tinyQty ≤ report.execQty.value ∧
    report.execQty.value = quantityOf taken ∧
    taken.map Prod.fst <+: admitted ∧
    (∀ fill ∈ taken, 0 < fill.2 ∧ fill.2 ≤ fill.1.qty.value ∧
      ∀ better ∈ admitted, Better (opposite order.side) better fill.1 →
        (better, better.qty.value) ∈ taken) ∧
    AtLeast (opposite order.side) report.execPrice.ticks order.price.ticks ∧
    (∀ best, book.topOfBook (opposite order.side) = some best →
      report.execPrice.ticks ∈ Set.uIcc best.price.ticks order.price.ticks) ∧
    |report.execQty.value * report.execPrice.toDouble tickSize - costOf tickSize taken| ≤
      report.execQty.value * tickSize / 2 := by
  intro book report listed admitted taken
  have wellFormed : book.WellFormed := BoundedBook.run_wellFormed calls
  have sizes : ∀ level ∈ listed, 0 < level.qty.value :=
    OrderSizer.depth_sizes wellFormed (opposite order.side) maxBookWalk
  have sorted : listed.Pairwise (Better (opposite order.side)) :=
    BoundedBook.depth_pairwise wellFormed.indexed (opposite order.side) maxBookWalk
  have same : admitted = _ := filter_atLeast_eq positive listed order.price
  have within : ∀ level ∈ admitted, marketable order.side (level.price.toDouble tickSize)
      (order.price.toDouble tickSize) = true := by
    intro level member
    rw [same] at member
    exact (List.mem_filter.mp member).2
  have admittedSizes : ∀ level ∈ admitted, 0 < level.qty.value :=
    fun level member => sizes level (List.mem_filter.mp member).1
  have seen : taken = consumed order.side tickSize (order.price.toDouble tickSize) admitted
      order.qty.value := by
    rw [same]
    exact (consumed_filter sorted positive _).symm
  have shown : 0 < quantityOf taken ↔ admitted ≠ [] := by
    rw [seen]
    exact quantityOf_consumed_pos_iff admittedSizes within asked
  obtain ⟨quantity, fills, price⟩ := simulate_eq order book tickSize now
  obtain ⟨most, least⟩ := quantityOf_consumed admittedSizes within asked
  obtain ⟨limited, between⟩ :=
    @reportedPrice_admitted _ _ _ order.price _ positive sorted sizes (le_of_lt asked)
  rw [← seen] at most least
  have touch : book.topOfBook (opposite order.side) = listed.head? :=
    BoundedBook.topOfBook_eq_depth_head wellFormed.indexed _ (by decide)
  refine ⟨fills.trans shown, quantity ▸ most, quantity ▸ least, quantity, ?_, ?_,
    price ▸ limited, ?_, ?_⟩
  · rw [seen]
    exact consumed_isPrefix _ _
  · rw [seen]
    exact consumed_best_first (sorted.sublist List.filter_sublist) admittedSizes asked
  · rw [touch, price]
    exact between
  · rw [quantity, price, show consumed _ _ _ _ _ = taken from rfl, reportedPrice]
    split
    · exact abs_rounded_cost_sub_le _ positive ‹_›
    · rename_i none
      have empty : taken = [] := by
        rw [seen, not_not.mp (mt shown.mpr none)]
        rfl
      rw [empty]
      simp

/-- A buy of three units limited to the worse of two asks fills by no more than it asks for. -/
theorem simulate_best_first_twoAsks :
    let order : NewOrder := ⟨1, 0, .bid, ⟨103⟩, ⟨3⟩, 0⟩
    let report := simulate order (BoundedBook.run 64 twoAsks) (1 / 100) 7
    report.isFill = true ∧ report.execPrice.ticks ≤ 103 := by
  intro order report
  obtain ⟨fills, -, -, -, -, -, limited, -, -⟩ :=
    simulate_best_first 64 twoAsks (1 / 100) (by norm_num) order (by decide +kernel) 7
  exact ⟨fills.mpr (by decide +kernel), limited⟩

end ExecutionEngine

end Trading

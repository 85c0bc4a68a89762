/-
This file is about the touch: the best bid and the best ask.

Both ends of the touch are live, so the window is only ever moved onto the middle
of two ticks the book holds. The middle is rounded down, in a window with an even
number of slots. That keeps both ends covered for every touch except one: a touch
that spans the whole window, slot `0` to slot `capacity - 1`, is moved so that its
upper end falls just past the edge. Such a touch is reachable, one removal at a
time.
-/

import TradingEngine.BookLevels

namespace Trading

namespace BoundedBook

variable {capacity : Nat}

/-! ### The touch in ticks -/

/-- On each side, a tick is at least as good as the ticks behind it. -/
def AtLeast : Side → Int → Int → Prop
  | .bid, first, second => second ≤ first
  | .ask, first, second => first ≤ second

instance (side : Side) (first second : Int) : Decidable (AtLeast side first second) :=
  match side with
  | .bid => inferInstanceAs (Decidable (second ≤ first))
  | .ask => inferInstanceAs (Decidable (first ≤ second))

/-- The best slot of one side, if the side has a live level. -/
def bestSlot (book : BoundedBook capacity) : Side → Option Int
  | .bid => if 0 ≤ book.bestBidIdx then some book.bestBidIdx else none
  | .ask => if book.bestAskIdx < capacity then some book.bestAskIdx else none

theorem bestSlot_bid (book : BoundedBook capacity) :
    book.bestSlot .bid = if 0 ≤ book.bestBidIdx then some book.bestBidIdx else none := rfl

theorem bestSlot_ask (book : BoundedBook capacity) :
    book.bestSlot .ask = if book.bestAskIdx < capacity then some book.bestAskIdx else none := rfl

/-- The best slot of a side is live. -/
theorem bestSlot_live {book : BoundedBook capacity} (indexed : Indexed book) {side : Side}
    {best : Int} (found : book.bestSlot side = some best) :
    ∃ slot : Nat, best = slot ∧ Live (book.ladder side) slot := by
  cases side with
  | bid =>
    rw [bestSlot_bid] at found
    split at found
    · obtain rfl := Option.some.inj found
      rcases indexed.bestBid with ⟨cached, -⟩ | ⟨slot, cached, live, -⟩
      · omega
      · exact ⟨slot, cached, live⟩
    · cases found
  | ask =>
    rw [bestSlot_ask] at found
    split at found
    · obtain rfl := Option.some.inj found
      rcases indexed.bestAsk with ⟨cached, -⟩ | ⟨slot, cached, live, -⟩
      · omega
      · exact ⟨slot, cached, live⟩
    · cases found

theorem levelAt_tickOf (book : BoundedBook capacity) (side : Side) {slot : Nat}
    (live : Live (book.ladder side) slot) :
    book.levelAt side (book.tickOf slot) = some ((book.ladder side).getD slot 0) := by
  refine levelAt_eq_some.mpr ⟨slot, ?_, live, rfl⟩
  rw [slotOf_mk, tickOf]
  omega

theorem topOfBook_eq_bestSlot (book : BoundedBook capacity) (side : Side) :
    book.topOfBook side = (book.bestSlot side).map fun slot =>
      ⟨Price.fromTicks (book.tickOf slot), ⟨(book.ladder side).getD slot.toNat 0⟩⟩ := by
  cases side with
  | bid =>
    by_cases present : 0 ≤ book.bestBidIdx
    · rw [topOfBook, bestSlot, if_pos present, if_neg (by omega)]
      rfl
    · rw [topOfBook, bestSlot, if_neg present, if_pos (by omega)]
      rfl
  | ask =>
    by_cases present : book.bestAskIdx < capacity
    · rw [topOfBook, bestSlot, if_pos present, if_neg (by omega)]
      rfl
    · rw [topOfBook, bestSlot, if_neg present, if_pos (by omega)]
      rfl

/-- The top of a side is the level it holds that nothing it holds is better than. -/
theorem topOfBook_eq_some {book : BoundedBook capacity} (indexed : Indexed book) {side : Side}
    {level : PriceLevel} :
    book.topOfBook side = some level ↔
      book.levelAt side level.price.ticks = some level.qty.value ∧
        ∀ tick quantity, book.levelAt side tick = some quantity →
          AtLeast side level.price.ticks tick := by
  have sorted := book.levels_pairwise side
  have listed (tick : Int) (quantity : ℚ) : book.levelAt side tick = some quantity ↔
      (⟨⟨tick⟩, ⟨quantity⟩⟩ : PriceLevel) ∈ book.levels side := by rw [mem_levels]
  rw [topOfBook_eq indexed, ← mem_levels]
  simp only [listed]
  cases found : book.levels side with
  | nil => simp
  | cons head rest =>
    rw [found, List.pairwise_cons] at sorted
    constructor
    · intro top
      obtain rfl := Option.some.inj top
      refine ⟨List.mem_cons_self, fun tick quantity member => ?_⟩
      rcases List.mem_cons.mp member with same | behind
      · rw [← same]
        cases side <;> exact le_rfl
      · have better := sorted.1 _ behind
        cases side <;> exact le_of_lt better
    · rintro ⟨member, atLeast⟩
      rcases List.mem_cons.mp member with same | behind
      · rw [same]
        rfl
      · have better := sorted.1 _ behind
        have worse := atLeast head.price.ticks head.qty.value List.mem_cons_self
        cases side <;> simp only [Better, AtLeast] at better worse <;> omega

theorem topOfBook_eq_none {book : BoundedBook capacity} (indexed : Indexed book) {side : Side} :
    book.topOfBook side = none ↔ ∀ tick, book.levelAt side tick = none := by
  rw [topOfBook_eq indexed, List.head?_eq_none_iff]
  constructor
  · intro empty tick
    cases found : book.levelAt side tick with
    | none => rfl
    | some quantity =>
      have member : (⟨⟨tick⟩, ⟨quantity⟩⟩ : PriceLevel) ∈ book.levels side := mem_levels.mpr found
      rw [empty] at member
      cases member
  · intro none
    refine List.eq_nil_iff_forall_not_mem.mpr fun level member => ?_
    have found := mem_levels.mp member
    rw [none] at found
    cases found

/-- Two books whose sides hold the same top level, over levels the first one holds. -/
theorem topOfBook_eq_of_subset {book other : BoundedBook capacity} (indexed : Indexed book)
    (otherIndexed : Indexed other) {side : Side}
    (subset : ∀ tick quantity, other.levelAt side tick = some quantity →
      book.levelAt side tick = some quantity)
    (kept : ∀ level, book.topOfBook side = some level →
      other.levelAt side level.price.ticks = some level.qty.value) :
    other.topOfBook side = book.topOfBook side := by
  cases top : book.topOfBook side with
  | none =>
    rw [topOfBook_eq_none otherIndexed]
    intro tick
    cases found : other.levelAt side tick with
    | none => rfl
    | some quantity =>
      have absent := (topOfBook_eq_none indexed).mp top tick
      rw [subset tick quantity found] at absent
      cases absent
  | some level =>
    rw [topOfBook_eq_some otherIndexed]
    refine ⟨kept level top, fun tick quantity found => ?_⟩
    exact ((topOfBook_eq_some indexed).mp top).2 tick quantity (subset tick quantity found)

/-- The touch is present exactly when a side has a best slot; then both of its ends are best
slots, in order. -/
theorem lo_hi_of_present (book : BoundedBook capacity)
    (present : 0 ≤ book.bestBidIdx ∨ book.bestAskIdx < capacity) :
    book.lo ≤ book.hi ∧ (∃ side, book.bestSlot side = some book.lo) ∧
      ∃ side, book.bestSlot side = some book.hi := by
  have bid (have_bid : 0 ≤ book.bestBidIdx) : book.bestSlot .bid = some book.bestBidIdx :=
    if_pos have_bid
  have ask (have_ask : book.bestAskIdx < capacity) : book.bestSlot .ask = some book.bestAskIdx :=
    if_pos have_ask
  unfold lo hi
  by_cases have_bid : 0 ≤ book.bestBidIdx <;> by_cases have_ask : book.bestAskIdx < capacity
  · rw [if_pos ⟨have_bid, have_ask⟩, if_pos ⟨have_bid, have_ask⟩]
    rcases le_total book.bestBidIdx book.bestAskIdx with ordered | crossed
    · rw [min_eq_left ordered, max_eq_right ordered]
      exact ⟨ordered, ⟨.bid, bid have_bid⟩, ⟨.ask, ask have_ask⟩⟩
    · rw [min_eq_right crossed, max_eq_left crossed]
      exact ⟨crossed, ⟨.ask, ask have_ask⟩, ⟨.bid, bid have_bid⟩⟩
  · simp only [have_bid, have_ask, and_false, if_true, if_false]
    exact ⟨le_rfl, ⟨.bid, bid have_bid⟩, ⟨.bid, bid have_bid⟩⟩
  · simp only [have_bid, have_ask, false_and, if_true, if_false]
    exact ⟨le_rfl, ⟨.ask, ask have_ask⟩, ⟨.ask, ask have_ask⟩⟩
  · omega

/-- The middle of two slots, moved to the centre, is the middle of their ticks. -/
theorem newRef_eq (book : BoundedBook capacity) {low high : Int} (nonneg : 0 ≤ low + high) :
    book.refTick + ((low + high).tdiv 2 - center capacity) =
      (book.tickOf low + book.tickOf high) / 2 := by
  rw [Int.tdiv_eq_ediv_of_nonneg nonneg]
  unfold tickOf
  omega

/-- The recentering keeps the reference tick or moves it onto the middle of two ticks the
book holds. -/
theorem recenterIfNearEdge_refTick {book : BoundedBook capacity} (indexed : Indexed book) :
    book.recenterIfNearEdge.refTick = book.refTick ∨
      ∃ low high sideLow sideHigh quantityLow quantityHigh,
        book.levelAt sideLow low = some quantityLow ∧
          book.levelAt sideHigh high = some quantityHigh ∧
            book.recenterIfNearEdge.refTick = (low + high) / 2 := by
  rcases recenterIfNearEdge_cases book with same | ⟨present, moved⟩
  · exact Or.inl (by rw [same])
  · obtain ⟨-, ⟨sideLow, lowest⟩, ⟨sideHigh, highest⟩⟩ := lo_hi_of_present book present
    obtain ⟨low, lowSlot, lowLive⟩ := bestSlot_live indexed lowest
    obtain ⟨high, highSlot, highLive⟩ := bestSlot_live indexed highest
    refine Or.inr ⟨_, _, _, _, _, _, levelAt_tickOf book _ lowLive, levelAt_tickOf book _ highLive,
      ?_⟩
    rw [moved, rebase_refTick, newRef_eq book (by omega), lowSlot, highSlot]

/-! ### Recentering and the touch -/

/-- Every best slot lies between the two ends of the touch. -/
theorem bestSlot_between {book : BoundedBook capacity} {side : Side} {best : Int}
    (found : book.bestSlot side = some best) : book.lo ≤ best ∧ best ≤ book.hi := by
  cases side with
  | bid =>
    rw [bestSlot_bid] at found
    split at found
    · rename_i present
      obtain rfl := Option.some.inj found
      unfold lo hi
      split_ifs <;> omega
    · cases found
  | ask =>
    rw [bestSlot_ask] at found
    split at found
    · rename_i present
      obtain rfl := Option.some.inj found
      unfold lo hi
      split_ifs <;> omega
    · cases found

/-- The touch reaches from the first slot of the window to the last. -/
def SpansWindow (book : BoundedBook capacity) : Prop :=
  book.lo = 0 ∧ book.hi = capacity - 1

instance (book : BoundedBook capacity) : Decidable book.SpansWindow :=
  inferInstanceAs (Decidable (_ ∧ _))

theorem lo_hi_bounds {book : BoundedBook capacity} (indexed : Indexed book)
    (present : 0 ≤ book.bestBidIdx ∨ book.bestAskIdx < capacity) :
    0 ≤ book.lo ∧ book.lo ≤ book.hi ∧ book.hi < capacity := by
  obtain ⟨ordered, ⟨sideLow, lowest⟩, ⟨sideHigh, highest⟩⟩ := lo_hi_of_present book present
  obtain ⟨low, lowSlot, -⟩ := bestSlot_live indexed lowest
  obtain ⟨high, highSlot, highLive⟩ := bestSlot_live indexed highest
  have := highLive.lt
  omega

theorem SpansWindow.present [ValidCapacity capacity] {book : BoundedBook capacity}
    (spans : book.SpansWindow) : 0 ≤ book.bestBidIdx ∨ book.bestAskIdx < capacity := by
  have even := two_mul_center capacity
  have positive := center_pos capacity
  obtain ⟨low, high⟩ := spans
  unfold lo at low
  unfold hi at high
  split_ifs at low high <;> omega

/-- The window moved onto a touch that does not span it covers both ends of the touch. -/
theorem covers_of_between [ValidCapacity capacity] {book : BoundedBook capacity}
    (indexed : Indexed book) (present : 0 ≤ book.bestBidIdx ∨ book.bestAskIdx < capacity)
    (narrow : ¬book.SpansWindow) {slot : Int} (between : book.lo ≤ slot ∧ slot ≤ book.hi) :
    Covers capacity (book.refTick + ((book.lo + book.hi).tdiv 2 - center capacity))
      (book.tickOf slot) := by
  obtain ⟨first, ordered, last⟩ := lo_hi_bounds indexed present
  have even := two_mul_center capacity
  rw [newRef_eq book (by omega)]
  unfold SpansWindow at narrow
  unfold Covers tickOf
  constructor <;> omega

/-- A touch that spans the window is moved one tick down, which leaves its upper end just
past the edge. -/
theorem recenterIfNearEdge_of_spansWindow [ValidCapacity capacity] {book : BoundedBook capacity}
    (spans : book.SpansWindow) :
    book.recenterIfNearEdge = book.rebase (book.refTick - 1) := by
  have even := two_mul_center capacity
  have margin := four_mul_recenterMargin capacity
  have positive := center_pos capacity
  have present := spans.present
  obtain ⟨low, high⟩ := spans
  unfold recenterIfNearEdge
  dsimp only
  rw [if_neg (by omega), if_neg (by omega), low, high,
    Int.tdiv_eq_ediv_of_nonneg (by omega)]
  have middle : book.refTick + ((0 + ((capacity : Int) - 1)) / 2 - center capacity) =
      book.refTick - 1 := by omega
  rw [middle, if_pos (by omega)]

/-- The recentering keeps the top of both sides exactly when the touch does not span the
window. -/
theorem recenterIfNearEdge_topOfBook [ValidCapacity capacity] {book : BoundedBook capacity}
    (indexed : Indexed book) :
    (∀ side, book.recenterIfNearEdge.topOfBook side = book.topOfBook side) ↔
      ¬book.SpansWindow := by
  constructor
  · intro same spans
    obtain ⟨-, -, side, highest⟩ := lo_hi_of_present book spans.present
    obtain ⟨slot, slotEq, live⟩ := bestSlot_live indexed highest
    have top := same side
    rw [topOfBook_eq_bestSlot book, highest, Option.map_some,
      topOfBook_eq_some indexed.recenterIfNearEdge] at top
    have covered := covers_of_levelAt top.1
    have even := two_mul_center capacity
    rw [recenterIfNearEdge_of_spansWindow spans, rebase_refTick] at covered
    unfold Covers tickOf Price.fromTicks at covered
    obtain ⟨-, high⟩ := spans
    dsimp only at covered
    omega
  · intro narrow side
    rcases recenterIfNearEdge_cases book with same | ⟨present, moved⟩
    · rw [same]
    · refine topOfBook_eq_of_subset indexed indexed.recenterIfNearEdge ?_ ?_
      · intro tick quantity found
        rw [levelAt_recenterIfNearEdge] at found
        split at found
        · exact found
        · cases found
      · intro level top
        have held := ((topOfBook_eq_some indexed).mp top).1
        rw [topOfBook_eq_bestSlot, Option.map_eq_some_iff] at top
        obtain ⟨slot, best, rfl⟩ := top
        rw [levelAt_recenterIfNearEdge, moved, rebase_refTick, if_pos]
        · exact held
        · exact covers_of_between indexed present narrow (bestSlot_between best)

/-- The book an update leaves to the recentering. -/
def written (book : BoundedBook capacity) (side : Side) (price : Price) (qty : Qty) :
    BoundedBook capacity :=
  (book.anchor price).writeSlot side ((book.anchor price).slotOf price).toNat qty

/-- For every reachable book and every update of it that reaches the recentering, the
recentering keeps both tops exactly when the touch before it does not span the window. -/
theorem update_keeps_touch_iff [ValidCapacity capacity] (calls : List Call) (side : Side)
    (price : Price) (qty : Qty)
    (inside : 0 ≤ ((run capacity calls).anchor price).slotOf price ∧
      ((run capacity calls).anchor price).slotOf price < capacity) :
    (run capacity calls).update side price qty =
        ((run capacity calls).written side price qty).recenterIfNearEdge ∧
      ((∀ other, ((run capacity calls).written side price qty).recenterIfNearEdge.topOfBook other =
          ((run capacity calls).written side price qty).topOfBook other) ↔
        ¬((run capacity calls).written side price qty).SpansWindow) := by
  refine ⟨?_, recenterIfNearEdge_topOfBook
    (((run_indexed calls).anchor price).writeSlot side (by omega) qty)⟩
  unfold update
  dsimp only
  rw [if_neg (by omega)]
  rfl

/-- A bid on the last slot of the window moves the window, and both tops are kept. -/
theorem update_keeps_touch_moved :
    ((run 64 [.update .bid ⟨100⟩ ⟨1⟩]).written .bid ⟨131⟩ ⟨2⟩).refTick = 100 ∧
      ((run 64 [.update .bid ⟨100⟩ ⟨1⟩]).written .bid ⟨131⟩ ⟨2⟩).recenterIfNearEdge.refTick =
        131 ∧
      ∀ other, ((run 64 [.update .bid ⟨100⟩ ⟨1⟩]).written .bid ⟨131⟩
          ⟨2⟩).recenterIfNearEdge.topOfBook other =
        ((run 64 [.update .bid ⟨100⟩ ⟨1⟩]).written .bid ⟨131⟩ ⟨2⟩).topOfBook other :=
  ⟨by decide +kernel, by decide +kernel,
    (update_keeps_touch_iff [.update .bid ⟨100⟩ ⟨1⟩] .bid ⟨131⟩ ⟨2⟩ (by decide +kernel)).2.mpr
      (by decide +kernel)⟩

/-- A market whose spread widens in a window of 64 ticks: bids down to tick 100 and asks up
to tick 163 are listed, and the touch is removed from both sides in turn until it stands on
slots `1` and `63`. -/
def widening : List Call :=
  [.seedReference ⟨132⟩, .update .bid ⟨108⟩ ⟨1⟩, .update .ask ⟨157⟩ ⟨1⟩] ++
    (List.range 8).map (fun i => .update .bid ⟨107 - i⟩ ⟨1⟩) ++
    (List.range 6).map (fun i => .update .ask ⟨158 + i⟩ ⟨1⟩) ++
    (List.range 6).flatMap
      (fun i => [.update .bid ⟨108 - i⟩ ⟨0⟩, .update .ask ⟨157 + i⟩ ⟨0⟩]) ++
    [.update .bid ⟨102⟩ ⟨0⟩]

/-- Removing the best bid of the widened market makes the touch span the window, and the
recentering that follows drops the best ask. -/
theorem update_loses_touch :
    ((run 64 widening).anchor ⟨101⟩).slotOf ⟨101⟩ = 1 ∧
      ((run 64 widening).written .bid ⟨101⟩ ⟨0⟩).topOfBook .ask = some ⟨⟨163⟩, ⟨1⟩⟩ ∧
      ((run 64 widening).written .bid ⟨101⟩ ⟨0⟩).recenterIfNearEdge.topOfBook .ask = none := by
  decide +kernel

end BoundedBook

end Trading

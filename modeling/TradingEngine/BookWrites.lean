/-
This file describes an update of an anchored book in ticks: outside the window it does
nothing, and inside it writes one level and recenters. The recentering is read off the
ends of the touch, and the top of the written side is the better of the old top and the
new level.

These are the facts by which the touch of a book can be followed through a sequence of
updates without looking at the ladder again: the cases are a dead level and a live one, on
a side that is empty or not, and for each of them the top after the write is given.
-/

import TradingEngine.BookTouch

namespace Trading

namespace BoundedBook

variable {capacity : Nat}

/-! ### Recentering in ticks -/

/-- The touch from tick `low` to tick `high` comes within the margin of an edge. -/
def NearEdge (capacity : Nat) (ref low high : Int) : Prop :=
  low < ref - center capacity + recenterMargin capacity ∨
    ref + center capacity - recenterMargin capacity ≤ high

instance (capacity : Nat) (ref low high : Int) : Decidable (NearEdge capacity ref low high) :=
  inferInstanceAs (Decidable (_ ∨ _))

/-- A touch on the reference tick is not near an edge. -/
theorem not_nearEdge_self (capacity : Nat) [ValidCapacity capacity] (tick : Int) :
    ¬NearEdge capacity tick tick tick := by
  have margin := four_mul_recenterMargin capacity
  have positive := center_pos capacity
  unfold NearEdge
  omega

/-- The reference tick after the recentering. -/
def recentered (capacity : Nat) (ref low high : Int) : Int :=
  if NearEdge capacity ref low high then (low + high) / 2 else ref

/-- Where the window moves to is told by the two ends of the touch. -/
theorem recenterIfNearEdge_refTick_eq [ValidCapacity capacity] {book : BoundedBook capacity}
    (indexed : Indexed book) (present : 0 ≤ book.bestBidIdx ∨ book.bestAskIdx < capacity) :
    book.recenterIfNearEdge.refTick =
      recentered capacity book.refTick (book.tickOf book.lo) (book.tickOf book.hi) := by
  have even := two_mul_center capacity
  obtain ⟨first, ordered, last⟩ := lo_hi_bounds indexed present
  have edge : NearEdge capacity book.refTick (book.tickOf book.lo) (book.tickOf book.hi) ↔
      ¬(recenterMargin capacity ≤ book.lo ∧ book.hi < capacity - recenterMargin capacity) := by
    unfold NearEdge tickOf
    omega
  unfold recenterIfNearEdge recentered
  dsimp only
  rw [if_neg (by omega), newRef_eq book (by omega)]
  by_cases near : NearEdge capacity book.refTick (book.tickOf book.lo) (book.tickOf book.hi)
  · rw [if_neg (edge.mp near), if_pos near]
    split
    · rfl
    · rename_i same
      exact (not_not.mp same).symm
  · rw [if_pos (not_not.mp fun far => near (edge.mpr far)), if_neg near]

/-- A touch that is shorter than the window is kept by the recentering. -/
theorem recenterIfNearEdge_topOfBook_of_short [ValidCapacity capacity]
    {book : BoundedBook capacity} (indexed : Indexed book) {least most : Int}
    (low : book.tickOf book.lo = least) (high : book.tickOf book.hi = most)
    (short : most - least ≤ (capacity : Int) - 2) (side : Side) :
    book.recenterIfNearEdge.topOfBook side = book.topOfBook side := by
  refine (recenterIfNearEdge_topOfBook indexed).mpr (fun spans => ?_) side
  obtain ⟨first, last⟩ := spans
  rw [first] at low
  rw [last] at high
  unfold tickOf at low high
  omega

/-- The best slot behind a top of book. -/
theorem bestSlot_of_topOfBook {book : BoundedBook capacity} {side : Side} {level : PriceLevel}
    (top : book.topOfBook side = some level) :
    ∃ slot, book.bestSlot side = some slot ∧ book.tickOf slot = level.price.ticks := by
  rw [topOfBook_eq_bestSlot, Option.map_eq_some_iff] at top
  obtain ⟨slot, found, rfl⟩ := top
  exact ⟨slot, found, rfl⟩

theorem absent_of_bidTop_none {book : BoundedBook capacity}
    (top : book.topOfBook .bid = none) : ¬0 ≤ book.bestBidIdx := by
  rw [topOfBook_eq_bestSlot, Option.map_eq_none_iff, bestSlot_bid] at top
  split at top
  · cases top
  · assumption

theorem absent_of_askTop_none {book : BoundedBook capacity}
    (top : book.topOfBook .ask = none) : ¬book.bestAskIdx < capacity := by
  rw [topOfBook_eq_bestSlot, Option.map_eq_none_iff, bestSlot_ask] at top
  split at top
  · cases top
  · assumption

theorem bestBidIdx_of_bestSlot {book : BoundedBook capacity} {slot : Int}
    (found : book.bestSlot .bid = some slot) : 0 ≤ book.bestBidIdx ∧ book.bestBidIdx = slot := by
  rw [bestSlot_bid] at found
  split at found
  · exact ⟨‹_›, Option.some.inj found⟩
  · cases found

theorem bestAskIdx_of_bestSlot {book : BoundedBook capacity} {slot : Int}
    (found : book.bestSlot .ask = some slot) :
    book.bestAskIdx < capacity ∧ book.bestAskIdx = slot := by
  rw [bestSlot_ask] at found
  split at found
  · exact ⟨‹_›, Option.some.inj found⟩
  · cases found

/-- With bids only, both ends of the touch are the best bid. -/
theorem touch_of_bid {book : BoundedBook capacity} {bid : PriceLevel}
    (bidTop : book.topOfBook .bid = some bid) (askTop : book.topOfBook .ask = none) :
    0 ≤ book.bestBidIdx ∧ book.tickOf book.lo = bid.price.ticks ∧
      book.tickOf book.hi = bid.price.ticks := by
  obtain ⟨slot, found, tick⟩ := bestSlot_of_topOfBook bidTop
  obtain ⟨present, rfl⟩ := bestBidIdx_of_bestSlot found
  have absent := absent_of_askTop_none askTop
  unfold lo hi
  simp only [present, absent, and_false, if_false, if_true]
  exact ⟨trivial, tick, tick⟩

/-- With both sides and no crossing, the touch runs from the best bid to the best ask. -/
theorem touch_of_both {book : BoundedBook capacity} {bid ask : PriceLevel}
    (bidTop : book.topOfBook .bid = some bid) (askTop : book.topOfBook .ask = some ask)
    (uncrossed : bid.price.ticks < ask.price.ticks) :
    0 ≤ book.bestBidIdx ∧ book.tickOf book.lo = bid.price.ticks ∧
      book.tickOf book.hi = ask.price.ticks := by
  obtain ⟨bidSlot, bidFound, bidTick⟩ := bestSlot_of_topOfBook bidTop
  obtain ⟨bidPresent, rfl⟩ := bestBidIdx_of_bestSlot bidFound
  obtain ⟨askSlot, askFound, askTick⟩ := bestSlot_of_topOfBook askTop
  obtain ⟨askPresent, rfl⟩ := bestAskIdx_of_bestSlot askFound
  have ordered : book.bestBidIdx ≤ book.bestAskIdx := by
    unfold tickOf at bidTick askTick
    omega
  unfold lo hi
  rw [if_pos ⟨bidPresent, askPresent⟩, if_pos ⟨bidPresent, askPresent⟩, min_eq_left ordered,
    max_eq_right ordered]
  exact ⟨bidPresent, bidTick, askTick⟩

/-! ### An update inside the window -/

/-- An anchored book ignores an update its window does not cover. -/
theorem update_of_not_covers [ValidCapacity capacity] {book : BoundedBook capacity}
    (anchored : book.haveRef = true) {price : Price}
    (outside : ¬Covers capacity book.refTick price.ticks) (side : Side) (qty : Qty) :
    book.update side price qty = book := by
  have same : book.anchor price = book := if_pos anchored
  rcases update_cases book side price qty with ⟨-, ignored⟩ | ⟨slot, inside, -⟩
  · rw [ignored, same]
  · rw [same] at inside
    exact absurd inside outside

/-- A book in which one level of one side is written, and not yet recentered. -/
structure Writes (book after : BoundedBook capacity) (side : Side) (level : PriceLevel) : Prop where
  indexed : Indexed after
  ref : after.refTick = book.refTick
  levels : ∀ other tick, after.levelAt other tick =
    if other = side ∧ tick = level.price.ticks then
      if 0 < level.qty.value then some level.qty.value else none
    else book.levelAt other tick

/-- An update inside the window is a write of one tick followed by the recentering. -/
theorem update_of_covers [ValidCapacity capacity] {book : BoundedBook capacity}
    (wellFormed : WellFormed book) (anchored : book.haveRef = true) {level : PriceLevel}
    (covered : Covers capacity book.refTick level.price.ticks) (side : Side) :
    ∃ after : BoundedBook capacity,
      book.update side level.price level.qty = after.recenterIfNearEdge ∧
        Writes book after side level := by
  have same : book.anchor level.price = book := if_pos anchored
  rcases update_cases book side level.price level.qty with ⟨outside, -⟩ |
    ⟨slot, -, located, bound, written⟩
  · rw [same] at outside
    exact absurd covered outside
  · rw [same] at located written
    exact ⟨_, written, wellFormed.indexed.writeSlot side bound level.qty,
      writeSlot_refTick _ _ _ _,
      fun other tick => levelAt_writeSlot book side other level.price level.qty located bound tick⟩

/-- Books that hold the same on a side have the same top there. -/
theorem topOfBook_eq_of_levelAt_eq {book other : BoundedBook capacity} (indexed : Indexed book)
    (otherIndexed : Indexed other) {side : Side}
    (same : ∀ tick, other.levelAt side tick = book.levelAt side tick) :
    other.topOfBook side = book.topOfBook side := by
  refine topOfBook_eq_of_subset indexed otherIndexed (fun tick quantity found => ?_)
    fun level top => ?_
  · rw [← same]
    exact found
  · rw [same]
    exact ((topOfBook_eq_some indexed).mp top).1

/-- The better of a top of book and a new level. -/
def improve (side : Side) (top : Option PriceLevel) (level : PriceLevel) : Option PriceLevel :=
  match top with
  | none => some level
  | some best =>
    if AtLeast side best.price.ticks level.price.ticks then some best else some level

namespace Writes

variable {book after : BoundedBook capacity} {side : Side} {level : PriceLevel}

theorem top_other (writes : Writes book after side level) (indexed : Indexed book) {other : Side}
    (different : other ≠ side) : after.topOfBook other = book.topOfBook other :=
  topOfBook_eq_of_levelAt_eq indexed writes.indexed fun tick => by
    rw [writes.levels, if_neg (fun same => different same.1)]

/-- Removing a level that is not there changes no top. -/
theorem top_dead (writes : Writes book after side level) (indexed : Indexed book)
    (fresh : book.levelAt side level.price.ticks = none) (dead : ¬0 < level.qty.value) :
    after.topOfBook side = book.topOfBook side := by
  refine topOfBook_eq_of_levelAt_eq indexed writes.indexed fun tick => ?_
  rw [writes.levels, if_neg dead]
  split
  · rename_i same
    rw [same.2, fresh]
  · rfl

/-- A new live level is the top unless the top before was better. -/
theorem top_live (writes : Writes book after side level) (indexed : Indexed book)
    (fresh : book.levelAt side level.price.ticks = none) (live : 0 < level.qty.value) :
    after.topOfBook side = improve side (book.topOfBook side) level := by
  have levels := writes.levels side
  simp only [if_pos live, true_and] at levels
  have own : after.levelAt side level.price.ticks = some level.qty.value := by
    rw [levels, if_pos rfl]
  cases top : book.topOfBook side with
  | none =>
    refine (topOfBook_eq_some writes.indexed).mpr ⟨own, fun tick quantity found => ?_⟩
    rw [levels, (topOfBook_eq_none indexed).mp top] at found
    split at found
    · rename_i same
      rw [same]
      cases side <;> exact le_rfl
    · cases found
  | some best =>
    obtain ⟨held, ahead⟩ := (topOfBook_eq_some indexed).mp top
    have different : best.price.ticks ≠ level.price.ticks := by
      intro same
      rw [← same, held] at fresh
      cases fresh
    unfold improve
    dsimp only
    split
    · rename_i better
      refine (topOfBook_eq_some writes.indexed).mpr ⟨?_, fun tick quantity found => ?_⟩
      · rw [levels, if_neg different]
        exact held
      · rw [levels] at found
        split at found
        · rename_i same
          rw [same]
          exact better
        · exact ahead tick quantity found
    · rename_i worse
      refine (topOfBook_eq_some writes.indexed).mpr ⟨own, fun tick quantity found => ?_⟩
      rw [levels] at found
      split at found
      · rename_i same
        rw [same]
        cases side <;> exact le_rfl
      · have behind := ahead tick quantity found
        cases side <;> simp only [AtLeast] at worse behind ⊢ <;> omega

end Writes

/-- A tick nothing is held at stays empty under updates of other ticks. -/
theorem levelAt_update_of_ne [ValidCapacity capacity] {book : BoundedBook capacity}
    (wellFormed : WellFormed book) {side other : Side} {price : Price} {tick : Int}
    (different : ¬(other = side ∧ tick = price.ticks)) (empty : book.levelAt other tick = none)
    (qty : Qty) : (book.update side price qty).levelAt other tick = none := by
  rw [levelAt_update wellFormed.anchored]
  split
  · rw [if_neg (fun all => different ⟨all.1, all.2.1⟩)]
    exact empty
  · rfl

end BoundedBook

end Trading

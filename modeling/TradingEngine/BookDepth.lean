/-
This file says what the two queries of the book answer, and when an emptied book takes
the next price.

`depth` lists the best live levels and skips none, `topOfBook` is the first of them.
An emptied book keeps the window its last levels left behind: a price inside that
window becomes the touch and the window follows it, and a price outside is ignored,
however empty the book is.
-/

import TradingEngine.BookTouch

namespace Trading

namespace BoundedBook

variable {capacity : Nat}

/-! ### The queries -/

/-- The number of live levels on one side. -/
def liveCount (book : BoundedBook capacity) (side : Side) : Nat :=
  (List.range capacity).countP fun slot => 0 < (book.ladder side).getD slot 0

theorem length_levels (book : BoundedBook capacity) (side : Side) :
    (book.levels side).length = book.liveCount side := by
  have listed : ∀ slot, (book.slotLevel side slot).isSome =
      decide (0 < (book.ladder side).getD slot 0) := by
    intro slot
    unfold slotLevel
    split
    · rename_i live
      rw [decide_eq_true live]
      rfl
    · rename_i dead
      rw [decide_eq_false dead]
      rfl
  cases side with
  | bid =>
    rw [levels, List.length_filterMap_eq_countP, List.countP_reverse]
    exact List.countP_congr fun slot _ => by rw [listed]
  | ask =>
    rw [levels, List.length_filterMap_eq_countP]
    exact List.countP_congr fun slot _ => by rw [listed]

/-- What is left out of a list that is cut off comes after everything that is kept. -/
theorem better_of_cut {book : BoundedBook capacity} {side : Side} {n : Nat} {level : PriceLevel}
    (listed : level ∈ book.levels side) :
    level ∈ (book.levels side).take n ∨
      ∀ kept ∈ (book.levels side).take n, Better side kept level := by
  have sorted := book.levels_pairwise side
  rw [← List.take_append_drop n (book.levels side)] at listed sorted
  rcases List.mem_append.mp listed with kept | cut
  · exact Or.inl kept
  · exact Or.inr fun other member => (List.pairwise_append.mp sorted).2.2 other member level cut

/-- The first level of a listed side is its top. -/
theorem topOfBook_of_depth {book : BoundedBook capacity} (indexed : book.Indexed) {side : Side}
    {n : Nat} {level : PriceLevel} {rest : List PriceLevel}
    (listed : book.depth side n = level :: rest) : book.topOfBook side = some level := by
  rw [depth_eq indexed] at listed
  rw [topOfBook_eq indexed, ← List.take_append_drop n (book.levels side), listed]
  rfl

/-- A side with a top is not empty at any depth. -/
theorem depth_ne_nil {book : BoundedBook capacity} (indexed : book.Indexed) {side : Side} {n : Nat}
    {level : PriceLevel} (top : book.topOfBook side = some level) (some : 0 < n) :
    book.depth side n ≠ [] := by
  rw [topOfBook_eq indexed] at top
  rw [depth_eq indexed]
  intro none
  rcases List.take_eq_nil_iff.mp none with zero | empty
  · omega
  · rw [empty] at top
    cases top

theorem length_depth {book : BoundedBook capacity} (indexed : Indexed book) (side : Side)
    (n : Nat) : (book.depth side n).length = min n (book.liveCount side) := by
  rw [depth_eq indexed, List.length_take, length_levels]

theorem depth_pairwise {book : BoundedBook capacity} (indexed : Indexed book) (side : Side)
    (n : Nat) : (book.depth side n).Pairwise (Better side) := by
  rw [depth_eq indexed]
  exact (book.levels_pairwise side).sublist (List.take_sublist _ _)

theorem topOfBook_eq_depth_head {book : BoundedBook capacity} (indexed : Indexed book)
    (side : Side) {n : Nat} (positive : 0 < n) :
    book.topOfBook side = (book.depth side n).head? := by
  rw [topOfBook_eq indexed, depth_eq indexed, List.head?_take,
    if_neg (Nat.pos_iff_ne_zero.mp positive)]

theorem topOfBook_eq_none_iff_liveCount {book : BoundedBook capacity} (indexed : Indexed book)
    (side : Side) : book.topOfBook side = none ↔ book.liveCount side = 0 := by
  rw [topOfBook_eq indexed, List.head?_eq_none_iff, ← length_levels, List.length_eq_zero_iff]

/-- In every reachable book `depth` lists as many of the best live levels as are asked for and
there are, strictly best first and without a gap, and `topOfBook` is the first of them. -/
theorem depth_lists_best (capacity : Nat) [ValidCapacity capacity] (calls : List Call)
    (side : Side) (n : Nat) :
    let book := run capacity calls
    (book.depth side n).length = min n (book.liveCount side) ∧
    (book.depth side n).Pairwise (Better side) ∧
    (∀ level ∈ book.depth side n, 0 < level.qty.value ∧
      book.levelAt side level.price.ticks = some level.qty.value) ∧
    (∀ tick quantity, book.levelAt side tick = some quantity →
      ⟨⟨tick⟩, ⟨quantity⟩⟩ ∈ book.depth side n ∨
        ∀ level ∈ book.depth side n, Better side level ⟨⟨tick⟩, ⟨quantity⟩⟩) ∧
    (0 < n → book.topOfBook side = (book.depth side n).head?) ∧
    (book.topOfBook side = none ↔ book.liveCount side = 0) := by
  intro book
  have indexed : Indexed book := run_indexed calls
  have held : ∀ level ∈ book.depth side n,
      book.levelAt side level.price.ticks = some level.qty.value := by
    intro level member
    rw [depth_eq indexed] at member
    exact mem_levels.mp (List.mem_of_mem_take member)
  refine ⟨length_depth indexed side n, depth_pairwise indexed side n, ?_, ?_,
    topOfBook_eq_depth_head indexed side, topOfBook_eq_none_iff_liveCount indexed side⟩
  · exact fun level member => ⟨levelAt_pos (held level member), held level member⟩
  · intro tick quantity found
    rw [depth_eq indexed]
    exact better_of_cut (mem_levels.mpr found)

/-- Three bids in a window of 64 ticks, one of them removed again. -/
def threeBids : List Call :=
  [.update .bid ⟨100⟩ ⟨1⟩, .update .bid ⟨98⟩ ⟨2⟩, .update .bid ⟨99⟩ ⟨3⟩, .update .bid ⟨99⟩ ⟨0⟩]

theorem depth_lists_best_threeBids :
    ((run 64 threeBids).depth .bid 5).length = min 5 ((run 64 threeBids).liveCount .bid) ∧
      (run 64 threeBids).topOfBook .bid = ((run 64 threeBids).depth .bid 5).head? := by
  have best := depth_lists_best 64 threeBids .bid 5
  exact ⟨best.1, best.2.2.2.2.1 (by decide)⟩

/-! ### The next price of an emptied book -/

/-- Some update came after the last clear. -/
def UpdatedSinceClear (calls : List Call) : Prop :=
  ∃ earlier side price qty later, calls = earlier ++ .update side price qty :: later ∧
    .clear ∉ later

theorem call_haveRef (book : BoundedBook capacity) {call : Call} (kept : call ≠ .clear) :
    (book.call call).haveRef = true := by
  cases call with
  | clear => exact absurd rfl kept
  | seedReference price => exact seedReference_haveRef book price
  | update side price qty => exact update_haveRef book side price qty

theorem foldl_haveRef {book : BoundedBook capacity} (anchored : book.haveRef = true)
    {calls : List Call} (kept : .clear ∉ calls) : (calls.foldl call book).haveRef = true := by
  induction calls generalizing book with
  | nil => exact anchored
  | cons call rest inductionHypothesis =>
    rw [List.mem_cons, not_or] at kept
    exact inductionHypothesis (call_haveRef book (Ne.symm kept.1)) kept.2

theorem UpdatedSinceClear.haveRef {calls : List Call} (updated : UpdatedSinceClear calls) :
    (run capacity calls).haveRef = true := by
  obtain ⟨earlier, side, price, qty, later, rfl, kept⟩ := updated
  rw [run, List.foldl_append, List.foldl_cons]
  exact foldl_haveRef (update_haveRef _ side price qty) kept

/-- The recentering after the only level of a book moves the window onto that level or leaves
the window around it. -/
theorem covers_recenter_of_only [ValidCapacity capacity] {book : BoundedBook capacity}
    (indexed : Indexed book) {tick : Int} (covered : Covers capacity book.refTick tick)
    (only : ∀ side other quantity, book.levelAt side other = some quantity → other = tick) :
    Covers capacity book.recenterIfNearEdge.refTick tick := by
  have positive := center_pos capacity
  rcases recenterIfNearEdge_refTick indexed with same |
    ⟨low, high, _, _, _, _, first, second, moved⟩
  · rw [same]
    exact covered
  · obtain rfl := only _ _ _ first
    obtain rfl := only _ _ _ second
    rw [moved]
    unfold Covers
    constructor <;> omega

/-- For every reachable book with an update since the last clear and no live level, the next
level on a side becomes the touch exactly when the window the book was left with covers it. -/
theorem empty_book_follows_iff (capacity : Nat) [ValidCapacity capacity] (calls : List Call)
    (updated : UpdatedSinceClear calls)
    (empty : ∀ side slot, ¬Live ((run capacity calls).ladder side) slot) (side : Side) (tick : Int)
    (quantity : ℚ) (positive : 0 < quantity) :
    ((run capacity calls).update side ⟨tick⟩ ⟨quantity⟩).topOfBook side =
        some ⟨⟨tick⟩, ⟨quantity⟩⟩ ↔
      Covers capacity (run capacity calls).refTick tick := by
  have anchored : (run capacity calls).anchor ⟨tick⟩ = run capacity calls := if_pos updated.haveRef
  have indexed : Indexed (run capacity calls) := run_indexed calls
  have absent : ∀ other level, (run capacity calls).levelAt other level = none :=
    fun other => levelAt_eq_none_of_empty (empty other)
  rcases update_cases (run capacity calls) side ⟨tick⟩ ⟨quantity⟩ with ⟨outside, ignored⟩ |
    ⟨slot, inside, located, bound, written⟩
  · rw [anchored] at outside ignored
    rw [ignored, (topOfBook_eq_none indexed).mpr (absent side)]
    exact ⟨nofun, fun covered => absurd covered outside⟩
  · rw [anchored] at inside located written
    refine ⟨fun _ => inside, fun _ => ?_⟩
    have writtenIndexed := indexed.writeSlot side bound ⟨quantity⟩
    have holds : ∀ other level, ((run capacity calls).writeSlot side slot ⟨quantity⟩).levelAt
        other level = if other = side ∧ level = tick then some quantity else none := by
      intro other level
      rw [levelAt_writeSlot _ side other ⟨tick⟩ ⟨quantity⟩ located bound, absent, if_pos positive]
    have covered : Covers capacity ((run capacity calls).writeSlot side slot
        ⟨quantity⟩).recenterIfNearEdge.refTick tick := by
      refine covers_recenter_of_only writtenIndexed (by rwa [writeSlot_refTick]) ?_
      intro other level size found
      rw [holds] at found
      split at found
      · rename_i here
        exact here.2
      · cases found
    rw [written, topOfBook_eq_some writtenIndexed.recenterIfNearEdge]
    constructor
    · rw [levelAt_recenterIfNearEdge, if_pos covered, holds, if_pos ⟨rfl, rfl⟩]
    · intro level size found
      rw [levelAt_recenterIfNearEdge, holds] at found
      split at found
      · split at found
        · rename_i here
          rw [here.2]
          cases side <;> exact le_refl _
        · cases found
      · cases found

/-- A bid that was added and removed again. -/
def drained : List Call := [.update .bid ⟨100⟩ ⟨1⟩, .update .bid ⟨100⟩ ⟨0⟩]

theorem drained_updated : UpdatedSinceClear drained :=
  ⟨[], .bid, ⟨100⟩, ⟨1⟩, [.update .bid ⟨100⟩ ⟨0⟩], rfl, by decide⟩

theorem drained_empty (side : Side) (slot : Nat) : ¬Live ((run 64 drained).ladder side) slot := by
  have inside : ∀ slot < 64, ¬0 < (run 64 drained).bids.getD slot 0 ∧
      ¬0 < (run 64 drained).asks.getD slot 0 := by
    decide +kernel
  intro live
  cases side with
  | bid => exact (inside slot live.lt).1 live
  | ask => exact (inside slot live.lt).2 live

theorem empty_book_follows_iff_drained :
    ((run 64 drained).update .ask ⟨131⟩ ⟨2⟩).topOfBook .ask = some ⟨⟨131⟩, ⟨2⟩⟩ :=
  (empty_book_follows_iff 64 drained drained_updated drained_empty .ask 131 2 (by decide)).mpr
    (by decide +kernel)

/-- One tick further up the emptied book ignores the price. -/
theorem empty_book_ignores_price :
    UpdatedSinceClear drained ∧ (∀ side slot, ¬Live ((run 64 drained).ladder side) slot) ∧
      ((run 64 drained).update .ask ⟨132⟩ ⟨2⟩).topOfBook .ask = none := by
  refine ⟨drained_updated, drained_empty, ?_⟩
  decide +kernel

end BoundedBook

end Trading

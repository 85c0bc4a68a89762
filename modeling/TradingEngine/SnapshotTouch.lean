/-
This file says when a snapshot leaves its own touch on the book.

The bids decide it: once the best bid is on top and the best ask is still inside the
window, the arriving asks make the touch two-sided and never longer than the window, so
neither end of it is lost. If the bids alone pulled the window away from the best ask, no
ask gets in at all. Which of the two happens is told by the scan of the bids, from the
levels of the snapshot and nothing else, so the condition is exact and can be evaluated
before the snapshot is handled.
-/

import TradingEngine.BidScan

namespace Trading

namespace BoundedBook

variable {capacity : Nat}

/-! ### The asks -/

/-- Dead asks, and live ones past the window, change nothing while the book has no ask. -/
theorem BidsOnly.update_ask [ValidCapacity capacity] {book : BoundedBook capacity}
    {state : Int × Option PriceLevel} (only : BidsOnly book state) {level : PriceLevel}
    (far : 0 < level.qty.value → state.1 + center capacity ≤ level.price.ticks) :
    BidsOnly (book.update .ask level.price level.qty) state := by
  have indexed := only.wellFormed.indexed
  by_cases covered : Covers capacity book.refTick level.price.ticks
  · have wellFormed := only.wellFormed.update .ask level.price level.qty
    have anchored := update_haveRef book .ask level.price level.qty
    have dead : ¬0 < level.qty.value := by
      intro live
      have past := far live
      have inside := covered.2
      rw [only.ref] at inside
      omega
    obtain ⟨after, updated, writes⟩ := update_of_covers only.wellFormed only.anchored covered .ask
    have fresh := (topOfBook_eq_none indexed).mp only.askTop level.price.ticks
    have askTop : after.topOfBook .ask = none := by
      rw [writes.top_dead indexed fresh dead, only.askTop]
    have next := recenter writes.indexed askTop (updated ▸ wellFormed) (updated ▸ anchored)
    rw [writes.ref, writes.top_other indexed (by decide), only.bid, only.ref,
      only.steady.recenterOn_eq] at next
    rw [updated]
    exact next
  · rw [update_of_not_covers only.anchored covered]
    exact only

/-- Asks that are all beyond the window leave the bids alone. -/
theorem BidsOnly.insert_asks [ValidCapacity capacity] {book : BoundedBook capacity}
    {state : Int × Option PriceLevel} (only : BidsOnly book state) {levels : List PriceLevel}
    (far : ∀ level ∈ liveLevels levels, state.1 + center capacity ≤ level.price.ticks) :
    BidsOnly (book.insertLevels .ask levels) state := by
  induction levels generalizing book with
  | nil => exact only
  | cons level rest inductionHypothesis =>
    refine inductionHypothesis (only.update_ask fun live => far level ?_) fun other member =>
      far other ?_
    · exact List.mem_filter.mpr ⟨List.mem_cons_self, decide_eq_true live⟩
    · obtain ⟨listed, live⟩ := List.mem_filter.mp member
      exact List.mem_filter.mpr ⟨List.mem_cons_of_mem _ listed, live⟩

/-- A book with the best bid of a snapshot on top while its asks arrive: the best ask at
`askTick` is inside the window, and what asks there are leave the touch short of the window. -/
structure Quoted (book : BoundedBook capacity) (bid : PriceLevel) (askTick : Int) : Prop where
  wellFormed : WellFormed book
  anchored : book.haveRef = true
  bidTop : book.topOfBook .bid = some bid
  uncrossed : bid.price.ticks < askTick
  inside : Covers capacity book.refTick askTick
  noAsk : book.topOfBook .ask = none →
    ¬NearEdge capacity book.refTick bid.price.ticks bid.price.ticks
  ask : ∀ ask, book.topOfBook .ask = some ask →
    askTick ≤ ask.price.ticks ∧ ask.price.ticks - bid.price.ticks ≤ (capacity : Int) - 2

namespace Quoted

variable [ValidCapacity capacity] {book : BoundedBook capacity} {bid : PriceLevel} {askTick : Int}

/-- Recentering a quoted book that has an ask keeps both tops and the window over the best
ask of the snapshot. -/
theorem recenter {after : BoundedBook capacity} (indexed : Indexed after) {ask : PriceLevel}
    (bidTop : after.topOfBook .bid = some bid) (askTop : after.topOfBook .ask = some ask)
    (uncrossed : bid.price.ticks < askTick) (inside : Covers capacity after.refTick askTick)
    (behind : askTick ≤ ask.price.ticks)
    (short : ask.price.ticks - bid.price.ticks ≤ (capacity : Int) - 2) :
    (∀ side, after.recenterIfNearEdge.topOfBook side = after.topOfBook side) ∧
      Covers capacity after.recenterIfNearEdge.refTick askTick := by
  have even := two_mul_center capacity
  obtain ⟨present, low, high⟩ := touch_of_both bidTop askTop (by omega)
  refine ⟨recenterIfNearEdge_topOfBook_of_short indexed low high short, ?_⟩
  rw [recenterIfNearEdge_refTick_eq indexed (Or.inl present), low, high, recentered]
  split
  · unfold Covers
    omega
  · exact inside

/-- The ask on top after one more ask is behind the best one and leaves the touch short. -/
theorem ask_bounds (quoted : Quoted book bid askTick) {level ask : PriceLevel}
    (covered : Covers capacity book.refTick level.price.ticks)
    (behind : 0 < level.qty.value → askTick ≤ level.price.ticks)
    (top : (if 0 < level.qty.value then improve .ask (book.topOfBook .ask) level
      else book.topOfBook .ask) = some ask) :
    askTick ≤ ask.price.ticks ∧ ask.price.ticks - bid.price.ticks ≤ (capacity : Int) - 2 := by
  have even := two_mul_center capacity
  have wide := eight_le_recenterMargin capacity
  split at top
  · rename_i live
    cases before : book.topOfBook .ask with
    | none =>
      rw [before] at top
      obtain rfl := Option.some.inj top
      have away := quoted.noAsk before
      have inside := covered.2
      unfold NearEdge at away
      exact ⟨behind live, by omega⟩
    | some best =>
      have bounds := quoted.ask best before
      rw [before, improve] at top
      split at top
      · obtain rfl := Option.some.inj top
        exact bounds
      · rename_i closer
        obtain rfl := Option.some.inj top
        have first := behind live
        simp only [AtLeast] at closer
        exact ⟨first, by omega⟩
  · exact quoted.ask ask top

/-- One ask of a snapshot. -/
theorem update_ask (quoted : Quoted book bid askTick) {level : PriceLevel}
    (fresh : book.levelAt .ask level.price.ticks = none)
    (behind : 0 < level.qty.value → askTick ≤ level.price.ticks) :
    Quoted (book.update .ask level.price level.qty) bid askTick ∧
      (book.update .ask level.price level.qty).topOfBook .ask =
        if 0 < level.qty.value ∧ Covers capacity book.refTick level.price.ticks then
          improve .ask (book.topOfBook .ask) level
        else book.topOfBook .ask := by
  have indexed := quoted.wellFormed.indexed
  by_cases covered : Covers capacity book.refTick level.price.ticks
  · have wellFormed := quoted.wellFormed.update .ask level.price level.qty
    have anchored := update_haveRef book .ask level.price level.qty
    obtain ⟨after, updated, writes⟩ :=
      update_of_covers quoted.wellFormed quoted.anchored covered .ask
    have bidTop : after.topOfBook .bid = some bid := by
      rw [writes.top_other indexed (by decide), quoted.bidTop]
    have inside : Covers capacity after.refTick askTick := by
      rw [writes.ref]
      exact quoted.inside
    have askTop : after.topOfBook .ask = if 0 < level.qty.value then
        improve .ask (book.topOfBook .ask) level else book.topOfBook .ask := by
      split
      · exact writes.top_live indexed fresh ‹_›
      · exact writes.top_dead indexed fresh ‹_›
    simp only [covered, and_true]
    rw [updated] at wellFormed anchored ⊢
    rw [← askTop]
    cases top : after.topOfBook .ask with
    | none =>
      have away : book.topOfBook .ask = none := by
        rw [top] at askTop
        split at askTop
        · unfold improve at askTop
          split at askTop
          · cases askTop
          · split at askTop <;> cases askTop
        · exact askTop.symm
      have next := BidsOnly.recenter writes.indexed top wellFormed anchored
      have still : recenterOn capacity book.refTick (some bid) = book.refTick :=
        if_neg (quoted.noAsk away)
      rw [writes.ref, bidTop, still] at next
      refine ⟨⟨wellFormed, anchored, next.bid, quoted.uncrossed, ?_, fun _ => ?_, ?_⟩, next.askTop⟩
      · rw [next.ref]
        exact quoted.inside
      · rw [next.ref]
        exact quoted.noAsk away
      · intro ask found
        rw [next.askTop] at found
        cases found
    | some ask =>
      have bounds := quoted.ask_bounds covered behind (askTop.symm.trans top)
      obtain ⟨tops, still⟩ := recenter writes.indexed bidTop top quoted.uncrossed inside
        bounds.1 bounds.2
      refine ⟨⟨wellFormed, anchored, (tops .bid).trans bidTop, quoted.uncrossed, still, ?_, ?_⟩,
        (tops .ask).trans top⟩
      · intro absent
        rw [tops, top] at absent
        cases absent
      · intro other found
        rw [tops, top] at found
        rw [← Option.some.inj found]
        exact bounds
  · rw [update_of_not_covers quoted.anchored covered, if_neg (fun both => covered both.2)]
    exact ⟨quoted, rfl⟩

/-- All asks of a snapshot. -/
theorem insert_asks (quoted : Quoted book bid askTick) {levels : List PriceLevel}
    {ask : PriceLevel} (askLive : 0 < ask.qty.value) (tick : ask.price.ticks = askTick)
    (atLeast : ∀ level ∈ liveLevels levels, askTick ≤ level.price.ticks)
    (fresh : ∀ level ∈ levels, book.levelAt .ask level.price.ticks = none)
    (distinct : (levels.map fun level => level.price.ticks).Nodup)
    (present : book.topOfBook .ask = some ask ∨ ask ∈ levels) :
    (book.insertLevels .ask levels).topOfBook .bid = some bid ∧
      (book.insertLevels .ask levels).topOfBook .ask = some ask := by
  induction levels generalizing book with
  | nil => exact ⟨quoted.bidTop, present.resolve_right (List.not_mem_nil)⟩
  | cons level rest inductionHypothesis =>
    rw [List.map_cons, List.nodup_cons] at distinct
    have behind (live : 0 < level.qty.value) : askTick ≤ level.price.ticks :=
      atLeast level (List.mem_filter.mpr ⟨List.mem_cons_self, decide_eq_true live⟩)
    obtain ⟨next, askTop⟩ := quoted.update_ask (fresh level List.mem_cons_self) behind
    refine inductionHypothesis next ?_ ?_ distinct.2 ?_
    · intro other member
      obtain ⟨listed, live⟩ := List.mem_filter.mp member
      exact atLeast other (List.mem_filter.mpr ⟨List.mem_cons_of_mem _ listed, live⟩)
    · intro other member
      refine levelAt_update_of_ne quoted.wellFormed (fun same => distinct.1 ?_)
        (fresh other (List.mem_cons_of_mem _ member)) level.qty
      rw [← same.2]
      exact List.mem_map_of_mem member
    · rw [askTop]
      rcases present with top | listed
      · refine Or.inl ?_
        split
        · rename_i live
          rw [top, improve, if_pos]
          rw [tick]
          exact behind live.1
        · exact top
      · rcases List.mem_cons.mp listed with rfl | later
        · refine Or.inl ?_
          rw [if_pos ⟨askLive, by rw [tick]; exact quoted.inside⟩]
          cases before : book.topOfBook .ask with
          | none => rfl
          | some best =>
            have held := ((topOfBook_eq_some quoted.wellFormed.indexed).mp before).1
            have bounds := (quoted.ask best before).1
            have different : best.price.ticks ≠ ask.price.ticks := by
              intro same
              rw [same, fresh ask List.mem_cons_self] at held
              cases held
            rw [improve, if_neg]
            simp only [AtLeast]
            omega
        · exact Or.inr later

end Quoted

/-! ### The whole snapshot -/

theorem WellFormed.insertLevels [ValidCapacity capacity] {book : BoundedBook capacity}
    (wellFormed : WellFormed book) (side : Side) (levels : List PriceLevel) :
    WellFormed (book.insertLevels side levels) := by
  rw [insertLevels_eq]
  exact wellFormed.foldl _

/-- Levels entered on one side add nothing to the other one. -/
theorem levelAt_insertLevels_other [ValidCapacity capacity] {book : BoundedBook capacity}
    (wellFormed : WellFormed book) {side other : Side} (different : other ≠ side)
    {levels : List PriceLevel} {tick : Int} {quantity : ℚ}
    (found : (book.insertLevels side levels).levelAt other tick = some quantity) :
    book.levelAt other tick = some quantity := by
  induction levels generalizing book with
  | nil => exact found
  | cons level rest inductionHypothesis =>
    have held := inductionHypothesis (wellFormed.update side level.price level.qty) found
    rw [levelAt_update wellFormed.anchored] at held
    split at held
    · rwa [if_neg (fun all => different all.1)] at held
    · cases held

/-- Folding `max` over a list that tops out at `top`. -/
theorem foldl_max_eq {Order : Type} [LinearOrder Order] {values : List Order} {start top : Order}
    (below : start ≤ top) (atMost : ∀ value ∈ values, value ≤ top)
    (reached : start = top ∨ top ∈ values) : values.foldl max start = top := by
  induction values generalizing start with
  | nil => exact reached.resolve_right List.not_mem_nil
  | cons value rest inductionHypothesis =>
    have head := atMost value List.mem_cons_self
    refine inductionHypothesis (max_le below head)
      (fun other member => atMost other (List.mem_cons_of_mem _ member)) ?_
    rcases reached with rfl | listed
    · exact Or.inl (max_eq_left head)
    · rcases List.mem_cons.mp listed with rfl | later
      · exact Or.inl (max_eq_right below)
      · exact Or.inr later

/-- The best bid a snapshot is anchored with is its highest live bid. -/
theorem bestBidTick_eq {levels : List PriceLevel} {bid : PriceLevel}
    (listed : bid ∈ liveLevels levels)
    (atMost : ∀ level ∈ liveLevels levels, level.price.ticks ≤ bid.price.ticks)
    (representable : int64Min ≤ bid.price.ticks) : bestBidTick levels = bid.price.ticks := by
  have folded : bestBidTick levels =
      ((liveLevels levels).map fun level => level.price.ticks).foldl max int64Min := by
    rw [liveLevels, List.foldl_map, List.foldl_filter]
    simp only [decide_eq_true_eq]
    rfl
  rw [folded]
  refine foldl_max_eq representable ?_ (Or.inr (List.mem_map_of_mem listed))
  rintro tick member
  obtain ⟨level, live, rfl⟩ := List.mem_map.mp member
  exact atMost level live

/-- The best ask a snapshot is anchored with is its lowest live ask. -/
theorem bestAskTick_eq {levels : List PriceLevel} {ask : PriceLevel}
    (listed : ask ∈ liveLevels levels)
    (atLeast : ∀ level ∈ liveLevels levels, ask.price.ticks ≤ level.price.ticks)
    (representable : ask.price.ticks ≤ int64Max) : bestAskTick levels = ask.price.ticks := by
  have folded : bestAskTick levels =
      ((liveLevels levels).map fun level => level.price.ticks).foldl min int64Max := by
    rw [liveLevels, List.foldl_map, List.foldl_filter]
    simp only [decide_eq_true_eq]
    rfl
  rw [folded]
  refine @foldl_max_eq Intᵒᵈ _ _ _ _ representable ?_ (Or.inr (List.mem_map_of_mem listed))
  rintro tick member
  obtain ⟨level, live, rfl⟩ := List.mem_map.mp member
  exact atLeast level live

theorem levelAt_seeded (book : BoundedBook capacity) (price : Price) (side : Side) (tick : Int) :
    (book.clear.seedReference price).levelAt side tick = none := by
  rw [levelAt_seedReference (clear_wellFormed book).anchored, levelAt_clear]

/-- A cleared book seeded on a tick. -/
theorem seeded_bidsOnly (book : BoundedBook capacity) (ref : Int) :
    BidsOnly (book.clear.seedReference ⟨ref⟩) (ref, none) where
  wellFormed := (clear_wellFormed book).seedReference _
  anchored := seedReference_haveRef _ _
  ref := rfl
  askTop := (topOfBook_eq_none ((clear_indexed book).seedReference _)).mpr
    (levelAt_seeded book _ _)
  bid := (topOfBook_eq_none ((clear_indexed book).seedReference _)).mpr (levelAt_seeded book _ _)
  steady := by rintro best ⟨⟩

/-- A best bid that the bids of a snapshot leave on the book is on top. -/
theorem bidScan_eq_of_held {book : BoundedBook capacity} {ref : Int} {bids : List PriceLevel}
    (only : BidsOnly book (bidScan capacity (ref, none) bids)) {bid : PriceLevel}
    (listed : bid ∈ liveLevels bids)
    (atMost : ∀ level ∈ liveLevels bids, level.price.ticks ≤ bid.price.ticks)
    (distinct : ((liveLevels bids).map fun level => level.price.ticks).Nodup)
    (held : book.levelAt .bid bid.price.ticks = some bid.qty.value) :
    (bidScan capacity (ref, none) bids).2 = some bid := by
  cases top : (bidScan capacity (ref, none) bids).2 with
  | none =>
    have empty := (topOfBook_eq_none only.wellFormed.indexed).mp (only.bid.trans top)
    rw [empty] at held
    cases held
  | some best =>
    have ahead := ((topOfBook_eq_some only.wellFormed.indexed).mp (only.bid.trans top)).2 _ _ held
    have member := (scan_source top).resolve_left nofun
    rw [List.inj_on_of_nodup_map distinct member listed (le_antisymm (atMost best member) ahead)]

/-- A snapshot leaves its own touch on top of both sides exactly under the closed condition,
whatever the book held before. -/
theorem applySnapshot_touch [ValidCapacity capacity] (book : BoundedBook capacity)
    (snap : MarketEvent.Snap) {bid ask : PriceLevel} (bidListed : bid ∈ liveLevels snap.bidLevels)
    (askListed : ask ∈ liveLevels snap.askLevels)
    (atMost : ∀ level ∈ liveLevels snap.bidLevels, level.price.ticks ≤ bid.price.ticks)
    (atLeast : ∀ level ∈ liveLevels snap.askLevels, ask.price.ticks ≤ level.price.ticks)
    (bidsDistinct : (snap.bidLevels.map fun level => level.price.ticks).Nodup)
    (asksDistinct : (snap.askLevels.map fun level => level.price.ticks).Nodup)
    (uncrossed : bid.price.ticks < ask.price.ticks)
    (fits : ask.price.ticks - bid.price.ticks ≤ (capacity : Int) - 2)
    (bidMarked : int64Min < bid.price.ticks) (askMarked : ask.price.ticks < int64Max) :
    ((book.applySnapshot snap).topOfBook .bid = some bid ∧
        (book.applySnapshot snap).topOfBook .ask = some ask) ↔
      KeepsTouch capacity snap.bidLevels bid ask := by
  have liveDistinct : ((liveLevels snap.bidLevels).map fun level => level.price.ticks).Nodup :=
    bidsDistinct.sublist (List.filter_sublist.map _)
  have seeded : book.clear.anchorOnMid snap.bidLevels snap.askLevels =
      book.clear.seedReference ⟨seedTick bid ask⟩ := by
    unfold anchorOnMid
    rw [bestBidTick_eq bidListed atMost (le_of_lt bidMarked),
      bestAskTick_eq askListed atLeast (le_of_lt askMarked)]
    exact if_pos ⟨ne_of_gt bidMarked, ne_of_lt askMarked⟩
  have start := seeded_bidsOnly book (seedTick bid ask)
  have bids := start.insert_bids (fun level _ => levelAt_seeded book _ _ _) bidsDistinct
  rw [← bidScan_iff bidListed atMost liveDistinct uncrossed fits]
  unfold applySnapshot
  rw [seeded]
  have noAsk := (topOfBook_eq_none bids.wellFormed.indexed).mp bids.askTop
  constructor
  · rintro ⟨bidTop, askTop⟩
    constructor
    · have held := ((topOfBook_eq_some
        (bids.wellFormed.insertLevels .ask snap.askLevels).indexed).mp bidTop).1
      exact bidScan_eq_of_held bids bidListed atMost liveDistinct
        (levelAt_insertLevels_other bids.wellFormed (by decide) held)
    · by_contra far
      have none := (bids.insert_asks fun level member =>
        le_trans (not_lt.mp far) (atLeast level member)).askTop
      rw [none] at askTop
      cases askTop
  · rintro ⟨bidTop, inside⟩
    have quoted : Quoted
        ((book.clear.seedReference ⟨seedTick bid ask⟩).insertLevels .bid snap.bidLevels) bid
        ask.price.ticks := by
      refine ⟨bids.wellFormed, bids.anchored, bids.bid.trans bidTop, uncrossed, ?_, ?_, ?_⟩
      · rw [bids.ref]
        have held := (topOfBook_eq_some bids.wellFormed.indexed).mp (bids.bid.trans bidTop)
        have low := (covers_of_levelAt held.1).1
        rw [bids.ref] at low
        exact ⟨by omega, inside⟩
      · intro _
        rw [bids.ref]
        exact bids.steady bid bidTop
      · intro other found
        rw [bids.askTop] at found
        cases found
    obtain ⟨askMember, askLive⟩ := List.mem_filter.mp askListed
    exact quoted.insert_asks (of_decide_eq_true askLive) rfl atLeast
      (fun level _ => noAsk level.price.ticks) asksDistinct (Or.inr askMember)

end BoundedBook

/-! ### The event -/

/-- A snapshot whose best live bid is `bid` and whose best live ask is `ask`, with distinct
prices on each side. -/
structure MarketEvent.Snap.Quotes (snap : MarketEvent.Snap) (bid ask : PriceLevel) : Prop where
  bidListed : bid ∈ BoundedBook.liveLevels snap.bidLevels
  askListed : ask ∈ BoundedBook.liveLevels snap.askLevels
  atMost : ∀ level ∈ BoundedBook.liveLevels snap.bidLevels, level.price.ticks ≤ bid.price.ticks
  atLeast : ∀ level ∈ BoundedBook.liveLevels snap.askLevels, ask.price.ticks ≤ level.price.ticks
  bidsDistinct : (snap.bidLevels.map fun level => level.price.ticks).Nodup
  asksDistinct : (snap.askLevels.map fun level => level.price.ticks).Nodup
  uncrossed : bid.price.ticks < ask.price.ticks

namespace Runtime

theorem processEvent_snapshot_book (rt : Runtime) (clock : EventClock) {ev : MarketEvent}
    (kind : ev.kind = .snapshot) :
    (rt.processEvent clock ev).book = rt.book.applySnapshot ev.snap := by
  rw [processEvent_book, MarketEvent.calls, kind, BoundedBook.applySnapshot_eq]

/-- Whatever the runtime held before, a snapshot whose touch fits the window around its mid
leaves that touch on top of both sides exactly when the bids keep it. The two ticks the
snapshot code reserves for an empty side are not live levels. -/
theorem processEvent_snapshot_touch (rt : Runtime) (clock : EventClock) (ev : MarketEvent)
    (kind : ev.kind = .snapshot) (bid ask : PriceLevel) (quotes : ev.snap.Quotes bid ask)
    (fits : ask.price.ticks - bid.price.ticks ≤ (bookCapacity : Int) - 2)
    (bidMarked : int64Min < bid.price.ticks) (askMarked : ask.price.ticks < int64Max) :
    ((rt.processEvent clock ev).book.topOfBook .bid = some bid ∧
        (rt.processEvent clock ev).book.topOfBook .ask = some ask) ↔
      BoundedBook.KeepsTouch bookCapacity ev.snap.bidLevels bid ask := by
  rw [processEvent_snapshot_book rt clock kind]
  exact rt.book.applySnapshot_touch ev.snap quotes.bidListed quotes.askListed quotes.atMost
    quotes.atLeast quotes.bidsDistinct quotes.asksDistinct quotes.uncrossed fits bidMarked
    askMarked

/-- A snapshot of one bid at tick 10000 and one ask. -/
def oneLevelSnapshot (askTick : Int) : MarketEvent :=
  { MarketEvent.empty with
    kind := .snapshot
    snap := ⟨1, 1, Vector.replicate _ ⟨⟨10000⟩, ⟨3⟩⟩, Vector.replicate _ ⟨⟨askTick⟩, ⟨1⟩⟩,
      Nat.le_add_left 1 63, Nat.le_add_left 1 63⟩ }

theorem oneLevelSnapshot_quotes {askTick : Int} (uncrossed : 10000 < askTick) :
    (oneLevelSnapshot askTick).snap.Quotes ⟨⟨10000⟩, ⟨3⟩⟩ ⟨⟨askTick⟩, ⟨1⟩⟩ := by
  have bids : (oneLevelSnapshot askTick).snap.bidLevels = [⟨⟨10000⟩, ⟨3⟩⟩] := rfl
  have asks : (oneLevelSnapshot askTick).snap.askLevels = [⟨⟨askTick⟩, ⟨1⟩⟩] := rfl
  constructor <;> simp [bids, asks, BoundedBook.liveLevels, uncrossed]

/-- A spread of one tick is kept. -/
theorem processEvent_snapshot_touch_narrow :
    ((create {}).processEvent ⟨1, 2, 3, 4, 5, 6⟩ (oneLevelSnapshot 10001)).book.topOfBook .bid =
        some ⟨⟨10000⟩, ⟨3⟩⟩ ∧
      ((create {}).processEvent ⟨1, 2, 3, 4, 5, 6⟩ (oneLevelSnapshot 10001)).book.topOfBook .ask =
        some ⟨⟨10001⟩, ⟨1⟩⟩ :=
  (processEvent_snapshot_touch (create {}) ⟨1, 2, 3, 4, 5, 6⟩ (oneLevelSnapshot 10001) rfl
    ⟨⟨10000⟩, ⟨3⟩⟩ ⟨⟨10001⟩, ⟨1⟩⟩ (oneLevelSnapshot_quotes (by decide)) (by decide) (by decide)
    (by decide)).mpr ⟨⟨⟨10000⟩, ⟨3⟩⟩, by decide +kernel, Or.inl (by decide)⟩

/-- A spread of 4094 ticks fits the window around the mid, but the bid recenters the window on
itself and the ask is dropped. -/
theorem processEvent_snapshot_loses_ask :
    (oneLevelSnapshot 14094).snap.Quotes ⟨⟨10000⟩, ⟨3⟩⟩ ⟨⟨14094⟩, ⟨1⟩⟩ ∧
      (14094 : Int) - 10000 ≤ (bookCapacity : Int) - 2 ∧
      ¬(((create {}).processEvent ⟨1, 2, 3, 4, 5, 6⟩ (oneLevelSnapshot 14094)).book.topOfBook .bid =
          some ⟨⟨10000⟩, ⟨3⟩⟩ ∧
        ((create {}).processEvent ⟨1, 2, 3, 4, 5, 6⟩ (oneLevelSnapshot 14094)).book.topOfBook .ask =
          some ⟨⟨14094⟩, ⟨1⟩⟩) := by
  have quotes := oneLevelSnapshot_quotes (show (10000 : Int) < 14094 by decide)
  refine ⟨quotes, by decide, ?_⟩
  rw [processEvent_snapshot_book (create {}) _ rfl,
    BoundedBook.applySnapshot_touch _ _ quotes.bidListed quotes.askListed quotes.atMost
      quotes.atLeast quotes.bidsDistinct quotes.asksDistinct quotes.uncrossed (by decide)
      (by decide) (by decide)]
  decide +kernel

end Runtime

end Trading

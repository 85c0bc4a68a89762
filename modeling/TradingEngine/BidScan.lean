/-
This file follows the bids of a snapshot into an empty book whose window is seeded
on the mid.

While no ask is there, a bid near an edge recenters the window on the bids alone.
`bidScan` follows the reference tick and the best bid through that phase. Its closed
form needs only the first live bid the seeded window covers and whether a later one
recaptures the window from it.
-/

import TradingEngine.BookWrites
import TradingEngine.RuntimeBook

namespace Trading

namespace BoundedBook

variable {capacity : Nat}

/-! ### The bids alone -/

/-- The reference tick after a recentering on the best bid, if there is one. -/
def recenterOn (capacity : Nat) (ref : Int) : Option PriceLevel → Int
  | some best => recentered capacity ref best.price.ticks best.price.ticks
  | none => ref

/-- One live bid of a snapshot, followed by reference tick and best bid. -/
def bidStep (capacity : Nat) (state : Int × Option PriceLevel) (level : PriceLevel) :
    Int × Option PriceLevel :=
  if Covers capacity state.1 level.price.ticks then
    let best := improve .bid state.2 level
    (recenterOn capacity state.1 best, best)
  else state

/-- The live levels of a list. -/
def liveLevels (levels : List PriceLevel) : List PriceLevel :=
  levels.filter fun level => 0 < level.qty.value

/-- Reference tick and best bid after the bids of a snapshot. -/
def bidScan (capacity : Nat) (state : Int × Option PriceLevel) (levels : List PriceLevel) :
    Int × Option PriceLevel :=
  (liveLevels levels).foldl (bidStep capacity) state

/-- The best bid, if there is one, is away from the edges of the window. -/
def Steady (capacity : Nat) (state : Int × Option PriceLevel) : Prop :=
  ∀ best ∈ state.2, ¬NearEdge capacity state.1 best.price.ticks best.price.ticks

theorem Steady.recenterOn_eq {state : Int × Option PriceLevel} (steady : Steady capacity state) :
    recenterOn capacity state.1 state.2 = state.1 := by
  cases best : state.2 with
  | none => rfl
  | some bid => exact if_neg (steady bid best)

theorem recenterOn_steady [ValidCapacity capacity] (ref : Int) (best : Option PriceLevel) :
    Steady capacity (recenterOn capacity ref best, best) := by
  have margin := four_mul_recenterMargin capacity
  have positive := center_pos capacity
  rintro bid rfl near
  simp only [recenterOn, recentered] at near
  split at near
  · unfold NearEdge at near
    omega
  · exact absurd near ‹_›

/-- A book that holds bids only, with its touch away from the edges. -/
structure BidsOnly (book : BoundedBook capacity) (state : Int × Option PriceLevel) : Prop where
  wellFormed : WellFormed book
  anchored : book.haveRef = true
  ref : book.refTick = state.1
  askTop : book.topOfBook .ask = none
  bid : book.topOfBook .bid = state.2
  steady : Steady capacity state

namespace BidsOnly

variable {book : BoundedBook capacity} {state : Int × Option PriceLevel}

variable [ValidCapacity capacity]

/-- Recentering a written book that holds bids only. -/
theorem recenter {after : BoundedBook capacity} (indexed : Indexed after)
    (askTop : after.topOfBook .ask = none)
    (wellFormed : WellFormed after.recenterIfNearEdge)
    (anchored : after.recenterIfNearEdge.haveRef = true) :
    BidsOnly after.recenterIfNearEdge
      (recenterOn capacity after.refTick (after.topOfBook .bid), after.topOfBook .bid) := by
  have even := two_mul_center capacity
  have positive := center_pos capacity
  have kept : (∀ side, after.recenterIfNearEdge.topOfBook side = after.topOfBook side) ∧
      after.recenterIfNearEdge.refTick =
        recenterOn capacity after.refTick (after.topOfBook .bid) := by
    cases bidTop : after.topOfBook .bid with
    | none =>
      have absent : after.recenterIfNearEdge = after := by
        rcases recenterIfNearEdge_cases after with same | ⟨hasBid | hasAsk, -⟩
        · exact same
        · exact absurd hasBid (absent_of_bidTop_none bidTop)
        · exact absurd hasAsk (absent_of_askTop_none askTop)
      rw [absent]
      exact ⟨fun _ => rfl, rfl⟩
    | some bid =>
      obtain ⟨present, low, high⟩ := touch_of_bid bidTop askTop
      refine ⟨recenterIfNearEdge_topOfBook_of_short indexed low high (by omega), ?_⟩
      rw [recenterIfNearEdge_refTick_eq indexed (Or.inl present), low, high]
      rfl
  exact ⟨wellFormed, anchored, kept.2, (kept.1 .ask).trans askTop, kept.1 .bid,
    recenterOn_steady _ _⟩

/-- One bid of a snapshot. -/
theorem update_bid (only : BidsOnly book state) {level : PriceLevel}
    (fresh : book.levelAt .bid level.price.ticks = none) :
    BidsOnly (book.update .bid level.price level.qty)
      (if 0 < level.qty.value then bidStep capacity state level else state) := by
  have indexed := only.wellFormed.indexed
  unfold bidStep
  rw [← only.ref]
  by_cases covered : Covers capacity book.refTick level.price.ticks
  · have wellFormed := only.wellFormed.update .bid level.price level.qty
    have anchored := update_haveRef book .bid level.price level.qty
    obtain ⟨after, updated, writes⟩ :=
      update_of_covers only.wellFormed only.anchored covered .bid
    have noAsk : after.topOfBook .ask = none := by
      rw [writes.top_other indexed (by decide), only.askTop]
    have next := recenter writes.indexed noAsk (updated ▸ wellFormed) (updated ▸ anchored)
    rw [updated, if_pos covered]
    rw [writes.ref] at next
    split
    · rename_i live
      rw [writes.top_live indexed fresh live, only.bid] at next
      exact next
    · rename_i dead
      rw [writes.top_dead indexed fresh dead, only.bid, only.ref, only.steady.recenterOn_eq] at next
      exact next
  · rw [update_of_not_covers only.anchored covered, if_neg covered, ite_self]
    exact only

/-- All bids of a snapshot. -/
theorem insert_bids (only : BidsOnly book state) {levels : List PriceLevel}
    (fresh : ∀ level ∈ levels, book.levelAt .bid level.price.ticks = none)
    (distinct : (levels.map fun level => level.price.ticks).Nodup) :
    BidsOnly (book.insertLevels .bid levels) (bidScan capacity state levels) := by
  induction levels generalizing book state with
  | nil => exact only
  | cons level rest inductionHypothesis =>
    rw [List.map_cons, List.nodup_cons] at distinct
    have next := only.update_bid (fresh level List.mem_cons_self)
    have scan : bidScan capacity state (level :: rest) =
        bidScan capacity
          (if 0 < level.qty.value then bidStep capacity state level else state) rest := by
      unfold bidScan liveLevels
      by_cases live : 0 < level.qty.value
      · rw [List.filter_cons_of_pos (by simpa using live), if_pos live, List.foldl_cons]
      · rw [List.filter_cons_of_neg (by simpa using live), if_neg live]
    rw [scan]
    refine inductionHypothesis next (fun other member => ?_) distinct.2
    refine levelAt_update_of_ne only.wellFormed (fun same => distinct.1 ?_)
      (fresh other (List.mem_cons_of_mem _ member)) level.qty
    rw [← same.2]
    exact List.mem_map_of_mem member

end BidsOnly

/-! ### The scan in closed form -/

/-- The mid the window is seeded on. -/
def seedTick (bid ask : PriceLevel) : Int :=
  bid.price.ticks + (ask.price.ticks - bid.price.ticks).tdiv 2

/-- The levels listed no later than a given one. -/
def upTo (levels : List PriceLevel) (last : PriceLevel) : List PriceLevel :=
  levels.takeWhile (fun level => level ≠ last) ++ [last]

/-- What decides a snapshot with touch `bid` and `ask`. Let `first` be the first live bid that
the window seeded on the mid covers. Then `first` is away from the lower edge of that window,
or the ask is less than half a window above `first`, or some live bid listed no later than the
best one lies in the upper margin of the window around `first`. -/
def KeepsTouch (capacity : Nat) (bids : List PriceLevel) (bid ask : PriceLevel) : Prop :=
  ∃ first ∈ (liveLevels bids).find?
      (fun level => Covers capacity (seedTick bid ask) level.price.ticks),
    seedTick bid ask - center capacity + recenterMargin capacity ≤ first.price.ticks ∨
      ask.price.ticks < first.price.ticks + center capacity ∨
      ∃ level ∈ upTo (liveLevels bids) bid,
        first.price.ticks + center capacity - recenterMargin capacity ≤ level.price.ticks ∧
          level.price.ticks < first.price.ticks + center capacity

instance (capacity : Nat) (bids : List PriceLevel) (bid ask : PriceLevel) :
    Decidable (KeepsTouch capacity bids bid ask) :=
  inferInstanceAs (Decidable (∃ _ ∈ _, _))

/-- A bid ahead of all before it becomes the best one, and the window follows it. -/
theorem bidStep_ahead {ref : Int} {best : Option PriceLevel} {level : PriceLevel}
    (covered : Covers capacity ref level.price.ticks)
    (ahead : ∀ held ∈ best, held.price.ticks < level.price.ticks) :
    bidStep capacity (ref, best) level =
      (recentered capacity ref level.price.ticks level.price.ticks, some level) := by
  have improved : improve .bid best level = some level := by
    cases best with
    | none => rfl
    | some held => exact if_neg (not_le.mpr (ahead held rfl))
  rw [bidStep, if_pos covered, improved]
  rfl

/-- A bid behind the best one changes nothing while the best one is off the edges. -/
theorem bidStep_behind {ref : Int} {best level : PriceLevel}
    (steady : ¬NearEdge capacity ref best.price.ticks best.price.ticks)
    (behind : level.price.ticks ≤ best.price.ticks) :
    bidStep capacity (ref, some best) level = (ref, some best) := by
  have improved : improve .bid (some best) level = some best := if_pos behind
  unfold bidStep
  rw [improved]
  split
  · simp only [recenterOn, recentered, if_neg steady]
  · rfl

/-- While the bids stay out of the upper margin the reference tick stays where it is, and the
best bid follows the bids below that margin. -/
theorem scan_quiet [ValidCapacity capacity] {ref : Int} {best : PriceLevel}
    {levels : List PriceLevel}
    (steady : ¬NearEdge capacity ref best.price.ticks best.price.ticks)
    (quiet : ∀ level ∈ levels,
      level.price.ticks < ref + center capacity - recenterMargin capacity ∨
        ref + center capacity ≤ level.price.ticks) :
    ∃ top, levels.foldl (bidStep capacity) (ref, some best) = (ref, some top) ∧
      ¬NearEdge capacity ref top.price.ticks top.price.ticks ∧
      best.price.ticks ≤ top.price.ticks ∧ (top = best ∨ top ∈ levels) ∧
      ∀ level ∈ levels,
        level.price.ticks < ref + center capacity - recenterMargin capacity →
          level.price.ticks ≤ top.price.ticks := by
  have margin := four_mul_recenterMargin capacity
  induction levels generalizing best with
  | nil => exact ⟨best, rfl, steady, le_rfl, Or.inl rfl, nofun⟩
  | cons level rest inductionHypothesis =>
    have step : ∃ next, bidStep capacity (ref, some best) level = (ref, some next) ∧
        ¬NearEdge capacity ref next.price.ticks next.price.ticks ∧
        best.price.ticks ≤ next.price.ticks ∧ (next = best ∨ next = level) ∧
        (level.price.ticks < ref + center capacity - recenterMargin capacity →
          level.price.ticks ≤ next.price.ticks) := by
      have low := quiet level List.mem_cons_self
      by_cases behind : level.price.ticks ≤ best.price.ticks
      · exact ⟨best, bidStep_behind steady behind, steady, le_rfl, Or.inl rfl, fun _ => behind⟩
      · by_cases covered : Covers capacity ref level.price.ticks
        · have away : ¬NearEdge capacity ref level.price.ticks level.price.ticks := by
            unfold NearEdge at steady ⊢
            unfold Covers at covered
            omega
          refine ⟨level, ?_, away, by omega, Or.inr rfl, fun _ => le_rfl⟩
          rw [bidStep_ahead covered (by rintro held ⟨⟩; omega), recentered, if_neg away]
        · refine ⟨best, if_neg covered, steady, le_rfl, Or.inl rfl, fun inside => ?_⟩
          unfold Covers at covered
          unfold NearEdge at steady
          omega
    obtain ⟨next, stepped, nextSteady, nextAbove, origin, caught⟩ := step
    obtain ⟨top, scanned, topSteady, topAbove, source, all⟩ := inductionHypothesis nextSteady
      fun other member => quiet other (List.mem_cons_of_mem _ member)
    refine ⟨top, by rw [List.foldl_cons, stepped, scanned], topSteady, by omega, ?_, ?_⟩
    · rcases source with rfl | later
      · rcases origin with rfl | rfl
        · exact Or.inl rfl
        · exact Or.inr List.mem_cons_self
      · exact Or.inr (List.mem_cons_of_mem _ later)
    · intro other member inside
      rcases List.mem_cons.mp member with rfl | later
      · exact le_trans (caught inside) topAbove
      · exact all other later inside

/-- From a steady best bid on, a list of bids away from the upper margin ends on its best. -/
theorem scan_to_best [ValidCapacity capacity] {ref : Int} {start bid : PriceLevel}
    {levels : List PriceLevel}
    (steady : ¬NearEdge capacity ref start.price.ticks start.price.ticks)
    (below : bid.price.ticks < ref + center capacity - recenterMargin capacity)
    (listed : bid ∈ start :: levels)
    (atMost : ∀ level ∈ start :: levels, level.price.ticks ≤ bid.price.ticks)
    (distinct : ((start :: levels).map fun level => level.price.ticks).Nodup) :
    levels.foldl (bidStep capacity) (ref, some start) = (ref, some bid) := by
  obtain ⟨top, scanned, -, above, source, all⟩ := scan_quiet steady fun level member =>
    Or.inl (lt_of_le_of_lt (atMost level (List.mem_cons_of_mem _ member)) below)
  have member : top ∈ start :: levels := by
    rcases source with rfl | later
    · exact List.mem_cons_self
    · exact List.mem_cons_of_mem _ later
  have reached : bid.price.ticks ≤ top.price.ticks := by
    rcases List.mem_cons.mp listed with rfl | later
    · exact above
    · exact all bid later below
  have same : top = bid := List.inj_on_of_nodup_map distinct member listed
    (le_antisymm (atMost top member) reached)
  rw [scanned, same]

theorem upTo_append {before levels : List PriceLevel} {last : PriceLevel}
    (absent : last ∉ before) : upTo (before ++ levels) last = before ++ upTo levels last := by
  have kept : ∀ level ∈ before, decide (level ≠ last) = true := by
    intro level member
    exact decide_eq_true fun same => absent (same ▸ member)
  rw [upTo, List.takeWhile_append_of_pos kept, List.append_assoc]
  rfl

theorem upTo_cons_self (last : PriceLevel) (after : List PriceLevel) :
    upTo (last :: after) last = [last] := by
  rw [upTo, List.takeWhile_cons_of_neg (by simp), List.nil_append]

theorem recentered_of_near {ref tick : Int} (near : NearEdge capacity ref tick tick) :
    recentered capacity ref tick tick = tick := by
  rw [recentered, if_pos near]
  omega

/-- The first of the items that have a property. -/
theorem exists_first {Item : Type} {Property : Item → Prop} [DecidablePred Property]
    {items : List Item} (some : ∃ item ∈ items, Property item) :
    ∃ first earlier later, items = earlier ++ first :: later ∧ Property first ∧
      ∀ item ∈ earlier, ¬Property item := by
  obtain ⟨item, member, holds⟩ := some
  have isSome : (items.find? fun item => Property item).isSome :=
    List.find?_isSome.mpr ⟨item, member, decide_eq_true holds⟩
  obtain ⟨first, found⟩ := Option.isSome_iff_exists.mp isSome
  obtain ⟨holdsFirst, earlier, later, split, missed⟩ := List.find?_eq_some_iff_append.mp found
  refine ⟨first, earlier, later, split, of_decide_eq_true holdsFirst, fun other listed => ?_⟩
  have not := missed other listed
  rwa [Bool.not_eq_true', decide_eq_false_iff_not] at not

/-- A bid in the upper margin, listed no later than the best one, pulls the window up to
itself, and the best bid is reached from there. -/
theorem scan_recaptured [ValidCapacity capacity] {first bid : PriceLevel}
    {before after : List PriceLevel}
    (atMost : ∀ level ∈ before ++ bid :: after, level.price.ticks ≤ bid.price.ticks)
    (distinct : ((before ++ bid :: after).map fun level => level.price.ticks).Nodup)
    (reach : bid.price.ticks ≤ first.price.ticks + center capacity)
    (recaptured : ∃ level ∈ before ++ [bid],
      first.price.ticks + center capacity - recenterMargin capacity ≤ level.price.ticks ∧
        level.price.ticks < first.price.ticks + center capacity) :
    ∃ ref, first.price.ticks + center capacity - recenterMargin capacity ≤ ref ∧
      (before ++ bid :: after).foldl (bidStep capacity) (first.price.ticks, some first) =
        (ref, some bid) := by
  have margin := four_mul_recenterMargin capacity
  have steady (tick : Int) := not_nearEdge_self capacity tick
  obtain ⟨pull, earlier, later, split, pulled, unpulled⟩ := exists_first recaptured
  have quiet : ∀ level ∈ earlier,
      level.price.ticks < first.price.ticks + center capacity - recenterMargin capacity ∨
        first.price.ticks + center capacity ≤ level.price.ticks := by
    intro level member
    have outside := unpulled level member
    omega
  have whole : before ++ bid :: after = earlier ++ pull :: (later ++ after) := by
    rw [List.append_cons, split, List.append_assoc, List.cons_append]
  have listed : bid ∈ pull :: later := by
    have last : (earlier ++ pull :: later).getLast? = some bid := by
      rw [← split, List.getLast?_append]
      rfl
    rw [List.getLast?_append_of_ne_nil _ (List.cons_ne_nil _ _)] at last
    exact List.mem_of_getLast? last
  rw [whole] at atMost distinct ⊢
  obtain ⟨top, scanned, topSteady, -, -, -⟩ := scan_quiet (steady first.price.ticks) quiet
  have near : NearEdge capacity first.price.ticks pull.price.ticks pull.price.ticks :=
    Or.inr pulled.1
  have covered : Covers capacity first.price.ticks pull.price.ticks :=
    ⟨by omega, pulled.2⟩
  have ahead : ∀ held ∈ some top, held.price.ticks < pull.price.ticks := by
    rintro held ⟨⟩
    unfold NearEdge at topSteady
    omega
  refine ⟨pull.price.ticks, pulled.1, ?_⟩
  rw [List.foldl_append, scanned, List.foldl_cons, bidStep_ahead covered ahead,
    recentered_of_near near]
  refine scan_to_best (steady pull.price.ticks) (by omega) ?_ ?_ ?_
  · rcases List.mem_cons.mp listed with same | member
    · rw [same]
      exact List.mem_cons_self
    · exact List.mem_cons_of_mem _ (List.mem_append_left _ member)
  · exact fun level member => atMost level (List.mem_append_right _ member)
  · exact distinct.sublist ((List.sublist_append_right _ _).map _)

theorem scan_source {state : Int × Option PriceLevel} {levels : List PriceLevel}
    {top : PriceLevel} (reached : (levels.foldl (bidStep capacity) state).2 = some top) :
    state.2 = some top ∨ top ∈ levels := by
  induction levels generalizing state with
  | nil => exact Or.inl reached
  | cons level rest inductionHypothesis =>
    rcases inductionHypothesis reached with held | later
    · have step : (bidStep capacity state level).2 = state.2 ∨
          (bidStep capacity state level).2 = some level := by
        unfold bidStep improve
        split
        · cases state.2 with
          | none => exact Or.inr rfl
          | some best =>
            dsimp only
            split
            · exact Or.inl rfl
            · exact Or.inr rfl
        · exact Or.inl rfl
      rcases step with same | taken
      · exact Or.inl (same ▸ held)
      · rw [taken] at held
        rw [Option.some.inj held]
        exact Or.inr List.mem_cons_self
    · exact Or.inr (List.mem_cons_of_mem _ later)

/-- A best bid half a window above the first one is ignored, and never comes back. -/
theorem scan_missed [ValidCapacity capacity] {first bid : PriceLevel}
    {before after : List PriceLevel}
    (distinct : ((first :: (before ++ bid :: after)).map fun level => level.price.ticks).Nodup)
    (far : first.price.ticks + center capacity ≤ bid.price.ticks)
    (quiet : ∀ level ∈ before,
      level.price.ticks < first.price.ticks + center capacity - recenterMargin capacity ∨
        first.price.ticks + center capacity ≤ level.price.ticks) :
    ((before ++ bid :: after).foldl (bidStep capacity) (first.price.ticks, some first)).2 ≠
      some bid := by
  have steady := not_nearEdge_self capacity first.price.ticks
  obtain ⟨top, scanned, -, -, source, -⟩ := scan_quiet steady quiet
  have skipped : bidStep capacity (first.price.ticks, some top) bid =
      (first.price.ticks, some top) :=
    if_neg fun covered => absurd covered.2 (not_lt.mpr far)
  intro reached
  rw [List.foldl_append, scanned, List.foldl_cons, skipped] at reached
  have apart := List.Nodup.of_map _ distinct
  rw [List.nodup_cons, List.mem_append, List.nodup_append, List.nodup_cons] at apart
  obtain ⟨firstApart, -, ⟨bidApart, -⟩, disjoint⟩ := apart
  rcases scan_source reached with held | later
  · obtain rfl := Option.some.inj held
    rcases source with rfl | member
    · exact firstApart (Or.inr List.mem_cons_self)
    · exact disjoint _ member _ List.mem_cons_self rfl
  · exact bidApart later

/-- The mid lies between the touches, and the window around it covers both. -/
theorem seedTick_bounds [ValidCapacity capacity] {bid ask : PriceLevel}
    (uncrossed : bid.price.ticks < ask.price.ticks)
    (fits : ask.price.ticks - bid.price.ticks ≤ (capacity : Int) - 2) :
    bid.price.ticks ≤ seedTick bid ask ∧
      seedTick bid ask - center capacity ≤ bid.price.ticks ∧
      ask.price.ticks < seedTick bid ask + center capacity ∧
      ask.price.ticks - seedTick bid ask ≤ seedTick bid ask - bid.price.ticks + 1 := by
  have even := two_mul_center capacity
  unfold seedTick
  rw [Int.tdiv_eq_ediv_of_nonneg (by omega)]
  omega

theorem scan_outside {state : Int × Option PriceLevel} {levels : List PriceLevel}
    (outside : ∀ level ∈ levels, ¬Covers capacity state.1 level.price.ticks) :
    levels.foldl (bidStep capacity) state = state := by
  induction levels with
  | nil => rfl
  | cons level rest inductionHypothesis =>
    rw [List.foldl_cons, bidStep, if_neg (outside level List.mem_cons_self)]
    exact inductionHypothesis fun other member => outside other (List.mem_cons_of_mem _ member)

/-- The scan after a first bid that recentered the window on itself, with the best bid in the
upper margin of that window or just above it. -/
theorem scan_from_first_near [ValidCapacity capacity] {first bid ask : PriceLevel}
    {before after : List PriceLevel}
    (atMost : ∀ level ∈ before ++ bid :: after, level.price.ticks ≤ bid.price.ticks)
    (distinct : ((first :: (before ++ bid :: after)).map fun level => level.price.ticks).Nodup)
    (reach : bid.price.ticks ≤ first.price.ticks + center capacity)
    (uncrossed : bid.price.ticks < ask.price.ticks)
    (near : first.price.ticks + center capacity - recenterMargin capacity ≤ bid.price.ticks)
    (close : ask.price.ticks ≤ bid.price.ticks + 2 * recenterMargin capacity + 1) :
    (((before ++ bid :: after).foldl (bidStep capacity) (first.price.ticks, some first)).2 =
          some bid ∧
        ask.price.ticks < ((before ++ bid :: after).foldl (bidStep capacity)
          (first.price.ticks, some first)).1 + center capacity) ↔
      ask.price.ticks < first.price.ticks + center capacity ∨
        ∃ level ∈ first :: (before ++ [bid]),
          first.price.ticks + center capacity - recenterMargin capacity ≤ level.price.ticks ∧
            level.price.ticks < first.price.ticks + center capacity := by
  have margin := four_mul_recenterMargin capacity
  have wide := eight_le_recenterMargin capacity
  have restDistinct := (List.nodup_cons.mp (List.map_cons ▸ distinct)).2
  by_cases recaptured : ∃ level ∈ before ++ [bid],
      first.price.ticks + center capacity - recenterMargin capacity ≤ level.price.ticks ∧
        level.price.ticks < first.price.ticks + center capacity
  · obtain ⟨ref, above, scanned⟩ := scan_recaptured atMost restDistinct reach recaptured
    rw [scanned]
    obtain ⟨level, member, inside⟩ := recaptured
    refine iff_of_true ⟨rfl, ?_⟩ (Or.inr ⟨level, List.mem_cons_of_mem _ member, inside⟩)
    show ask.price.ticks < ref + center capacity
    omega
  · have quiet : ∀ level ∈ before ++ [bid],
        level.price.ticks < first.price.ticks + center capacity - recenterMargin capacity ∨
          first.price.ticks + center capacity ≤ level.price.ticks := by
      intro level member
      by_contra inside
      exact recaptured ⟨level, member, by omega⟩
    have far : first.price.ticks + center capacity ≤ bid.price.ticks := by
      have := quiet bid (List.mem_append_right _ List.mem_cons_self)
      omega
    refine iff_of_false (fun both => ?_) ?_
    · exact scan_missed distinct far
        (fun level member => quiet level (List.mem_append_left _ member)) both.1
    · rintro (askInside | ⟨level, member, inside⟩)
      · omega
      · rcases List.mem_cons.mp member with rfl | later
        · omega
        · exact recaptured ⟨level, later, inside⟩

/-- The scan after a first bid that recentered the window on itself. -/
theorem scan_from_first [ValidCapacity capacity] {first bid ask : PriceLevel}
    {rest : List PriceLevel} (listed : bid ∈ first :: rest)
    (atMost : ∀ level ∈ first :: rest, level.price.ticks ≤ bid.price.ticks)
    (distinct : ((first :: rest).map fun level => level.price.ticks).Nodup)
    (reach : bid.price.ticks ≤ first.price.ticks + center capacity)
    (uncrossed : bid.price.ticks < ask.price.ticks)
    (close : first.price.ticks + center capacity - recenterMargin capacity ≤ bid.price.ticks →
      ask.price.ticks ≤ bid.price.ticks + 2 * recenterMargin capacity + 1) :
    ((rest.foldl (bidStep capacity) (first.price.ticks, some first)).2 = some bid ∧
        ask.price.ticks <
          (rest.foldl (bidStep capacity) (first.price.ticks, some first)).1 + center capacity) ↔
      ask.price.ticks < first.price.ticks + center capacity ∨
        ∃ level ∈ upTo (first :: rest) bid,
          first.price.ticks + center capacity - recenterMargin capacity ≤ level.price.ticks ∧
            level.price.ticks < first.price.ticks + center capacity := by
  have margin := four_mul_recenterMargin capacity
  have positive := center_pos capacity
  have steady := not_nearEdge_self capacity first.price.ticks
  by_cases near :
      first.price.ticks + center capacity - recenterMargin capacity ≤ bid.price.ticks
  · have later : bid ∈ rest := by
      rcases List.mem_cons.mp listed with same | later
      · rw [same] at near
        omega
      · exact later
    obtain ⟨before, after, rfl⟩ := List.append_of_mem later
    have apart : bid ∉ first :: before := by
      have nodup := List.Nodup.of_map _ distinct
      rw [← List.cons_append, List.nodup_append] at nodup
      exact fun member => nodup.2.2 _ member _ List.mem_cons_self rfl
    rw [← List.cons_append, upTo_append apart, upTo_cons_self, List.cons_append]
    exact scan_from_first_near (fun level member => atMost level (List.mem_cons_of_mem _ member))
      distinct reach uncrossed near (close near)
  · rw [scan_to_best steady (by omega) listed atMost distinct]
    refine ⟨fun both => Or.inl both.2, fun either => ⟨rfl, ?_⟩⟩
    rcases either with askInside | ⟨level, member, inside⟩
    · exact askInside
    · have below : level.price.ticks ≤ bid.price.ticks := by
        rcases List.mem_append.mp member with earlier | last
        · exact atMost level ((List.takeWhile_sublist _).subset earlier)
        · rw [List.mem_singleton.mp last]
      omega

/-- The bids of a snapshot leave its best bid on top, with the best ask still ahead inside the
window, exactly under the closed condition. -/
theorem bidScan_iff [ValidCapacity capacity] {bids : List PriceLevel} {bid ask : PriceLevel}
    (listed : bid ∈ liveLevels bids)
    (atMost : ∀ level ∈ liveLevels bids, level.price.ticks ≤ bid.price.ticks)
    (distinct : ((liveLevels bids).map fun level => level.price.ticks).Nodup)
    (uncrossed : bid.price.ticks < ask.price.ticks)
    (fits : ask.price.ticks - bid.price.ticks ≤ (capacity : Int) - 2) :
    ((bidScan capacity (seedTick bid ask, none) bids).2 = some bid ∧
        ask.price.ticks < (bidScan capacity (seedTick bid ask, none) bids).1 + center capacity) ↔
      KeepsTouch capacity bids bid ask := by
  have margin := four_mul_recenterMargin capacity
  obtain ⟨bidLow, bidHigh, askHigh, middle⟩ := seedTick_bounds uncrossed fits
  unfold bidScan KeepsTouch
  generalize liveLevels bids = live at *
  have bidCovered : Covers capacity (seedTick bid ask) bid.price.ticks := ⟨bidHigh, by omega⟩
  have some : (live.find? fun level =>
      decide (Covers capacity (seedTick bid ask) level.price.ticks)).isSome :=
    List.find?_isSome.mpr ⟨bid, listed, decide_eq_true bidCovered⟩
  obtain ⟨first, found⟩ := Option.isSome_iff_exists.mp some
  obtain ⟨covered, skipped, rest, rfl, uncovered⟩ := List.find?_eq_some_iff_append.mp found
  have firstCovered : Covers capacity (seedTick bid ask) first.price.ticks :=
    of_decide_eq_true covered
  have outside : ∀ level ∈ skipped, ¬Covers capacity (seedTick bid ask) level.price.ticks := by
    intro level member
    have := uncovered level member
    rwa [Bool.not_eq_true', decide_eq_false_iff_not] at this
  have bidLater : bid ∈ first :: rest := by
    rcases List.mem_append.mp listed with early | later
    · exact absurd bidCovered (outside bid early)
    · exact later
  have laterAtMost : ∀ level ∈ first :: rest, level.price.ticks ≤ bid.price.ticks :=
    fun level member => atMost level (List.mem_append_right _ member)
  have laterDistinct : ((first :: rest).map fun level => level.price.ticks).Nodup :=
    distinct.sublist ((List.sublist_append_right _ _).map _)
  have firstAtMost := laterAtMost first List.mem_cons_self
  simp only [found, Option.mem_some_iff, exists_eq_left']
  have start : skipped.foldl (bidStep capacity) (seedTick bid ask, none) =
      (seedTick bid ask, none) := scan_outside outside
  rw [List.foldl_append, start, List.foldl_cons, bidStep_ahead firstCovered (by simp)]
  obtain ⟨firstLow, -⟩ := firstCovered
  by_cases away : seedTick bid ask - center capacity + recenterMargin capacity ≤ first.price.ticks
  · have steady : ¬NearEdge capacity (seedTick bid ask) first.price.ticks first.price.ticks := by
      unfold NearEdge
      omega
    rw [recentered, if_neg steady,
      scan_to_best steady (by omega) bidLater laterAtMost laterDistinct]
    exact iff_of_true ⟨rfl, askHigh⟩ (Or.inl away)
  · rw [recentered_of_near (Or.inl (by omega)),
      scan_from_first bidLater laterAtMost laterDistinct (by omega) uncrossed (by omega),
      upTo_append fun early => outside bid early bidCovered]
    constructor
    · rintro (askInside | ⟨level, member, inside⟩)
      · exact Or.inr (Or.inl askInside)
      · exact Or.inr (Or.inr ⟨level, List.mem_append_right _ member, inside⟩)
    · rintro (never | askInside | ⟨level, member, inside⟩)
      · exact absurd never away
      · exact Or.inl askInside
      · rcases List.mem_append.mp member with early | later
        · have below := atMost level (List.mem_append_left _ early)
          have uncoveredLevel := outside level early
          unfold Covers at uncoveredLevel
          omega
        · exact Or.inr ⟨level, later, inside⟩

end BoundedBook

end Trading

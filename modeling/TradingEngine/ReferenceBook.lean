/-
This file compares the book with the plain sorted map it stands for.

The reference is one `std::map` per side: a positive quantity sets a level,
anything else erases it, and a clear empties both maps. It has no window. As long
as every tick of the calls lies in a band of half the capacity, the window never
loses a tick of the band: the reference tick is one of the ticks seen or the
middle of two of them, so it stays in the band, and every tick of the band stays
covered through any number of recenterings. The book then is the map.
-/

import Mathlib.Data.Int.ConditionallyCompleteOrder
import Mathlib.Order.Interval.Set.OrdConnected
import Std.Data.TreeMap.Lemmas
import TradingEngine.BookTouch

namespace Trading

open BoundedBook (Call)

/-- The plain reference: one sorted map per side. -/
structure ReferenceBook where
  bids : Std.TreeMap Int ℚ
  asks : Std.TreeMap Int ℚ

namespace ReferenceBook

/-- A book without levels. -/
def empty : ReferenceBook := ⟨∅, ∅⟩

/-- The map of one side. -/
def map (reference : ReferenceBook) : Side → Std.TreeMap Int ℚ
  | .bid => reference.bids
  | .ask => reference.asks

/-- Set on a positive quantity, erase otherwise. -/
def updateMap (map : Std.TreeMap Int ℚ) (tick : Int) (quantity : ℚ) : Std.TreeMap Int ℚ :=
  if 0 < quantity then map.insert tick quantity else map.erase tick

/-- Put a level into the map of its side, or take it out. -/
def update (reference : ReferenceBook) (side : Side) (price : Price) (qty : Qty) :
    ReferenceBook :=
  match side with
  | .bid => { reference with bids := updateMap reference.bids price.ticks qty.value }
  | .ask => { reference with asks := updateMap reference.asks price.ticks qty.value }

/-- Make one call on the reference; its window is everything, so `seedReference` does nothing. -/
def call (reference : ReferenceBook) : Call → ReferenceBook
  | .clear => empty
  | .seedReference _ => reference
  | .update side price qty => reference.update side price qty

/-- The map after a sequence of calls. -/
def run (calls : List Call) : ReferenceBook := calls.foldl call empty

/-- The quantity the map of a side holds at a tick. -/
def levelAt (reference : ReferenceBook) (side : Side) (tick : Int) : Option ℚ :=
  (reference.map side)[tick]?

/-- The levels of a side, best first. -/
def levels (reference : ReferenceBook) : Side → List PriceLevel
  | .bid => (reference.bids.toList.map fun entry => ⟨⟨entry.1⟩, ⟨entry.2⟩⟩).reverse
  | .ask => reference.asks.toList.map fun entry => ⟨⟨entry.1⟩, ⟨entry.2⟩⟩

/-- The best level of a side. -/
def best (reference : ReferenceBook) (side : Side) : Option PriceLevel :=
  (reference.levels side).head?

/-! ### Reading the maps -/

theorem levelAt_empty (side : Side) (tick : Int) : empty.levelAt side tick = none := by
  cases side <;> exact Std.TreeMap.getElem?_emptyc

theorem getElem?_updateMap (map : Std.TreeMap Int ℚ) (tick other : Int) (quantity : ℚ) :
    (updateMap map tick quantity)[other]? =
      if other = tick then if 0 < quantity then some quantity else none else map[other]? := by
  unfold updateMap
  by_cases same : other = tick
  · subst same
    split <;> simp [*]
  · have different : compare tick other ≠ .eq := by
      rw [ne_eq, Std.compare_eq_iff_eq]
      exact fun equal => same equal.symm
    rw [if_neg same]
    split
    · rw [Std.TreeMap.getElem?_insert, if_neg different]
    · rw [Std.TreeMap.getElem?_erase, if_neg different]

theorem levelAt_update (reference : ReferenceBook) (side other : Side) (price : Price) (qty : Qty)
    (tick : Int) :
    (reference.update side price qty).levelAt other tick =
      if other = side ∧ tick = price.ticks then
        if 0 < qty.value then some qty.value else none
      else reference.levelAt other tick := by
  cases side <;> cases other <;>
    simp only [levelAt, map, update, getElem?_updateMap, true_and, reduceCtorEq, false_and,
      if_false]

theorem mem_levels {reference : ReferenceBook} {side : Side} {level : PriceLevel} :
    level ∈ reference.levels side ↔
      reference.levelAt side level.price.ticks = some level.qty.value := by
  obtain ⟨⟨ticks⟩, ⟨value⟩⟩ := level
  have entry (entries : Std.TreeMap Int ℚ) :
      (∃ pair ∈ entries.toList,
        (⟨⟨pair.1⟩, ⟨pair.2⟩⟩ : PriceLevel) = ⟨⟨ticks⟩, ⟨value⟩⟩) ↔
        entries[ticks]? = some value := by
    rw [← Std.TreeMap.mem_toList_iff_getElem?_eq_some]
    constructor
    · rintro ⟨⟨key, quantity⟩, member, same⟩
      simp only [PriceLevel.mk.injEq, Price.mk.injEq, Qty.mk.injEq] at same
      rw [← same.1, ← same.2]
      exact member
    · intro member
      exact ⟨_, member, rfl⟩
  cases side with
  | bid =>
    rw [levels, List.mem_reverse, List.mem_map]
    exact entry reference.bids
  | ask =>
    rw [levels, List.mem_map]
    exact entry reference.asks

theorem levels_pairwise (reference : ReferenceBook) (side : Side) :
    (reference.levels side).Pairwise (BoundedBook.Better side) := by
  have ordered (entries : Std.TreeMap Int ℚ) :
      (entries.toList.map fun entry => (⟨⟨entry.1⟩, ⟨entry.2⟩⟩ : PriceLevel)).Pairwise
        (BoundedBook.Better .ask) := by
    refine List.pairwise_map.mpr (entries.ordered_keys_toList.imp fun {first second} below => ?_)
    exact Std.compare_eq_lt.mp below
  cases side with
  | bid => exact List.pairwise_reverse.mpr (ordered reference.bids)
  | ask => exact ordered reference.asks

end ReferenceBook

namespace BoundedBook

variable {capacity : Nat}

theorem better_asymm {side : Side} {first second : PriceLevel} (better : Better side first second) :
    ¬Better side second first := by
  cases side <;> simp only [Better] at better ⊢ <;> omega

/-- A book and a reference that hold the same quantity at every tick of a side list the same
levels. -/
theorem levels_eq_of_levelAt_eq {book : BoundedBook capacity} {reference : ReferenceBook}
    {side : Side} (same : ∀ tick, book.levelAt side tick = reference.levelAt side tick) :
    book.levels side = reference.levels side := by
  have : Std.Irrefl (Better side) := ⟨fun level better => better_asymm better better⟩
  have : Std.Antisymm (Better side) :=
    ⟨fun first second better worse => absurd worse (better_asymm better)⟩
  refine (book.levels_pairwise side).eq_of_mem_iff (reference.levels_pairwise side) fun level => ?_
  rw [mem_levels, ReferenceBook.mem_levels, same]

/-! ### Inside a range of ticks -/

/-- The reference tick and every level of the book lie inside. -/
structure Within (inside : Int → Prop) (book : BoundedBook capacity) : Prop where
  wellFormed : WellFormed book
  ref : book.haveRef = true → inside book.refTick
  levels : ∀ side tick quantity, book.levelAt side tick = some quantity → inside tick

namespace Within

variable {inside : Int → Prop} {book : BoundedBook capacity}

theorem anchor_ref (within : Within inside book) {price : Price} (priced : inside price.ticks) :
    inside (book.anchor price).refTick := by
  rw [anchor_refTick]
  split
  · rename_i anchored
    exact within.ref anchored
  · exact priced

/-- A recentering moves the reference tick to the middle of two levels, so an update leaves it
inside a range without gaps. -/
theorem update_ref [ValidCapacity capacity] (within : Within inside book)
    (convex : {tick | inside tick}.OrdConnected) (side : Side) {price : Price}
    (priced : inside price.ticks) (qty : Qty) : inside (book.update side price qty).refTick := by
  have anchored := within.anchor_ref priced
  rcases update_cases book side price qty with ⟨-, ignored⟩ | ⟨slot, -, located, bound, written⟩
  · rw [ignored]
    exact anchored
  · have indexed := (within.wellFormed.indexed.anchor price).writeSlot side bound qty
    have held (other : Side) (tick : Int) (quantity : ℚ)
        (found : ((book.anchor price).writeSlot side slot qty).levelAt other tick = some quantity) :
        inside tick := by
      rw [levelAt_writeSlot (book.anchor price) side other price qty located bound,
        levelAt_anchor within.wellFormed.anchored] at found
      split at found
      · rename_i own
        exact own.2 ▸ priced
      · exact within.levels other tick quantity found
    rw [written]
    rcases recenterIfNearEdge_refTick indexed with kept |
      ⟨first, second, sideFirst, sideSecond, _, _, foundFirst, foundSecond, moved⟩
    · rw [kept, writeSlot_refTick]
      exact anchored
    · rw [moved]
      have middle : (first + second) / 2 ∈ Set.uIcc first second := Set.mem_uIcc.mpr (by omega)
      exact convex.uIcc_subset (held _ _ _ foundFirst) (held _ _ _ foundSecond) middle

end Within

/-! ### Inside a band of half the capacity -/

/-- The band of half a window that starts at a tick. -/
def Band (capacity : Nat) (low tick : Int) : Prop :=
  low ≤ tick ∧ tick ≤ low + center capacity - 1

/-- Every tick a call names lies in the band. -/
def Call.InBand (capacity : Nat) (low : Int) : Call → Prop
  | .clear => True
  | .seedReference price => Band capacity low price.ticks
  | .update _ price _ => Band capacity low price.ticks

instance (low tick : Int) : Decidable (Band capacity low tick) :=
  inferInstanceAs (Decidable (_ ∧ _))

instance (low : Int) : (call : Call) → Decidable (call.InBand capacity low)
  | .clear => .isTrue trivial
  | .seedReference price => inferInstanceAs (Decidable (Band capacity low price.ticks))
  | .update _ price _ => inferInstanceAs (Decidable (Band capacity low price.ticks))

/-- A window whose reference tick lies in a band covers the band. -/
theorem Band.covers [ValidCapacity capacity] {low ref tick : Int} (anchor : Band capacity low ref)
    (inside : Band capacity low tick) : Covers capacity ref tick := by
  unfold Band at anchor inside
  unfold Covers
  constructor <;> omega

theorem Band.convex (low : Int) : {tick | Band capacity low tick}.OrdConnected :=
  Set.ordConnected_Icc

/-- The book is the reference map: inside the band the window has lost nothing. -/
structure Agrees (low : Int) (book : BoundedBook capacity) (reference : ReferenceBook) : Prop where
  wellFormed : WellFormed book
  ref : book.haveRef = true → Band capacity low book.refTick
  band : ∀ side tick quantity, reference.levelAt side tick = some quantity →
    Band capacity low tick
  same : ∀ side tick, book.levelAt side tick = reference.levelAt side tick

namespace Agrees

variable {low : Int} {book : BoundedBook capacity} {reference : ReferenceBook}

theorem fresh (low : Int) : Agrees low (fresh capacity) ReferenceBook.empty where
  wellFormed := fresh_wellFormed
  ref missing := by cases missing
  band side tick quantity found := by
    rw [ReferenceBook.levelAt_empty] at found
    cases found
  same side tick := by rw [levelAt_fresh, ReferenceBook.levelAt_empty]

theorem clear (low : Int) (book : BoundedBook capacity) :
    Agrees low book.clear ReferenceBook.empty where
  wellFormed := clear_wellFormed book
  ref missing := by cases missing
  band side tick quantity found := by
    rw [ReferenceBook.levelAt_empty] at found
    cases found
  same side tick := by rw [levelAt_clear, ReferenceBook.levelAt_empty]

theorem within (agrees : Agrees low book reference) : Within (Band capacity low) book where
  wellFormed := agrees.wellFormed
  ref := agrees.ref
  levels side tick quantity found := agrees.band side tick quantity (agrees.same side tick ▸ found)

theorem seedReference (agrees : Agrees low book reference) {price : Price}
    (inside : Band capacity low price.ticks) : Agrees low (book.seedReference price) reference where
  wellFormed := agrees.wellFormed.seedReference price
  ref _ := agrees.within.anchor_ref inside
  band := agrees.band
  same side tick := by
    rw [levelAt_seedReference agrees.wellFormed.anchored, agrees.same]

/-- The levels of the updated map still lie in the band. -/
theorem band_update (agrees : Agrees low book reference) (side : Side) {price : Price}
    (inside : Band capacity low price.ticks) (qty : Qty) (other : Side) (tick : Int) (quantity : ℚ)
    (found : (reference.update side price qty).levelAt other tick = some quantity) :
    Band capacity low tick := by
  rw [ReferenceBook.levelAt_update] at found
  split at found
  · rename_i own
    exact own.2 ▸ inside
  · exact agrees.band other tick quantity found

/-- A book that agrees with a reference answers every query as the reference does. -/
theorem queries (agrees : Agrees low book reference) (side : Side) :
    book.topOfBook side = reference.best side ∧
      ∀ n, book.depth side n = (reference.levels side).take n := by
  have levels := levels_eq_of_levelAt_eq (agrees.same side)
  refine ⟨?_, fun n => ?_⟩
  · rw [topOfBook_eq agrees.wellFormed.indexed, levels, ReferenceBook.best]
  · rw [depth_eq agrees.wellFormed.indexed, levels]

variable [ValidCapacity capacity]

/-- An update inside the band keeps the reference tick in the band. -/
theorem ref_update (agrees : Agrees low book reference) (side : Side) {price : Price}
    (inside : Band capacity low price.ticks) (qty : Qty) :
    Band capacity low (book.update side price qty).refTick :=
  agrees.within.update_ref (Band.convex low) side inside qty

theorem update (agrees : Agrees low book reference) (side : Side) {price : Price}
    (inside : Band capacity low price.ticks) (qty : Qty) :
    Agrees low (book.update side price qty) (reference.update side price qty) where
  wellFormed := agrees.wellFormed.update side price qty
  ref _ := agrees.ref_update side inside qty
  band := agrees.band_update side inside qty
  same other tick := by
    rw [levelAt_update agrees.wellFormed.anchored]
    by_cases covered : Covers capacity (book.update side price qty).refTick tick
    · have own : (other = side ∧ tick = price.ticks ∧
          Covers capacity (book.anchor price).refTick tick) ↔
          other = side ∧ tick = price.ticks :=
        ⟨fun all => ⟨all.1, all.2.1⟩, fun both =>
          ⟨both.1, both.2, both.2 ▸ (agrees.within.anchor_ref inside).covers inside⟩⟩
      rw [if_pos covered, ReferenceBook.levelAt_update, agrees.same]
      simp only [own]
    · rw [if_neg covered]
      cases found : (reference.update side price qty).levelAt other tick with
      | none => rfl
      | some quantity =>
        have member := agrees.band_update side inside qty other tick quantity found
        exact absurd ((agrees.ref_update side inside qty).covers member) covered

theorem call (agrees : Agrees low book reference) {call : Call}
    (inside : call.InBand capacity low) : Agrees low (book.call call) (reference.call call) := by
  cases call with
  | clear => exact Agrees.clear low book
  | seedReference price => exact agrees.seedReference inside
  | update side price qty => exact agrees.update side inside qty

theorem foldl (agrees : Agrees low book reference) (calls : List Call)
    (inside : ∀ call ∈ calls, call.InBand capacity low) :
    Agrees low (calls.foldl BoundedBook.call book) (calls.foldl ReferenceBook.call reference) := by
  induction calls generalizing book reference with
  | nil => exact agrees
  | cons call rest inductionHypothesis =>
    exact inductionHypothesis (agrees.call (inside call List.mem_cons_self))
      fun other member => inside other (List.mem_cons_of_mem _ member)

end Agrees

theorem topOfBook_foldl_fresh [ValidCapacity capacity] (low : Int) {calls : List Call}
    (inside : ∀ call ∈ calls, call.InBand capacity low) (side : Side) :
    (calls.foldl call (fresh capacity)).topOfBook side = (ReferenceBook.run calls).best side :=
  (((Agrees.fresh low).foldl calls inside).queries side).1

/-- Inside a band of half the capacity the book is the plain sorted map, with any number of
recenterings on the way: `topOfBook` is the map's best level and `depth` its best levels in
order. -/
theorem run_eq_reference [ValidCapacity capacity] (low : Int) (calls : List Call)
    (inside : ∀ call ∈ calls, call.InBand capacity low) (side : Side) :
    (run capacity calls).topOfBook side = (ReferenceBook.run calls).best side ∧
      ∀ n, (run capacity calls).depth side n = ((ReferenceBook.run calls).levels side).take n :=
  ((Agrees.fresh low).foldl calls inside).queries side

/-- A bid that climbs across the whole band of a 64-slot book recenters it, and the deep bid
at the bottom of the band is still there. -/
theorem run_eq_reference_climbing :
    0 < (run 64 [.update .bid ⟨100⟩ ⟨1⟩, .update .bid ⟨131⟩ ⟨2⟩]).rebaseCount ∧
      ∀ n, (run 64 [.update .bid ⟨100⟩ ⟨1⟩, .update .bid ⟨131⟩ ⟨2⟩]).depth .bid n =
        ((ReferenceBook.run [.update .bid ⟨100⟩ ⟨1⟩, .update .bid ⟨131⟩ ⟨2⟩]).levels .bid).take n :=
  ⟨by decide +kernel, (run_eq_reference 100 _
    (by simp [Call.InBand, Band, center]) .bid).2⟩

end BoundedBook

end Trading

/-
This file reads the book in ticks instead of slots.

`levelAt` is the quantity a side holds at a tick, if any. The calls on the book
are then simple: a write changes one tick, and moving the window forgets exactly
the ticks the new window does not cover. `levels` lists a side best first; the
cached best slot cuts off only dead slots, so `depth` is a prefix of that list
and `topOfBook` its head.
-/

import Mathlib.Data.List.Sort
import TradingEngine.BookIndex

namespace Trading

namespace BoundedBook

variable {capacity : Nat}

/-! ### The window -/

/-- The ticks a window of `capacity` slots around a reference tick covers. -/
def Covers (capacity : Nat) (ref tick : Int) : Prop :=
  ref - center capacity ≤ tick ∧ tick < ref + center capacity

instance (capacity : Nat) (ref tick : Int) : Decidable (Covers capacity ref tick) :=
  inferInstanceAs (Decidable (_ ∧ _))

theorem two_mul_center (capacity : Nat) [ValidCapacity capacity] :
    2 * center capacity = capacity := by
  obtain ⟨words, rfl, -, -⟩ := ValidCapacity.words capacity
  unfold center
  omega

theorem center_pos (capacity : Nat) [ValidCapacity capacity] : 0 < center capacity := by
  obtain ⟨words, rfl, positive, -⟩ := ValidCapacity.words capacity
  unfold center
  omega

theorem four_mul_recenterMargin (capacity : Nat) [ValidCapacity capacity] :
    4 * recenterMargin capacity = center capacity := by
  obtain ⟨words, rfl, -, -⟩ := ValidCapacity.words capacity
  unfold center recenterMargin
  omega

theorem eight_le_recenterMargin (capacity : Nat) [ValidCapacity capacity] :
    8 ≤ recenterMargin capacity := by
  obtain ⟨words, rfl, positive, -⟩ := ValidCapacity.words capacity
  unfold recenterMargin
  omega

theorem slotOf_mk (book : BoundedBook capacity) (tick : Int) :
    book.slotOf ⟨tick⟩ = center capacity + (tick - book.refTick) := rfl

/-- The window covers a tick exactly if its slot is one of the ladder's. -/
theorem covers_iff_slotOf [ValidCapacity capacity] (book : BoundedBook capacity) (tick : Int) :
    Covers capacity book.refTick tick ↔ 0 ≤ book.slotOf ⟨tick⟩ ∧ book.slotOf ⟨tick⟩ < capacity := by
  have even := two_mul_center capacity
  rw [Covers, slotOf_mk]
  constructor <;> intro bounds <;> constructor <;> omega

/-! ### The quantity at a tick -/

/-- The ladder of one side. -/
def ladder (book : BoundedBook capacity) : Side → Vector ℚ capacity
  | .bid => book.bids
  | .ask => book.asks

/-- The quantity one side holds at a tick. -/
def levelAt (book : BoundedBook capacity) (side : Side) (tick : Int) : Option ℚ :=
  if 0 ≤ book.slotOf ⟨tick⟩ ∧ 0 < (book.ladder side).getD (book.slotOf ⟨tick⟩).toNat 0 then
    some ((book.ladder side).getD (book.slotOf ⟨tick⟩).toNat 0)
  else none

/-- A quantity is held at a tick exactly if the slot of the tick is live and holds it. -/
theorem levelAt_eq_some {book : BoundedBook capacity} {side : Side} {tick : Int} {quantity : ℚ} :
    book.levelAt side tick = some quantity ↔
      ∃ slot : Nat, book.slotOf ⟨tick⟩ = slot ∧ Live (book.ladder side) slot ∧
        (book.ladder side).getD slot 0 = quantity := by
  unfold levelAt
  constructor
  · intro found
    split at found
    · rename_i inside
      refine ⟨(book.slotOf ⟨tick⟩).toNat, by omega, inside.2, Option.some.inj found⟩
    · cases found
  · rintro ⟨slot, located, live, rfl⟩
    rw [located, if_pos ⟨by omega, live⟩]
    rfl

theorem levelAt_pos {book : BoundedBook capacity} {side : Side} {tick : Int} {quantity : ℚ}
    (found : book.levelAt side tick = some quantity) : 0 < quantity := by
  obtain ⟨slot, -, live, rfl⟩ := levelAt_eq_some.mp found
  exact live

theorem levelAt_eq_none_of_empty {book : BoundedBook capacity} {side : Side}
    (empty : ∀ slot, ¬Live (book.ladder side) slot) (tick : Int) :
    book.levelAt side tick = none :=
  if_neg fun inside => empty _ inside.2

theorem covers_of_levelAt [ValidCapacity capacity] {book : BoundedBook capacity} {side : Side}
    {tick : Int} {quantity : ℚ} (found : book.levelAt side tick = some quantity) :
    Covers capacity book.refTick tick := by
  obtain ⟨slot, located, live, -⟩ := levelAt_eq_some.mp found
  have := live.lt
  rw [covers_iff_slotOf]
  omega

theorem levelAt_eq_none_of_not_covers [ValidCapacity capacity] {book : BoundedBook capacity}
    {tick : Int} (outside : ¬Covers capacity book.refTick tick) (side : Side) :
    book.levelAt side tick = none := by
  cases found : book.levelAt side tick with
  | none => rfl
  | some quantity => exact absurd (covers_of_levelAt found) outside

/-- A book whose window is not anchored holds nothing. -/
def EmptyUnlessAnchored (book : BoundedBook capacity) : Prop :=
  book.haveRef = false → ∀ side slot, ¬Live (book.ladder side) slot

/-! ### What the calls do to the levels -/

theorem levelAt_fresh (side : Side) (tick : Int) : (fresh capacity).levelAt side tick = none :=
  levelAt_eq_none_of_empty (by cases side <;> exact not_live_replicate) tick

theorem levelAt_clear (book : BoundedBook capacity) (side : Side) (tick : Int) :
    book.clear.levelAt side tick = none :=
  levelAt_eq_none_of_empty (by cases side <;> exact not_live_replicate) tick

theorem levelAt_seedReference {book : BoundedBook capacity} (anchored : EmptyUnlessAnchored book)
    (price : Price) (side : Side) (tick : Int) :
    (book.seedReference price).levelAt side tick = book.levelAt side tick := by
  unfold seedReference
  split
  · rfl
  · rename_i unanchored
    have empty := anchored (by simpa using unanchored) side
    rw [levelAt_eq_none_of_empty empty]
    refine levelAt_eq_none_of_empty ?_ tick
    cases side <;> exact empty

theorem levelAt_anchor {book : BoundedBook capacity} (anchored : EmptyUnlessAnchored book)
    (price : Price) (side : Side) (tick : Int) :
    (book.anchor price).levelAt side tick = book.levelAt side tick :=
  levelAt_seedReference anchored price side tick

@[simp] theorem writeSlot_refTick (book : BoundedBook capacity) (side : Side) (slot : Nat)
    (qty : Qty) : (book.writeSlot side slot qty).refTick = book.refTick := by
  cases side <;> simp only [writeSlot] <;> split <;> rfl

@[simp] theorem writeSlot_haveRef (book : BoundedBook capacity) (side : Side) (slot : Nat)
    (qty : Qty) : (book.writeSlot side slot qty).haveRef = book.haveRef := by
  cases side <;> simp only [writeSlot] <;> split <;> rfl

/-- A write changes the ladder of its side only. -/
theorem writeSlot_ladder (book : BoundedBook capacity) (side other : Side) (slot : Nat)
    (qty : Qty) :
    (book.writeSlot side slot qty).ladder other =
      if other = side then (book.ladder side).setIfInBounds slot qty.value
      else book.ladder other := by
  cases side <;> cases other <;> simp only [writeSlot, ladder] <;> split <;> rfl

/-- A write inside the window changes the level of its own tick only. -/
theorem levelAt_writeSlot (book : BoundedBook capacity) (side other : Side) (price : Price)
    (qty : Qty) {slot : Nat} (located : book.slotOf price = slot) (bound : slot < capacity)
    (tick : Int) :
    (book.writeSlot side slot qty).levelAt other tick =
      if other = side ∧ tick = price.ticks then
        if 0 < qty.value then some qty.value else none
      else book.levelAt other tick := by
  have slotOf_eq : (book.writeSlot side slot qty).slotOf ⟨tick⟩ = book.slotOf ⟨tick⟩ := by
    rw [slotOf_mk, slotOf_mk, writeSlot_refTick]
  have slot_iff : book.slotOf ⟨tick⟩ = slot ↔ tick = price.ticks := by
    rw [slotOf] at located
    rw [slotOf_mk]
    omega
  unfold levelAt
  rw [slotOf_eq, writeSlot_ladder]
  by_cases sameSide : other = side
  · subst sameSide
    rw [if_pos rfl, Slots.getD_setIfInBounds]
    by_cases sameTick : tick = price.ticks
    · rw [slot_iff.mpr sameTick, if_pos (⟨rfl, bound⟩ : (slot : Int).toNat = slot ∧ _),
        if_pos (⟨rfl, sameTick⟩ : other = other ∧ _)]
      simp only [Int.natCast_nonneg, true_and]
    · have different : ¬(0 ≤ book.slotOf ⟨tick⟩ ∧ (book.slotOf ⟨tick⟩).toNat = slot) :=
        fun both => sameTick (slot_iff.mp (by omega))
      rw [if_neg (fun both : other = other ∧ _ => sameTick both.2)]
      by_cases inside : 0 ≤ book.slotOf ⟨tick⟩
      · have elsewhere : ¬((book.slotOf ⟨tick⟩).toNat = slot ∧ slot < capacity) :=
          fun both => different ⟨inside, both.1⟩
        simp only [elsewhere, if_false]
      · simp only [inside, false_and, if_false]
  · simp only [sameSide, false_and, if_false]

@[simp] theorem rebase_refTick (book : BoundedBook capacity) (newRef : Int) :
    (book.rebase newRef).refTick = newRef := rfl

@[simp] theorem rebase_haveRef (book : BoundedBook capacity) (newRef : Int) :
    (book.rebase newRef).haveRef = book.haveRef := rfl

theorem rebase_ladder (book : BoundedBook capacity) (newRef : Int) (side : Side) :
    (book.rebase newRef).ladder side =
      shiftLadder (book.ladder side) (newRef - book.refTick) := by
  cases side <;> rfl

/-- Moving the window forgets exactly the ticks it no longer covers. -/
theorem levelAt_rebase [ValidCapacity capacity] (book : BoundedBook capacity) (newRef : Int)
    (side : Side) (tick : Int) :
    (book.rebase newRef).levelAt side tick =
      if Covers capacity newRef tick then book.levelAt side tick else none := by
  by_cases covered : Covers capacity newRef tick
  · rw [if_pos covered]
    have inside := (covers_iff_slotOf (book.rebase newRef) tick).mp covered
    have source : book.slotOf ⟨tick⟩ =
        (book.rebase newRef).slotOf ⟨tick⟩ + (newRef - book.refTick) := by
      rw [slotOf_mk, slotOf_mk, rebase_refTick]
      omega
    have read : ((book.rebase newRef).ladder side).getD
        ((book.rebase newRef).slotOf ⟨tick⟩).toNat 0 =
        if 0 ≤ book.slotOf ⟨tick⟩ ∧ book.slotOf ⟨tick⟩ < capacity then
          (book.ladder side).getD (book.slotOf ⟨tick⟩).toNat 0 else 0 := by
      rw [rebase_ladder, shiftLadder, Slots.getD_ofFn, dif_pos (by omega)]
      simp only [Int.toNat_of_nonneg inside.1, ← source]
    unfold levelAt
    rw [read]
    by_cases kept : 0 ≤ book.slotOf ⟨tick⟩ ∧ book.slotOf ⟨tick⟩ < capacity
    · simp only [kept, inside.1, and_self, if_true, true_and]
    · rw [if_neg kept, if_neg fun both => lt_irrefl _ both.2]
      symm
      refine if_neg fun both => kept ⟨both.1, ?_⟩
      have := Live.lt both.2
      omega
  · rw [if_neg covered]
    exact levelAt_eq_none_of_not_covers covered side

/-- The recentering either leaves the book alone or moves the window onto the middle of a
present touch. -/
theorem recenterIfNearEdge_cases (book : BoundedBook capacity) :
    book.recenterIfNearEdge = book ∨
      (0 ≤ book.bestBidIdx ∨ book.bestAskIdx < capacity) ∧
        book.recenterIfNearEdge =
          book.rebase (book.refTick + ((book.lo + book.hi).tdiv 2 - center capacity)) := by
  unfold recenterIfNearEdge
  dsimp only
  split_ifs with absent inside moved
  · exact Or.inl rfl
  · exact Or.inl rfl
  · exact Or.inr ⟨by omega, rfl⟩
  · exact Or.inl rfl

/-- Recentering forgets exactly the ticks the new window does not cover. -/
theorem levelAt_recenterIfNearEdge [ValidCapacity capacity] (book : BoundedBook capacity)
    (side : Side) (tick : Int) :
    book.recenterIfNearEdge.levelAt side tick =
      if Covers capacity book.recenterIfNearEdge.refTick tick then book.levelAt side tick
      else none := by
  rcases recenterIfNearEdge_cases book with same | ⟨-, moved⟩
  · rw [same]
    split
    · rfl
    · rename_i outside
      exact levelAt_eq_none_of_not_covers outside side
  · rw [moved, rebase_refTick, levelAt_rebase]

@[simp] theorem recenterIfNearEdge_haveRef (book : BoundedBook capacity) :
    book.recenterIfNearEdge.haveRef = book.haveRef := by
  rcases recenterIfNearEdge_cases book with same | ⟨-, moved⟩
  · rw [same]
  · rw [moved, rebase_haveRef]

/-! ### Well-formed books -/

/-- What every reachable book satisfies: its index is exact, and it holds nothing while its
window is not anchored. -/
structure WellFormed (book : BoundedBook capacity) : Prop where
  indexed : Indexed book
  anchored : EmptyUnlessAnchored book

theorem anchor_haveRef (book : BoundedBook capacity) (price : Price) :
    (book.anchor price).haveRef = true := by
  unfold anchor
  split
  · assumption
  · rfl

theorem anchor_refTick (book : BoundedBook capacity) (price : Price) :
    (book.anchor price).refTick = if book.haveRef then book.refTick else price.ticks := by
  unfold anchor
  split <;> rfl

theorem update_haveRef (book : BoundedBook capacity) (side : Side) (price : Price) (qty : Qty) :
    (book.update side price qty).haveRef = true := by
  unfold update
  dsimp only
  split
  · exact anchor_haveRef book price
  · rw [recenterIfNearEdge_haveRef, writeSlot_haveRef, anchor_haveRef]

theorem seedReference_haveRef (book : BoundedBook capacity) (price : Price) :
    (book.seedReference price).haveRef = true :=
  anchor_haveRef book price

theorem emptyUnlessAnchored_of_haveRef {book : BoundedBook capacity}
    (have_ref : book.haveRef = true) : EmptyUnlessAnchored book :=
  fun missing => absurd (have_ref.symm.trans missing) (by decide)

theorem fresh_wellFormed : WellFormed (fresh capacity) :=
  ⟨fresh_indexed, fun _ side => by cases side <;> exact not_live_replicate⟩

theorem clear_wellFormed (book : BoundedBook capacity) : WellFormed book.clear :=
  ⟨clear_indexed book, fun _ side => by cases side <;> exact not_live_replicate⟩

namespace WellFormed

variable {book : BoundedBook capacity}

theorem seedReference (wellFormed : WellFormed book) (price : Price) :
    WellFormed (book.seedReference price) :=
  ⟨wellFormed.indexed.seedReference price,
    emptyUnlessAnchored_of_haveRef (seedReference_haveRef book price)⟩

variable [ValidCapacity capacity]

theorem update (wellFormed : WellFormed book) (side : Side) (price : Price) (qty : Qty) :
    WellFormed (book.update side price qty) :=
  ⟨wellFormed.indexed.update side price qty,
    emptyUnlessAnchored_of_haveRef (update_haveRef book side price qty)⟩

theorem call (wellFormed : WellFormed book) (call : Call) : WellFormed (book.call call) := by
  cases call with
  | clear => exact clear_wellFormed book
  | seedReference price => exact wellFormed.seedReference price
  | update side price qty => exact wellFormed.update side price qty

theorem foldl (wellFormed : WellFormed book) (calls : List Call) :
    WellFormed (calls.foldl BoundedBook.call book) := by
  induction calls generalizing book with
  | nil => exact wellFormed
  | cons call rest inductionHypothesis => exact inductionHypothesis (wellFormed.call call)

end WellFormed

theorem run_wellFormed [ValidCapacity capacity] (calls : List Call) :
    WellFormed (run capacity calls) :=
  fresh_wellFormed.foldl calls

/-- An update is ignored outside the window, and otherwise writes one slot and recenters. -/
theorem update_cases [ValidCapacity capacity] (book : BoundedBook capacity) (side : Side)
    (price : Price) (qty : Qty) :
    (¬Covers capacity (book.anchor price).refTick price.ticks ∧
        book.update side price qty = book.anchor price) ∨
      ∃ slot : Nat, Covers capacity (book.anchor price).refTick price.ticks ∧
        (book.anchor price).slotOf price = slot ∧ slot < capacity ∧
        book.update side price qty =
          ((book.anchor price).writeSlot side slot qty).recenterIfNearEdge := by
  have covered := covers_iff_slotOf (book.anchor price) price.ticks
  unfold update
  dsimp only
  split
  · rename_i outside
    refine Or.inl ⟨fun inside => ?_, rfl⟩
    have := covered.mp inside
    have slot_eq : (book.anchor price).slotOf ⟨price.ticks⟩ =
        (book.anchor price).slotOf price := rfl
    omega
  · rename_i inside
    refine Or.inr ⟨((book.anchor price).slotOf price).toNat, covered.mpr ?_, ?_, ?_, rfl⟩
    · have slot_eq : (book.anchor price).slotOf ⟨price.ticks⟩ = (book.anchor price).slotOf price :=
        rfl
      omega
    · omega
    · omega

/-- What an update does to the levels: inside the window it sets its own tick, and whatever
the window no longer covers afterwards is gone. -/
theorem levelAt_update [ValidCapacity capacity] {book : BoundedBook capacity}
    (anchored : EmptyUnlessAnchored book) (side other : Side) (price : Price) (qty : Qty)
    (tick : Int) :
    (book.update side price qty).levelAt other tick =
      if Covers capacity (book.update side price qty).refTick tick then
        if other = side ∧ tick = price.ticks ∧ Covers capacity (book.anchor price).refTick tick then
          if 0 < qty.value then some qty.value else none
        else book.levelAt other tick
      else none := by
  rcases update_cases book side price qty with ⟨outside, ignored⟩ |
    ⟨slot, inside, located, bound, written⟩
  · rw [ignored, levelAt_anchor anchored,
      if_neg (fun all : other = side ∧ tick = price.ticks ∧ _ =>
        outside (all.2.1 ▸ all.2.2))]
    split
    · rfl
    · rename_i uncovered
      rw [← levelAt_anchor anchored price]
      exact levelAt_eq_none_of_not_covers uncovered other
  · rw [written, levelAt_recenterIfNearEdge,
      levelAt_writeSlot (book.anchor price) side other price qty located bound,
      levelAt_anchor anchored]
    by_cases same : other = side ∧ tick = price.ticks
    · rw [if_pos same, if_pos (⟨same.1, same.2, same.2 ▸ inside⟩ :
        other = side ∧ tick = price.ticks ∧ Covers capacity (book.anchor price).refTick tick)]
    · rw [if_neg same, if_neg (fun all : other = side ∧ tick = price.ticks ∧ _ =>
        same ⟨all.1, all.2.1⟩)]

/-! ### A side listed best first -/

/-- The level of a live slot. -/
def slotLevel (book : BoundedBook capacity) (side : Side) (slot : Nat) : Option PriceLevel :=
  if 0 < (book.ladder side).getD slot 0 then
    some ⟨Price.fromTicks (book.tickOf slot), ⟨(book.ladder side).getD slot 0⟩⟩
  else none

/-- All live levels of a side, best first. -/
def levels (book : BoundedBook capacity) : Side → List PriceLevel
  | .bid => (List.range capacity).reverse.filterMap (book.slotLevel .bid)
  | .ask => (List.range capacity).filterMap (book.slotLevel .ask)

/-- On each side, better means closer to the other side. -/
def Better : Side → PriceLevel → PriceLevel → Prop
  | .bid, first, second => second.price.ticks < first.price.ticks
  | .ask, first, second => first.price.ticks < second.price.ticks

theorem collectBids_eq (book : BoundedBook capacity) (slots n : Nat) :
    book.collectBids slots n =
      ((List.range slots).reverse.filterMap (book.slotLevel .bid)).take n := by
  induction slots generalizing n with
  | zero => simp [collectBids]
  | succ slot inductionHypothesis =>
    cases n with
    | zero => simp [collectBids]
    | succ n =>
      rw [List.range_succ, List.reverse_append, List.reverse_singleton, List.singleton_append,
        collectBids]
      split
      · rename_i live
        have found : book.slotLevel .bid slot =
            some ⟨Price.fromTicks (book.tickOf slot), ⟨book.bids.getD slot 0⟩⟩ := if_pos live
        rw [List.filterMap_cons_some found, List.take_succ_cons, inductionHypothesis]
      · rename_i dead
        have missing : book.slotLevel .bid slot = none := if_neg dead
        rw [List.filterMap_cons_none missing, inductionHypothesis]

theorem collectAsks_eq (book : BoundedBook capacity) (rest n : Nat) (bound : rest ≤ capacity) :
    book.collectAsks rest n =
      ((List.range' (capacity - rest) rest).filterMap (book.slotLevel .ask)).take n := by
  induction rest generalizing n with
  | zero => simp [collectAsks]
  | succ rest inductionHypothesis =>
    cases n with
    | zero => simp [collectAsks]
    | succ n =>
      rw [List.range'_succ, show capacity - (rest + 1) + 1 = capacity - rest by omega, collectAsks]
      split
      · rename_i live
        have found : book.slotLevel .ask (capacity - (rest + 1)) =
            some ⟨Price.fromTicks (book.tickOf (capacity - (rest + 1) : Nat)),
              ⟨book.asks.getD (capacity - (rest + 1)) 0⟩⟩ := if_pos live
        rw [List.filterMap_cons_some found, List.take_succ_cons, inductionHypothesis n (by omega)]
      · rename_i dead
        have missing : book.slotLevel .ask (capacity - (rest + 1)) = none := if_neg dead
        rw [List.filterMap_cons_none missing, inductionHypothesis (n + 1) (by omega)]

theorem filterMap_slotLevel_of_dead {book : BoundedBook capacity} (side : Side) {slots : List Nat}
    (dead : ∀ slot ∈ slots, ¬Live (book.ladder side) slot) :
    slots.filterMap (book.slotLevel side) = [] :=
  List.filterMap_eq_nil_iff.mpr fun slot member => if_neg (dead slot member)

/-- Cutting the bids off above the cached best slot loses nothing. -/
theorem levels_bid_eq {book : BoundedBook capacity} (indexed : Indexed book) :
    book.levels .bid =
      (List.range (book.bestBidIdx + 1).toNat).reverse.filterMap (book.slotLevel .bid) := by
  rcases indexed.bestBid with ⟨cached, none⟩ | ⟨top, cached, live, greatest⟩
  · rw [levels, filterMap_slotLevel_of_dead .bid fun slot _ => none slot, cached]
    rfl
  · have bound := live.lt
    have cut : (book.bestBidIdx + 1).toNat = top + 1 := by omega
    have split : List.range capacity =
        List.range (top + 1) ++ (List.range (capacity - (top + 1))).map (top + 1 + ·) := by
      rw [← List.range_add]
      congr 1
      omega
    rw [levels, cut, split, List.reverse_append, List.filterMap_append,
      filterMap_slotLevel_of_dead .bid, List.nil_append]
    intro slot member liveAbove
    simp only [List.mem_reverse, List.mem_map, List.mem_range] at member
    obtain ⟨offset, -, rfl⟩ := member
    have := greatest _ liveAbove
    omega

/-- Cutting the asks off below the cached best slot loses nothing. -/
theorem levels_ask_eq {book : BoundedBook capacity} (indexed : Indexed book) :
    book.levels .ask =
      (List.range' (capacity - (capacity - book.bestAskIdx).toNat)
        (capacity - book.bestAskIdx).toNat).filterMap (book.slotLevel .ask) := by
  rcases indexed.bestAsk with ⟨cached, none⟩ | ⟨top, cached, live, least⟩
  · rw [levels, filterMap_slotLevel_of_dead .ask fun slot _ => none slot, cached,
      sub_self]
    rfl
  · have bound := live.lt
    have cut : (capacity - book.bestAskIdx).toNat = capacity - top := by omega
    have split : List.range capacity =
        List.range top ++ List.range' (capacity - (capacity - top)) (capacity - top) := by
      rw [List.range_eq_range', List.range_eq_range',
        show capacity - (capacity - top) = 0 + 1 * top by omega, List.range'_append]
      congr 1
      omega
    rw [levels, cut, split, List.filterMap_append, filterMap_slotLevel_of_dead .ask,
      List.nil_append]
    intro slot member liveBelow
    rw [List.mem_range] at member
    have := least _ liveBelow
    omega

/-- `depth` is a prefix of the levels of its side. -/
theorem depth_eq {book : BoundedBook capacity} (indexed : Indexed book) (side : Side) (n : Nat) :
    book.depth side n = (book.levels side).take n := by
  cases side with
  | bid => rw [depth, collectBids_eq, levels_bid_eq indexed]
  | ask =>
    have slot := indexed.consistent.askSlot
    rw [depth, collectAsks_eq _ _ _ (by omega), levels_ask_eq indexed]

/-- `topOfBook` is the first level of its side. -/
theorem topOfBook_eq {book : BoundedBook capacity} (indexed : Indexed book) (side : Side) :
    book.topOfBook side = (book.levels side).head? := by
  cases side with
  | bid =>
    rw [levels_bid_eq indexed, topOfBook]
    rcases indexed.bestBid with ⟨cached, none⟩ | ⟨top, cached, live, greatest⟩
    · rw [cached]
      rfl
    · have found : book.slotLevel .bid top =
          some ⟨Price.fromTicks (book.tickOf top), ⟨book.bids.getD top 0⟩⟩ := if_pos live
      rw [if_neg (by omega), cached, show ((top : Int) + 1).toNat = top + 1 by omega,
        List.range_succ, List.reverse_append, List.reverse_singleton, List.singleton_append,
        List.filterMap_cons_some found]
      rfl
  | ask =>
    rw [levels_ask_eq indexed, topOfBook]
    rcases indexed.bestAsk with ⟨cached, none⟩ | ⟨top, cached, live, least⟩
    · rw [if_pos (by omega), cached, sub_self]
      rfl
    · have bound := live.lt
      have found : book.slotLevel .ask top =
          some ⟨Price.fromTicks (book.tickOf top), ⟨book.asks.getD top 0⟩⟩ := if_pos live
      have count : (capacity - book.bestAskIdx).toNat = (capacity - top - 1) + 1 := by omega
      rw [if_neg (by omega), count, show capacity - (capacity - top - 1 + 1) = top by omega,
        List.range'_succ, List.filterMap_cons_some found, cached]
      rfl

/-- A slot shows a level exactly if it is live, at its price and with its quantity. -/
theorem slotLevel_eq_some {book : BoundedBook capacity} {side : Side} {slot : Nat}
    {level : PriceLevel} :
    book.slotLevel side slot = some level ↔
      book.slotOf level.price = slot ∧ Live (book.ladder side) slot ∧
        (book.ladder side).getD slot 0 = level.qty.value := by
  unfold slotLevel
  constructor
  · intro found
    split at found
    · rename_i live
      obtain rfl := Option.some.inj found
      refine ⟨?_, live, rfl⟩
      simp only [slotOf, tickOf, Price.fromTicks]
      omega
    · cases found
  · rintro ⟨located, live, quantity⟩
    obtain ⟨⟨ticks⟩, ⟨value⟩⟩ := level
    have tick : book.tickOf slot = ticks := by
      rw [slotOf_mk] at located
      unfold tickOf
      omega
    rw [if_pos (show 0 < (book.ladder side).getD slot 0 from live), tick, quantity]
    rfl

/-- The listed levels are the levels the book holds. -/
theorem mem_levels {book : BoundedBook capacity} {side : Side} {level : PriceLevel} :
    level ∈ book.levels side ↔ book.levelAt side level.price.ticks = some level.qty.value := by
  have listed : level ∈ book.levels side ↔
      ∃ slot < capacity, book.slotLevel side slot = some level := by
    cases side <;>
      simp only [levels, List.mem_filterMap, List.mem_reverse, List.mem_range]
  rw [listed, levelAt_eq_some]
  constructor
  · rintro ⟨slot, -, found⟩
    exact ⟨slot, slotLevel_eq_some.mp found⟩
  · rintro ⟨slot, located, live, quantity⟩
    exact ⟨slot, live.lt, slotLevel_eq_some.mpr ⟨located, live, quantity⟩⟩

/-- The levels of a side are listed strictly best first. -/
theorem levels_pairwise (book : BoundedBook capacity) (side : Side) :
    (book.levels side).Pairwise (Better side) := by
  have slots : (List.range capacity).Pairwise (· < ·) := List.pairwise_lt_range
  have price {side : Side} {slot : Nat} {level : PriceLevel}
      (found : book.slotLevel side slot = some level) : level.price.ticks = book.tickOf slot := by
    have located := (slotLevel_eq_some.mp found).1
    unfold slotOf at located
    unfold tickOf
    omega
  cases side with
  | bid =>
    refine List.Pairwise.filterMap _ ?_ (List.pairwise_reverse.mpr slots)
    intro first second below firstLevel firstFound secondLevel secondFound
    show secondLevel.price.ticks < firstLevel.price.ticks
    rw [price firstFound, price secondFound]
    unfold tickOf
    omega
  | ask =>
    refine List.Pairwise.filterMap _ ?_ slots
    intro first second above firstLevel firstFound secondLevel secondFound
    show firstLevel.price.ticks < secondLevel.price.ticks
    rw [price firstFound, price secondFound]
    unfold tickOf
    omega

end BoundedBook

end Trading

/-
This file proves that the four representations of a book side never disagree.

A bitmap with its summary word *represents* a set of slots when a slot's bit is
set exactly for the members and a word's summary bit exactly for the nonzero
words. Setting and clearing one bit represent the set with one slot added and
removed, the wholesale rebuild represents the live slots, and the two scans of a
represented set find its greatest and its least member. From that each call on
the book restores the whole index, so it holds in every reachable book: insert,
overwrite, removal of the touch, removal behind the touch, an ignored update and
a rebase.
-/

import TradingEngine.BoundedBook

namespace Trading

open BitScan (bitAt highestBit lowestBit)

namespace ValidCapacity

variable (capacity : Nat) [valid : ValidCapacity capacity]

/-- A valid capacity is a whole number of words, at most one summary word's worth. -/
theorem words : ∃ words, capacity = 64 * words ∧ 1 ≤ words ∧ words ≤ 64 := by
  obtain ⟨exponent, low, high, rfl⟩ := valid.power
  refine ⟨2 ^ (exponent - 6), ?_, Nat.one_le_two_pow, ?_⟩
  · rw [show (64 : Nat) = 2 ^ 6 by rfl, ← pow_add]
    congr 1
    omega
  · rw [show (64 : Nat) = 2 ^ 6 by rfl]
    exact Nat.pow_le_pow_right (by omega) (by omega)

theorem word_lt {slot : Nat} (bound : slot < capacity) : slot / wordBits < numWords capacity := by
  obtain ⟨words, rfl, -, -⟩ := words capacity
  unfold wordBits numWords wordBits
  omega

theorem numWords_le : numWords capacity ≤ wordBits := by
  obtain ⟨words, rfl, -, few⟩ := words capacity
  unfold wordBits numWords wordBits
  omega

end ValidCapacity

namespace BoundedBook

variable {capacity : Nat}

/-! ### Bitmaps as sets of slots -/

/-- The bit of one slot. -/
def bitOf (bits : Bitmap capacity) (slot : Nat) : Bool :=
  (bits.getD (slot / wordBits) 0).getLsbD (slot % wordBits)

/-- A bitmap and its summary word represent a set of slots. -/
structure Represents (bits : Bitmap capacity) (summary : BitVec wordBits)
    (members : Nat → Prop) : Prop where
  bit : ∀ slot, bitOf bits slot = true ↔ members slot
  word : ∀ word, summary.getLsbD word = true ↔ bits.getD word 0 ≠ 0

/-- Reading the two scans of an index is defined: neither is applied to a zero word, and the
word between them exists. -/
structure ScansDefined (bits : Bitmap capacity) (summary : BitVec wordBits) : Prop where
  highest : summary ≠ 0 →
    highestBit summary < numWords capacity ∧ bits.getD (highestBit summary) 0 ≠ 0
  lowest : summary ≠ 0 →
    lowestBit summary < numWords capacity ∧ bits.getD (lowestBit summary) 0 ≠ 0

theorem word_lt_of_ne_zero {bits : Bitmap capacity} {word : Nat}
    (nonzero : bits.getD word 0 ≠ 0) : word < numWords capacity := by
  by_contra outside
  exact nonzero (Slots.getD_of_ge bits 0 (by omega))

theorem slot_eq_of_word_bit {first second : Nat} (word : first / wordBits = second / wordBits)
    (bit : first % wordBits = second % wordBits) : first = second := by
  rw [← Nat.div_add_mod first wordBits, ← Nat.div_add_mod second wordBits, word, bit]

theorem mod_wordBits_lt (slot : Nat) : slot % wordBits < wordBits :=
  Nat.mod_lt _ (by decide)

theorem bitOf_word_bit (bits : Bitmap capacity) (word bit : Nat) (inside : bit < wordBits) :
    bitOf bits (word * wordBits + bit) = (bits.getD word 0).getLsbD bit := by
  have split : (word * wordBits + bit) / wordBits = word := by
    rw [Nat.mul_comm, Nat.mul_add_div (by decide), Nat.div_eq_of_lt inside, Nat.add_zero]
  have rest : (word * wordBits + bit) % wordBits = bit := by
    rw [Nat.mul_comm, Nat.mul_add_mod, Nat.mod_eq_of_lt inside]
  rw [bitOf, split, rest]

namespace Represents

variable {bits : Bitmap capacity} {summary : BitVec wordBits} {members others : Nat → Prop}

theorem congr (represents : Represents bits summary members)
    (same : ∀ slot, members slot ↔ others slot) : Represents bits summary others :=
  ⟨fun slot => (represents.bit slot).trans (same slot), represents.word⟩

theorem empty : Represents (Vector.replicate (numWords capacity) 0) 0 fun _ => False := by
  constructor
  · intro slot
    rw [bitOf, Slots.getD_replicate]
    simp
  · intro word
    rw [Slots.getD_replicate]
    simp

/-- Setting a bit adds its slot. -/
theorem setBit [ValidCapacity capacity] (represents : Represents bits summary members)
    {slot : Nat} (bound : slot < capacity) :
    Represents (setBit bits summary slot).1 (setBit bits summary slot).2
      fun other => other = slot ∨ members other := by
  have wordBound := ValidCapacity.word_lt capacity bound
  have summaryBound := ValidCapacity.numWords_le capacity
  constructor
  · intro other
    rw [bitOf, BoundedBook.setBit, Slots.getD_setIfInBounds]
    by_cases sameWord : other / wordBits = slot / wordBits
    · rw [if_pos ⟨sameWord, wordBound⟩, BitScan.getLsbD_or_bitAt _ _ _ (mod_wordBits_lt slot),
        ← sameWord, Bool.or_eq_true, decide_eq_true_eq, ← represents.bit other, bitOf, or_comm]
      refine or_congr ⟨slot_eq_of_word_bit sameWord, fun same => by rw [same]⟩ Iff.rfl
    · rw [if_neg fun both => sameWord both.1, ← represents.bit other, bitOf]
      have different : other ≠ slot := fun same => sameWord (by rw [same])
      simp only [different, false_or]
  · intro word
    rw [BoundedBook.setBit, BitScan.getLsbD_or_bitAt _ _ _ (by omega),
      Slots.getD_setIfInBounds, Bool.or_eq_true, decide_eq_true_eq, represents.word word]
    by_cases same : word = slot / wordBits
    · rw [if_pos ⟨same, wordBound⟩]
      refine iff_of_true (Or.inr same) ((BitScan.ne_zero_iff_exists_getLsbD _).mpr ?_)
      refine ⟨slot % wordBits, ?_⟩
      rw [BitScan.getLsbD_or_bitAt _ _ _ (mod_wordBits_lt slot)]
      simp
    · rw [if_neg fun both => same both.1]
      simp only [same, or_false]

/-- Clearing a bit removes its slot. -/
theorem clearBit [ValidCapacity capacity] (represents : Represents bits summary members)
    {slot : Nat} (bound : slot < capacity) :
    Represents (clearBit bits summary slot).1 (clearBit bits summary slot).2
      fun other => members other ∧ other ≠ slot := by
  have wordBound := ValidCapacity.word_lt capacity bound
  have summaryBound := ValidCapacity.numWords_le capacity
  constructor
  · intro other
    rw [bitOf, BoundedBook.clearBit, Slots.getD_setIfInBounds]
    by_cases sameWord : other / wordBits = slot / wordBits
    · rw [if_pos ⟨sameWord, wordBound⟩,
        BitScan.getLsbD_and_not_bitAt _ _ _ (mod_wordBits_lt slot), ← sameWord,
        Bool.and_eq_true, Bool.not_eq_true', decide_eq_false_iff_not, ← represents.bit other,
        bitOf]
      refine and_congr Iff.rfl (not_congr ⟨slot_eq_of_word_bit sameWord, fun same => by rw [same]⟩)
    · rw [if_neg fun both => sameWord both.1, ← represents.bit other, bitOf]
      have different : other ≠ slot := fun same => sameWord (by rw [same])
      simp only [different, ne_eq, not_false_eq_true, and_true]
  · intro word
    set cleared := bits.getD (slot / wordBits) 0 &&& ~~~bitAt wordBits (slot % wordBits)
    have read (word : Nat) : (BoundedBook.clearBit bits summary slot).1.getD word 0 =
        if word = slot / wordBits then cleared else bits.getD word 0 := by
      rw [BoundedBook.clearBit, Slots.getD_setIfInBounds]
      simp only [wordBound, and_true, cleared]
    have summarised : (BoundedBook.clearBit bits summary slot).2 =
        if cleared = 0 then summary &&& ~~~bitAt wordBits (slot / wordBits) else summary := by
      have self := read (slot / wordBits)
      rw [if_pos rfl] at self
      rw [← self]
      rfl
    rw [read, summarised]
    by_cases same : word = slot / wordBits
    · subst same
      rw [if_pos rfl]
      split
      · rename_i zero
        rw [BitScan.getLsbD_and_not_bitAt _ _ _ (by omega), zero]
        simp
      · rename_i kept
        rw [represents.word]
        refine iff_of_true (fun zero => kept ?_) kept
        show bits.getD (slot / wordBits) 0 &&& _ = 0
        rw [zero]
        exact BitVec.zero_and
    · rw [if_neg same, ← represents.word word]
      split
      · rw [BitScan.getLsbD_and_not_bitAt _ _ _ (by omega)]
        simp only [same, decide_false, Bool.not_false, Bool.and_true]
      · rfl

/-! ### The scans -/

theorem scansDefined (represents : Represents bits summary members) :
    ScansDefined bits summary := by
  constructor
  · intro nonzero
    have word := (represents.word _).mp (BitScan.getLsbD_highestBit (by decide) nonzero)
    exact ⟨word_lt_of_ne_zero word, word⟩
  · intro nonzero
    have word := (represents.word _).mp (BitScan.getLsbD_lowestBit nonzero)
    exact ⟨word_lt_of_ne_zero word, word⟩

/-- A zero summary word represents the empty set. -/
theorem not_mem_of_zero (represents : Represents bits 0 members) (slot : Nat) :
    ¬members slot := by
  intro member
  have set := (represents.bit slot).mpr member
  have word : bits.getD (slot / wordBits) 0 ≠ 0 :=
    (BitScan.ne_zero_iff_exists_getLsbD _).mpr ⟨_, set⟩
  have impossible := (represents.word _).mpr word
  simp at impossible

/-- The highest scan finds the greatest member. -/
theorem highestSet (represents : Represents bits summary members) :
    (highestSet bits summary = -1 ∧ ∀ slot, ¬members slot) ∨
      ∃ slot : Nat, highestSet bits summary = slot ∧ members slot ∧
        ∀ other, members other → other ≤ slot := by
  unfold BoundedBook.highestSet
  split
  · rename_i zero
    subst zero
    exact Or.inl ⟨rfl, represents.not_mem_of_zero⟩
  · rename_i nonzero
    have word := (represents.scansDefined.highest nonzero).2
    set top := highestBit summary
    set bit := highestBit (bits.getD top 0)
    have inside : bit < wordBits := BitScan.highestBit_lt (by decide) _
    refine Or.inr ⟨top * wordBits + bit, rfl, ?_, ?_⟩
    · rw [← represents.bit, bitOf_word_bit bits top bit inside]
      exact BitScan.getLsbD_highestBit (by decide) word
    · intro other member
      have set := (represents.bit other).mpr member
      have otherWord : bits.getD (other / wordBits) 0 ≠ 0 :=
        (BitScan.ne_zero_iff_exists_getLsbD _).mpr ⟨_, set⟩
      have wordLe : other / wordBits ≤ top :=
        BitScan.le_highestBit ((represents.word _).mpr otherWord)
      rcases Nat.lt_or_eq_of_le wordLe with below | same
      · have step : (other / wordBits + 1) * wordBits ≤ top * wordBits :=
          Nat.mul_le_mul_right _ below
        have split := Nat.div_add_mod other wordBits
        have rest := mod_wordBits_lt other
        rw [Nat.mul_comm] at split
        rw [Nat.add_mul, Nat.one_mul] at step
        omega
      · rw [bitOf, same] at set
        have bitLe : other % wordBits ≤ bit := BitScan.le_highestBit set
        have split := Nat.div_add_mod other wordBits
        rw [same, Nat.mul_comm] at split
        omega

/-- The lowest scan finds the least member. -/
theorem lowestSet (represents : Represents bits summary members) :
    (lowestSet bits summary = capacity ∧ ∀ slot, ¬members slot) ∨
      ∃ slot : Nat, lowestSet bits summary = slot ∧ members slot ∧
        ∀ other, members other → slot ≤ other := by
  unfold BoundedBook.lowestSet
  split
  · rename_i zero
    subst zero
    exact Or.inl ⟨rfl, represents.not_mem_of_zero⟩
  · rename_i nonzero
    have word := (represents.scansDefined.lowest nonzero).2
    set low := lowestBit summary
    set bit := lowestBit (bits.getD low 0)
    have inside : bit < wordBits := BitScan.lowestBit_lt word
    refine Or.inr ⟨low * wordBits + bit, rfl, ?_, ?_⟩
    · rw [← represents.bit, bitOf_word_bit bits low bit inside]
      exact BitScan.getLsbD_lowestBit word
    · intro other member
      have set := (represents.bit other).mpr member
      have otherWord : bits.getD (other / wordBits) 0 ≠ 0 :=
        (BitScan.ne_zero_iff_exists_getLsbD _).mpr ⟨_, set⟩
      have wordLe : low ≤ other / wordBits :=
        BitScan.lowestBit_le ((represents.word _).mpr otherWord)
      rcases Nat.lt_or_eq_of_le wordLe with above | same
      · have step : (low + 1) * wordBits ≤ other / wordBits * wordBits :=
          Nat.mul_le_mul_right _ above
        have split := Nat.div_add_mod other wordBits
        rw [Nat.mul_comm] at split
        rw [Nat.add_mul, Nat.one_mul] at step
        omega
      · rw [bitOf, ← same] at set
        have bitLe : bit ≤ other % wordBits := BitScan.lowestBit_le set
        have split := Nat.div_add_mod other wordBits
        rw [← same, Nat.mul_comm] at split
        omega

end Represents

/-! ### The index of one ladder -/

/-- A slot is live when the ladder holds a positive quantity there. -/
def Live (ladder : Vector ℚ capacity) (slot : Nat) : Prop := 0 < ladder.getD slot 0

theorem Live.lt {ladder : Vector ℚ capacity} {slot : Nat} (live : Live ladder slot) :
    slot < capacity := by
  by_contra outside
  rw [Live, Slots.getD_of_ge ladder 0 (by omega)] at live
  exact lt_irrefl 0 live

/-- A write makes its slot live exactly if the quantity is positive, and no other one. -/
theorem live_setIfInBounds (ladder : Vector ℚ capacity) {slot : Nat} (bound : slot < capacity)
    (quantity : ℚ) (other : Nat) :
    Live (ladder.setIfInBounds slot quantity) other ↔
      if other = slot then 0 < quantity else Live ladder other := by
  rw [Live, Slots.getD_setIfInBounds]
  by_cases same : other = slot
  · rw [if_pos ⟨same, bound⟩, if_pos same]
  · rw [if_neg fun both => same both.1, if_neg same, Live]

theorem indexLadder_represents [ValidCapacity capacity] (ladder : Vector ℚ capacity) :
    Represents (indexLadder ladder).1 (indexLadder ladder).2 (Live ladder) := by
  have pass : ∀ count ≤ capacity, Represents
      ((List.range count).foldl (fun index slot =>
        if 0 < ladder.getD slot 0 then setBit index.1 index.2 slot else index)
        ((Vector.replicate _ 0, 0) : Bitmap capacity × BitVec wordBits)).1
      ((List.range count).foldl (fun index slot =>
        if 0 < ladder.getD slot 0 then setBit index.1 index.2 slot else index)
        ((Vector.replicate _ 0, 0) : Bitmap capacity × BitVec wordBits)).2
      fun slot => slot < count ∧ Live ladder slot := by
    intro count
    induction count with
    | zero =>
      intro _
      exact Represents.empty.congr fun slot => by simp
    | succ count inductionHypothesis =>
      intro bound
      have previous := inductionHypothesis (by omega)
      rw [List.range_succ, List.foldl_append, List.foldl_cons, List.foldl_nil]
      split
      · rename_i live
        refine (previous.setBit (by omega : count < capacity)).congr fun slot => ?_
        constructor
        · rintro (same | ⟨below, member⟩)
          · exact ⟨by omega, same ▸ live⟩
          · exact ⟨by omega, member⟩
        · rintro ⟨below, member⟩
          by_cases same : slot = count
          · exact Or.inl same
          · exact Or.inr ⟨by omega, member⟩
      · rename_i dead
        refine previous.congr fun slot => ⟨fun member => ⟨by omega, member.2⟩, ?_⟩
        rintro ⟨below, member⟩
        refine ⟨?_, member⟩
        by_contra above
        have same : slot = count := by omega
        exact dead (same ▸ member)
  refine (pass capacity le_rfl).congr fun slot => ⟨fun member => member.2, fun member => ?_⟩
  exact ⟨member.lt, member⟩

/-- The cached slot of one side: the live slot that no live slot is better than, or a value
that stands for an empty ladder. -/
def IsBest (better : Nat → Nat → Prop) (absent : Int) (ladder : Vector ℚ capacity)
    (best : Int) : Prop :=
  (best = absent ∧ ∀ slot, ¬Live ladder slot) ∨
    ∃ slot : Nat, best = slot ∧ Live ladder slot ∧ ∀ other, Live ladder other → better slot other

/-- The greatest live slot, or `-1`. -/
def IsBestBid : Vector ℚ capacity → Int → Prop := IsBest (fun slot other => other ≤ slot) (-1)

/-- The least live slot, or `capacity`. -/
def IsBestAsk : Vector ℚ capacity → Int → Prop := IsBest (fun slot other => slot ≤ other) capacity

section BestSlot

variable {better : Nat → Nat → Prop} {absent : Int} {ladder : Vector ℚ capacity} {best : Int}
  {slot : Nat} {quantity : ℚ}

/-- A live write at a slot better than every live one becomes the best slot. -/
theorem isBest_insert (bound : slot < capacity) (positive : 0 < quantity)
    (reflexive : better slot slot) (ahead : ∀ other, Live ladder other → better slot other) :
    IsBest better absent (ladder.setIfInBounds slot quantity) slot := by
  refine Or.inr ⟨slot, rfl, ?_, fun other member => ?_⟩
  · rw [live_setIfInBounds ladder bound, if_pos rfl]
    exact positive
  · rw [live_setIfInBounds ladder bound] at member
    split at member
    · rename_i same
      exact same ▸ reflexive
    · exact ahead other member

/-- A live write behind the best slot leaves it the best. -/
theorem isBest_insert_behind (bound : slot < capacity) (positive : 0 < quantity) {top : Nat}
    (topLive : Live ladder top) (first : ∀ other, Live ladder other → better top other)
    (behind : better top slot) :
    IsBest better absent (ladder.setIfInBounds slot quantity) top := by
  refine Or.inr ⟨top, rfl, ?_, fun other member => ?_⟩
  · rw [live_setIfInBounds ladder bound]
    split
    · exact positive
    · exact topLive
  · rw [live_setIfInBounds ladder bound] at member
    split at member
    · rename_i same
      exact same ▸ behind
    · exact first other member

/-- Removing a slot that is not the cached one leaves the cached one the best. -/
theorem isBest_remove_behind (isBest : IsBest better absent ladder best) (bound : slot < capacity)
    (dead : ¬0 < quantity) (behind : (slot : Int) ≠ best) :
    IsBest better absent (ladder.setIfInBounds slot quantity) best := by
  have kept (other : Nat) (member : Live (ladder.setIfInBounds slot quantity) other) :
      Live ladder other := by
    rw [live_setIfInBounds ladder bound] at member
    split at member
    · exact absurd member dead
    · exact member
  rcases isBest with ⟨cached, none⟩ | ⟨top, cached, topLive, first⟩
  · exact Or.inl ⟨cached, fun other member => none other (kept other member)⟩
  · refine Or.inr ⟨top, cached, ?_, fun other member => first other (kept other member)⟩
    rw [live_setIfInBounds ladder bound, if_neg (by omega)]
    exact topLive

end BestSlot

/-- The index invariant: on each side the ladder, the bitmap, the summary word and the
cached best slot describe one set of live slots. -/
structure Indexed (book : BoundedBook capacity) : Prop where
  bids : Represents book.bidBits book.bidSummary (Live book.bids)
  asks : Represents book.askBits book.askSummary (Live book.asks)
  bestBid : IsBestBid book.bids book.bestBidIdx
  bestAsk : IsBestAsk book.asks book.bestAskIdx

theorem not_live_replicate (slot : Nat) : ¬Live (Vector.replicate capacity (0 : ℚ)) slot := by
  rw [Live, Slots.getD_replicate]
  exact lt_irrefl 0

theorem fresh_indexed : Indexed (fresh capacity) where
  bids := Represents.empty.congr fun slot => by simp [fresh, not_live_replicate]
  asks := Represents.empty.congr fun slot => by simp [fresh, not_live_replicate]
  bestBid := Or.inl ⟨rfl, not_live_replicate⟩
  bestAsk := Or.inl ⟨rfl, not_live_replicate⟩

theorem clear_indexed (book : BoundedBook capacity) : Indexed book.clear where
  bids := Represents.empty.congr fun slot => by simp [clear, not_live_replicate]
  asks := Represents.empty.congr fun slot => by simp [clear, not_live_replicate]
  bestBid := Or.inl ⟨rfl, not_live_replicate⟩
  bestAsk := Or.inl ⟨rfl, not_live_replicate⟩

theorem rebuildIndex_indexed [ValidCapacity capacity] (book : BoundedBook capacity) :
    Indexed book.rebuildIndex where
  bids := indexLadder_represents book.bids
  asks := indexLadder_represents book.asks
  bestBid := (indexLadder_represents book.bids).highestSet
  bestAsk := (indexLadder_represents book.asks).lowestSet

namespace Indexed

variable {book : BoundedBook capacity}

theorem seedReference (indexed : Indexed book) (price : Price) :
    Indexed (book.seedReference price) := by
  unfold BoundedBook.seedReference
  split
  · exact indexed
  · exact ⟨indexed.bids, indexed.asks, indexed.bestBid, indexed.bestAsk⟩

theorem anchor (indexed : Indexed book) (price : Price) : Indexed (book.anchor price) :=
  indexed.seedReference price

/-- Writing one slot keeps the index of its side. -/
theorem writeSlot [ValidCapacity capacity] (indexed : Indexed book) (side : Side) {slot : Nat}
    (bound : slot < capacity) (qty : Qty) : Indexed (book.writeSlot side slot qty) := by
  have inserted {bits : Bitmap capacity} {summary : BitVec wordBits} {ladder : Vector ℚ capacity}
      (represents : Represents bits summary (Live ladder)) (positive : 0 < qty.value) :
      Represents (setBit bits summary slot).1 (setBit bits summary slot).2
        (Live (ladder.setIfInBounds slot qty.value)) := by
    refine (represents.setBit bound).congr fun other => ?_
    rw [live_setIfInBounds ladder bound]
    split <;> simp [*]
  have removed {bits : Bitmap capacity} {summary : BitVec wordBits} {ladder : Vector ℚ capacity}
      (represents : Represents bits summary (Live ladder)) (dead : ¬0 < qty.value) :
      Represents (clearBit bits summary slot).1 (clearBit bits summary slot).2
        (Live (ladder.setIfInBounds slot qty.value)) := by
    refine (represents.clearBit bound).congr fun other => ?_
    rw [live_setIfInBounds ladder bound]
    split <;> simp [*]
  unfold BoundedBook.writeSlot
  cases side with
  | bid =>
    dsimp only
    split
    · rename_i positive
      refine ⟨inserted indexed.bids positive, indexed.asks, ?_, indexed.bestAsk⟩
      rcases indexed.bestBid with ⟨cached, none⟩ | ⟨top, cached, topLive, greatest⟩
      · rw [if_pos (by omega)]
        exact isBest_insert bound positive le_rfl fun other member => (none other member).elim
      · by_cases above : book.bestBidIdx < slot
        · rw [if_pos above]
          exact isBest_insert bound positive le_rfl fun other member => by
            have := greatest other member
            omega
        · rw [if_neg above, cached]
          exact isBest_insert_behind bound positive topLive greatest (by omega)
    · rename_i dead
      refine ⟨removed indexed.bids dead, indexed.asks, ?_, indexed.bestAsk⟩
      split
      · exact (removed indexed.bids dead).highestSet
      · rename_i behind
        exact isBest_remove_behind indexed.bestBid bound dead behind
  | ask =>
    dsimp only
    split
    · rename_i positive
      refine ⟨indexed.bids, inserted indexed.asks positive, indexed.bestBid, ?_⟩
      rcases indexed.bestAsk with ⟨cached, none⟩ | ⟨top, cached, topLive, least⟩
      · rw [if_pos (by omega)]
        exact isBest_insert bound positive le_rfl fun other member => (none other member).elim
      · by_cases below : slot < book.bestAskIdx
        · rw [if_pos below]
          exact isBest_insert bound positive le_rfl fun other member => by
            have := least other member
            omega
        · rw [if_neg below, cached]
          exact isBest_insert_behind bound positive topLive least (by omega)
    · rename_i dead
      refine ⟨indexed.bids, removed indexed.asks dead, indexed.bestBid, ?_⟩
      split
      · exact (removed indexed.asks dead).lowestSet
      · rename_i behind
        exact isBest_remove_behind indexed.bestAsk bound dead behind

theorem rebase [ValidCapacity capacity] (book : BoundedBook capacity) (newRef : Int) :
    Indexed (book.rebase newRef) := by
  have rebuilt := rebuildIndex_indexed { book with
    bids := shiftLadder book.bids (newRef - book.refTick)
    asks := shiftLadder book.asks (newRef - book.refTick)
    refTick := newRef }
  exact ⟨rebuilt.bids, rebuilt.asks, rebuilt.bestBid, rebuilt.bestAsk⟩

theorem recenterIfNearEdge [ValidCapacity capacity] (indexed : Indexed book) :
    Indexed book.recenterIfNearEdge := by
  unfold BoundedBook.recenterIfNearEdge
  dsimp only
  split_ifs
  · exact indexed
  · exact indexed
  · exact rebase book _
  · exact indexed

theorem update [ValidCapacity capacity] (indexed : Indexed book) (side : Side) (price : Price)
    (qty : Qty) : Indexed (book.update side price qty) := by
  unfold BoundedBook.update
  dsimp only
  split
  · exact indexed.anchor price
  · exact ((indexed.anchor price).writeSlot side (by omega) qty).recenterIfNearEdge

theorem call [ValidCapacity capacity] (indexed : Indexed book) (call : Call) :
    Indexed (book.call call) := by
  cases call with
  | clear => exact clear_indexed book
  | seedReference price => exact indexed.seedReference price
  | update side price qty => exact indexed.update side price qty

theorem foldl [ValidCapacity capacity] (indexed : Indexed book) (calls : List Call) :
    Indexed (calls.foldl BoundedBook.call book) := by
  induction calls generalizing book with
  | nil => exact indexed
  | cons call rest inductionHypothesis => exact inductionHypothesis (indexed.call call)

end Indexed

theorem run_indexed [ValidCapacity capacity] (calls : List Call) : Indexed (run capacity calls) :=
  fresh_indexed.foldl calls

/-! ### The index of a reachable book, spelled out -/

/-- Everything the four representations owe each other, and what their readers rely on: no
scan of a zero word and no access outside a ladder or a bitmap. -/
structure Consistent (book : BoundedBook capacity) : Prop where
  bidBit : ∀ slot < capacity, bitOf book.bidBits slot = true ↔ 0 < book.bids.getD slot 0
  askBit : ∀ slot < capacity, bitOf book.askBits slot = true ↔ 0 < book.asks.getD slot 0
  bidWord : ∀ word, book.bidSummary.getLsbD word = true ↔
    word < numWords capacity ∧ book.bidBits.getD word 0 ≠ 0
  askWord : ∀ word, book.askSummary.getLsbD word = true ↔
    word < numWords capacity ∧ book.askBits.getD word 0 ≠ 0
  bestBid : IsBestBid book.bids book.bestBidIdx
  bestAsk : IsBestAsk book.asks book.bestAskIdx
  bidScans : ScansDefined book.bidBits book.bidSummary
  askScans : ScansDefined book.askBits book.askSummary
  bidSlot : -1 ≤ book.bestBidIdx ∧ book.bestBidIdx < capacity
  askSlot : 0 ≤ book.bestAskIdx ∧ book.bestAskIdx ≤ capacity

theorem Indexed.consistent {book : BoundedBook capacity} (indexed : Indexed book) :
    Consistent book where
  bidBit slot _ := indexed.bids.bit slot
  askBit slot _ := indexed.asks.bit slot
  bidWord word := (indexed.bids.word word).trans
    ⟨fun nonzero => ⟨word_lt_of_ne_zero nonzero, nonzero⟩, And.right⟩
  askWord word := (indexed.asks.word word).trans
    ⟨fun nonzero => ⟨word_lt_of_ne_zero nonzero, nonzero⟩, And.right⟩
  bestBid := indexed.bestBid
  bestAsk := indexed.bestAsk
  bidScans := indexed.bids.scansDefined
  askScans := indexed.asks.scansDefined
  bidSlot := by
    rcases indexed.bestBid with ⟨cached, -⟩ | ⟨top, cached, live, -⟩
    · omega
    · have := live.lt
      omega
  askSlot := by
    rcases indexed.bestAsk with ⟨cached, -⟩ | ⟨top, cached, live, -⟩
    · omega
    · have := live.lt
      omega

/-- In every reachable book, and half-way through every update of it, the four
representations agree. The scans an update makes are those of the written book (when it
removes the touch) and of the updated book (when it rebases), so none of them meets a zero
word; the slot an update writes and the bitmap word of that slot exist. -/
theorem run_consistent [ValidCapacity capacity] (calls : List Call) (side : Side) (price : Price)
    (qty : Qty) :
    Consistent (run capacity calls) ∧ Consistent ((run capacity calls).update side price qty) ∧
      ∀ slot : Nat, ((run capacity calls).anchor price).slotOf price = slot → slot < capacity →
        slot / wordBits < numWords capacity ∧
          Consistent (((run capacity calls).anchor price).writeSlot side slot qty) := by
  have indexed : Indexed (run capacity calls) := run_indexed calls
  refine ⟨indexed.consistent, (indexed.update side price qty).consistent, ?_⟩
  intro slot _ bound
  exact ⟨ValidCapacity.word_lt capacity bound,
    ((indexed.anchor price).writeSlot side bound qty).consistent⟩

instance validCapacity_64 : ValidCapacity 64 := ⟨⟨6, by decide⟩⟩

instance validCapacity_4096 : ValidCapacity 4096 := ⟨⟨12, by decide⟩⟩

/-- A book of the runtime's capacity with one bid, and the removal of that bid. -/
theorem run_consistent_remove_touch :
    Consistent ((run 4096 [.update .bid ⟨10000⟩ ⟨1⟩]).update .bid ⟨10000⟩ ⟨0⟩) :=
  (run_consistent [.update .bid ⟨10000⟩ ⟨1⟩] .bid ⟨10000⟩ ⟨0⟩).2.1

end BoundedBook

end Trading

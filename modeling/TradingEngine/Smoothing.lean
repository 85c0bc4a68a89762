/-
This file says what the strategy smooths over: the mean of its ring is the mean of the
last imbalances it recorded since the last reconnect.

An update that stops at an empty, a crossed or a sizeless book changes nothing, an update
that gets past these checks records one imbalance, fills leave the ring alone and a
reconnect empties it. So the ring is a moving window over the recorded imbalances, at
every phase of the ring and however often it was reset.
-/

import Mathlib.Algebra.Order.BigOperators.Group.List
import TradingEngine.Lib.MovingWindow
import TradingEngine.SizedOrders

namespace Trading

namespace ImbalanceStrategy

variable {capacity : Nat}

/-! ### What an update records -/

/-- The imbalance of a book, unless a side is empty, the book is crossed or it holds nothing. -/
def imbalanceOf (strategy : ImbalanceStrategy) (book : BoundedBook capacity) : Option ℚ :=
  match book.depth .bid strategy.params.depthLevels,
      book.depth .ask strategy.params.depthLevels with
  | bid :: bids, ask :: asks =>
    if ask.price.toDouble strategy.tickSize ≤ bid.price.toDouble strategy.tickSize then none
    else
      let bidSz := totalSize (bid :: bids)
      let askSz := totalSize (ask :: asks)
      if bidSz + askSz ≤ 0 then none else some ((bidSz - askSz) / (bidSz + askSz))
  | _, _ => none

/-- What an update does once the imbalance is recorded. -/
def afterRecord (recorded : ImbalanceStrategy) (book : BoundedBook capacity) (now : Timestamp)
    (bestBid bestAsk : ℚ) : Signal × ImbalanceStrategy :=
  if recorded.skipNextSignal then (Signal.none, { recorded with skipNextSignal := false })
  else recorded.decision book now bestBid bestAsk

/-- An update stops before it records, or records the imbalance and goes on from there. -/
theorem onMarketUpdate_cases (strategy : ImbalanceStrategy) (book : BoundedBook capacity)
    (now : Timestamp) :
    strategy.imbalanceOf book = none ∧
        strategy.onMarketUpdate book now = (Signal.none, strategy) ∨
      ∃ imbalance bestBid bestAsk, strategy.imbalanceOf book = some imbalance ∧
        strategy.onMarketUpdate book now =
          (strategy.record imbalance).afterRecord book now bestBid bestAsk := by
  unfold imbalanceOf onMarketUpdate
  generalize book.depth .bid strategy.params.depthLevels = bidSide
  generalize book.depth .ask strategy.params.depthLevels = askSide
  cases bidSide with
  | nil => exact Or.inl ⟨rfl, rfl⟩
  | cons bid bids =>
    cases askSide with
    | nil => exact Or.inl ⟨rfl, rfl⟩
    | cons ask asks =>
      dsimp only
      by_cases crossed : ask.price.toDouble strategy.tickSize ≤ bid.price.toDouble strategy.tickSize
      · rw [if_pos crossed, if_pos crossed]
        exact Or.inl ⟨rfl, rfl⟩
      · rw [if_neg crossed, if_neg crossed]
        by_cases sizeless : totalSize (bid :: bids) + totalSize (ask :: asks) ≤ 0
        · rw [if_pos sizeless, if_pos sizeless]
          exact Or.inl ⟨rfl, rfl⟩
        · rw [if_neg sizeless, if_neg sizeless]
          exact Or.inr ⟨_, _, _, rfl, rfl⟩

/-- The ring, its counters and what decides the next imbalance are unchanged. -/
structure KeepsRing (before after : ImbalanceStrategy) : Prop where
  params : after.params = before.params
  tickSize : after.tickSize = before.tickSize
  rolling : after.rolling = before.rolling
  rollingCount : after.rollingCount = before.rollingCount
  rollingHead : after.rollingHead = before.rollingHead

theorem KeepsRing.refl (strategy : ImbalanceStrategy) : KeepsRing strategy strategy :=
  ⟨rfl, rfl, rfl, rfl, rfl⟩

theorem KeepsRing.after {first second third : ImbalanceStrategy}
    (later : KeepsRing second third) (earlier : KeepsRing first second) : KeepsRing first third :=
  ⟨later.params.trans earlier.params, later.tickSize.trans earlier.tickSize,
    later.rolling.trans earlier.rolling, later.rollingCount.trans earlier.rollingCount,
    later.rollingHead.trans earlier.rollingHead⟩

theorem emit_keepsRing (strategy : ImbalanceStrategy) (signal : Signal) (now : Timestamp) :
    KeepsRing strategy (strategy.emit signal now).2 := by
  unfold emit
  split
  · exact KeepsRing.refl strategy
  · exact ⟨rfl, rfl, rfl, rfl, rfl⟩

theorem decision_keepsRing (strategy : ImbalanceStrategy) (book : BoundedBook capacity)
    (now : Timestamp) (bestBid bestAsk : ℚ) :
    KeepsRing strategy (strategy.decision book now bestBid bestAsk).2 := by
  unfold decision
  dsimp only
  repeat' split
  all_goals first
    | exact emit_keepsRing _ _ _
    | exact KeepsRing.refl strategy

theorem afterRecord_keepsRing (recorded : ImbalanceStrategy) (book : BoundedBook capacity)
    (now : Timestamp) (bestBid bestAsk : ℚ) :
    KeepsRing recorded (recorded.afterRecord book now bestBid bestAsk).2 := by
  unfold afterRecord
  split
  · exact ⟨rfl, rfl, rfl, rfl, rfl⟩
  · exact decision_keepsRing _ _ _ _ _

theorem setInitialCash_keepsRing (strategy : ImbalanceStrategy) (cash : ℚ) :
    KeepsRing strategy (strategy.setInitialCash cash) := by
  unfold setInitialCash
  split
  · exact ⟨rfl, rfl, rfl, rfl, rfl⟩
  · exact KeepsRing.refl strategy

/-! ### The imbalance of a book -/

theorem totalSize_eq_offered (levels : List PriceLevel) : totalSize levels = offered levels := by
  unfold totalSize offered
  rw [List.sum_eq_foldl, List.foldl_map]

/-- An imbalance lies between all asks and all bids. -/
theorem imbalanceOf_between [ValidCapacity capacity] {strategy : ImbalanceStrategy}
    {book : BoundedBook capacity} (wellFormed : book.WellFormed) {imbalance : ℚ}
    (found : strategy.imbalanceOf book = some imbalance) : -1 ≤ imbalance ∧ imbalance ≤ 1 := by
  have sizes : ∀ side, 0 ≤ totalSize (book.depth side strategy.params.depthLevels) := by
    intro side
    rw [totalSize_eq_offered]
    exact offered_nonneg (OrderSizer.depth_sizes wellFormed side _)
  have bidSize := sizes .bid
  have askSize := sizes .ask
  unfold imbalanceOf at found
  split at found
  · rename_i bid bids ask asks bidSide askSide
    rw [bidSide] at bidSize
    rw [askSide] at askSize
    split at found
    · cases found
    · dsimp only at found
      split at found
      · cases found
      · rename_i some
        have denom := not_le.mp some
        obtain rfl := Option.some.inj found
        rw [le_div_iff₀ denom, div_le_iff₀ denom]
        constructor <;> linarith
  · cases found

/-! ### The ring as a moving window -/

/-- The ring holds the last of the given imbalances. -/
def RingHolds (strategy : ImbalanceStrategy) (samples : List ℚ) : Prop :=
  MovingWindow.Holds strategy.params.smoothingWindow samples
    (fun slot => strategy.rolling.getD slot 0) strategy.rollingHead strategy.rollingCount

theorem clamp_between (value : Nat) {bound : Nat} (positive : 0 < bound) :
    1 ≤ clamp value bound ∧ clamp value bound ≤ bound := by
  unfold clamp
  dsimp only
  split <;> split <;> omega

theorem RingHolds.of_keepsRing {before after : ImbalanceStrategy} {samples : List ℚ}
    (holds : before.RingHolds samples) (keeps : KeepsRing before after) :
    after.RingHolds samples := by
  unfold RingHolds
  rw [keeps.params, keeps.rolling, keeps.rollingHead, keeps.rollingCount]
  exact holds

/-- A recorded imbalance becomes the last of those the ring holds. -/
theorem RingHolds.record {strategy : ImbalanceStrategy} {samples : List ℚ}
    (holds : strategy.RingHolds samples)
    (window : 1 ≤ strategy.params.smoothingWindow ∧ strategy.params.smoothingWindow ≤ maxRolling)
    (imbalance : ℚ) : (strategy.record imbalance).RingHolds (samples ++ [imbalance]) := by
  have inside : strategy.rollingHead < maxRolling := by
    rw [holds.head_eq]
    exact lt_of_lt_of_le (Nat.mod_lt _ window.1) window.2
  have written : (fun slot => (strategy.record imbalance).rolling.getD slot 0) =
      Function.update (fun slot => strategy.rolling.getD slot 0) strategy.rollingHead
        imbalance := by
    funext slot
    rw [Function.update_apply]
    show (strategy.rolling.setIfInBounds strategy.rollingHead imbalance).getD slot 0 = _
    rw [Slots.getD_setIfInBounds]
    simp only [inside, and_true]
  unfold RingHolds
  rw [written]
  exact holds.push imbalance

/-- The mean of the ring is the mean of the last imbalances. -/
theorem RingHolds.smoothed_eq {strategy : ImbalanceStrategy} {samples : List ℚ}
    (holds : strategy.RingHolds samples) :
    let recent := samples.drop (samples.length - strategy.params.smoothingWindow)
    strategy.smoothed = recent.sum / recent.length := by
  intro recent
  have sum : (List.range strategy.rollingCount).foldl
      (fun sum slot => sum + strategy.rolling.getD slot 0) 0 = recent.sum := by
    rw [← holds.perm.sum_eq, List.sum_eq_foldl, List.foldl_map]
  have count : strategy.rollingCount = recent.length := by
    rw [holds.count_eq, ← MovingWindow.length_recent]
  rw [smoothed, sum, count]

/-- The mean of some values between two bounds is between them. -/
theorem mean_between {values : List ℚ} (some : values ≠ [])
    (bounds : ∀ value ∈ values, -1 ≤ value ∧ value ≤ 1) :
    -1 ≤ values.sum / values.length ∧ values.sum / values.length ≤ 1 := by
  have length : (0 : ℚ) < values.length := Nat.cast_pos.mpr (List.length_pos_iff.mpr some)
  have least := List.card_nsmul_le_sum values (-1) fun value member => (bounds value member).1
  have most := List.sum_le_card_nsmul values 1 fun value member => (bounds value member).2
  rw [nsmul_eq_mul] at least most
  rw [le_div_iff₀ length, div_le_iff₀ length]
  constructor <;> linarith

/-! ### Every sequence of calls -/

/-- The calls a strategy receives, an update with the calls that led to its book. -/
inductive Call where
  | onMarketUpdate (book : List BoundedBook.Call) (now : Timestamp)
  | onFill (report : ExecutionReport)
  | onReconnect

/-- Make one call on the strategy. -/
def call (capacity : Nat) (strategy : ImbalanceStrategy) : Call → ImbalanceStrategy
  | .onMarketUpdate book now => (strategy.onMarketUpdate (BoundedBook.run capacity book) now).2
  | .onFill report => strategy.onFill report
  | .onReconnect => strategy.onReconnect

/-- Make some calls, one after another. -/
def calls (capacity : Nat) (strategy : ImbalanceStrategy) (sequence : List Call) :
    ImbalanceStrategy :=
  sequence.foldl (call capacity) strategy

/-- The imbalances recorded since the last reconnect, after one more call. -/
def recordedBy (capacity : Nat) (start : ImbalanceStrategy) (samples : List ℚ) : Call → List ℚ
  | .onMarketUpdate book _ =>
    samples ++ (start.imbalanceOf (BoundedBook.run capacity book)).toList
  | .onFill _ => samples
  | .onReconnect => []

/-- The imbalances recorded since the last reconnect. -/
def samplesOf (capacity : Nat) (start : ImbalanceStrategy) (sequence : List Call) : List ℚ :=
  sequence.foldl (recordedBy capacity start) []

/-- A strategy that started as `start` and has recorded `samples`. -/
structure Recorded (start strategy : ImbalanceStrategy) (samples : List ℚ) : Prop where
  params : strategy.params = start.params
  tickSize : strategy.tickSize = start.tickSize
  ring : strategy.RingHolds samples
  bounded : ∀ imbalance ∈ samples, -1 ≤ imbalance ∧ imbalance ≤ 1

theorem imbalanceOf_congr {first second : ImbalanceStrategy} (params : first.params = second.params)
    (tickSize : first.tickSize = second.tickSize) (book : BoundedBook capacity) :
    first.imbalanceOf book = second.imbalanceOf book := by
  unfold imbalanceOf
  rw [params, tickSize]

section Run

variable [ValidCapacity capacity] {start strategy : ImbalanceStrategy} {samples : List ℚ}

/-- What the ring holds is what was recorded, one imbalance later. -/
theorem Recorded.record (recorded : Recorded start strategy samples)
    (window : 1 ≤ start.params.smoothingWindow ∧ start.params.smoothingWindow ≤ maxRolling)
    {book : BoundedBook capacity} (wellFormed : book.WellFormed) {imbalance : ℚ}
    (found : strategy.imbalanceOf book = some imbalance) :
    Recorded start (strategy.record imbalance) (samples ++ [imbalance]) where
  params := recorded.params
  tickSize := recorded.tickSize
  ring := recorded.ring.record (by rwa [recorded.params]) imbalance
  bounded := by
    intro other member
    rcases List.mem_append.mp member with earlier | last
    · exact recorded.bounded other earlier
    · rw [List.mem_singleton.mp last]
      exact imbalanceOf_between wellFormed found

theorem Recorded.of_keepsRing {after : ImbalanceStrategy}
    (recorded : Recorded start strategy samples) (keeps : KeepsRing strategy after) :
    Recorded start after samples where
  params := keeps.params.trans recorded.params
  tickSize := keeps.tickSize.trans recorded.tickSize
  ring := recorded.ring.of_keepsRing keeps
  bounded := recorded.bounded

/-- Every call records what it is said to record. -/
theorem Recorded.call (recorded : Recorded start strategy samples)
    (window : 1 ≤ start.params.smoothingWindow ∧ start.params.smoothingWindow ≤ maxRolling)
    (next : Call) :
    Recorded start (strategy.call capacity next) (recordedBy capacity start samples next) := by
  cases next with
  | onMarketUpdate book now =>
    have same := imbalanceOf_congr recorded.params recorded.tickSize (BoundedBook.run capacity book)
    show Recorded start (strategy.onMarketUpdate (BoundedBook.run capacity book) now).2
      (samples ++ (start.imbalanceOf (BoundedBook.run capacity book)).toList)
    rw [← same]
    obtain ⟨none, stops⟩ | ⟨imbalance, bestBid, bestAsk, found, goesOn⟩ :=
      strategy.onMarketUpdate_cases (BoundedBook.run capacity book) now
    · rw [none, stops, Option.toList_none, List.append_nil]
      exact recorded
    · rw [found, goesOn, Option.toList_some]
      exact (recorded.record window (BoundedBook.run_wellFormed book) found).of_keepsRing
        (afterRecord_keepsRing _ _ _ _ _)
  | onFill report => exact recorded.of_keepsRing ⟨rfl, rfl, rfl, rfl, rfl⟩
  | onReconnect =>
    exact ⟨recorded.params, recorded.tickSize, MovingWindow.holds_nil _,
      List.forall_mem_nil _⟩

/-- So does every sequence of calls. -/
theorem Recorded.calls (recorded : Recorded start strategy samples)
    (window : 1 ≤ start.params.smoothingWindow ∧ start.params.smoothingWindow ≤ maxRolling)
    (sequence : List Call) :
    Recorded start (strategy.calls capacity sequence)
      (sequence.foldl (recordedBy capacity start) samples) := by
  induction sequence generalizing strategy samples with
  | nil => exact recorded
  | cons next rest inductionHypothesis => exact inductionHypothesis (recorded.call window next)

end Run

/-- After any calls, an update either stops at an empty, crossed or sizeless book and changes
nothing, or records the imbalance and goes on with the mean of the last imbalances recorded
since the last reconnect, this one included, as many as the window has; it lies in `[-1, 1]`. -/
theorem smoothed_eq_mean (capacity : Nat) [ValidCapacity capacity] (params : StrategyParams)
    (id : SymbolId) (tickSize cash : ℚ) (sequence : List Call) (book : List BoundedBook.Call)
    (now : Timestamp) :
    let start := ((create params).setSymbol id tickSize).setInitialCash cash
    let strategy := start.calls capacity sequence
    let window := clamp params.smoothingWindow maxRolling
    (strategy.imbalanceOf (BoundedBook.run capacity book) = none →
      strategy.onMarketUpdate (BoundedBook.run capacity book) now = (Signal.none, strategy)) ∧
    ∀ imbalance, strategy.imbalanceOf (BoundedBook.run capacity book) = some imbalance →
      let recorded := strategy.record imbalance
      let samples := samplesOf capacity start sequence ++ [imbalance]
      let recent := samples.drop (samples.length - window)
      (∃ bestBid bestAsk, strategy.onMarketUpdate (BoundedBook.run capacity book) now =
        recorded.afterRecord (BoundedBook.run capacity book) now bestBid bestAsk) ∧
      recent.length = min samples.length window ∧
      recorded.smoothed = recent.sum / recent.length ∧
      -1 ≤ recorded.smoothed ∧ recorded.smoothed ≤ 1 := by
  intro start strategy window
  have keeps := setInitialCash_keepsRing ((create params).setSymbol id tickSize) cash
  have clamped : start.params.smoothingWindow = window :=
    congrArg StrategyParams.smoothingWindow keeps.params
  have bounds : 1 ≤ start.params.smoothingWindow ∧ start.params.smoothingWindow ≤ maxRolling := by
    rw [clamped]
    exact clamp_between _ (by decide)
  have empty : ((create params).setSymbol id tickSize).RingHolds [] := MovingWindow.holds_nil _
  have initial : Recorded start start [] :=
    ⟨rfl, rfl, empty.of_keepsRing keeps, List.forall_mem_nil _⟩
  have recorded : Recorded start strategy (samplesOf capacity start sequence) :=
    initial.calls bounds sequence
  have cases := strategy.onMarketUpdate_cases (BoundedBook.run capacity book) now
  refine ⟨fun none => ?_, fun imbalance found => ?_⟩
  · rcases cases with ⟨-, stops⟩ | ⟨imbalance, -, -, found, -⟩
    · exact stops
    · rw [none] at found
      cases found
  · have next := recorded.record bounds (BoundedBook.run_wellFormed book) found
    have mean := next.ring.smoothed_eq
    rw [next.params, clamped] at mean
    intro after samples recent
    have length : recent.length = min samples.length window := MovingWindow.length_recent _ _
    have some : recent ≠ [] := by
      have window' : 1 ≤ window := clamped ▸ bounds.1
      have positive : 1 ≤ samples.length := by simp [samples]
      exact List.ne_nil_of_length_pos (by omega)
    refine ⟨?_, length, mean, ?_⟩
    · rcases cases with ⟨none, -⟩ | ⟨other, bestBid, bestAsk, same, goesOn⟩
      · rw [none] at found
        cases found
      · rw [found] at same
        obtain rfl := Option.some.inj same
        exact ⟨bestBid, bestAsk, goesOn⟩
    · rw [show after.smoothed = _ from mean]
      exact mean_between some fun value member => next.bounded value (List.mem_of_mem_drop member)

/-- The first update after a reconnect smooths over itself alone. -/
theorem smoothed_eq_mean_reconnected :
    let start := ((create {}).setSymbol 0 (1 / 100)).setInitialCash 1000
    let strategy := start.calls 64 [.onMarketUpdate twoAsks 1, .onReconnect]
    strategy.imbalanceOf (BoundedBook.run 64 twoAsks) = some (-1 / 11) ∧
      (strategy.record (-1 / 11)).smoothed = -1 / 11 := by
  intro start strategy
  have found : strategy.imbalanceOf (BoundedBook.run 64 twoAsks) = some (-1 / 11) := by
    decide +kernel
  obtain ⟨-, -, mean, -⟩ := (smoothed_eq_mean 64 {} 0 (1 / 100) 1000
    [.onMarketUpdate twoAsks 1, .onReconnect] twoAsks 2).2 (-1 / 11) found
  refine ⟨found, mean.trans ?_⟩
  decide +kernel

end ImbalanceStrategy

end Trading

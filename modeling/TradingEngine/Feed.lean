/-
This file turns feed messages into market events, as `Runtime::onCoinbaseMessage` does: a
snapshot keeps the first `maxSnapLevels` levels of each side, and a batch of changes is
cut into events of at most `maxL2Changes`. The chunks of one message are written into one
buffer, so a later chunk keeps the tail of an earlier one beyond its own changes.

Prices become ticks here for a snapshot, on the network thread, while the changes of an
update carry their prices as numbers and are converted when they are handled. A message of
any other type gives no event, except a heartbeat, which gives one.
-/

import TradingEngine.Lib.Slices
import TradingEngine.Runtime

namespace Trading

open Slices (slices)

/-- The types of messages the venue sends. -/
inductive CoinbaseMsgType where
  | unknown
  | subscriptions
  | snapshot
  | l2Update
  | heartbeat
  | error
deriving DecidableEq, Repr

/-- A level of a snapshot as the parser read it, its price and quantity in numbers. -/
structure CoinbasePriceLevel where
  price : ℚ
  qty : ℚ
deriving DecidableEq, Repr

/-- A parsed message, with the fields the translation to events reads. -/
structure CoinbaseMessage where
  type : CoinbaseMsgType
  bids : List CoinbasePriceLevel
  asks : List CoinbasePriceLevel
  changes : List CoinbaseChange
deriving DecidableEq, Repr

/-- A feed level on the tick grid. -/
def CoinbasePriceLevel.toLevel [DoubleDivision] (level : CoinbasePriceLevel) (tickSize : ℚ) :
    PriceLevel :=
  ⟨Price.fromDouble level.price tickSize, ⟨level.qty⟩⟩

namespace MarketEvent

/-- One side of a snapshot event. -/
def snapSide [DoubleDivision] (levels : List CoinbasePriceLevel) (tickSize : ℚ) :
    Vector PriceLevel maxSnapLevels :=
  Vector.ofFn fun i => match levels[i]? with
    | some level => level.toLevel tickSize
    | none => ⟨⟨0⟩, ⟨0⟩⟩

/-- The levels of a snapshot that fit an event, the best ones of each side. -/
def Snap.ofMessage [DoubleDivision] (msg : CoinbaseMessage) (tickSize : ℚ) : Snap where
  nBids := min msg.bids.length maxSnapLevels
  nAsks := min msg.asks.length maxSnapLevels
  bids := snapSide msg.bids tickSize
  asks := snapSide msg.asks tickSize
  nBids_le := Nat.min_le_right _ _
  nAsks_le := Nat.min_le_right _ _

/-- Write the next changes into the buffer, as many as fit. -/
def L2.fill (buffer : L2) (changes : List CoinbaseChange) : L2 where
  nChanges := min changes.length maxL2Changes
  changeSides := Vector.ofFn fun i => match changes[i]? with
    | some change => change.side
    | none => buffer.changeSides.get i
  changePrices := Vector.ofFn fun i => match changes[i]? with
    | some change => change.price
    | none => buffer.changePrices.get i
  changeQtys := Vector.ofFn fun i => match changes[i]? with
    | some change => change.qty
    | none => buffer.changeQtys.get i
  nChanges_le := Nat.min_le_right _ _

/-- The chunking loop: full chunks, and the last. Each chunk but the last takes changes away, so
as much fuel as there are changes is enough. -/
def L2.chunkLoop : (fuel : Nat) → L2 → List CoinbaseChange → List L2
  | 0, buffer, changes => [buffer.fill changes]
  | fuel + 1, buffer, changes =>
    if changes.length ≤ maxL2Changes then [buffer.fill changes]
    else buffer.fill changes ::
      chunkLoop fuel (buffer.fill changes) (changes.drop maxL2Changes)

/-- The chunks of a batch. -/
def L2.chunks (changes : List CoinbaseChange) : List L2 :=
  chunkLoop changes.length L2.empty changes

end MarketEvent

/-- The events a message is turned into, in the order they are pushed. -/
def CoinbaseMessage.events [DoubleDivision] (msg : CoinbaseMessage) (tickSize : ℚ)
    (recvTs : Timestamp) : List MarketEvent :=
  match msg.type with
  | .snapshot =>
    [{ MarketEvent.empty with
      kind := .snapshot, recvNs := recvTs, snap := MarketEvent.Snap.ofMessage msg tickSize }]
  | .l2Update =>
    (MarketEvent.L2.chunks msg.changes).map fun l2 =>
      { MarketEvent.empty with kind := .l2Update, recvNs := recvTs, l2 }
  | .heartbeat => [{ MarketEvent.empty with kind := .heartbeat, recvNs := recvTs }]
  | _ => []

/-! ### What the events carry -/

namespace MarketEvent

theorem take_snapSide [DoubleDivision] (levels : List CoinbasePriceLevel) (tickSize : ℚ) :
    (snapSide levels tickSize).toList.take (min levels.length maxSnapLevels) =
      (levels.take maxSnapLevels).map fun level => level.toLevel tickSize := by
  refine List.ext_getElem ?_ fun i first second => ?_
  · simp [snapSide, Nat.min_comm]
  · have bound : i < levels.length := by
      simp only [List.length_map, List.length_take] at second
      omega
    simp [snapSide, bound]

theorem Snap.bidLevels_ofMessage [DoubleDivision] (msg : CoinbaseMessage) (tickSize : ℚ) :
    (Snap.ofMessage msg tickSize).bidLevels =
      (msg.bids.take maxSnapLevels).map fun level => level.toLevel tickSize :=
  take_snapSide msg.bids tickSize

theorem Snap.askLevels_ofMessage [DoubleDivision] (msg : CoinbaseMessage) (tickSize : ℚ) :
    (Snap.ofMessage msg tickSize).askLevels =
      (msg.asks.take maxSnapLevels).map fun level => level.toLevel tickSize :=
  take_snapSide msg.asks tickSize

/-- A filled buffer carries the changes written into it, and nothing of its old tail. -/
theorem L2.changes_fill (buffer : L2) (changes : List CoinbaseChange) :
    (buffer.fill changes).changes = changes.take maxL2Changes := by
  refine List.ext_getElem ?_ fun i first second => ?_
  · simp [L2.changes, fill, Nat.min_comm]
  · rw [List.length_take] at second
    have inside : i < maxL2Changes := by omega
    have bound : i < changes.length := by omega
    simp [L2.changes, fill, Slots.getD_ofFn, inside, bound]

theorem maxL2Changes_pos : 0 < maxL2Changes := by decide

/-- The buffer is written over, so the chunks are the slices of the batch whatever was in it. -/
theorem L2.chunkLoop_eq {fuel : Nat} {buffer : L2} {changes : List CoinbaseChange}
    (enough : changes.length ≤ fuel) :
    (chunkLoop fuel buffer changes).map L2.changes = slices maxL2Changes changes := by
  have last : ∀ {buffer : L2} {changes : List CoinbaseChange}, changes.length ≤ maxL2Changes →
      [buffer.fill changes].map L2.changes = slices maxL2Changes changes := by
    intro buffer changes short
    rw [List.map_singleton, changes_fill, List.take_of_length_le short,
      Slices.slices_of_le maxL2Changes_pos short]
  induction fuel generalizing buffer changes with
  | zero => exact last (le_trans enough (Nat.zero_le _))
  | succ fuel inductionHypothesis =>
    rw [chunkLoop]
    split
    · rename_i short
      exact last short
    · rename_i long
      have shorter : (changes.drop maxL2Changes).length ≤ fuel := by
        rw [List.length_drop]
        unfold maxL2Changes at *
        omega
      rw [List.map_cons, changes_fill, inductionHypothesis shorter,
        Slices.slices_of_lt maxL2Changes_pos (not_le.mp long)]

theorem L2.chunks_eq (changes : List CoinbaseChange) :
    (chunks changes).map L2.changes = slices maxL2Changes changes :=
  chunkLoop_eq le_rfl

/-- The chunks of a batch carry its changes, in order. -/
theorem L2.changes_chunks (changes : List CoinbaseChange) :
    (chunks changes).flatMap L2.changes = changes := by
  rw [List.flatMap_def, chunks_eq, Slices.flatten_slices maxL2Changes_pos]

end MarketEvent

end Trading

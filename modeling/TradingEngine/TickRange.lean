/-
This file asks when the 64-bit tick computations of the runtime stay in range.

Nothing between the wire and the ladder bounds a price: a number that is too large for the
tick grid is rounded all the same, and the window is checked only after the reference tick has
been subtracted. The computations of a message fit exactly if three kinds of them do, each
judged on the book as it is found: the rounded ticks, the spread of a two-sided snapshot and,
for each update, the distance of its price from the reference held, with room for the centre
of the window above it. The others follow. The mid lies between two ticks that fit, and so
does the tick a recentering moves the reference to, through any number of recenterings.

How a machine rounds the quotient behind a tick is left open: beyond a size the rounding
moves ticks, and the range of the computations is that of the moved ones.
-/

import TradingEngine.Chunking
import TradingEngine.CoinbaseParser
import TradingEngine.Fidelity

namespace Trading

/-- The number fits 64 bits with a sign. -/
def InInt64 (n : Int) : Prop := int64Min ≤ n ∧ n ≤ int64Max

instance (n : Int) : Decidable (InInt64 n) := inferInstanceAs (Decidable (_ ∧ _))

theorem InInt64.convex : {n | InInt64 n}.OrdConnected :=
  ⟨fun _ one _ two _ between => ⟨le_trans one.1 between.1, le_trans between.2 two.2⟩⟩

/-! ### The computations of one call -/

namespace BoundedBook

variable {capacity : Nat}

/-- The new reference of a recentering, and the shift of the ladders that moves it there. -/
def recenterTicks (book : BoundedBook capacity) : List Int :=
  let haveBid := 0 ≤ book.bestBidIdx
  let haveAsk := book.bestAskIdx < capacity
  if ¬haveBid ∧ ¬haveAsk then []
  else if recenterMargin capacity ≤ book.lo ∧ book.hi < capacity - recenterMargin capacity then []
  else
    let newRef := book.refTick + ((book.lo + book.hi).tdiv 2 - center capacity)
    newRef :: if newRef ≠ book.refTick then [newRef - book.refTick] else []

/-- The distance of a price from the reference, its slot, and what a recentering computes. -/
def updateTicks (book : BoundedBook capacity) (side : Side) (price : Price) (qty : Qty) :
    List Int :=
  let book := book.anchor price
  let idx := book.slotOf price
  (price.ticks - book.refTick) :: idx ::
    if idx < 0 ∨ capacity ≤ idx then [] else (book.writeSlot side idx.toNat qty).recenterTicks

/-- The computations of one call. -/
def callTicks (book : BoundedBook capacity) : Call → List Int
  | .clear => []
  | .seedReference _ => []
  | .update side price qty => book.updateTicks side price qty

/-- The computations of a sequence of calls. -/
def callsTicks (book : BoundedBook capacity) : List Call → List Int
  | [] => []
  | call :: rest => book.callTicks call ++ (book.call call).callsTicks rest

theorem mem_recenterTicks {book : BoundedBook capacity} {n : Int}
    (member : n ∈ book.recenterTicks) :
    n = book.recenterIfNearEdge.refTick ∨ n = book.recenterIfNearEdge.refTick - book.refTick := by
  unfold recenterTicks at member
  unfold recenterIfNearEdge
  dsimp only at member ⊢
  split at member
  · cases member
  · rename_i touched
    rw [if_neg touched]
    split at member
    · cases member
    · rename_i near
      rw [if_neg near]
      split at member
      · rename_i moved
        rw [if_pos moved, rebase_refTick]
        simpa using member
      · rename_i kept
        rw [if_neg kept]
        rw [not_not.mp kept] at member
        exact Or.inl (List.mem_singleton.mp member)

/-- A recentering shifts the ladders by half a window at most. -/
theorem recenterIfNearEdge_shift [ValidCapacity capacity] {book : BoundedBook capacity}
    (indexed : Indexed book) :
    -center capacity ≤ book.recenterIfNearEdge.refTick - book.refTick ∧
      book.recenterIfNearEdge.refTick - book.refTick ≤ center capacity := by
  have even := two_mul_center capacity
  have positive := center_pos capacity
  rcases recenterIfNearEdge_cases book with same | ⟨present, moved⟩
  · rw [same]
    omega
  · obtain ⟨first, ordered, last⟩ := lo_hi_bounds indexed present
    rw [moved, rebase_refTick, Int.tdiv_eq_ediv_of_nonneg (by omega)]
    omega

/-! ### Inside a range of ticks -/

/-- Every price of the call lies inside. -/
def Call.PricedIn (inside : Int → Prop) : Call → Prop
  | .clear => True
  | .seedReference price => inside price.ticks
  | .update _ price _ => inside price.ticks

namespace Within

variable {inside : Int → Prop} {book : BoundedBook capacity}

theorem clear (inside : Int → Prop) (book : BoundedBook capacity) : Within inside book.clear where
  wellFormed := clear_wellFormed book
  ref missing := by cases missing
  levels side tick quantity found := by
    rw [levelAt_clear] at found
    cases found

theorem mono {more : Int → Prop} (within : Within inside book)
    (wider : ∀ tick, inside tick → more tick) : Within more book where
  wellFormed := within.wellFormed
  ref anchored := wider _ (within.ref anchored)
  levels side tick quantity found := wider _ (within.levels side tick quantity found)

variable [ValidCapacity capacity]

theorem update (within : Within inside book) (convex : {tick | inside tick}.OrdConnected)
    (side : Side) {price : Price} (priced : inside price.ticks) (qty : Qty) :
    Within inside (book.update side price qty) where
  wellFormed := within.wellFormed.update side price qty
  ref _ := within.update_ref convex side priced qty
  levels other tick quantity found := by
    rw [levelAt_update within.wellFormed.anchored] at found
    split at found
    · split at found
      · rename_i own
        exact own.2.1 ▸ priced
      · exact within.levels other tick quantity found
    · cases found

theorem call (within : Within inside book) (convex : {tick | inside tick}.OrdConnected)
    {call : Call} (priced : call.PricedIn inside) : Within inside (book.call call) := by
  cases call with
  | clear => exact Within.clear inside book
  | seedReference price =>
    exact ⟨within.wellFormed.seedReference price, fun _ => within.anchor_ref priced,
      fun side tick quantity found => within.levels side tick quantity
        (levelAt_seedReference within.wellFormed.anchored price side tick ▸ found)⟩
  | update side price qty => exact within.update convex side priced qty

theorem calls (within : Within inside book) (convex : {tick | inside tick}.OrdConnected)
    {calls : List Call} (priced : ∀ call ∈ calls, call.PricedIn inside) :
    Within inside (calls.foldl BoundedBook.call book) := by
  induction calls generalizing book with
  | nil => exact within
  | cons call rest inductionHypothesis =>
    obtain ⟨first, later⟩ := List.forall_mem_cons.mp priced
    exact inductionHypothesis (within.call convex first) later

end Within

/-! ### Calls in reach -/

/-- The price of an update lies so near the reference held that its slot fits 64 bits. The first
price on a book without a reference is its own. -/
def CallInReach (book : BoundedBook capacity) : Call → Prop
  | .clear => True
  | .seedReference _ => True
  | .update _ price _ =>
    (book.anchor price).refTick + int64Min ≤ price.ticks ∧
      price.ticks ≤ (book.anchor price).refTick + (int64Max - center capacity)

/-- Every call of a sequence is in reach of the book it finds. -/
def CallsInReach (book : BoundedBook capacity) : List Call → Prop
  | [] => True
  | call :: rest => book.CallInReach call ∧ (book.call call).CallsInReach rest

/-- On a book of ticks that fit, the computations of an update fit exactly if it is in reach. -/
theorem Within.updateTicks_iff {book : BoundedBook bookCapacity} (within : Within InInt64 book)
    (side : Side) {price : Price} (priced : InInt64 price.ticks) (qty : Qty) :
    (∀ n ∈ book.updateTicks side price qty, InInt64 n) ↔
      book.CallInReach (.update side price qty) := by
  have center : center bookCapacity = 2048 := by decide
  have slot : (book.anchor price).slotOf price =
      BoundedBook.center bookCapacity + (price.ticks - (book.anchor price).refTick) := rfl
  have moved := within.update_ref InInt64.convex side priced qty
  unfold BoundedBook.update at moved
  unfold BoundedBook.updateTicks CallInReach
  dsimp only at moved ⊢
  rw [List.forall_mem_cons, List.forall_mem_cons]
  constructor
  · rintro ⟨⟨least, -⟩, ⟨-, most⟩, -⟩
    rw [slot] at most
    constructor <;> omega
  · rintro ⟨least, most⟩
    refine ⟨⟨by omega, by omega⟩, ?_, fun n member => ?_⟩
    · rw [slot]
      constructor <;> omega
    · split at member
      · cases member
      · rename_i inside
        rw [if_neg inside] at moved
        rcases mem_recenterTicks member with rfl | rfl
        · exact moved
        · have bound : ((book.anchor price).slotOf price).toNat < bookCapacity := by omega
          have indexed := (within.wellFormed.indexed.anchor price).writeSlot side bound qty
          have shift := recenterIfNearEdge_shift indexed
          rw [center] at shift
          unfold InInt64 int64Min int64Max
          omega

theorem Within.callsTicks_iff {calls : List Call} {book : BoundedBook bookCapacity}
    (within : Within InInt64 book) (priced : ∀ call ∈ calls, call.PricedIn InInt64) :
    (∀ n ∈ book.callsTicks calls, InInt64 n) ↔ book.CallsInReach calls := by
  induction calls generalizing book with
  | nil => exact ⟨fun _ => trivial, fun _ => List.forall_mem_nil _⟩
  | cons call rest inductionHypothesis =>
    obtain ⟨first, later⟩ := List.forall_mem_cons.mp priced
    have rest := inductionHypothesis (within.call InInt64.convex first) later
    rw [callsTicks, CallsInReach, List.forall_mem_append, rest]
    refine and_congr_left fun _ => ?_
    cases call with
    | clear | seedReference => exact ⟨fun _ => trivial, fun _ => List.forall_mem_nil _⟩
    | update side price qty => exact within.updateTicks_iff side first qty

end BoundedBook

/-! ### The computations of one event -/

/-- The spread and the mid a two-sided snapshot is anchored with. -/
def anchorTicks (bids asks : List PriceLevel) : List Int :=
  let bestBid := bestBidTick bids
  let bestAsk := bestAskTick asks
  if bestBid ≠ int64Min ∧ bestAsk ≠ int64Max then
    [bestAsk - bestBid, bestBid + (bestAsk - bestBid).tdiv 2]
  else []

/-- The spread of a snapshot fits, if it has two sides. -/
def SpreadFits (bids asks : List PriceLevel) : Prop :=
  bestBidTick bids ≠ int64Min ∧ bestAskTick asks ≠ int64Max →
    InInt64 (bestAskTick asks - bestBidTick bids)

/-- The mid lies between the best levels, so only the spread can fail to fit. -/
theorem anchorTicks_iff {bids asks : List PriceLevel}
    (bidsIn : ∀ level ∈ bids, InInt64 level.price.ticks)
    (asksIn : ∀ level ∈ asks, InInt64 level.price.ticks) :
    (∀ n ∈ anchorTicks bids asks, InInt64 n) ↔ SpreadFits bids asks := by
  unfold anchorTicks SpreadFits
  dsimp only
  split
  · rename_i live
    obtain ⟨-, -, mid⟩ := best_inside InInt64.convex bidsIn asksIn live
    rw [List.forall_mem_cons, List.forall_mem_singleton, and_iff_left mid]
    exact ⟨fun spread _ => spread, fun spread => spread live⟩
  · rename_i oneSided
    exact ⟨fun _ live => absurd live oneSided, fun _ => List.forall_mem_nil _⟩

/-- Every level of a snapshot event lies inside. -/
def MarketEvent.SnapIn (inside : Int → Prop) (ev : MarketEvent) : Prop :=
  ev.kind = .snapshot →
    ∀ level ∈ ev.snap.bidLevels ++ ev.snap.askLevels, inside level.price.ticks

/-- The prices of a snapshot's calls are those of its levels, and the mid between them. -/
theorem MarketEvent.Snap.calls_pricedIn {inside : Int → Prop} {snap : MarketEvent.Snap}
    (convex : {tick | inside tick}.OrdConnected)
    (bidsIn : ∀ level ∈ snap.bidLevels, inside level.price.ticks)
    (asksIn : ∀ level ∈ snap.askLevels, inside level.price.ticks) :
    ∀ call ∈ snap.calls, call.PricedIn inside := by
  have levels (side : Side) (levels : List PriceLevel)
      (levelsIn : ∀ level ∈ levels, inside level.price.ticks) :
      ∀ call ∈ levelCalls side levels, call.PricedIn inside := by
    intro call member
    obtain ⟨level, listed, rfl⟩ := List.mem_map.mp member
    exact levelsIn level listed
  refine List.forall_mem_cons.mpr ⟨trivial, List.forall_mem_append.mpr
    ⟨List.forall_mem_append.mpr ⟨?_, levels _ _ bidsIn⟩, levels _ _ asksIn⟩⟩
  unfold anchorCalls
  split
  · rename_i live
    obtain ⟨-, -, mid⟩ := best_inside convex bidsIn asksIn live
    exact List.forall_mem_singleton.mpr mid
  · exact List.forall_mem_nil _

section Feed

variable [DoubleDivision]

/-- The ticks some feed prices are rounded to. -/
def roundedTicks (tickSize : ℚ) (prices : List ℚ) : List Int :=
  prices.map fun price => (Price.fromDouble price tickSize).ticks

/-- Every change of an update event lies inside once it is rounded. -/
def MarketEvent.ChangesIn (inside : Int → Prop) (tickSize : ℚ) (ev : MarketEvent) : Prop :=
  ev.kind = .l2Update →
    ∀ change ∈ ev.l2.changes, inside (Price.fromDouble change.price tickSize).ticks

theorem changeCalls_pricedIn {inside : Int → Prop} {tickSize : ℚ} {changes : List CoinbaseChange}
    (changesIn : ∀ change ∈ changes, inside (Price.fromDouble change.price tickSize).ticks) :
    ∀ call ∈ changeCalls tickSize changes, call.PricedIn inside := by
  intro call member
  obtain ⟨change, listed, rfl⟩ := List.mem_map.mp member
  exact changesIn change listed

/-- The prices of an event's calls lie where those of the event do. -/
theorem MarketEvent.calls_pricedIn {inside : Int → Prop} {tickSize : ℚ} {ev : MarketEvent}
    {ready : Bool} (convex : {tick | inside tick}.OrdConnected) (snapIn : ev.SnapIn inside)
    (changesIn : ready = true → ev.ChangesIn inside tickSize) :
    ∀ call ∈ ev.calls tickSize ready, call.PricedIn inside := by
  unfold MarketEvent.calls
  cases kind : ev.kind with
  | snapshot =>
    obtain ⟨bidsIn, asksIn⟩ := List.forall_mem_append.mp (snapIn kind)
    exact MarketEvent.Snap.calls_pricedIn convex bidsIn asksIn
  | l2Update =>
    dsimp only
    split
    · rename_i isReady
      exact changeCalls_pricedIn (changesIn isReady kind)
    · exact List.forall_mem_nil _
  | heartbeat => exact List.forall_mem_nil _

namespace Runtime

variable {inside : Int → Prop} {rt : Runtime} {ev : MarketEvent} {clock : EventClock}

/-- The computations while one event is handled. -/
def eventTicks (rt : Runtime) (ev : MarketEvent) : List Int :=
  match ev.kind with
  | .snapshot =>
    anchorTicks ev.snap.bidLevels ev.snap.askLevels ++ rt.book.callsTicks ev.snap.calls
  | .l2Update =>
    if rt.bookReady then
      roundedTicks rt.cfg.tickSize (ev.l2.changes.map CoinbaseChange.price) ++
        rt.book.callsTicks (changeCalls rt.cfg.tickSize ev.l2.changes)
    else []
  | .heartbeat => []

/-- The spread of a snapshot and the ticks of an update fit, and every call is in reach of the
book it finds. -/
def EventInReach (rt : Runtime) (ev : MarketEvent) : Prop :=
  match ev.kind with
  | .snapshot =>
    SpreadFits ev.snap.bidLevels ev.snap.askLevels ∧ rt.book.CallsInReach ev.snap.calls
  | .l2Update =>
    rt.bookReady = true →
      (∀ change ∈ ev.l2.changes,
          InInt64 (Price.fromDouble change.price rt.cfg.tickSize).ticks) ∧
        rt.book.CallsInReach (changeCalls rt.cfg.tickSize ev.l2.changes)
  | .heartbeat => True

/-- A snapshot starts over, and any other event keeps what the book lies in. -/
theorem processEvent_within (convex : {tick | inside tick}.OrdConnected)
    (held : ev.kind = .snapshot ∨ rt.book.Within inside) (snapIn : ev.SnapIn inside)
    (changesIn : rt.bookReady = true → ev.ChangesIn inside rt.cfg.tickSize) :
    (rt.processEvent clock ev).book.Within inside := by
  have priced := MarketEvent.calls_pricedIn convex snapIn changesIn
  rw [processEvent_book]
  rcases held with snapshot | within
  · rw [MarketEvent.calls, snapshot] at priced ⊢
    exact (BoundedBook.Within.clear inside rt.book).calls convex (List.forall_mem_cons.mp priced).2
  · exact within.calls convex priced

/-- An event in reach leaves ticks that fit. -/
theorem EventInReach.within (reach : rt.EventInReach ev) (within : rt.book.Within InInt64)
    (snapIn : ev.SnapIn InInt64) (clock : EventClock) :
    (rt.processEvent clock ev).book.Within InInt64 := by
  refine processEvent_within InInt64.convex (Or.inr within) snapIn fun ready update => ?_
  rw [EventInReach, update] at reach
  exact (reach ready).1

/-- On a book of ticks that fit, the computations of an event fit exactly if it is in reach. -/
theorem eventTicks_iff (within : rt.book.Within InInt64) (snapIn : ev.SnapIn InInt64) :
    (∀ n ∈ rt.eventTicks ev, InInt64 n) ↔ rt.EventInReach ev := by
  unfold eventTicks EventInReach
  cases kind : ev.kind with
  | snapshot =>
    obtain ⟨bidsIn, asksIn⟩ := List.forall_mem_append.mp (snapIn kind)
    dsimp only
    rw [List.forall_mem_append, anchorTicks_iff bidsIn asksIn, within.callsTicks_iff
      (MarketEvent.Snap.calls_pricedIn InInt64.convex bidsIn asksIn)]
  | l2Update =>
    cases ready : rt.bookReady with
    | false => exact ⟨fun _ unready => (nomatch unready), fun _ => List.forall_mem_nil _⟩
    | true =>
      simp only [if_true, true_implies]
      rw [List.forall_mem_append, roundedTicks, List.forall_mem_map, List.forall_mem_map]
      exact and_congr_right fun changesIn =>
        within.callsTicks_iff (changeCalls_pricedIn changesIn)
  | heartbeat => exact ⟨fun _ => trivial, fun _ => List.forall_mem_nil _⟩

/-- The computations of events handled one after another. -/
def handledTicks (rt : Runtime) : List (EventClock × MarketEvent) → List Int
  | [] => []
  | next :: rest => rt.eventTicks next.2 ++ (rt.processEvent next.1 next.2).handledTicks rest

/-- Each of the events is in reach when it is handled. -/
def HandledInReach (rt : Runtime) : List (EventClock × MarketEvent) → Prop
  | [] => True
  | next :: rest => rt.EventInReach next.2 ∧ (rt.processEvent next.1 next.2).HandledInReach rest

/-- One event after another: the computations fit exactly as long as the events are in reach, and
these leave ticks that fit. -/
theorem handledTicks_iff {handled : List (EventClock × MarketEvent)}
    (within : rt.book.Within InInt64) (snapIn : ∀ next ∈ handled, next.2.SnapIn InInt64) :
    ((∀ n ∈ rt.handledTicks handled, InInt64 n) ↔ rt.HandledInReach handled) ∧
      (rt.HandledInReach handled → (rt.handle handled).book.Within InInt64) := by
  induction handled generalizing rt with
  | nil => exact ⟨⟨fun _ => trivial, fun _ => List.forall_mem_nil _⟩, fun _ => within⟩
  | cons next rest inductionHypothesis =>
    obtain ⟨first, later⟩ := List.forall_mem_cons.mp snapIn
    have after (reach : rt.EventInReach next.2) :=
      inductionHypothesis (reach.within within first next.1) later
    rw [handledTicks, HandledInReach, List.forall_mem_append, eventTicks_iff within first]
    exact ⟨and_congr_right fun reach => (after reach).1,
      fun reach => (after reach.1).2 reach.2⟩

end Runtime

/-! ### Messages -/

/-- A message, when it was received, and the clock readings of its events. -/
structure Delivery where
  msg : CoinbaseMessage
  recvTs : Timestamp
  clocks : Nat → EventClock

/-- The ticks the prices of a message are rounded to. -/
def CoinbaseMessage.ticks (msg : CoinbaseMessage) (tickSize : ℚ) : List Int :=
  match msg.type with
  | .snapshot =>
    roundedTicks tickSize ((msg.bids.take maxSnapLevels ++ msg.asks.take maxSnapLevels).map
      CoinbasePriceLevel.price)
  | .l2Update => roundedTicks tickSize (msg.changes.map CoinbaseChange.price)
  | _ => []

namespace Delivery

variable {inside : Int → Prop} {delivery : Delivery} {tickSize : ℚ} {rt : Runtime}

/-- The events of the message with their clock readings. -/
def handled (delivery : Delivery) (tickSize : ℚ) : List (EventClock × MarketEvent) :=
  (delivery.msg.events tickSize delivery.recvTs).mapIdx fun i event => (delivery.clocks i, event)

/-- The computations of a message: the network thread rounds the prices of a snapshot, the
strategy thread makes all others. -/
def ticks (delivery : Delivery) (rt : Runtime) : List Int :=
  (if delivery.msg.type = .snapshot then delivery.msg.ticks rt.cfg.tickSize else []) ++
    rt.handledTicks (delivery.handled rt.cfg.tickSize)

/-- The ticks of a snapshot fit, and the events of the message are in reach. -/
def InReach (delivery : Delivery) (rt : Runtime) : Prop :=
  (delivery.msg.type = .snapshot →
      ∀ tick ∈ delivery.msg.ticks rt.cfg.tickSize, InInt64 tick) ∧
    rt.HandledInReach (delivery.handled rt.cfg.tickSize)

theorem snd_handled (delivery : Delivery) (tickSize : ℚ) :
    (delivery.handled tickSize).map Prod.snd =
      delivery.msg.events tickSize delivery.recvTs := by
  refine List.ext_getElem? fun i => ?_
  rw [handled, List.getElem?_map, List.getElem?_mapIdx, Option.map_map]
  exact congrFun Option.map_id _

theorem mem_events {next : EventClock × MarketEvent} (member : next ∈ delivery.handled tickSize) :
    next.2 ∈ delivery.msg.events tickSize delivery.recvTs := by
  rw [← snd_handled]
  exact List.mem_map_of_mem member

/-- The kind of an event tells what its message was. -/
theorem kind_of_mem {next : EventClock × MarketEvent} (member : next ∈ delivery.handled tickSize) :
    (next.2.kind = .snapshot ↔ delivery.msg.type = .snapshot) ∧
      (next.2.kind = .l2Update ↔ delivery.msg.type = .l2Update) := by
  have listed := mem_events member
  unfold CoinbaseMessage.events at listed
  split at listed
  · rename_i snapshot
    rw [List.mem_singleton.mp listed, snapshot]
    simp
  · rename_i update
    obtain ⟨l2, -, built⟩ := List.mem_map.mp listed
    rw [← built, update]
    simp
  · rename_i heartbeat
    rw [List.mem_singleton.mp listed, heartbeat]
    simp
  · cases listed

/-- The levels of a snapshot event are among those of its message. -/
theorem snapIn (ticksIn : delivery.msg.type = .snapshot →
      ∀ tick ∈ delivery.msg.ticks tickSize, inside tick) :
    ∀ next ∈ delivery.handled tickSize, next.2.SnapIn inside := by
  intro next member kind
  have snapshot := (kind_of_mem member).1.mp kind
  obtain ⟨event, alone, snap⟩ :=
    CoinbaseMessage.events_snapshot snapshot tickSize delivery.recvTs
  have own : next.2 = event := List.mem_singleton.mp (alone ▸ mem_events member)
  have listed : ∀ level ∈ delivery.msg.bids.take maxSnapLevels ++
      delivery.msg.asks.take maxSnapLevels, inside (level.toLevel tickSize).price.ticks := by
    intro level levelIn
    refine ticksIn snapshot _ ?_
    rw [CoinbaseMessage.ticks, snapshot]
    exact List.mem_map_of_mem (List.mem_map_of_mem levelIn)
  rw [own, snap, MarketEvent.Snap.bidLevels_ofMessage, MarketEvent.Snap.askLevels_ofMessage,
    ← List.map_append, List.forall_mem_map]
  exact listed

/-- The changes of an update event are among those of its message. -/
theorem changesIn (ticksIn : ∀ tick ∈ delivery.msg.ticks tickSize, inside tick) :
    ∀ next ∈ delivery.handled tickSize, next.2.ChangesIn inside tickSize := by
  intro next member kind change changed
  have update := (kind_of_mem member).2.mp kind
  have carried : change ∈ delivery.msg.changes := by
    rw [← CoinbaseMessage.changes_events update tickSize delivery.recvTs]
    exact List.mem_flatMap.mpr ⟨next.2, mem_events member, changed⟩
  refine ticksIn _ ?_
  rw [CoinbaseMessage.ticks, update]
  exact List.mem_map_of_mem (List.mem_map_of_mem carried)

/-- On a book of ticks that fit, the computations of a message fit exactly if it is in reach, and
it leaves ticks that fit then. -/
theorem ticks_iff (delivery : Delivery) (within : rt.book.Within InInt64) :
    ((∀ n ∈ delivery.ticks rt, InInt64 n) ↔ delivery.InReach rt) ∧
      (delivery.InReach rt →
        (rt.handle (delivery.handled rt.cfg.tickSize)).book.Within InInt64) := by
  have own : (∀ n ∈ (if delivery.msg.type = .snapshot then delivery.msg.ticks rt.cfg.tickSize
        else []), InInt64 n) ↔
      (delivery.msg.type = .snapshot →
        ∀ tick ∈ delivery.msg.ticks rt.cfg.tickSize, InInt64 tick) := by
    split
    · rename_i snapshot
      exact ⟨fun fits _ => fits, fun fits => fits snapshot⟩
    · rename_i other
      exact ⟨fun _ snapshot => absurd snapshot other, fun _ => List.forall_mem_nil _⟩
  unfold ticks InReach
  rw [List.forall_mem_append, own]
  exact ⟨and_congr_right fun fits => (Runtime.handledTicks_iff within (snapIn fits)).1,
    fun reach => (Runtime.handledTicks_iff within (snapIn reach.1)).2 reach.2⟩

end Delivery

/-! ### Every run -/

namespace Runtime

variable {rt : Runtime}

/-- The runtime once a message is handled. -/
def deliver (rt : Runtime) (delivery : Delivery) : Runtime :=
  rt.handle (delivery.handled rt.cfg.tickSize)

/-- The computations of a sequence of messages. -/
def runTicks (rt : Runtime) : List Delivery → List Int
  | [] => []
  | delivery :: rest => delivery.ticks rt ++ (rt.deliver delivery).runTicks rest

/-- Each of the messages is in reach when it is handled. -/
def RunInReach (rt : Runtime) : List Delivery → Prop
  | [] => True
  | delivery :: rest => delivery.InReach rt ∧ (rt.deliver delivery).RunInReach rest

theorem runTicks_iff (within : rt.book.Within InInt64) (deliveries : List Delivery) :
    (∀ n ∈ rt.runTicks deliveries, InInt64 n) ↔ rt.RunInReach deliveries := by
  induction deliveries generalizing rt with
  | nil => exact ⟨fun _ => trivial, fun _ => List.forall_mem_nil _⟩
  | cons delivery rest inductionHypothesis =>
    obtain ⟨fits, after⟩ := delivery.ticks_iff within
    rw [runTicks, RunInReach, List.forall_mem_append, fits]
    exact and_congr_right fun reach => inductionHypothesis (after reach)

/-- In every sequence of messages, all these computations stay in range exactly if each message is
in reach when it is handled: the ticks of its prices fit, the spread of a two-sided snapshot does,
and each update lies no further from the reference it finds than 64 bits can tell, with room for
the centre above. The computations are the rounded ticks, the spread and the mid of each snapshot,
the distance and the slot of each update, and the new reference and the shift of each
recentering. -/
theorem run_ticks_inInt64_iff (cfg : RuntimeConfig) (deliveries : List Delivery) :
    (∀ n ∈ (create cfg).runTicks deliveries, InInt64 n) ↔ (create cfg).RunInReach deliveries :=
  runTicks_iff (BoundedBook.Within.clear InInt64 (create cfg).book) deliveries

end Runtime

end Feed

/-! ### Prices the parser accepts -/

namespace Runtime

open CoinbaseMessage (zeroClock)

/-- A snapshot with bids at some prices and no asks. -/
def bidSnapshot (prices : List (List Char)) : Json :=
  .object [("type".toList, .string "snapshot".toList),
    ("bids".toList, .array (prices.map fun price => .array [.string price, .string "1".toList])),
    ("asks".toList, .array [])]

/-- The second of two bids on a cleared book is measured from the first. -/
theorem mem_callsTicks_second (book : BoundedBook bookCapacity) (one two : Price) (qty : Qty) :
    two.ticks - one.ticks ∈
      book.callsTicks [.clear, .update .bid one qty, .update .bid two qty] := by
  have alone : {tick | tick = one.ticks}.OrdConnected := Set.ordConnected_singleton
  have first : (book.clear.update .bid one qty).refTick = one.ticks :=
    (BoundedBook.Within.clear (· = one.ticks) book).update_ref alone .bid rfl qty
  have anchored : ((book.clear.update .bid one qty).anchor two).refTick = one.ticks := by
    rw [BoundedBook.anchor_refTick, BoundedBook.update_haveRef, if_pos rfl]
    exact first
  refine List.mem_append_right _ (List.mem_append_right _ (List.mem_append_left _ ?_))
  refine List.mem_cons.mpr (Or.inl ?_)
  show two.ticks - one.ticks =
    two.ticks - ((book.clear.update .bid one qty).anchor two).refTick
  rw [anchored]

/-- The parser accepts a price whose tick does not fit, and two prices whose ticks fit but are
too far apart to be subtracted. -/
theorem accepted_prices_overflow :
    (∃ msg, (CoinbaseParser.parse .finite (some (bidSnapshot ["1e22".toList]))).2.message? =
        some msg ∧
      ∃ n ∈ (create {}).runTicks [⟨msg, 0, fun _ => zeroClock⟩], ¬InInt64 n) ∧
    ∃ msg, (CoinbaseParser.parse .finite
        (some (bidSnapshot ["5e16".toList, "-5e16".toList]))).2.message? = some msg ∧
      (∀ tick ∈ msg.ticks (1 / 100), InInt64 tick) ∧
      ∃ n ∈ (create {}).runTicks [⟨msg, 0, fun _ => zeroClock⟩], ¬InInt64 n := by
  have tickSize : (create {}).cfg.tickSize = 1 / 100 := rfl
  constructor
  · refine ⟨⟨.snapshot, [⟨10 ^ 22, 1⟩], [], []⟩, by decide +kernel, 10 ^ 24, ?_, by decide⟩
    refine List.mem_append_left _ (List.mem_append_left _ ?_)
    rw [if_pos rfl, tickSize]
    decide +kernel
  · refine ⟨⟨.snapshot, [⟨5 * 10 ^ 16, 1⟩, ⟨-5 * 10 ^ 16, 1⟩], [], []⟩, by decide +kernel,
      by decide +kernel, -10 ^ 19, ?_, by decide⟩
    refine List.mem_append_left _ (List.mem_append_right _ (List.mem_append_left _ ?_))
    refine List.mem_append_right _ ?_
    rw [tickSize]
    have calls : (MarketEvent.Snap.ofMessage
        ⟨.snapshot, [⟨5 * 10 ^ 16, 1⟩, ⟨-5 * 10 ^ 16, 1⟩], [], []⟩ (1 / 100)).calls =
        [.clear, .update .bid ⟨5 * 10 ^ 18⟩ ⟨1⟩, .update .bid ⟨-5 * 10 ^ 18⟩ ⟨1⟩] := by
      decide +kernel
    show -10 ^ 19 ∈ (create {}).book.callsTicks (MarketEvent.Snap.ofMessage
      ⟨.snapshot, [⟨5 * 10 ^ 16, 1⟩, ⟨-5 * 10 ^ 16, 1⟩], [], []⟩ (1 / 100)).calls
    rw [calls]
    exact mem_callsTicks_second _ ⟨5 * 10 ^ 18⟩ ⟨-5 * 10 ^ 18⟩ ⟨1⟩

end Runtime

end Trading

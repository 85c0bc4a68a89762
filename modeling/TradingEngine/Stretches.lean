/-
This file gives a condition on the feed alone under which the tick computations of every
run stay in range: the ticks of one stretch, a snapshot and what follows it, fit and are
not further apart than 64 bits can tell. The reference tick is one of them or the middle
of two of them, so it lies between them through any number of recenterings, and every
update is in reach of it.

The condition is enough and not exact, since a price far from an earlier one may come when
that one is forgotten. It is what a feed can be checked against without running the book.
-/

import TradingEngine.TickRange

namespace Trading

/-! ### Between close ticks -/

/-- The number lies between two of the ticks. -/
def Spanned (ticks : List Int) (n : Int) : Prop :=
  ∃ least ∈ ticks, ∃ most ∈ ticks, least ≤ n ∧ n ≤ most

/-- The ticks fit 64 bits, and so does the slot of one in a window around another. -/
structure Close (ticks : List Int) : Prop where
  fits : ∀ tick ∈ ticks, InInt64 tick
  apart : ∀ one ∈ ticks, ∀ two ∈ ticks,
    one - two ≤ int64Max - BoundedBook.center bookCapacity

namespace Spanned

variable {ticks : List Int} {one two n : Int}

theorem of_mem (member : n ∈ ticks) : Spanned ticks n := ⟨n, member, n, member, le_rfl, le_rfl⟩

/-- More ticks span what some of them do. -/
theorem mono {more : List Int} (subset : ticks ⊆ more) (spanned : Spanned ticks n) :
    Spanned more n := by
  obtain ⟨least, low, most, high, between⟩ := spanned
  exact ⟨least, subset low, most, subset high, between⟩

/-- What ticks span has no gaps. -/
theorem convex (ticks : List Int) : {n | Spanned ticks n}.OrdConnected := by
  refine ⟨fun one first two second n between => ?_⟩
  obtain ⟨least, low, -, -, above, -⟩ := first
  obtain ⟨-, -, most, high, -, below⟩ := second
  exact ⟨least, low, most, high, le_trans above between.1, le_trans between.2 below⟩

/-- Two numbers between close ticks are as close as these. -/
theorem sub_le (close : Close ticks) (first : Spanned ticks one) (second : Spanned ticks two) :
    one - two ≤ int64Max - BoundedBook.center bookCapacity := by
  obtain ⟨-, -, most, high, -, below⟩ := first
  obtain ⟨least, low, -, -, above, -⟩ := second
  have apart := close.apart most high least low
  omega

end Spanned

/-- Between close ticks every call is in reach. -/
theorem BoundedBook.Within.callsInReach {ticks : List Int} (close : Close ticks)
    {calls : List Call} {book : BoundedBook bookCapacity} (within : Within (Spanned ticks) book)
    (priced : ∀ call ∈ calls, call.PricedIn (Spanned ticks)) : book.CallsInReach calls := by
  induction calls generalizing book with
  | nil => trivial
  | cons call rest inductionHypothesis =>
    obtain ⟨first, later⟩ := List.forall_mem_cons.mp priced
    refine ⟨?_, inductionHypothesis (within.call (Spanned.convex ticks) first) later⟩
    cases call with
    | clear | seedReference => trivial
    | update side price qty =>
      have anchored := within.anchor_ref first
      have above := Spanned.sub_le close first anchored
      have below := Spanned.sub_le close anchored first
      have center : BoundedBook.center bookCapacity = 2048 := by decide
      unfold CallInReach
      unfold int64Min int64Max at *
      constructor <;> omega

/-- A snapshot and the messages after it, before the next snapshot. -/
def Stretch : List Delivery → Prop
  | [] => False
  | snapshot :: updates => snapshot.msg.type = .snapshot ∧
    ∀ delivery ∈ updates, delivery.msg.type ≠ .snapshot

/-- A message that is no snapshot extends a stretch. -/
theorem Stretch.concat {stretch : List Delivery} {delivery : Delivery} (begun : Stretch stretch)
    (other : delivery.msg.type ≠ .snapshot) : Stretch (stretch ++ [delivery]) := by
  cases stretch with
  | nil => exact begun.elim
  | cons snapshot updates =>
    refine ⟨begun.1, List.forall_mem_append.mpr ⟨begun.2, ?_⟩⟩
    exact List.forall_mem_singleton.mpr other

section Stretches

variable [DoubleDivision]

namespace Runtime

variable {ticks : List Int} {rt : Runtime} {ev : MarketEvent} {clock : EventClock}

/-- An event between close ticks is in reach of a book between them. -/
theorem eventInReach (close : Close ticks)
    (held : ev.kind = .snapshot ∨ (rt.bookReady = true → rt.book.Within (Spanned ticks)))
    (snapIn : ev.SnapIn (· ∈ ticks)) (changesIn : ev.ChangesIn (· ∈ ticks) rt.cfg.tickSize) :
    rt.EventInReach ev := by
  unfold EventInReach
  cases kind : ev.kind with
  | snapshot =>
    have levelsIn : ∀ level ∈ ev.snap.bidLevels ++ ev.snap.askLevels,
        Spanned ticks level.price.ticks :=
      fun level listed => Spanned.of_mem (snapIn kind level listed)
    obtain ⟨bidsIn, asksIn⟩ := List.forall_mem_append.mp levelsIn
    have priced := MarketEvent.Snap.calls_pricedIn (Spanned.convex ticks) bidsIn asksIn
    refine ⟨fun live => ?_, trivial, ?_⟩
    · obtain ⟨bid, ask, -⟩ := best_inside (Spanned.convex ticks) bidsIn asksIn live
      have above := Spanned.sub_le close ask bid
      have below := Spanned.sub_le close bid ask
      have center : BoundedBook.center bookCapacity = 2048 := by decide
      unfold InInt64
      unfold int64Min int64Max at *
      constructor <;> omega
    · exact (BoundedBook.Within.clear _ rt.book).callsInReach close
        (List.forall_mem_cons.mp priced).2
  | l2Update =>
    intro ready
    rw [kind] at held
    have within := (held.resolve_left nofun) ready
    refine ⟨fun change changed => close.fits _ (changesIn kind change changed), ?_⟩
    exact within.callsInReach close (changeCalls_pricedIn fun change changed =>
      Spanned.of_mem (changesIn kind change changed))
  | heartbeat => trivial

/-- So are events one after another. -/
theorem handledInReach {handled : List (EventClock × MarketEvent)} (close : Close ticks)
    (held : (∃ next ∈ handled.head?, next.2.kind = .snapshot) ∨
      (rt.bookReady = true → rt.book.Within (Spanned ticks)))
    (snapIn : ∀ next ∈ handled, next.2.SnapIn (· ∈ ticks))
    (changesIn : ∀ next ∈ handled, next.2.ChangesIn (· ∈ ticks) rt.cfg.tickSize) :
    rt.HandledInReach handled ∧
      ((rt.handle handled).bookReady = true → (rt.handle handled).book.Within (Spanned ticks)) := by
  induction handled generalizing rt with
  | nil => exact ⟨trivial, held.resolve_left fun ⟨_, missing, _⟩ => nomatch missing⟩
  | cons next rest inductionHypothesis =>
    obtain ⟨snap, snaps⟩ := List.forall_mem_cons.mp snapIn
    obtain ⟨change, changes⟩ := List.forall_mem_cons.mp changesIn
    have own : next.2.kind = .snapshot ∨
        (rt.bookReady = true → rt.book.Within (Spanned ticks)) := by
      refine held.imp_left fun ⟨first, isFirst, kind⟩ => ?_
      rwa [Option.mem_some.mp isFirst]
    have after : (rt.processEvent next.1 next.2).bookReady = true →
        (rt.processEvent next.1 next.2).book.Within (Spanned ticks) := by
      intro ready
      rw [processEvent_bookReady, Bool.or_eq_true, decide_eq_true_iff] at ready
      have within : next.2.kind = .snapshot ∨ rt.book.Within (Spanned ticks) := by
        rcases own with kind | within
        · exact Or.inl kind
        · exact ready.symm.imp_right within
      exact processEvent_within (Spanned.convex ticks) within
        (fun kind level listed => Spanned.of_mem (snap kind level listed))
        (fun _ kind edit changed => Spanned.of_mem (change kind edit changed))
    obtain ⟨later, last⟩ := inductionHypothesis (Or.inr after) snaps
      (by rw [processEvent_cfg]; exact changes)
    exact ⟨⟨eventInReach close own snap change, later⟩, last⟩

/-- Updates before any snapshot change and compute nothing. -/
theorem handledInReach_unready {handled : List (EventClock × MarketEvent)}
    (unready : rt.bookReady = false) (other : ∀ next ∈ handled, next.2.kind ≠ .snapshot) :
    rt.HandledInReach handled ∧ (rt.handle handled).bookReady = false := by
  induction handled generalizing rt with
  | nil => exact ⟨trivial, unready⟩
  | cons next rest inductionHypothesis =>
    obtain ⟨first, later⟩ := List.forall_mem_cons.mp other
    have still : (rt.processEvent next.1 next.2).bookReady = false := by
      rw [processEvent_bookReady, unready, decide_eq_false first]
      rfl
    obtain ⟨reach, last⟩ := inductionHypothesis still later
    refine ⟨⟨?_, reach⟩, last⟩
    unfold EventInReach
    split
    · exact absurd ‹_› first
    · intro ready
      rw [unready] at ready
      cases ready
    · trivial

theorem handle_cfg (rt : Runtime) (handled : List (EventClock × MarketEvent)) :
    (rt.handle handled).cfg = rt.cfg := by
  induction handled generalizing rt with
  | nil => rfl
  | cons next rest inductionHypothesis =>
    exact (inductionHypothesis _).trans (processEvent_cfg _ _ _)

end Runtime

/-- The ticks of the prices of some messages. -/
def stretchTicks (tickSize : ℚ) (stretch : List Delivery) : List Int :=
  stretch.flatMap fun delivery => delivery.msg.ticks tickSize

/-- The ticks of every stretch of the messages are close. -/
def Near (tickSize : ℚ) (deliveries : List Delivery) : Prop :=
  ∀ stretch, stretch <:+: deliveries → Stretch stretch → Close (stretchTicks tickSize stretch)

namespace Delivery

variable {delivery : Delivery} {ticks : List Int} {rt : Runtime}

/-- A message of a close stretch is in reach, and leaves the book between its ticks. -/
theorem inReach (close : Close ticks) (part : delivery.msg.ticks rt.cfg.tickSize ⊆ ticks)
    (held : delivery.msg.type = .snapshot ∨
      (rt.bookReady = true → rt.book.Within (Spanned ticks))) :
    delivery.InReach rt ∧ ((rt.deliver delivery).bookReady = true →
      (rt.deliver delivery).book.Within (Spanned ticks)) := by
  have held' : (∃ next ∈ (delivery.handled rt.cfg.tickSize).head?, next.2.kind = .snapshot) ∨
      (rt.bookReady = true → rt.book.Within (Spanned ticks)) := by
    refine held.imp_left fun snapshot => ?_
    obtain ⟨event, alone, -⟩ :=
      CoinbaseMessage.events_snapshot snapshot rt.cfg.tickSize delivery.recvTs
    have handled : delivery.handled rt.cfg.tickSize = [(delivery.clocks 0, event)] := by
      rw [Delivery.handled, alone]
      rfl
    have listed : (delivery.clocks 0, event) ∈ delivery.handled rt.cfg.tickSize :=
      handled ▸ List.mem_singleton_self _
    exact ⟨_, by rw [handled]; exact Option.mem_some_self _, (kind_of_mem listed).1.mpr snapshot⟩
  obtain ⟨reach, after⟩ := Runtime.handledInReach close held' (snapIn fun _ _ own => part own)
    (changesIn fun _ own => part own)
  exact ⟨⟨fun _ tick own => close.fits tick (part own), reach⟩, after⟩

/-- Before a snapshot every other message is in reach, and none makes the book ready. -/
theorem inReach_unready (unready : rt.bookReady = false) (other : delivery.msg.type ≠ .snapshot) :
    delivery.InReach rt ∧ (rt.deliver delivery).bookReady = false := by
  obtain ⟨reach, still⟩ := Runtime.handledInReach_unready unready
    fun next member kind => other ((kind_of_mem member).1.mp kind)
  exact ⟨⟨fun snapshot => absurd snapshot other, reach⟩, still⟩

end Delivery

namespace Runtime

/-- A ready book lies between the ticks of the stretch that the messages so far end with. -/
def Follows (rt : Runtime) (done : List Delivery) : Prop :=
  rt.bookReady = true → ∃ stretch, stretch <:+ done ∧ Stretch stretch ∧
    rt.book.Within (Spanned (stretchTicks rt.cfg.tickSize stretch))

theorem Follows.deliver {rt : Runtime} {done : List Delivery} (follows : rt.Follows done)
    {delivery : Delivery} (near : Near rt.cfg.tickSize (done ++ [delivery])) :
    delivery.InReach rt ∧ (rt.deliver delivery).Follows (done ++ [delivery]) := by
  have cfg : (rt.deliver delivery).cfg = rt.cfg := handle_cfg _ _
  by_cases snapshot : delivery.msg.type = .snapshot
  · have alone : stretchTicks rt.cfg.tickSize [delivery] = delivery.msg.ticks rt.cfg.tickSize :=
      List.flatMap_singleton _ _
    have begun : Stretch [delivery] := ⟨snapshot, List.forall_mem_nil _⟩
    have last : [delivery] <:+ done ++ [delivery] := List.suffix_append _ _
    have close := near [delivery] last.isInfix begun
    obtain ⟨reach, within⟩ := Delivery.inReach close (fun _ own => alone ▸ own) (Or.inl snapshot)
    refine ⟨reach, fun ready => ⟨[delivery], last, begun, ?_⟩⟩
    rw [cfg]
    exact within ready
  · cases ready : rt.bookReady with
    | false =>
      obtain ⟨reach, unready⟩ := Delivery.inReach_unready ready snapshot
      refine ⟨reach, fun nowReady => ?_⟩
      rw [unready] at nowReady
      cases nowReady
    | true =>
      obtain ⟨stretch, ⟨front, rfl⟩, begun, within⟩ := follows ready
      have longer := begun.concat snapshot
      have last : stretch ++ [delivery] <:+ front ++ stretch ++ [delivery] :=
        ⟨front, (List.append_assoc _ _ _).symm⟩
      have close := near _ last.isInfix longer
      have grown : stretchTicks rt.cfg.tickSize (stretch ++ [delivery]) =
          stretchTicks rt.cfg.tickSize stretch ++ delivery.msg.ticks rt.cfg.tickSize := by
        unfold stretchTicks
        rw [List.flatMap_append, List.flatMap_singleton]
      rw [grown] at close
      obtain ⟨reach, after⟩ := Delivery.inReach close (List.subset_append_right _ _)
        (Or.inr fun _ => within.mono fun _ => Spanned.mono (List.subset_append_left _ _))
      refine ⟨reach, fun nowReady => ⟨_, last, longer, ?_⟩⟩
      rw [cfg, grown]
      exact after nowReady

theorem Follows.runInReach {rt : Runtime} {done rest : List Delivery} (follows : rt.Follows done)
    (near : Near rt.cfg.tickSize (done ++ rest)) : rt.RunInReach rest := by
  induction rest generalizing rt done with
  | nil => trivial
  | cons delivery rest inductionHypothesis =>
    rw [List.append_cons] at near
    have sooner : Near rt.cfg.tickSize (done ++ [delivery]) := fun stretch inside =>
      near stretch (inside.trans (List.prefix_append _ _).isInfix)
    obtain ⟨reach, next⟩ := follows.deliver sooner
    have cfg : (rt.deliver delivery).cfg = rt.cfg := handle_cfg _ _
    exact ⟨reach, inductionHypothesis next (by rwa [cfg])⟩

/-- A condition on the feed alone: when the ticks of each stretch, a snapshot and what follows it,
fit 64 bits and are less than `2 ^ 63 - 2048` apart, every message is in reach. -/
theorem near_runInReach (cfg : RuntimeConfig) {deliveries : List Delivery}
    (near : Near cfg.tickSize deliveries) : (create cfg).RunInReach deliveries := by
  have start : (create cfg).Follows [] := fun ready => nomatch ready
  exact start.runInReach near

end Runtime

end Stretches

end Trading

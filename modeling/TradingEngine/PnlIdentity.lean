/-
This file proves the accounting identity of the tracker: cash and position marked at any
price are the initial cash plus realized and unrealized profit.

Behind it is one quantity of a state, cash plus the position at its average entry less
the realized profit, that no fill changes unless it leaves a tiny position that is
snapped away. What snapping then loses is that tiny position at the price it was entered
at, and an average entry is never larger than the largest price filled at.
-/

import Mathlib.Tactic.FieldSimp
import Mathlib.Tactic.Linarith
import TradingEngine.PnlTracker

namespace Trading

namespace PnlTracker

/-! ### One fill -/

/-- Cash plus the position at its average entry, less the realized profit. -/
def drift (s : PnlState) : ℚ := s.cash + s.position * s.avgEntry - s.realized

/-- The fill leaves a position that is not zero but snapped to it. -/
def Snapped (s : PnlState) (signed : ℚ) : Prop :=
  s.position + signed ≠ 0 ∧ |s.position + signed| ≤ tinyQty

instance (s : PnlState) (signed : ℚ) : Decidable (Snapped s signed) :=
  inferInstanceAs (Decidable (_ ∧ _))

/-- A state that fills at prices up to `bound` reach: no tiny position, and an average entry
within the bound. -/
structure Booked (bound : ℚ) (s : PnlState) : Prop where
  apart : s.position = 0 ∨ tinyQty < |s.position|
  entry : s.position ≠ 0 → |s.avgEntry| ≤ bound

/-- A fill that opens a position or adds to it has the direction of the position. -/
theorem direction_of_adds {position signed : ℚ}
    (adds : position = 0 ∨ (0 < position ↔ 0 < signed)) :
    0 ≤ position ∧ 0 ≤ signed ∨ position ≤ 0 ∧ signed ≤ 0 := by
  rcases adds with flat | same
  · rcases le_total 0 signed with buys | sells
    · exact Or.inl ⟨ge_of_eq flat, buys⟩
    · exact Or.inr ⟨le_of_eq flat, sells⟩
  · by_cases long : 0 < position
    · exact Or.inl ⟨le_of_lt long, le_of_lt (same.mp long)⟩
    · exact Or.inr ⟨not_lt.mp long, not_lt.mp (mt same.mpr long)⟩

theorem abs_add_of_adds {position signed : ℚ}
    (adds : position = 0 ∨ (0 < position ↔ 0 < signed)) :
    |position + signed| = |position| + |signed| := by
  rcases direction_of_adds adds with ⟨long, buys⟩ | ⟨short, sells⟩
  · rw [abs_of_nonneg long, abs_of_nonneg buys, abs_of_nonneg (add_nonneg long buys)]
  · rw [abs_of_nonpos short, abs_of_nonpos sells, abs_of_nonpos (add_nonpos short sells)]
    ring

/-- The cost of a position that was added to is what its parts cost. -/
theorem mul_average_of_adds {position signed entry px : ℚ}
    (adds : position = 0 ∨ (0 < position ↔ 0 < signed)) (held : position + signed ≠ 0) :
    (position + signed) * ((entry * |position| + px * |signed|) / |position + signed|) =
      position * entry + signed * px := by
  rw [mul_div_assoc', div_eq_iff (abs_ne_zero.mpr held)]
  rcases direction_of_adds adds with ⟨long, buys⟩ | ⟨short, sells⟩
  · rw [abs_of_nonneg long, abs_of_nonneg buys, abs_of_nonneg (add_nonneg long buys)]
    ring
  · rw [abs_of_nonpos short, abs_of_nonpos sells, abs_of_nonpos (add_nonpos short sells)]
    ring

/-- A fill against the position has the other direction. -/
theorem direction_of_reduces {position signed : ℚ}
    (reduces : ¬(position = 0 ∨ (0 < position ↔ 0 < signed))) :
    0 < position ∧ signed ≤ 0 ∨ position < 0 ∧ 0 < signed := by
  obtain ⟨held, opposed⟩ := not_or.mp reduces
  by_cases long : 0 < position
  · exact Or.inl ⟨long, not_lt.mp fun buys => opposed ⟨fun _ => buys, fun _ => long⟩⟩
  · refine Or.inr ⟨lt_of_le_of_ne (not_lt.mp long) held, not_le.mp fun sells => opposed ?_⟩
    exact ⟨fun is => absurd is long, fun is => absurd is (not_lt.mpr sells)⟩

/-- What a fill that flips the position closes is the position. -/
theorem closes_position {position signed : ℚ}
    (reduces : ¬(position = 0 ∨ (0 < position ↔ 0 < signed)))
    (flips : position + signed ≠ 0 ∧ ¬(0 < position + signed ↔ 0 < position)) :
    (if 0 < position then 1 else -1) * min |signed| |position| = position := by
  rcases direction_of_reduces reduces with ⟨long, sells⟩ | ⟨short, buys⟩
  · have past : position + signed < 0 := by
      refine lt_of_le_of_ne (not_lt.mp fun still => flips.2 ?_) flips.1
      exact ⟨fun _ => long, fun _ => still⟩
    rw [if_pos long, abs_of_nonpos sells, abs_of_pos long, min_eq_right (by linarith), one_mul]
  · have past : 0 < position + signed := by
      by_contra still
      exact flips.2 ⟨fun is => absurd is still, fun is => absurd is (not_lt.mpr (le_of_lt short))⟩
    rw [if_neg (not_lt.mpr (le_of_lt short)), abs_of_pos buys, abs_of_neg short,
      min_eq_right (by linarith)]
    ring

/-- What a fill that does not flip the position closes is the fill. -/
theorem closes_fill {position signed : ℚ}
    (reduces : ¬(position = 0 ∨ (0 < position ↔ 0 < signed)))
    (keeps : ¬(position + signed ≠ 0 ∧ ¬(0 < position + signed ↔ 0 < position))) :
    (if 0 < position then 1 else -1) * min |signed| |position| = -signed := by
  rcases direction_of_reduces reduces with ⟨long, sells⟩ | ⟨short, buys⟩
  · have left : 0 ≤ position + signed := by
      by_contra past
      refine keeps ⟨ne_of_lt (not_le.mp past), fun same => past (le_of_lt (same.mpr long))⟩
    rw [if_pos long, abs_of_nonpos sells, abs_of_pos long, min_eq_left (by linarith), one_mul]
  · have left : position + signed ≤ 0 := by
      by_contra past
      exact keeps ⟨ne_of_gt (not_le.mp past), fun same =>
        absurd (same.mp (not_le.mp past)) (not_lt.mpr (le_of_lt short))⟩
    rw [if_neg (not_lt.mpr (le_of_lt short)), abs_of_pos buys, abs_of_neg short,
      min_eq_left (by linarith)]
    ring

/-- A fill changes the drift only by the position it snaps away, at a price within the bound. -/
theorem fillState_drift {bound signed px : ℚ} {s : PnlState} (booked : Booked bound s)
    (priced : |px| ≤ bound) :
    ∃ price, |price| ≤ bound ∧ drift (fillState s signed px) =
      drift s - if |s.position + signed| ≤ tinyQty then (s.position + signed) * price else 0 := by
  unfold fillState drift
  dsimp only
  split
  · rename_i adds
    refine ⟨px, priced, ?_⟩
    by_cases tiny : |s.position + signed| ≤ tinyQty
    · have flat : s.position = 0 := by
        refine booked.apart.resolve_right (not_lt.mpr (le_trans ?_ tiny))
        rw [abs_add_of_adds adds]
        exact le_add_of_nonneg_right (abs_nonneg signed)
      rw [if_pos tiny, if_neg (not_lt.mpr tiny), if_pos tiny, flat]
      ring
    · have held : s.position + signed ≠ 0 := by
        rintro zero
        rw [zero, abs_zero] at tiny
        exact tiny (le_of_lt tinyQty_pos)
      rw [if_neg tiny, if_pos (not_le.mp tiny), if_neg tiny, mul_average_of_adds adds held]
      ring
  · rename_i reduces
    have held : s.position ≠ 0 := (not_or.mp reduces).1
    by_cases flips : s.position + signed ≠ 0 ∧ ¬(0 < s.position + signed ↔ 0 < s.position)
    · refine ⟨px, priced, ?_⟩
      rw [mul_right_comm, closes_position reduces flips, if_pos flips]
      split <;> ring
    · refine ⟨s.avgEntry, booked.entry held, ?_⟩
      rw [mul_right_comm, closes_fill reduces flips, if_neg flips]
      split <;> ring

theorem Booked.fillState {bound signed px : ℚ} {s : PnlState} (booked : Booked bound s)
    (priced : |px| ≤ bound) : Booked bound (fillState s signed px) := by
  constructor
  · rw [fillState_position]
    split
    · exact Or.inl rfl
    · exact Or.inr (not_le.mp ‹_›)
  · rw [fillState_position]
    intro held
    have large : ¬|s.position + signed| ≤ tinyQty := fun tiny => held (if_pos tiny)
    unfold PnlTracker.fillState
    dsimp only
    split
    · rename_i adds
      have size : 0 < |s.position + signed| := lt_trans tinyQty_pos (not_le.mp large)
      have entry : |s.avgEntry| * |s.position| ≤ bound * |s.position| := by
        rcases eq_or_ne s.position 0 with flat | opened
        · rw [flat, abs_zero, mul_zero, mul_zero]
        · exact mul_le_mul_of_nonneg_right (booked.entry opened) (abs_nonneg _)
      rw [if_pos (not_le.mp large), abs_div, abs_abs, div_le_iff₀ size, abs_add_of_adds adds,
        mul_add]
      calc abs (s.avgEntry * |s.position| + px * |signed|)
          ≤ abs (s.avgEntry * |s.position|) + abs (px * |signed|) := abs_add_le _ _
        _ = |s.avgEntry| * |s.position| + |px| * |signed| := by
            rw [abs_mul, abs_mul, abs_abs, abs_abs]
        _ ≤ bound * |s.position| + bound * |signed| :=
            add_le_add entry (mul_le_mul_of_nonneg_right priced (abs_nonneg _))
    · rename_i reduces
      split
      · exact priced
      · exact booked.entry (not_or.mp reduces).1

/-- One fill moves the drift by at most a tiny quantity at the bound, and not at all unless it
is snapped. -/
theorem abs_drift_fillState {bound signed px : ℚ} {s : PnlState} (booked : Booked bound s)
    (priced : |px| ≤ bound) :
    |drift (fillState s signed px) - drift s| ≤
      ((if Snapped s signed then 1 else 0 : Nat) : ℚ) * (tinyQty * bound) := by
  obtain ⟨price, within, moved⟩ := @fillState_drift bound signed px s booked priced
  rw [moved, sub_sub_cancel_left, abs_neg]
  by_cases tiny : |s.position + signed| ≤ tinyQty
  · rw [if_pos tiny]
    by_cases zero : s.position + signed = 0
    · rw [zero, zero_mul, abs_zero, if_neg (fun snapped => snapped.1 zero), Nat.cast_zero, zero_mul]
    · rw [if_pos ⟨zero, tiny⟩, Nat.cast_one, one_mul, abs_mul]
      exact mul_le_mul tiny within (abs_nonneg _) (le_of_lt tinyQty_pos)
  · rw [if_neg tiny, if_neg (fun snapped => tiny snapped.2), abs_zero, Nat.cast_zero, zero_mul]

/-! ### A sequence of fills -/

/-- The fills booked one after another. -/
def onFills (tracker : PnlTracker) (reports : List ExecutionReport) (tickSize : ℚ) : PnlTracker :=
  reports.foldl (fun tracker report => tracker.onFill report tickSize) tracker

/-- How many of the fills leave a position that is snapped to zero. -/
def snapCount (id : SymbolId) (tickSize : ℚ) : List ExecutionReport → PnlTracker → Nat
  | [], _ => 0
  | report :: rest, tracker =>
    (if Snapped (tracker.state id) (signedQty report.side report.execQty.value) then 1 else 0) +
      snapCount id tickSize rest (tracker.onFill report tickSize)

/-- The largest absolute price of the fills. -/
def largestPrice (tickSize : ℚ) (reports : List ExecutionReport) : ℚ :=
  reports.foldr (fun report largest => max |report.execPrice.toDouble tickSize| largest) 0

theorem abs_le_largestPrice {tickSize : ℚ} {reports : List ExecutionReport}
    {report : ExecutionReport} (member : report ∈ reports) :
    |report.execPrice.toDouble tickSize| ≤ largestPrice tickSize reports := by
  induction reports with
  | nil => cases member
  | cons first rest inductionHypothesis =>
    rcases List.mem_cons.mp member with rfl | later
    · exact le_max_left _ _
    · exact le_trans (inductionHypothesis later) (le_max_right _ _)

/-- Along a sequence of fills the drift moves by at most a tiny quantity at the bound for each
snapped fill. -/
theorem abs_drift_onFills {id : SymbolId} (inside : id < maxSymbols) {tickSize bound : ℚ}
    {reports : List ExecutionReport} {tracker : PnlTracker}
    (fills : ∀ report ∈ reports, report.isFill = true ∧ report.symbolId = id)
    (priced : ∀ report ∈ reports, |report.execPrice.toDouble tickSize| ≤ bound)
    (booked : Booked bound (tracker.state id)) :
    |drift ((tracker.onFills reports tickSize).state id) - drift (tracker.state id)| ≤
      snapCount id tickSize reports tracker * (tinyQty * bound) := by
  induction reports generalizing tracker with
  | nil =>
    show |drift (tracker.state id) - drift (tracker.state id)| ≤ ((0 : Nat) : ℚ) * _
    rw [sub_self, abs_zero, Nat.cast_zero, zero_mul]
  | cons report rest inductionHypothesis =>
    obtain ⟨fill, own⟩ := fills report List.mem_cons_self
    have price := priced report List.mem_cons_self
    have state := tracker.state_onFill fill (own ▸ inside) tickSize
    rw [own] at state
    have first := @abs_drift_fillState bound (signedQty report.side report.execQty.value)
      (report.execPrice.toDouble tickSize) _ booked price
    have later := @inductionHypothesis (tracker.onFill report tickSize)
      (fun other member => fills other (List.mem_cons_of_mem _ member))
      (fun other member => priced other (List.mem_cons_of_mem _ member))
      (state ▸ booked.fillState price)
    rw [state] at later
    rw [snapCount, Nat.cast_add, add_mul, add_comm]
    exact le_trans (abs_sub_le _ _ _) (add_le_add later first)

/-- Cash and position marked at any price are the initial cash plus the realized and the
unrealized profit, up to one tiny quantity at the largest fill price for each snapped fill; and
exactly, when no fill is snapped. -/
theorem accounting_identity (id : SymbolId) (inside : id < maxSymbols) (initialCash tickSize : ℚ)
    (reports : List ExecutionReport)
    (fills : ∀ report ∈ reports, report.isFill = true ∧ report.symbolId = id) (mark : Price) :
    let start := fresh.seedCash id initialCash
    let tracker := start.onFills reports tickSize
    let s := tracker.state id
    |s.cash + s.position * mark.toDouble tickSize - initialCash -
        (s.realized + tracker.unrealized id mark tickSize)| ≤
      snapCount id tickSize reports start * tinyQty * largestPrice tickSize reports ∧
    (snapCount id tickSize reports start = 0 →
      s.cash + s.position * mark.toDouble tickSize - initialCash =
        s.realized + tracker.unrealized id mark tickSize) := by
  intro start tracker s
  have seeded : start.state id = ⟨initialCash, 0, 0, 0⟩ := by
    rw [show start.state id = _ from state_seedCash fresh inside initialCash,
      show fresh.state id = {} from Slots.getD_replicate id _]
  have unrealized : tracker.unrealized id mark tickSize =
      s.position * (mark.toDouble tickSize - s.avgEntry) := by
    show (if s.position = 0 then 0 else s.position * (mark.toDouble tickSize - s.avgEntry)) = _
    split
    · rename_i flat
      rw [flat, zero_mul]
    · rfl
  have booked : Booked (largestPrice tickSize reports) (start.state id) := by
    rw [seeded]
    exact ⟨Or.inl rfl, fun held => absurd rfl held⟩
  have bound := abs_drift_onFills inside fills (fun report => abs_le_largestPrice) booked
  have gap : s.cash + s.position * mark.toDouble tickSize - initialCash -
      (s.realized + tracker.unrealized id mark tickSize) = drift s - drift (start.state id) := by
    rw [unrealized, seeded]
    unfold drift
    ring
  rw [← mul_assoc, show drift (tracker.state id) = drift s from rfl, ← gap] at bound
  refine ⟨bound, fun none => ?_⟩
  rw [none, Nat.cast_zero, zero_mul, zero_mul] at bound
  exact sub_eq_zero.mp (abs_nonpos_iff.mp bound)

/-- A buy, and a larger sell that flips the position. -/
def flipFills : List ExecutionReport :=
  [⟨1, 0, .bid, true, ⟨10000⟩, ⟨2⟩, 0⟩, ⟨2, 0, .ask, true, ⟨10100⟩, ⟨3⟩, 0⟩]

/-- Nothing is snapped on the way, so the identity is exact. -/
theorem accounting_identity_flipFills :
    snapCount 0 (1 / 100) flipFills (fresh.seedCash 0 1000) = 0 ∧
      (((fresh.seedCash 0 1000).onFills flipFills (1 / 100)).state 0).cash +
          (((fresh.seedCash 0 1000).onFills flipFills (1 / 100)).state 0).position *
            Price.toDouble ⟨9900⟩ (1 / 100) - 1000 =
        (((fresh.seedCash 0 1000).onFills flipFills (1 / 100)).state 0).realized +
          ((fresh.seedCash 0 1000).onFills flipFills (1 / 100)).unrealized 0 ⟨9900⟩ (1 / 100) := by
  have none : snapCount 0 (1 / 100) flipFills (fresh.seedCash 0 1000) = 0 := by decide +kernel
  exact ⟨none, (accounting_identity 0 (by decide) 1000 (1 / 100) flipFills (by decide)
    ⟨9900⟩).2 none⟩

end PnlTracker

end Trading

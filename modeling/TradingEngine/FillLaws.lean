/-
This file holds two laws of the tracker's fills.

A flat position has no average entry, unless a fill overshot zero by less than the
tolerance: such a fill counts as a flip for the average and as a close for the position.

And a fill may be split. Seen in the direction of the fill, a fill adds to a position,
closes a part of it, closes it, or flips it, and each of these followed by a second part
comes to what the whole fill does, as long as no tiny position is snapped away on the way.
-/

import TradingEngine.AverageEntry

namespace Trading

namespace PnlTracker

/-! ### Flat positions -/

/-- The fill crosses zero and leaves a position that is snapped to it. -/
def Overshoots (s : PnlState) (signed : ℚ) : Prop := Flips s signed ∧ Snapped s signed

/-- After a fill at a price other than zero a flat state has no average entry, unless the fill
overshot. -/
theorem flat_fillState_iff {s : PnlState} {signed px : ℚ} (priced : px ≠ 0) :
    ((fillState s signed px).position = 0 → (fillState s signed px).avgEntry = 0) ↔
      ¬Overshoots s signed := by
  have large : ¬|s.position + signed| ≤ tinyQty → s.position + signed ≠ 0 := by
    intro large zero
    rw [zero, abs_zero] at large
    exact large (le_of_lt tinyQty_pos)
  rw [fillState_position]
  by_cases tiny : |s.position + signed| ≤ tinyQty
  · rw [if_pos tiny, imp_iff_right rfl]
    unfold fillState
    dsimp only
    split
    · rename_i adds
      rw [if_neg (not_lt.mpr tiny)]
      exact iff_of_true rfl fun overshoots => overshoots.1.1 adds
    · rename_i reduces
      split
      · rename_i flips
        exact iff_of_false priced fun none => none ⟨⟨reduces, flips.2⟩, flips.1, tiny⟩
      · rename_i keeps
        exact iff_of_true rfl fun overshoots => keeps ⟨overshoots.2.1, overshoots.1.2⟩
  · rw [if_neg tiny]
    exact iff_of_true (fun flat => absurd flat (large tiny)) fun overshoots => tiny overshoots.2.2

theorem state_onFill_other (tracker : PnlTracker) {report : ExecutionReport} {id : SymbolId}
    (other : id ≠ report.symbolId) (tickSize : ℚ) :
    (tracker.onFill report tickSize).state id = tracker.state id := by
  unfold onFill
  split
  · rfl
  · unfold state
    rw [Slots.getD_setIfInBounds, if_neg fun same => other same.1]

theorem onFills_concat (tracker : PnlTracker) (reports : List ExecutionReport)
    (report : ExecutionReport) (tickSize : ℚ) :
    tracker.onFills (reports ++ [report]) tickSize =
      (tracker.onFills reports tickSize).onFill report tickSize := by
  unfold onFills
  rw [List.foldl_append]
  rfl

/-- In every sequence of fills at positive prices, a flat position of a fresh tracker never shows
an average entry exactly if no fill crosses zero by less than the tolerance. -/
theorem flat_entry_iff (tickSize : ℚ) (reports : List ExecutionReport)
    (fills : ∀ report ∈ reports, report.isFill = true ∧ report.symbolId < maxSymbols)
    (prices : ∀ report ∈ reports, 0 < report.execPrice.toDouble tickSize) :
    (∀ done, done <+: reports → ∀ id < maxSymbols,
      ((fresh.onFills done tickSize).state id).position = 0 →
        ((fresh.onFills done tickSize).state id).avgEntry = 0) ↔
      ∀ done report, done ++ [report] <+: reports →
        ¬Overshoots ((fresh.onFills done tickSize).state report.symbolId)
          (signedQty report.side report.execQty.value) := by
  have step : ∀ done report, done ++ [report] <+: reports →
      ((((fresh.onFills (done ++ [report]) tickSize).state report.symbolId).position = 0 →
        ((fresh.onFills (done ++ [report]) tickSize).state report.symbolId).avgEntry = 0) ↔
      ¬Overshoots ((fresh.onFills done tickSize).state report.symbolId)
        (signedQty report.side report.execQty.value)) := by
    intro done report part
    have member := part.subset (List.mem_append_right _ (List.mem_singleton_self report))
    obtain ⟨fill, inside⟩ := fills report member
    rw [onFills_concat, state_onFill _ fill inside]
    exact flat_fillState_iff (ne_of_gt (prices report member))
  constructor
  · intro flat done report part
    have inside := (fills report (part.subset (by simp))).2
    exact (step done report part).mp (flat _ part report.symbolId inside)
  · intro none done
    induction done using List.reverseRecOn with
    | nil =>
      intro _ id _ _
      rw [show fresh.onFills [] tickSize = fresh from rfl,
        show fresh.state id = {} from Slots.getD_replicate id _]
    | append_singleton done report inductionHypothesis =>
      intro part id inside
      by_cases own : id = report.symbolId
      · rw [own]
        exact (step done report part).mpr (none done report part)
      · rw [onFills_concat, state_onFill_other _ own]
        exact inductionHypothesis ((List.prefix_append done [report]).trans part) id inside

/-- A unit bought, and a unit and a little less than the tolerance sold again. -/
def overshootFills : List ExecutionReport :=
  [⟨1, 0, .bid, true, ⟨10000⟩, ⟨1⟩, 0⟩, ⟨2, 0, .ask, true, ⟨10100⟩, ⟨1 + tinyQty / 2⟩, 0⟩]

/-- The position is flat and its average entry is the price of the sale. -/
theorem flat_with_entry :
    (∀ report ∈ overshootFills, report.isFill = true ∧ report.symbolId < maxSymbols ∧
      0 < report.execQty.value ∧ 0 < report.execPrice.toDouble (1 / 100)) ∧
    ((fresh.onFills overshootFills (1 / 100)).state 0).position = 0 ∧
      ((fresh.onFills overshootFills (1 / 100)).state 0).avgEntry = 101 := by
  decide +kernel

/-- A larger sell flips the position for good, and the states on the way are in order. -/
theorem flat_entry_iff_flipFills :
    (∀ report ∈ flipFills, report.isFill = true ∧ report.symbolId < maxSymbols) ∧
    ∀ done, done <+: flipFills → ∀ id < maxSymbols,
      ((fresh.onFills done (1 / 100)).state id).position = 0 →
        ((fresh.onFills done (1 / 100)).state id).avgEntry = 0 := by
  refine ⟨by decide, ?_⟩
  refine (flat_entry_iff (1 / 100) flipFills (by decide) (by decide +kernel)).mpr ?_
  intro done report part overshoots
  rcases done with _ | ⟨bought, _ | ⟨sold, rest⟩⟩
  · obtain ⟨rfl, -⟩ := List.cons_prefix_cons.mp part
    exact absurd overshoots.2 (by decide +kernel)
  · obtain ⟨rfl, last⟩ := List.cons_prefix_cons.mp part
    obtain ⟨rfl, -⟩ := List.cons_prefix_cons.mp last
    exact absurd overshoots.2 (by decide +kernel)
  · have count := part.length_le
    simp [flipFills] at count

/-! ### Split fills -/

section Directed

variable {s : PnlState} {direction ahead quantity px : ℚ}

theorem adds_directed (unit : direction = 1 ∨ direction = -1) (positive : 0 < quantity) :
    (direction * ahead = 0 ∨ (0 < direction * ahead ↔ 0 < direction * quantity)) ↔ 0 ≤ ahead := by
  rcases unit with rfl | rfl <;> grind

theorem flips_directed (unit : direction = 1 ∨ direction = -1) (against : ahead < 0) :
    (direction * (ahead + quantity) ≠ 0 ∧
      ¬(0 < direction * (ahead + quantity) ↔ 0 < direction * ahead)) ↔ 0 < ahead + quantity := by
  rcases unit with rfl | rfl <;> grind

theorem abs_directed (unit : direction = 1 ∨ direction = -1) (size : ℚ) :
    |direction * size| = |size| := by
  rcases unit with rfl | rfl <;> simp

theorem closes_directed (unit : direction = 1 ∨ direction = -1) (against : ahead < 0) :
    (if 0 < direction * ahead then 1 else -1) = -direction := by
  rcases unit with rfl | rfl <;> grind

/-- Where nothing is snapped away, only a position of zero is within the tolerance. -/
theorem tiny_directed (unit : direction = 1 ∨ direction = -1)
    (position : s.position = direction * ahead)
    (unsnapped : ¬Snapped s (direction * quantity)) :
    |s.position + direction * quantity| = |ahead + quantity| ∧
      (|ahead + quantity| ≤ tinyQty ↔ ahead + quantity = 0) := by
  have size : |s.position + direction * quantity| = |ahead + quantity| := by
    rw [position, ← mul_add, abs_directed unit]
  refine ⟨size, fun tiny => ?_, fun zero => ?_⟩
  · by_contra left
    refine unsnapped ⟨?_, size ▸ tiny⟩
    rw [← abs_ne_zero, size]
    exact abs_ne_zero.mpr left
  · rw [zero, abs_zero]
    exact le_of_lt tinyQty_pos

/-- A fill that snaps nothing away, in the direction of the fill: `ahead` is the position it
finds. -/
theorem fillState_directed (unit : direction = 1 ∨ direction = -1) (positive : 0 < quantity)
    (position : s.position = direction * ahead)
    (unsnapped : ¬Snapped s (direction * quantity)) :
    fillState s (direction * quantity) px =
      { cash := s.cash - direction * quantity * px
        position := direction * (ahead + quantity)
        avgEntry := if 0 ≤ ahead then (s.avgEntry * ahead + px * quantity) / (ahead + quantity)
          else if 0 < ahead + quantity then px
          else if ahead + quantity = 0 then 0 else s.avgEntry
        realized := if 0 ≤ ahead then s.realized
          else s.realized - direction * (px - s.avgEntry) * min quantity (-ahead) } := by
  have sum : s.position + direction * quantity = direction * (ahead + quantity) := by
    rw [position, mul_add]
  obtain ⟨size, tiny⟩ := tiny_directed unit position unsnapped
  have moved : (fillState s (direction * quantity) px).position =
      direction * (ahead + quantity) := by
    rw [fillState_position, size, if_congr tiny rfl rfl, sum]
    split
    · rw [‹ahead + quantity = 0›, mul_zero]
    · rfl
  rw [fillState_position] at moved
  unfold fillState
  dsimp only
  rw [moved, sum, position]
  by_cases adds : 0 ≤ ahead
  · have left : 0 < ahead + quantity := add_pos_of_nonneg_of_pos adds positive
    rw [if_pos ((adds_directed unit positive).mpr adds), if_pos adds, if_pos adds,
      abs_directed unit, abs_directed unit, abs_directed unit, abs_of_nonneg adds,
      abs_of_pos positive, abs_of_pos left, if_pos]
    rw [← not_le, ← abs_of_pos left, tiny]
    exact ne_of_gt left
  · have against := not_le.mp adds
    rw [if_neg (mt (adds_directed unit positive).mp adds), if_neg adds, if_neg adds,
      if_congr (flips_directed unit against) rfl rfl, closes_directed unit against,
      abs_directed unit, abs_directed unit, abs_directed unit, abs_of_neg against,
      abs_of_pos positive]
    simp only [tiny]
    congr 1
    ring

/-- A fill comes to its two parts one after the other. -/
theorem fillState_split (unit : direction = 1 ∨ direction = -1) {first second : ℚ}
    (one : 0 < first) (two : 0 < second)
    (unsnapped : ¬Snapped s (direction * first))
    (unsnappedAll : ¬Snapped s (direction * (first + second))) :
    fillState (fillState s (direction * first) px) (direction * second) px =
      fillState s (direction * (first + second)) px := by
  obtain ⟨ahead, position⟩ : ∃ ahead, s.position = direction * ahead := by
    refine ⟨direction * s.position, ?_⟩
    rcases unit with rfl | rfl <;> ring
  have part := @fillState_directed s direction ahead first px unit one position unsnapped
  have landed : (fillState s (direction * first) px).position = direction * (ahead + first) := by
    rw [part]
  have rest : ¬Snapped (fillState s (direction * first) px) (direction * second) := by
    unfold Snapped at unsnappedAll ⊢
    rw [landed, ← mul_add, add_assoc, mul_add, ← position]
    exact unsnappedAll
  rw [fillState_directed unit two landed rest,
    fillState_directed unit (add_pos one two) position unsnappedAll, part]
  rw [PnlState.mk.injEq]
  refine ⟨by ring, by ring, ?_⟩
  rw [add_assoc]
  rcases le_or_gt 0 ahead with adds | against
  · have opened : 0 < ahead + first := add_pos_of_nonneg_of_pos adds one
    rw [if_pos adds, if_pos adds, if_pos adds, if_pos (le_of_lt opened), if_pos (le_of_lt opened),
      if_pos adds, div_mul_cancel₀ _ (ne_of_gt opened), mul_add px, add_assoc]
    exact ⟨rfl, rfl⟩
  · rw [if_neg (not_le.mpr against), if_neg (not_le.mpr against), if_neg (not_le.mpr against),
      if_neg (not_le.mpr against)]
    rcases lt_trichotomy (ahead + first) 0 with left | closed | flipped
    · rw [if_neg (not_le.mpr left), if_neg (not_le.mpr left), if_neg (not_lt.mpr (le_of_lt left)),
        if_neg (ne_of_lt left), min_eq_left (by linarith : first ≤ -ahead)]
      refine ⟨rfl, ?_⟩
      rw [show -ahead = first + -(ahead + first) by ring, min_add_add_left]
      ring
    · rw [if_pos (ge_of_eq closed), if_pos (ge_of_eq closed), closed, if_neg (lt_irrefl 0),
        if_pos rfl, ← add_assoc, closed, zero_add, if_pos two,
        min_eq_right (by linarith : -ahead ≤ first),
        min_eq_right (by linarith : -ahead ≤ first + second)]
      refine ⟨?_, rfl⟩
      rw [zero_mul, zero_add, mul_div_cancel_right₀ _ (ne_of_gt two)]
    · have whole : 0 < ahead + first + second := add_pos flipped two
      rw [if_pos (le_of_lt flipped), if_pos (le_of_lt flipped), if_pos flipped, ← add_assoc,
        if_pos whole, min_eq_right (by linarith : -ahead ≤ first),
        min_eq_right (by linarith : -ahead ≤ first + second)]
      refine ⟨?_, rfl⟩
      rw [← mul_add, mul_div_cancel_right₀ _ (ne_of_gt whole)]

end Directed

theorem exists_direction (side : Side) :
    ∃ direction : ℚ, (direction = 1 ∨ direction = -1) ∧
      ∀ quantity, signedQty side quantity = direction * quantity := by
  cases side with
  | bid => exact ⟨1, Or.inl rfl, fun quantity => mul_comm _ _⟩
  | ask => exact ⟨-1, Or.inr rfl, fun quantity => mul_comm _ _⟩

/-- In any tracker, and so in every one that fills reach: a fill of the sum of two quantities
leaves what the fills of the one and then of the other at the same price leave, if the position
is not snapped after the first and not after both. -/
theorem onFill_split (tracker : PnlTracker) (report : ExecutionReport) (tickSize : ℚ)
    (nextId : OrderId) (later : Timestamp) {first second : ℚ} (one : 0 < first) (two : 0 < second)
    (unsnapped : ¬Snapped (tracker.state report.symbolId) (signedQty report.side first))
    (unsnappedAll :
      ¬Snapped (tracker.state report.symbolId) (signedQty report.side (first + second))) :
    (tracker.onFill { report with execQty := ⟨first⟩ } tickSize).onFill
        { report with id := nextId, execQty := ⟨second⟩, completedNs := later } tickSize =
      tracker.onFill { report with execQty := ⟨first + second⟩ } tickSize := by
  by_cases ignored : ¬report.isFill = true ∨ maxSymbols ≤ report.symbolId
  · unfold onFill
    rw [if_pos ignored, if_pos ignored, if_pos ignored]
  · obtain ⟨fill, outside⟩ := not_or.mp ignored
    obtain ⟨direction, unit, signed⟩ := exists_direction report.side
    rw [signed] at unsnapped unsnappedAll
    have split := @fillState_split _ _ (report.execPrice.toDouble tickSize) unit _ _ one two
      unsnapped unsnappedAll
    rw [← signed, ← signed, ← signed] at split
    have part := @state_onFill tracker { report with execQty := ⟨first⟩ } (not_not.mp fill)
      (not_le.mp outside) tickSize
    unfold onFill at part ⊢
    rw [if_neg ignored] at part
    rw [if_neg ignored, if_neg ignored, if_neg ignored, part, split,
      Vector.setIfInBounds_setIfInBounds]

/-- A long unit sold and then sold again: the first part closes the position and the second
opens a short one. -/
theorem onFill_split_close :
    let sale : ExecutionReport := ⟨2, 0, .ask, true, ⟨10100⟩, ⟨0⟩, 0⟩
    let tracker := fresh.onFill ⟨1, 0, .bid, true, ⟨10000⟩, ⟨1⟩, 0⟩ (1 / 100)
    (tracker.onFill { sale with execQty := ⟨1⟩ } (1 / 100)).onFill
        { sale with id := 3, execQty := ⟨2⟩, completedNs := 5 } (1 / 100) =
      tracker.onFill { sale with execQty := ⟨1 + 2⟩ } (1 / 100) :=
  onFill_split _ _ (1 / 100) 3 5 (by decide) (by decide) (by decide +kernel) (by decide +kernel)

end PnlTracker

end Trading

/-
This file says which fills an average entry price is an average of: the fills in the
position's direction since the position was last flat or last flipped.

A fill that leaves a position either adds to it and reweights the average, or flips it
and starts over at its own price, or closes a part and leaves the average alone. So the
average stays in every convex set that holds the prices of the fills that built the
position, in particular between the smallest and the largest of them.
-/

import Mathlib.Analysis.Convex.Basic
import TradingEngine.PnlIdentity

namespace Trading

namespace PnlTracker

/-! ### One fill -/

section Fill

variable {s : PnlState} {signed px : ℚ}

/-- The fill opens a position or adds to it. -/
def Adds (s : PnlState) (signed : ℚ) : Prop := s.position = 0 ∨ (0 < s.position ↔ 0 < signed)

/-- The fill leaves a position of the other direction. -/
def Flips (s : PnlState) (signed : ℚ) : Prop :=
  ¬Adds s signed ∧ ¬(0 < s.position + signed ↔ 0 < s.position)

/-- What a fill that leaves a position does to the average entry. -/
theorem fillState_avgEntry (held : (fillState s signed px).position ≠ 0) :
    (fillState s signed px).position = s.position + signed ∧ tinyQty < |s.position + signed| ∧
    (Adds s signed ∧ (fillState s signed px).avgEntry =
        (s.avgEntry * |s.position| + px * |signed|) / (|s.position| + |signed|) ∨
      Flips s signed ∧ (fillState s signed px).avgEntry = px ∨
      ¬Adds s signed ∧ ¬Flips s signed ∧ (fillState s signed px).avgEntry = s.avgEntry) := by
  have large : ¬|s.position + signed| ≤ tinyQty := by
    intro tiny
    rw [fillState_position, if_pos tiny] at held
    exact held rfl
  have held' : s.position + signed ≠ 0 := by
    intro zero
    rw [zero, abs_zero] at large
    exact large (le_of_lt tinyQty_pos)
  refine ⟨by rw [fillState_position, if_neg large], not_le.mp large, ?_⟩
  unfold fillState
  dsimp only
  split
  · rename_i adds
    refine Or.inl ⟨adds, ?_⟩
    rw [if_pos (not_le.mp large), abs_add_of_adds adds]
  · rename_i reduces
    refine Or.inr ?_
    split
    · rename_i flips
      exact Or.inl ⟨⟨reduces, flips.2⟩, rfl⟩
    · rename_i keeps
      exact Or.inr ⟨reduces, fun flips => keeps ⟨held', flips.2⟩, rfl⟩

/-- The average entry stays in a convex set that holds it and the prices that move it. -/
theorem avgEntry_mem_of_convex {region : Set ℚ} (convex : Convex ℚ region)
    (entry : s.position ≠ 0 → ¬Flips s signed → s.avgEntry ∈ region)
    (priced : Adds s signed ∨ Flips s signed → px ∈ region)
    (held : (fillState s signed px).position ≠ 0) :
    (fillState s signed px).avgEntry ∈ region := by
  obtain ⟨-, large, ⟨adds, average⟩ | ⟨flips, average⟩ | ⟨reduces, keeps, average⟩⟩ :=
    fillState_avgEntry held
  · rw [average]
    rcases eq_or_ne s.position 0 with flat | opened
    · have size : |signed| ≠ 0 := by
        rw [flat, zero_add] at large
        exact ne_of_gt (lt_trans tinyQty_pos large)
      rw [flat, abs_zero, mul_zero, zero_add, zero_add, mul_div_cancel_right₀ _ size]
      exact priced (Or.inl adds)
    · have weight : 0 < |s.position| + |signed| :=
        add_pos_of_pos_of_nonneg (abs_pos.mpr opened) (abs_nonneg _)
      have mean := convex_iff_div.mp convex (entry opened fun flips => flips.1 adds)
        (priced (Or.inl adds)) (abs_nonneg s.position) (abs_nonneg signed) weight
      rw [smul_eq_mul, smul_eq_mul, div_mul_eq_mul_div, div_mul_eq_mul_div, ← add_div,
        mul_comm |s.position|, mul_comm |signed|] at mean
      exact mean
  · rw [average]
    exact priced (Or.inr flips)
  · rw [average]
    exact entry (not_or.mp reduces).1 keeps

/-- A fill that adds or flips leaves a position of its own direction. -/
theorem direction_of_leads (nonzero : signed ≠ 0) (leads : Adds s signed ∨ Flips s signed) :
    0 < signed ↔ 0 < s.position + signed := by
  rcases leads with adds | ⟨reduces, flips⟩
  · rcases direction_of_adds adds with ⟨long, buys⟩ | ⟨short, sells⟩
    · have buys := lt_of_le_of_ne buys (Ne.symm nonzero)
      exact ⟨fun _ => add_pos_of_nonneg_of_pos long buys, fun _ => buys⟩
    · exact ⟨fun buys => absurd buys (not_lt.mpr sells),
        fun long => absurd long (not_lt.mpr (add_nonpos short sells))⟩
  · have opposed : ¬(0 < s.position ↔ 0 < signed) := (not_or.mp reduces).2
    tauto

/-- A fill that does not flip a position keeps its direction. -/
theorem direction_of_keeps (opened : s.position ≠ 0) (nonzero : signed ≠ 0)
    (keeps : ¬Flips s signed) : 0 < s.position ↔ 0 < s.position + signed := by
  by_cases adds : Adds s signed
  · exact (adds.resolve_left opened).trans (direction_of_leads nonzero (Or.inl adds))
  · exact (not_not.mp fun flips => keeps ⟨adds, flips⟩).symm

end Fill

/-! ### The fills that built a position -/

/-- The fills since the position was last flat or last flipped, the flipping fill included,
when one more fill moves the position. -/
def extend (report : ExecutionReport) (before after : ℚ) (since : List ExecutionReport) :
    List ExecutionReport :=
  if after = 0 then []
  else if before ≠ 0 ∧ ¬(0 < before ↔ 0 < after) then [report]
  else since ++ [report]

/-- The fills of a symbol since its position was last flat or last flipped. -/
def sinceOpened (id : SymbolId) (tickSize : ℚ) :
    List ExecutionReport → PnlTracker → (since : List ExecutionReport) → List ExecutionReport
  | [], _, since => since
  | report :: rest, tracker, since =>
    let next := tracker.onFill report tickSize
    sinceOpened id tickSize rest next
      (extend report (tracker.state id).position (next.state id).position since)

/-- The fills in the direction of a position. -/
def sameSide (position : ℚ) (since : List ExecutionReport) : List ExecutionReport :=
  since.filter fun report => report.side = if 0 < position then Side.bid else Side.ask

/-- A state and the fills since its position was opened. -/
structure Built (tickSize : ℚ) (since : List ExecutionReport) (s : PnlState) : Prop where
  apart : s.position ≠ 0 → tinyQty < |s.position|
  built : s.position ≠ 0 → sameSide s.position since ≠ []
  entry : s.position ≠ 0 → ∀ region : Set ℚ, Convex ℚ region →
    (∀ report ∈ sameSide s.position since, report.execPrice.toDouble tickSize ∈ region) →
    s.avgEntry ∈ region

theorem signedQty_pos_iff {side : Side} {quantity : ℚ} (positive : 0 < quantity) :
    0 < signedQty side quantity ↔ side = .bid := by
  cases side <;> simp [signedQty, positive, le_of_lt positive]

theorem signedQty_ne_zero {quantity : ℚ} (side : Side) (positive : 0 < quantity) :
    signedQty side quantity ≠ 0 := by
  cases side <;> simp [signedQty, ne_of_gt positive]

/-- A fill of the direction of the position it leaves is one of those that built it. -/
theorem mem_sameSide_extend {report : ExecutionReport} {before after : ℚ}
    {since : List ExecutionReport} (positive : 0 < report.execQty.value) (held : after ≠ 0)
    (direction : 0 < signedQty report.side report.execQty.value ↔ 0 < after) :
    report ∈ sameSide after (extend report before after since) := by
  rw [signedQty_pos_iff positive] at direction
  refine List.mem_filter.mpr ⟨?_, decide_eq_true ?_⟩
  · rw [extend, if_neg held]
    split
    · exact List.mem_singleton_self report
    · exact List.mem_append_right _ (List.mem_singleton_self report)
  · split
    · exact direction.mpr ‹_›
    · cases side : report.side with
      | bid => exact absurd (direction.mp side) ‹_›
      | ask => rfl

/-- The fills that built a position built what is left of it. -/
theorem sameSide_subset_extend {report : ExecutionReport} {before after : ℚ}
    {since : List ExecutionReport} (held : after ≠ 0) (direction : 0 < before ↔ 0 < after) :
    sameSide before since ⊆ sameSide after (extend report before after since) := by
  intro other member
  obtain ⟨listed, own⟩ := List.mem_filter.mp member
  refine List.mem_filter.mpr ⟨?_, ?_⟩
  · rw [extend, if_neg held, if_neg (fun flips => flips.2 direction)]
    exact List.mem_append_left _ listed
  · simpa only [direction] using own

/-- A fill keeps the average one of the fills that built the position. -/
theorem Built.fillState {tickSize : ℚ} {since : List ExecutionReport} {s : PnlState}
    (built : Built tickSize since s) {report : ExecutionReport}
    (positive : 0 < report.execQty.value) :
    let next := fillState s (signedQty report.side report.execQty.value)
      (report.execPrice.toDouble tickSize)
    Built tickSize (extend report s.position next.position since) next := by
  have nonzero := signedQty_ne_zero report.side positive
  have own := fun after => @mem_sameSide_extend report s.position after since positive
  generalize signedQty report.side report.execQty.value = signed at nonzero own ⊢
  intro next
  have leads : next.position ≠ 0 → Adds s signed ∨ Flips s signed →
      report ∈ sameSide next.position (extend report s.position next.position since) := by
    intro held leads
    refine own _ held ?_
    rw [(fillState_avgEntry held).1]
    exact direction_of_leads nonzero leads
  have keeps : next.position ≠ 0 → s.position ≠ 0 → ¬Flips s signed →
      sameSide s.position since ⊆
        sameSide next.position (extend report s.position next.position since) := by
    intro held opened keeps
    refine sameSide_subset_extend held ?_
    rw [(fillState_avgEntry held).1]
    exact direction_of_keeps opened nonzero keeps
  constructor
  · intro held
    obtain ⟨moved, large, -⟩ := fillState_avgEntry held
    exact moved ▸ large
  · intro held
    obtain ⟨-, -, ⟨adds, -⟩ | ⟨flips, -⟩ | ⟨reduces, same, -⟩⟩ := fillState_avgEntry held
    · exact List.ne_nil_of_mem (leads held (Or.inl adds))
    · exact List.ne_nil_of_mem (leads held (Or.inr flips))
    · have opened : s.position ≠ 0 := (not_or.mp reduces).1
      obtain ⟨first, member⟩ := List.exists_mem_of_ne_nil _ (built.built opened)
      exact List.ne_nil_of_mem (keeps held opened same member)
  · intro held region convex priced
    refine avgEntry_mem_of_convex convex (fun opened same => ?_) (fun moves => ?_) held
    · exact built.entry opened region convex fun other member =>
        priced other (keeps held opened same member)
    · exact priced report (leads held moves)

/-! ### A sequence of fills -/

/-- So does any number of fills. -/
theorem Built.onFills {id : SymbolId} (inside : id < maxSymbols) {tickSize : ℚ}
    {reports since : List ExecutionReport} {tracker : PnlTracker}
    (fills : ∀ report ∈ reports, report.isFill = true ∧ report.symbolId = id)
    (positive : ∀ report ∈ reports, 0 < report.execQty.value)
    (built : Built tickSize since (tracker.state id)) :
    Built tickSize (sinceOpened id tickSize reports tracker since)
      ((tracker.onFills reports tickSize).state id) := by
  induction reports generalizing tracker since with
  | nil => exact built
  | cons report rest inductionHypothesis =>
    obtain ⟨fill, own⟩ := fills report List.mem_cons_self
    have state := tracker.state_onFill fill (own ▸ inside) tickSize
    rw [own] at state
    refine inductionHypothesis (fun other member => fills other (List.mem_cons_of_mem _ member))
      (fun other member => positive other (List.mem_cons_of_mem _ member)) ?_
    rw [state]
    exact built.fillState (positive report List.mem_cons_self)

/-- Of the fills of a symbol of a fresh tracker: a position that is not flat is larger than the
tolerance, and its average entry lies between the smallest and the largest price of the fills in
its direction since it was last flat or last flipped. -/
theorem avgEntry_between (id : SymbolId) (inside : id < maxSymbols) (tickSize : ℚ)
    (reports : List ExecutionReport)
    (fills : ∀ report ∈ reports, report.isFill = true ∧ report.symbolId = id)
    (quantities : ∀ report ∈ reports, 0 < report.execQty.value) :
    let s := (fresh.onFills reports tickSize).state id
    let builders := sameSide s.position (sinceOpened id tickSize reports fresh [])
    s.position ≠ 0 → tinyQty < |s.position| ∧
      ∃ lowest ∈ builders, ∃ highest ∈ builders,
        (∀ report ∈ builders,
          lowest.execPrice.toDouble tickSize ≤ report.execPrice.toDouble tickSize ∧
          report.execPrice.toDouble tickSize ≤ highest.execPrice.toDouble tickSize) ∧
        lowest.execPrice.toDouble tickSize ≤ s.avgEntry ∧
        s.avgEntry ≤ highest.execPrice.toDouble tickSize := by
  intro s builders held
  have start : Built tickSize [] (fresh.state id) := by
    rw [show fresh.state id = {} from Slots.getD_replicate id _]
    exact ⟨fun held => absurd rfl held, fun held => absurd rfl held, fun held => absurd rfl held⟩
  have built : Built tickSize _ s := start.onFills inside fills quantities
  have some : builders.toFinset.Nonempty := by
    obtain ⟨first, member⟩ := List.exists_mem_of_ne_nil _ (built.built held)
    exact ⟨first, List.mem_toFinset.mpr member⟩
  obtain ⟨lowest, low, least⟩ := builders.toFinset.exists_min_image
    (fun report => report.execPrice.toDouble tickSize) some
  obtain ⟨highest, high, most⟩ := builders.toFinset.exists_max_image
    (fun report => report.execPrice.toDouble tickSize) some
  have bounds : ∀ report ∈ builders, report.execPrice.toDouble tickSize ∈
      Set.Icc (lowest.execPrice.toDouble tickSize) (highest.execPrice.toDouble tickSize) :=
    fun report member => ⟨least report (List.mem_toFinset.mpr member),
      most report (List.mem_toFinset.mpr member)⟩
  have entry := built.entry held _ (convex_Icc _ _) bounds
  exact ⟨built.apart held, lowest, List.mem_toFinset.mp low, highest, List.mem_toFinset.mp high,
    bounds, entry⟩

example : sameSide (-1) (sinceOpened 0 (1 / 100) flipFills fresh []) =
    [⟨2, 0, .ask, true, ⟨10100⟩, ⟨3⟩, 0⟩] := by decide +kernel

/-- A larger sell than the position leaves a short one, built by that sell. -/
theorem avgEntry_between_flipFills :
    let s := (fresh.onFills flipFills (1 / 100)).state 0
    s.position ≠ 0 ∧ tinyQty < |s.position| := by
  intro s
  have held : s.position ≠ 0 := by decide +kernel
  exact ⟨held, (avgEntry_between 0 (by decide) (1 / 100) flipFills (by decide) (by decide +kernel)
    held).1⟩

end PnlTracker

end Trading

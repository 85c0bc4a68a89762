/-
This file says what the percentiles of the histogram report. The counts are those of the
recorded values cell by cell, so the scan of the cumulative counts stops at the cell of
the value of the rank it looks for, and the answer is the middle of that cell or the
largest value. The rank is rounded down: where the share of the samples is not a whole
number, the answer covers that share only if the next value is in the same cell.

Both results are about the values that were recorded, in any order and of any number. How
far the middle of a cell is from a value in it was settled with the layout of the cells.
-/

import TradingEngine.Histogram
import TradingEngine.Lib.Ranks

namespace Trading

namespace HdrHistogram

open LogBuckets (Cell cellOf holds_cellOf)

/-! ### What is recorded -/

/-- The histogram after a sequence of calls of `recordNs`. -/
def recorded (values : List Int) : HdrHistogram := values.foldl recordNs fresh

/-- The values as they are counted: a negative one is a zero. -/
def samples (values : List Int) : List Nat := values.map Int.toNat

/-- The cell a sample is counted in. -/
def cellIndex (sample : Nat) : Nat := indexFor (BitVec.ofNat 64 sample)

/-- A histogram and the samples it counts. -/
structure Counts (histogram : HdrHistogram) (samples : List Nat) : Prop where
  counts : ∀ cell < numCells,
    histogram.counts.getD cell 0 = samples.countP fun sample => cellIndex sample = cell
  count : histogram.count = samples.length
  bounded : ∀ sample ∈ samples, sample < 2 ^ 63
  largest : ∀ sample ∈ samples, sample ≤ histogram.max.toNat
  attained : histogram.max.toNat = 0 ∨ histogram.max.toNat ∈ samples

section Samples

variable {histogram : HdrHistogram} {samples : List Nat}

theorem toNat_ofNat_of_lt {sample : Nat} (bound : sample < 2 ^ 63) :
    (BitVec.ofNat 64 sample).toNat = sample := by
  rw [BitVec.toNat_ofNat]
  exact Nat.mod_eq_of_lt (lt_trans bound (by decide))

theorem cellIndex_eq {sample : Nat} (bound : sample < 2 ^ 63) :
    cellIndex sample = (cellOf subBits sample).number := by
  have word := toNat_ofNat_of_lt bound
  rw [cellIndex, indexFor_eq (word.symm ▸ bound), word]

theorem cellIndex_lt {sample : Nat} (bound : sample < 2 ^ 63) : cellIndex sample < numCells := by
  rw [cellIndex_eq bound]
  exact number_lt_numCells (holds_cellOf _ _) bound

theorem cellIndex_mono {small large : Nat} (ordered : small ≤ large) (bound : large < 2 ^ 63) :
    cellIndex small ≤ cellIndex large := by
  refine indexFor_mono ?_ ?_
  · rw [toNat_ofNat_of_lt bound, toNat_ofNat_of_lt (lt_of_le_of_lt ordered bound)]
    exact ordered
  · rw [toNat_ofNat_of_lt bound]
    exact bound

theorem valueAt_cellIndex {sample : Nat} (bound : sample < 2 ^ 63) :
    valueAt (cellIndex sample) = (cellOf subBits sample).middle ∧
      (cellOf subBits sample).middle < 2 ^ 63 := by
  rw [cellIndex_eq bound]
  exact valueAt_number (holds_cellOf _ _) bound

theorem valueAt_cellIndex_mono {small large : Nat} (ordered : small ≤ large)
    (bound : large < 2 ^ 63) : valueAt (cellIndex small) ≤ valueAt (cellIndex large) := by
  have below := lt_of_le_of_lt ordered bound
  rcases eq_or_lt_of_le (cellIndex_mono ordered bound) with same | before
  · rw [same]
  · rw [(valueAt_cellIndex below).1, (valueAt_cellIndex bound).1]
    rw [cellIndex_eq below, cellIndex_eq bound] at before
    exact_mod_cast Cell.middle_le_middle before

theorem counts_fresh : Counts fresh [] where
  counts := by
    intro cell inside
    exact Slots.getD_replicate cell _
  count := rfl
  bounded := List.forall_mem_nil _
  largest := List.forall_mem_nil _
  attained := Or.inl rfl

/-- The word a value is counted as. -/
theorem recordNs_word (ns : Int) :
    BitVec.ofInt 64 (if ns < 0 then 0 else ns) = BitVec.ofNat 64 ns.toNat := by
  split
  · rename_i negative
    rw [Int.toNat_of_nonpos (le_of_lt negative)]
    rfl
  · rename_i nonneg
    obtain ⟨sample, rfl⟩ := Int.eq_ofNat_of_zero_le (not_lt.mp nonneg)
    exact BitVec.ofInt_natCast 64 sample

theorem Counts.recordNs (counts : Counts histogram samples) {ns : Int} (bound : ns < 2 ^ 63) :
    Counts (histogram.recordNs ns) (samples ++ [ns.toNat]) := by
  have below : ns.toNat < 2 ^ 63 := by omega
  have cell := cellIndex_lt below
  have word := toNat_ofNat_of_lt below
  unfold HdrHistogram.recordNs
  rw [recordNs_word]
  dsimp only
  rw [show indexFor (BitVec.ofNat 64 ns.toNat) = cellIndex ns.toNat from rfl]
  constructor
  · intro other inside
    rw [Slots.getD_setIfInBounds, List.countP_append, List.countP_singleton,
      ← counts.counts other inside]
    by_cases same : other = cellIndex ns.toNat
    · rw [if_pos ⟨same, cell⟩, same]
      simp
    · rw [if_neg fun here => same here.1, if_neg (by simpa using Ne.symm same), add_zero]
  · dsimp only
    rw [counts.count, List.length_append, List.length_singleton]
  · intro sample member
    rcases List.mem_append.mp member with earlier | last
    · exact counts.bounded sample earlier
    · rw [List.mem_singleton.mp last]
      exact below
  · intro sample member
    rcases List.mem_append.mp member with earlier | last
    · refine le_trans (counts.largest sample earlier) ?_
      split
      · rename_i larger
        exact le_of_lt larger
      · exact le_refl _
    · rw [List.mem_singleton.mp last]
      split
      · exact le_of_eq word.symm
      · rename_i kept
        exact le_of_eq_of_le word.symm (not_lt.mp kept)
  · dsimp only
    split
    · rw [word]
      exact Or.inr (List.mem_append_right _ (List.mem_singleton_self _))
    · exact counts.attained.imp_right (List.mem_append_left _)

end Samples

theorem counts_recorded {values : List Int} (range : ∀ ns ∈ values, ns < 2 ^ 63) :
    Counts (recorded values) (samples values) := by
  have fold : ∀ (rest : List Int) (histogram : HdrHistogram) (earlier : List Nat),
      (∀ ns ∈ rest, ns < 2 ^ 63) → Counts histogram earlier →
        Counts (rest.foldl HdrHistogram.recordNs histogram) (earlier ++ rest.map Int.toNat) := by
    intro rest
    induction rest with
    | nil =>
      intro histogram earlier _ counts
      rw [List.map_nil, List.append_nil]
      exact counts
    | cons ns rest inductionHypothesis =>
      intro histogram earlier range counts
      rw [List.map_cons, List.append_cons]
      obtain ⟨first, later⟩ := List.forall_mem_cons.mp range
      exact inductionHypothesis _ _ later (counts.recordNs first)
  exact fold values fresh [] range counts_fresh

/-! ### The scan -/

section Scan

variable {histogram : HdrHistogram} {samples : List Nat}

/-- How many samples are counted in a cell or one before it. -/
def upTo (samples : List Nat) (cell : Nat) : Nat :=
  samples.countP fun sample => cellIndex sample ≤ cell

theorem countP_lt_succ (samples : List Nat) (cell : Nat) :
    (samples.countP fun sample => cellIndex sample < cell) +
        (samples.countP fun sample => cellIndex sample = cell) = upTo samples cell := by
  induction samples with
  | nil => rfl
  | cons sample rest inductionHypothesis =>
    unfold upTo at inductionHypothesis ⊢
    rw [List.countP_cons, List.countP_cons, List.countP_cons, ← inductionHypothesis]
    rcases lt_trichotomy (cellIndex sample) cell with before | same | after
    · simp [before, ne_of_lt before, le_of_lt before]
      omega
    · simp [same]
      omega
    · simp [not_lt.mpr (le_of_lt after), ne_of_gt after, not_le.mpr after]

/-- The scan stops at the first cell up to which enough is counted. -/
theorem Counts.findCell (counts : Counts histogram samples) {target found : Nat}
    (reached : ∀ cell, target ≤ upTo samples cell ↔ found ≤ cell) (inside : found < numCells) :
    histogram.findCell target numCells 0 = some found := by
  have scan : ∀ rest, rest ≤ numCells → numCells - rest ≤ found →
      histogram.findCell target rest
        (samples.countP fun sample => cellIndex sample < numCells - rest) = some found := by
    intro rest
    induction rest with
    | zero => omega
    | succ rest inductionHypothesis =>
      intro cells ahead
      have next : numCells - rest = numCells - (rest + 1) + 1 := by omega
      rw [HdrHistogram.findCell, counts.counts _ (by omega), countP_lt_succ]
      by_cases enough : target ≤ upTo samples (numCells - (rest + 1))
      · rw [if_pos enough, le_antisymm ahead ((reached _).mp enough)]
      · rw [if_neg enough]
        have later := not_le.mp (mt (reached _).mpr enough)
        have moved := inductionHypothesis (by omega) (by omega)
        simp only [next, Nat.lt_succ_iff] at moved
        exact moved
  have start := scan numCells (le_refl _) (by omega)
  simpa using start

end Scan

/-! ### Percentiles -/

/-- The rank a percentile of `n` samples looks for. -/
def rankOf (pct : ℚ) (n : Nat) : Nat := Max.max 1 ⌊pct / 100 * n⌋.toNat

theorem rankOf_pos (pct : ℚ) (n : Nat) : 0 < rankOf pct n :=
  Nat.lt_of_lt_of_le Nat.zero_lt_one (le_max_left _ _)

theorem rankOf_le {pct : ℚ} {n : Nat} (most : pct ≤ 100) (some : 0 < n) : rankOf pct n ≤ n := by
  refine max_le some (Int.toNat_le.mpr ?_)
  have share : pct / 100 * n ≤ n := by
    have factor : pct / 100 ≤ 1 := (div_le_one (by norm_num)).mpr most
    exact mul_le_of_le_one_left (Nat.cast_nonneg n) factor
  exact_mod_cast le_trans (Int.floor_le _) share

theorem rankOf_mono {low high : ℚ} (ordered : low ≤ high) (n : Nat) :
    rankOf low n ≤ rankOf high n := by
  refine max_le_max_left 1 (Int.toNat_le_toNat (Int.floor_le_floor ?_))
  exact mul_le_mul_of_nonneg_right (div_le_div_of_nonneg_right ordered (by norm_num))
    (Nat.cast_nonneg n)

section Percentile

variable {histogram : HdrHistogram} {samples : List Nat} {pct : ℚ}

theorem Counts.max_mem (counts : Counts histogram samples) (some : samples ≠ []) :
    histogram.max.toNat ∈ samples := by
  rcases counts.attained with zero | member
  · obtain ⟨first, member⟩ := List.exists_mem_of_ne_nil _ some
    have least := counts.largest first member
    rw [show histogram.max.toNat = first by omega]
    exact member
  · exact member

/-- Up to a cell at least as many samples are counted as the rank of any value in it or before
it. -/
theorem Counts.le_upTo_iff (counts : Counts histogram samples) {rank value : Nat}
    (found : Ranks.smallest samples rank = Option.some value) (positive : 0 < rank) (cell : Nat) :
    rank ≤ upTo samples cell ↔ cellIndex value ≤ cell := by
  refine (Ranks.le_countP_iff found positive fun small _ large member ordered inside => ?_).trans
    decide_eq_true_iff
  have mono := cellIndex_mono ordered (counts.bounded large member)
  exact decide_eq_true (le_trans mono (of_decide_eq_true inside))

/-- The cell of the value of a rank covers one sample more exactly if it holds the next value
too. -/
theorem Counts.succ_le_upTo_iff (counts : Counts histogram samples) {rank value : Nat}
    (found : Ranks.smallest samples rank = Option.some value) (positive : 0 < rank) :
    rank + 1 ≤ upTo samples (cellIndex value) ↔
      ∃ next, Ranks.smallest samples (rank + 1) = Option.some next ∧
        cellIndex value = cellIndex next := by
  constructor
  · intro more
    obtain ⟨next, foundNext⟩ := Ranks.exists_smallest (Nat.succ_pos rank)
      (le_trans more List.countP_le_length)
    have inside := (counts.le_upTo_iff foundNext (Nat.succ_pos _) (cellIndex value)).mp more
    have ordered := Ranks.smallest_mono found foundNext positive (Nat.le_succ _)
    have bound := counts.bounded next (Ranks.mem_of_smallest foundNext)
    exact ⟨next, foundNext, le_antisymm (cellIndex_mono ordered bound) inside⟩
  · rintro ⟨next, foundNext, same⟩
    exact (counts.le_upTo_iff foundNext (Nat.succ_pos _) _).mpr (le_of_eq same.symm)

theorem Counts.toInt_max (counts : Counts histogram samples) :
    histogram.max.toInt = histogram.max.toNat := by
  refine BitVec.toInt_eq_toNat_of_lt ?_
  rcases counts.attained with zero | member
  · rw [zero]
    decide
  · have bound := counts.bounded _ member
    omega

/-- A percentile is the middle of the cell of the value of its rank, or the largest value. -/
theorem Counts.percentileNs (counts : Counts histogram samples) (most : pct ≤ 100)
    (some : samples ≠ []) :
    ∃ value, Ranks.smallest samples (rankOf pct samples.length) = Option.some value ∧
      value ∈ samples ∧
      histogram.percentileNs pct = min (valueAt (cellIndex value)) (histogram.max.toNat : Int) := by
  have length : 0 < samples.length := List.length_pos_iff.mpr some
  have positive := rankOf_pos pct samples.length
  obtain ⟨value, found⟩ := Ranks.exists_smallest positive (rankOf_le most length)
  have member := Ranks.mem_of_smallest found
  have bound := counts.bounded value member
  refine ⟨value, found, member, ?_⟩
  have target : (if ⌊pct / 100 * (samples.length : ℚ)⌋.toNat = 0 then 1
      else ⌊pct / 100 * (samples.length : ℚ)⌋.toNat) = rankOf pct samples.length := by
    unfold rankOf
    split
    · rename_i zero
      rw [zero]
      rfl
    · omega
  unfold HdrHistogram.percentileNs
  rw [counts.count, if_neg (Nat.pos_iff_ne_zero.mp length)]
  dsimp only
  rw [target, counts.findCell (counts.le_upTo_iff found positive) (cellIndex_lt bound),
    counts.toInt_max]
  dsimp only
  rw [← min_def_lt]

/-- A bound above a value brings what it cuts off closer to the value. -/
theorem abs_min_sub_le (middle : Int) {value bound : Int} (below : value ≤ bound) :
    |min middle bound - value| ≤ |middle - value| := by
  rcases le_total middle bound with inside | beyond
  · rw [min_eq_left inside]
  · rw [min_eq_right beyond, abs_of_nonneg (sub_nonneg.mpr below),
      abs_of_nonneg (sub_nonneg.mpr (le_trans below beyond))]
    exact sub_le_sub_right beyond value

/-- The largest value is between a value and the middle of the value's cell only when it is in
that cell itself. -/
theorem cellIndex_min {value largest : Nat} (bound : value < 2 ^ 63) (ordered : value ≤ largest)
    (large : largest < 2 ^ 63) :
    indexFor (BitVec.ofInt 64 (min (valueAt (cellIndex value)) (largest : Int))) =
      cellIndex value := by
  obtain ⟨middle, inside⟩ := valueAt_cellIndex bound
  have holds := Cell.holds_middle (cellOf subBits value)
  rw [middle, ← Nat.cast_min, BitVec.ofInt_natCast]
  show cellIndex _ = _
  rcases le_total (cellOf subBits value).middle largest with below | above
  · rw [min_eq_left below, cellIndex_eq inside, cellIndex_eq bound]
    exact Cell.number_eq_of_holds (holds_cellOf _ _) holds
  · rw [min_eq_right above]
    refine le_antisymm ?_ (cellIndex_mono ordered large)
    rw [cellIndex_eq large, cellIndex_eq bound]
    exact Cell.number_le_of_holds above (holds_cellOf _ _) holds

end Percentile

/-- Of any recorded values, at least one: a percentile is off the value of its rank by at most a
part in 64, is at most the largest value, and does not fall when the percentage rises. -/
theorem percentileNs_near (values : List Int)
    (range : ∀ ns ∈ values, -2 ^ 63 ≤ ns ∧ ns < 2 ^ 63) (listed : samples values ≠ []) (pct : ℚ)
    (percentage : pct ∈ Set.Icc 0 100) :
    let answer := (recorded values).percentileNs pct
    (∃ x, Ranks.smallest (samples values) (rankOf pct values.length) = some x ∧
      64 * |answer - x| ≤ x) ∧
    (∃ largest ∈ samples values, (∀ sample ∈ samples values, sample ≤ largest) ∧
      answer ≤ largest) ∧
    ∀ higher : ℚ, pct ≤ higher → higher ≤ 100 →
      answer ≤ (recorded values).percentileNs higher := by
  intro answer
  have counts := counts_recorded fun ns member => (range ns member).2
  have length : (samples values).length = values.length := List.length_map _
  obtain ⟨x, found, member, answered⟩ := counts.percentileNs percentage.2 listed
  have bound := counts.bounded x member
  obtain ⟨middle, -⟩ := valueAt_cellIndex bound
  refine ⟨⟨x, length ▸ found, ?_⟩, ?_, ?_⟩
  · have near : 64 * |valueAt (cellIndex x) - x| ≤ x := by
      rw [middle]
      exact Cell.abs_middle_sub_le (cellOf subBits x) (holds_cellOf subBits x)
    refine le_trans (mul_le_mul_of_nonneg_left ?_ (by norm_num)) near
    rw [show answer = _ from answered]
    exact abs_min_sub_le _ (by exact_mod_cast counts.largest x member)
  · refine ⟨_, counts.max_mem listed, counts.largest, ?_⟩
    rw [show answer = _ from answered]
    exact min_le_right _ _
  · intro higher ordered bounded
    obtain ⟨y, foundHigher, memberHigher, answeredHigher⟩ := counts.percentileNs bounded listed
    have later := Ranks.smallest_mono found foundHigher (rankOf_pos _ _) (rankOf_mono ordered _)
    rw [show answer = _ from answered, answeredHigher]
    exact min_le_min_right _ (valueAt_cellIndex_mono later (counts.bounded y memberHigher))

/-- Three values: the median is in the cell of the first of them. -/
theorem percentileNs_near_three :
    (recorded [1, 2, -3]).percentileNs 50 ≤ (recorded [1, 2, -3]).percentileNs 100 := by
  obtain ⟨-, -, mono⟩ := percentileNs_near [1, 2, -3] (by decide) (by decide) 50
    ⟨by norm_num, by norm_num⟩
  exact mono 100 (by norm_num) (by norm_num)

/-! ### The share of the samples a percentile covers -/

/-- From one sample on the rank is the share rounded down. -/
theorem rankOf_eq {pct : ℚ} {n : Nat} (large : 1 ≤ pct / 100 * n) :
    rankOf pct n = ⌊pct / 100 * n⌋.toNat ∧ (rankOf pct n : ℚ) = ⌊pct / 100 * (n : ℚ)⌋ := by
  have floor : 1 ≤ ⌊pct / 100 * (n : ℚ)⌋ := Int.le_floor.mpr (by exact_mod_cast large)
  have same : rankOf pct n = ⌊pct / 100 * n⌋.toNat := max_eq_right (by omega)
  refine ⟨same, ?_⟩
  rw [same]
  exact_mod_cast Int.toNat_of_nonneg (le_trans zero_le_one floor)

/-- The samples in the cell of the answer or below it are at least the percentage of all of them
exactly if that share is less than one sample or a whole number of them, or the value of the rank
it is rounded down to is in one cell with the next. -/
theorem percentileNs_covers_iff (values : List Int)
    (range : ∀ ns ∈ values, -2 ^ 63 ≤ ns ∧ ns < 2 ^ 63) (listed : samples values ≠ []) (pct : ℚ)
    (percentage : pct ∈ Set.Ioc 0 100) :
    let answer := (recorded values).percentileNs pct
    let share := pct / 100 * values.length
    (share ≤ (samples values).countP fun sample =>
        cellIndex sample ≤ indexFor (BitVec.ofInt 64 answer)) ↔
      share < 1 ∨ share = ⌊share⌋ ∨
        ∃ x y, Ranks.smallest (samples values) ⌊share⌋.toNat = some x ∧
          Ranks.smallest (samples values) (⌊share⌋.toNat + 1) = some y ∧
          cellIndex x = cellIndex y := by
  intro answer share
  have counts := counts_recorded fun ns member => (range ns member).2
  have length : (samples values).length = values.length := List.length_map _
  obtain ⟨x, found, member, answered⟩ := counts.percentileNs percentage.2 listed
  have cell : indexFor (BitVec.ofInt 64 answer) = cellIndex x := by
    rw [show answer = _ from answered]
    exact cellIndex_min (counts.bounded x member) (counts.largest x member)
      (counts.bounded _ (counts.max_mem listed))
  rw [cell]
  show share ≤ (upTo (samples values) (cellIndex x) : ℚ) ↔ _
  rw [length] at found
  have covered := (counts.le_upTo_iff found (rankOf_pos _ _) (cellIndex x)).mpr (le_refl _)
  have least : (rankOf pct values.length : ℚ) ≤ upTo (samples values) (cellIndex x) := by
    exact_mod_cast covered
  rcases lt_or_ge share 1 with small | large
  · have one : (1 : ℚ) ≤ rankOf pct values.length := by exact_mod_cast rankOf_pos _ _
    exact iff_of_true (le_trans (le_of_lt small) (le_trans one least)) (Or.inl small)
  obtain ⟨rank, floored⟩ := rankOf_eq large
  have positive := rankOf_pos pct values.length
  rw [rank] at found floored positive
  constructor
  · intro enough
    by_cases whole : share = ⌊share⌋
    · exact Or.inr (Or.inl whole)
    · have below : (⌊share⌋ : ℚ) < share := lt_of_le_of_ne (Int.floor_le share) (Ne.symm whole)
      have more : ⌊share⌋.toNat + 1 ≤ upTo (samples values) (cellIndex x) := by
        rw [← floored] at below
        exact_mod_cast lt_of_lt_of_le below enough
      obtain ⟨y, next, same⟩ := (counts.succ_le_upTo_iff found positive).mp more
      exact Or.inr (Or.inr ⟨x, y, found, next, same⟩)
  · rintro (small | whole | ⟨x', y, found', next, same⟩)
    · exact absurd small (not_lt.mpr large)
    · rw [whole, ← floored]
      exact rank ▸ least
    · obtain rfl := Option.some.inj (found.symm.trans found')
      have more := (counts.succ_le_upTo_iff found positive).mpr ⟨y, next, same⟩
      have above := le_of_lt (Int.lt_floor_add_one share)
      rw [← floored] at above
      exact le_trans above (by exact_mod_cast more)

/-- The third of four values is the share of 75 percent of them. -/
theorem percentileNs_covers_iff_four :
    let values : List Int := [40, 10, 30, 20]
    (75 / 100 * (values.length : ℚ) ≤ (samples values).countP fun sample =>
      cellIndex sample ≤ indexFor (BitVec.ofInt 64 ((recorded values).percentileNs 75))) := by
  intro values
  refine (percentileNs_covers_iff values (by decide) (by decide) 75
    ⟨by norm_num, by norm_num⟩).mpr (Or.inr (Or.inl ?_))
  norm_num [values]

/-- The median of three values covers one of them only. -/
theorem median_of_three_covers_one :
    let values : List Int := [10, 20, 30]
    let covered := (samples values).countP fun sample =>
      cellIndex sample ≤ indexFor (BitVec.ofInt 64 ((recorded values).percentileNs 50))
    covered = 1 ∧ ¬50 / 100 * (values.length : ℚ) ≤ covered := by
  intro values covered
  have one : covered = 1 := by decide +kernel
  refine ⟨one, ?_⟩
  rw [one]
  norm_num [values]

end HdrHistogram

end Trading

/-
This file is about a percentile that is read while values are recorded. One thread runs
`recordNs`, another one `percentileNs`, and each access to a counter is one step, in any
interleaving. The reader compares a number of samples it loaded first with cells it loads one by
one later, and with a largest value that may be older than either.

The cells only grow, and a value is in its cell before it is counted. So the scan always stops,
and it stops between two cells: that of the value of the rank among the samples recorded when the
percentile was begun, and that of the value of the same rank among those recorded when it is
answered.

Five fields are no state of the program: `samples` are the values put in a cell so far and
`returned` those whose `recordNs` has returned, `before` and `returnedBefore` are the same at the
time the reader loaded the count, and `after` are the samples at the time of its answer.
-/

import TradingEngine.Lib.Transition
import TradingEngine.Percentiles

namespace Trading

open Transition

/-- Where the thread that records stands in `recordNs`, with the value it records. -/
inductive Recorder where
  | ready
  | counting (v : BitVec 64)
  | summing (v : BitVec 64)
  | comparing (v : BitVec 64)
  | storing (v : BitVec 64)
deriving DecidableEq

/-- Where the thread that reads stands in `percentileNs`, with the count it loaded. -/
inductive PercentileReader where
  | ready
  | loadingMax (pct : ℚ) (n : Nat)
  | scanning (pct : ℚ) (n : Nat) (mx : Int) (cell cum : Nat)
  | answered (pct : ℚ) (n : Nat) (answer : Int)
deriving DecidableEq

/-- A histogram that one thread records in and another one reads, with what both have done. -/
structure SharedHistogram where
  histogram : HdrHistogram
  recorder : Recorder
  reader : PercentileReader
  samples : List Nat
  returned : List Nat
  before : List Nat
  returnedBefore : List Nat
  after : List Nat

/-- One access of one of the two threads; the first one of a call begins it. -/
inductive HistogramAction where
  | recordNs (ns : Int)
  | addCount
  | addSum
  | loadMax
  | storeMax
  | percentileNs (pct : ℚ)
  | readMax
  | readCell

namespace SharedHistogram

open HdrHistogram (indexFor valueAt numCells cellIndex upTo rankOf)

/-- A fresh histogram nobody has used. -/
def initial : SharedHistogram where
  histogram := HdrHistogram.fresh
  recorder := .ready
  reader := .ready
  samples := []
  returned := []
  before := []
  returnedBefore := []
  after := []

/-! ### The thread that records -/

/-- Add to the cell of a value. -/
def addCell (s : SharedHistogram) (ns : Int) : SharedHistogram :=
  let v := BitVec.ofInt 64 (if ns < 0 then 0 else ns)
  let cell := indexFor v
  { s with
    histogram := { s.histogram with
      counts := s.histogram.counts.setIfInBounds cell (s.histogram.counts.getD cell 0 + 1) }
    recorder := .counting v
    samples := s.samples ++ [v.toNat] }

/-- The second step of `recordNs`. -/
def addCount (s : SharedHistogram) (v : BitVec 64) : SharedHistogram :=
  { s with
    histogram := { s.histogram with count := s.histogram.count + 1 }
    recorder := .summing v }

/-- The third step of `recordNs`. -/
def addSum (s : SharedHistogram) (v : BitVec 64) : SharedHistogram :=
  { s with
    histogram := { s.histogram with sum := s.histogram.sum + v }
    recorder := .comparing v }

/-- Load the largest value, and return unless the value is larger. -/
def loadMax (s : SharedHistogram) (v : BitVec 64) : SharedHistogram :=
  if s.histogram.max < v then { s with recorder := .storing v }
  else { s with recorder := .ready, returned := s.samples }

/-- The last step of `recordNs`, when the sample is above the maximum: the call returns. -/
def storeMax (s : SharedHistogram) (v : BitVec 64) : SharedHistogram :=
  { s with
    histogram := { s.histogram with max := v }
    recorder := .ready
    returned := s.samples }

/-! ### The thread that reads -/

/-- The cumulative count the scan looks for. -/
def target (pct : ℚ) (n : Nat) : Nat :=
  let floored := ⌊pct / 100 * n⌋.toNat
  if floored = 0 then 1 else floored

/-- Load the count, and answer zero if nothing is counted. -/
def loadCount (s : SharedHistogram) (pct : ℚ) : SharedHistogram :=
  let n := s.histogram.count
  { s with
    reader := if n = 0 then .answered pct n 0 else .loadingMax pct n
    before := s.samples
    returnedBefore := s.returned
    after := s.samples }

/-- Load a cell, and answer if the cumulative count reaches the target or the cell is the last. -/
def readCell (s : SharedHistogram) (pct : ℚ) (n : Nat) (mx : Int) (cell cum : Nat) :
    SharedHistogram :=
  let cum := cum + s.histogram.counts.getD cell 0
  if target pct n ≤ cum then
    { s with
      reader := .answered pct n (if valueAt cell < mx then valueAt cell else mx)
      after := s.samples }
  else if cell + 1 < numCells then { s with reader := .scanning pct n mx (cell + 1) cum }
  else { s with reader := .answered pct n mx, after := s.samples }

/-! ### Steps -/

/-- One step of either thread, if it stands there. -/
def step (s : SharedHistogram) : HistogramAction → Option SharedHistogram
  | .recordNs ns => match s.recorder with
      | .ready => some (s.addCell ns)
      | _ => none
  | .addCount => match s.recorder with
      | .counting v => some (s.addCount v)
      | _ => none
  | .addSum => match s.recorder with
      | .summing v => some (s.addSum v)
      | _ => none
  | .loadMax => match s.recorder with
      | .comparing v => some (s.loadMax v)
      | _ => none
  | .storeMax => match s.recorder with
      | .storing v => some (s.storeMax v)
      | _ => none
  | .percentileNs pct => match s.reader with
      | .ready | .answered _ _ _ => some (s.loadCount pct)
      | _ => none
  | .readMax => match s.reader with
      | .loadingMax pct n =>
        some { s with reader := .scanning pct n s.histogram.max.toInt 0 0 }
      | _ => none
  | .readCell => match s.reader with
      | .scanning pct n mx cell cum => some (s.readCell pct n mx cell cum)
      | _ => none

/-- The steps, each with where its thread stands and what it leaves. -/
inductive Moves (s : SharedHistogram) : HistogramAction → SharedHistogram → Prop where
  | recordNs (ns : Int) (ready : s.recorder = .ready) : Moves s (.recordNs ns) (s.addCell ns)
  | addCount (v : BitVec 64) (counting : s.recorder = .counting v) :
      Moves s .addCount (s.addCount v)
  | addSum (v : BitVec 64) (summing : s.recorder = .summing v) : Moves s .addSum (s.addSum v)
  | loadMax (v : BitVec 64) (comparing : s.recorder = .comparing v) :
      Moves s .loadMax (s.loadMax v)
  | storeMax (v : BitVec 64) (storing : s.recorder = .storing v) :
      Moves s .storeMax (s.storeMax v)
  | percentileNs (pct : ℚ) : Moves s (.percentileNs pct) (s.loadCount pct)
  | readMax (pct : ℚ) (n : Nat) (loading : s.reader = .loadingMax pct n) :
      Moves s .readMax { s with reader := .scanning pct n s.histogram.max.toInt 0 0 }
  | readCell (pct : ℚ) (n : Nat) (mx : Int) (cell cum : Nat)
      (scanning : s.reader = .scanning pct n mx cell cum) :
      Moves s .readCell (s.readCell pct n mx cell cum)

theorem moves_of_step {s after : SharedHistogram} {action : HistogramAction}
    (stepped : s.step action = some after) : s.Moves action after := by
  unfold step at stepped
  cases action <;> dsimp only at stepped <;> split at stepped <;> try cases stepped
  · exact .recordNs _ ‹_›
  · exact .addCount _ ‹_›
  · exact .addSum _ ‹_›
  · exact .loadMax _ ‹_›
  · exact .storeMax _ ‹_›
  · exact .percentileNs _
  · exact .percentileNs _
  · exact .readMax _ _ ‹_›
  · exact .readCell _ _ _ _ _ ‹_›

/-- The values are those of a signed word, and the percentages are percentages. -/
def InRange (_ : SharedHistogram) : HistogramAction → Prop
  | .recordNs ns => ns < 2 ^ 63
  | .percentileNs pct => pct ∈ Set.Icc 0 100
  | _ => True

instance (s : SharedHistogram) : (action : HistogramAction) → Decidable (s.InRange action)
  | .recordNs ns => inferInstanceAs (Decidable (ns < 2 ^ 63))
  | .percentileNs pct => inferInstanceAs (Decidable (0 ≤ pct ∧ pct ≤ 100))
  | .addCount | .addSum | .loadMax | .storeMax | .readMax | .readCell => .isTrue trivial

/-! ### What is recorded -/

/-- The value whose `recordNs` is under way. -/
def pending : Recorder → List Nat
  | .ready => []
  | .counting v | .summing v | .comparing v | .storing v => [v.toNat]

/-- The cells hold every sample, the count and the largest value those that got that far. -/
structure Recording (s : SharedHistogram) : Prop where
  cells : ∀ cell < numCells,
    s.histogram.counts.getD cell 0 = s.samples.countP fun sample => cellIndex sample = cell
  bounded : ∀ sample ∈ s.samples, sample < 2 ^ 63
  pending : s.samples = s.returned ++ pending s.recorder
  count : s.histogram.count ≤ s.samples.length
  uncounted : ∀ v, s.recorder = .counting v → s.histogram.count < s.samples.length
  largest : ∀ sample ∈ s.returned, sample ≤ s.histogram.max.toNat
  attained : s.histogram.max.toNat = 0 ∨ s.histogram.max.toNat ∈ s.samples
  storing : ∀ v, s.recorder = .storing v → s.histogram.max < v

section Steps

variable {s : SharedHistogram}

theorem recording_initial : initial.Recording where
  cells := fun cell _ => Slots.getD_replicate cell _
  bounded := List.forall_mem_nil _
  pending := rfl
  count := Nat.le_refl 0
  uncounted := nofun
  largest := List.forall_mem_nil _
  attained := Or.inl rfl
  storing := nofun

/-- A step of the reader. -/
theorem Recording.of_same {after : SharedHistogram} (recording : s.Recording)
    (histogram : after.histogram = s.histogram) (recorder : after.recorder = s.recorder)
    (samples : after.samples = s.samples) (returned : after.returned = s.returned) :
    after.Recording := by
  obtain ⟨histogram', recorder', reader, samples', returned', before, returnedBefore, after'⟩ :=
    after
  obtain rfl : histogram' = s.histogram := histogram
  obtain rfl : recorder' = s.recorder := recorder
  obtain rfl : samples' = s.samples := samples
  obtain rfl : returned' = s.returned := returned
  exact ⟨recording.cells, recording.bounded, recording.pending, recording.count,
    recording.uncounted, recording.largest, recording.attained, recording.storing⟩

theorem Recording.addCell (recording : s.Recording) (ready : s.recorder = .ready) {ns : Int}
    (range : ns < 2 ^ 63) : (s.addCell ns).Recording := by
  have below : ns.toNat < 2 ^ 63 := by omega
  have word : (BitVec.ofNat 64 ns.toNat).toNat = ns.toNat :=
    HdrHistogram.toNat_ofNat_of_lt below
  have settled : s.samples = s.returned := by
    rw [recording.pending, ready]
    exact List.append_nil _
  unfold SharedHistogram.addCell
  rw [HdrHistogram.recordNs_word]
  dsimp only
  rw [show indexFor (BitVec.ofNat 64 ns.toNat) = cellIndex ns.toNat from rfl, word]
  refine ⟨?_, ?_, ?_, ?_, ?_, recording.largest, ?_, nofun⟩
  · intro other inside
    rw [Slots.getD_setIfInBounds, List.countP_append, List.countP_singleton,
      ← recording.cells other inside]
    by_cases same : other = cellIndex ns.toNat
    · rw [if_pos ⟨same, HdrHistogram.cellIndex_lt below⟩, same]
      simp
    · rw [if_neg fun here => same here.1, if_neg (by simpa using Ne.symm same), add_zero]
  · intro sample member
    rcases List.mem_append.mp member with earlier | last
    · exact recording.bounded sample earlier
    · rw [List.mem_singleton.mp last]
      exact below
  · show s.samples ++ [ns.toNat] = s.returned ++ [(BitVec.ofNat 64 ns.toNat).toNat]
    rw [settled, word]
  · rw [List.length_append]
    exact Nat.le_add_right_of_le recording.count
  · intro v _
    rw [List.length_append]
    exact Nat.lt_succ_of_le recording.count
  · exact recording.attained.imp_right (List.mem_append_left _)

theorem Recording.loadMax (recording : s.Recording) {v : BitVec 64}
    (comparing : s.recorder = .comparing v) : (s.loadMax v).Recording := by
  have settling := recording.pending
  rw [comparing] at settling
  unfold SharedHistogram.loadMax
  split
  · rename_i larger
    refine ⟨recording.cells, recording.bounded, settling, recording.count, nofun,
      recording.largest, recording.attained, ?_⟩
    intro w same
    cases same
    exact larger
  · rename_i kept
    refine ⟨recording.cells, recording.bounded, (List.append_nil _).symm, recording.count, nofun,
      ?_, recording.attained, nofun⟩
    intro sample member
    rw [settling] at member
    rcases List.mem_append.mp member with earlier | last
    · exact recording.largest sample earlier
    · rw [List.mem_singleton.mp last]
      exact not_lt.mp kept

theorem Recording.storeMax (recording : s.Recording) {v : BitVec 64}
    (storing : s.recorder = .storing v) : (s.storeMax v).Recording := by
  have settling := recording.pending
  rw [storing] at settling
  have last : v.toNat ∈ s.samples := by
    rw [settling]
    exact List.mem_append_right _ (List.mem_singleton_self _)
  refine ⟨recording.cells, recording.bounded, (List.append_nil _).symm, recording.count, nofun,
    ?_, Or.inr last, nofun⟩
  intro sample member
  rw [SharedHistogram.storeMax, settling] at member
  rcases List.mem_append.mp member with earlier | same
  · exact le_trans (recording.largest sample earlier)
      (le_of_lt (recording.storing v storing))
  · exact le_of_eq (List.mem_singleton.mp same)

theorem Recording.step {after : SharedHistogram} {action : HistogramAction}
    (recording : s.Recording) (range : s.InRange action) (stepped : s.step action = some after) :
    after.Recording := by
  cases moves_of_step stepped with
  | recordNs ns ready => exact recording.addCell ready range
  | addCount v counting =>
    have settling := recording.pending
    rw [counting] at settling
    exact ⟨recording.cells, recording.bounded, settling, recording.uncounted v counting, nofun,
      recording.largest, recording.attained, nofun⟩
  | addSum v summing =>
    have settling := recording.pending
    rw [summing] at settling
    exact ⟨recording.cells, recording.bounded, settling, recording.count, nofun,
      recording.largest, recording.attained, nofun⟩
  | loadMax v comparing => exact recording.loadMax comparing
  | storeMax v storing => exact recording.storeMax storing
  | percentileNs | readMax => exact recording.of_same rfl rfl rfl rfl
  | readCell pct n mx cell cum scanning =>
    unfold readCell
    dsimp only
    split
    · exact recording.of_same rfl rfl rfl rfl
    · split <;> exact recording.of_same rfl rfl rfl rfl

end Steps

/-! ### What is read -/

theorem target_eq (pct : ℚ) (n : Nat) : target pct n = rankOf pct n := by
  unfold target rankOf
  dsimp only
  split
  · rename_i zero
    rw [zero]
    rfl
  · omega

theorem le_upTo_iff {samples : List Nat} (bounded : ∀ sample ∈ samples, sample < 2 ^ 63)
    {rank value : Nat} (found : Ranks.smallest samples rank = some value) (positive : 0 < rank)
    (cell : Nat) : rank ≤ upTo samples cell ↔ cellIndex value ≤ cell := by
  have range : ∀ ns ∈ samples.map Int.ofNat, ns < 2 ^ 63 := by
    intro ns member
    obtain ⟨sample, inside, rfl⟩ := List.mem_map.mp member
    show (sample : Int) < 2 ^ 63
    exact_mod_cast bounded sample inside
  have counts := HdrHistogram.counts_recorded range
  have same : HdrHistogram.samples (samples.map Int.ofNat) = samples := by
    rw [HdrHistogram.samples, List.map_map]
    exact List.map_id samples
  rw [same] at counts
  exact counts.le_upTo_iff found positive cell

theorem valueAt_le {small large : Nat} (below : small < 2 ^ 63) (bound : large < 2 ^ 63)
    (cells : cellIndex small ≤ cellIndex large) :
    valueAt (cellIndex small) ≤ valueAt (cellIndex large) := by
  rcases le_total small large with ordered | reversed
  · exact HdrHistogram.valueAt_cellIndex_mono ordered bound
  · rw [le_antisymm cells (HdrHistogram.cellIndex_mono reversed below)]

/-- A percentile was begun. -/
structure Begun (s : SharedHistogram) (pct : ℚ) (n : Nat) : Prop where
  percentage : pct ∈ Set.Icc 0 100
  positive : 0 < n
  enough : n ≤ s.before.length
  earlier : s.before <+: s.samples

/-- The cells before one were scanned. -/
structure Scanned (s : SharedHistogram) (pct : ℚ) (n : Nat) (mx : Int) (cell cum : Nat) : Prop
    extends s.Begun pct n where
  inside : cell < numCells
  low : (s.before.countP fun sample => cellIndex sample < cell) ≤ cum
  high : cum ≤ s.samples.countP fun sample => cellIndex sample < cell
  short : cum < rankOf pct n
  settled : ∀ sample ∈ s.returnedBefore, (sample : Int) ≤ mx
  known : mx ≤ 0 ∨ ∃ sample ∈ s.samples, mx ≤ sample

/-- An answer is between the values of one rank, before and after. -/
def Between (s : SharedHistogram) (pct : ℚ) (n : Nat) (answer : Int) : Prop :=
  ∃ earlier later, Ranks.smallest s.before (rankOf pct n) = some earlier ∧
    Ranks.smallest s.after (rankOf pct n) = some later ∧
    answer ≤ valueAt (cellIndex earlier) ∧
    (∀ sample ∈ s.returnedBefore, min (valueAt (cellIndex later)) sample ≤ answer) ∧
    (answer ≤ 0 ∨ ∃ sample ∈ s.after, answer ≤ sample)

/-- What the reader knows where it stands. -/
def Reading (s : SharedHistogram) : Prop :=
  match s.reader with
  | .ready => True
  | .loadingMax pct n =>
    s.Begun pct n ∧ ∀ sample ∈ s.returnedBefore, sample ≤ s.histogram.max.toNat
  | .scanning pct n mx cell cum => s.Scanned pct n mx cell cum
  | .answered pct n answer => 0 < n → s.Between pct n answer

section Scan

variable {s : SharedHistogram} {pct : ℚ} {n cell cum : Nat} {mx : Int}

/-- The thread that records only adds samples and raises the largest value. -/
theorem Reading.grow {after : SharedHistogram} (reading : s.Reading)
    (reader : after.reader = s.reader) (before : after.before = s.before)
    (returnedBefore : after.returnedBefore = s.returnedBefore) (answered : after.after = s.after)
    (samples : s.samples <+: after.samples)
    (largest : s.histogram.max.toNat ≤ after.histogram.max.toNat) : after.Reading := by
  have begun : ∀ {pct n}, s.Begun pct n → after.Begun pct n := fun begun =>
    ⟨begun.percentage, begun.positive, before ▸ begun.enough, before ▸ begun.earlier.trans samples⟩
  unfold Reading at reading ⊢
  rw [reader]
  cases there : s.reader with
  | ready => trivial
  | loadingMax pct n =>
    rw [there] at reading
    refine ⟨begun reading.1, fun sample member => ?_⟩
    rw [returnedBefore] at member
    exact le_trans (reading.2 sample member) largest
  | scanning pct n mx cell cum =>
    rw [there] at reading
    refine ⟨begun reading.toBegun, reading.inside, before ▸ reading.low, ?_, reading.short,
      returnedBefore ▸ reading.settled, ?_⟩
    · exact le_trans reading.high (List.Sublist.countP_le samples.sublist)
    · refine reading.known.imp_right ?_
      rintro ⟨sample, member, below⟩
      exact ⟨sample, samples.subset member, below⟩
  | answered pct n answer =>
    rw [there] at reading
    intro positive
    obtain ⟨earlier, later, found, foundLater, above, below, known⟩ := reading positive
    exact ⟨earlier, later, before ▸ found, answered ▸ foundLater, above,
      returnedBefore ▸ below, answered ▸ known⟩

theorem Begun.rankOf_le (begun : s.Begun pct n) : rankOf pct n ≤ s.before.length :=
  le_trans (HdrHistogram.rankOf_le begun.percentage.2 begun.positive) begun.enough

theorem Begun.bounded (begun : s.Begun pct n) (recording : s.Recording) :
    ∀ sample ∈ s.before, sample < 2 ^ 63 :=
  fun sample member => recording.bounded sample (begun.earlier.subset member)

/-- What the next cell adds. -/
theorem Scanned.add (scanned : s.Scanned pct n mx cell cum) (recording : s.Recording) :
    upTo s.before cell ≤ cum + s.histogram.counts.getD cell 0 ∧
      cum + s.histogram.counts.getD cell 0 ≤ upTo s.samples cell := by
  have grown := List.Sublist.countP_le (p := fun sample => decide (cellIndex sample = cell))
    scanned.earlier.sublist
  have low := scanned.low
  have high := scanned.high
  rw [recording.cells cell scanned.inside, ← HdrHistogram.countP_lt_succ,
    ← HdrHistogram.countP_lt_succ]
  exact ⟨by omega, by omega⟩

/-- A scan that stops does so at a cell between those of the values of the rank. -/
theorem Scanned.stop (scanned : s.Scanned pct n mx cell cum) (recording : s.Recording)
    (reached : rankOf pct n ≤ cum + s.histogram.counts.getD cell 0) :
    ∃ earlier later, Ranks.smallest s.before (rankOf pct n) = some earlier ∧
      Ranks.smallest s.samples (rankOf pct n) = some later ∧
      valueAt (cellIndex later) ≤ valueAt cell ∧ valueAt cell ≤ valueAt (cellIndex earlier) := by
  have positive := HdrHistogram.rankOf_pos pct n
  have most := scanned.rankOf_le
  obtain ⟨earlier, found⟩ := Ranks.exists_smallest positive most
  obtain ⟨later, foundLater⟩ := Ranks.exists_smallest positive
    (le_trans most (List.IsPrefix.length_le scanned.earlier))
  have bounded := recording.bounded later (Ranks.mem_of_smallest foundLater)
  have boundedEarlier := scanned.bounded recording earlier (Ranks.mem_of_smallest found)
  refine ⟨earlier, later, found, foundLater, ?_⟩
  have low : cellIndex later ≤ cell :=
    (le_upTo_iff recording.bounded foundLater positive cell).mp
      (le_trans reached (scanned.add recording).2)
  have high : cell ≤ cellIndex earlier := by
    by_contra beyond
    have before : upTo s.before (cellIndex earlier) ≤
        s.before.countP fun sample => cellIndex sample < cell :=
      List.countP_mono_left fun sample _ inside => decide_eq_true
        (lt_of_le_of_lt (of_decide_eq_true inside) (not_le.mp beyond))
    have covered := (le_upTo_iff (scanned.bounded recording) found positive _).mpr le_rfl
    have short := scanned.short
    have passed := scanned.low
    omega
  -- the cell adds to the count, so it is the cell of a sample
  have counted : 0 < s.samples.countP fun sample => cellIndex sample = cell := by
    rw [← recording.cells cell scanned.inside]
    have short := scanned.short
    omega
  obtain ⟨sample, member, same⟩ := List.countP_pos_iff.mp counted
  obtain rfl := of_decide_eq_true same
  have boundedSample := recording.bounded sample member
  exact ⟨valueAt_le bounded boundedSample low, valueAt_le boundedSample boundedEarlier high⟩

/-- The scan does not run past the last cell. -/
theorem Scanned.inside_succ (scanned : s.Scanned pct n mx cell cum) (recording : s.Recording)
    (more : ¬rankOf pct n ≤ cum + s.histogram.counts.getD cell 0) : cell + 1 < numCells := by
  have positive := HdrHistogram.rankOf_pos pct n
  obtain ⟨earlier, found⟩ := Ranks.exists_smallest positive scanned.rankOf_le
  have bounded := scanned.bounded recording
  have inside := HdrHistogram.cellIndex_lt (bounded earlier (Ranks.mem_of_smallest found))
  by_contra last
  have covered := (le_upTo_iff bounded found positive cell).mpr (by omega)
  exact more (le_trans covered (scanned.add recording).1)

theorem Scanned.readCell (scanned : s.Scanned pct n mx cell cum) (recording : s.Recording) :
    (s.readCell pct n mx cell cum).Reading := by
  obtain ⟨low, high⟩ := scanned.add recording
  unfold SharedHistogram.readCell
  dsimp only
  rw [target_eq]
  split
  · rename_i reached
    obtain ⟨earlier, later, found, foundLater, below, above⟩ := scanned.stop recording reached
    have cut : (if valueAt cell < mx then valueAt cell else mx) = min (valueAt cell) mx :=
      (min_def_lt _ _).symm
    intro _
    refine ⟨earlier, later, found, foundLater, ?_, fun sample member => ?_, ?_⟩
    · rw [cut]
      exact le_trans (min_le_left _ _) above
    · rw [cut]
      exact min_le_min below (scanned.settled sample member)
    · rw [cut]
      refine scanned.known.imp (le_trans (min_le_right _ _)) ?_
      rintro ⟨sample, member, known⟩
      exact ⟨sample, member, le_trans (min_le_right _ _) known⟩
  · rename_i more
    rw [if_pos (scanned.inside_succ recording more)]
    refine ⟨⟨scanned.percentage, scanned.positive, scanned.enough, scanned.earlier⟩,
      scanned.inside_succ recording more, ?_, ?_, not_le.mp more, scanned.settled, scanned.known⟩
    · simp only [Nat.lt_succ_iff]
      exact low
    · simp only [Nat.lt_succ_iff]
      exact high

theorem Recording.loadCount (recording : s.Recording) (percentage : pct ∈ Set.Icc 0 100) :
    (s.loadCount pct).Reading := by
  unfold SharedHistogram.loadCount
  dsimp only
  unfold Reading
  split
  · trivial
  · rename_i begun
    split at begun
    · cases begun
    · rename_i some
      cases begun
      exact ⟨⟨percentage, Nat.pos_of_ne_zero some, recording.count, List.prefix_refl _⟩,
        recording.largest⟩
  · rename_i begun
    split at begun <;> cases begun
  · rename_i begun
    split at begun
    · rename_i none
      cases begun
      exact fun positive => absurd none (Nat.ne_of_gt positive)
    · cases begun

theorem Recording.toInt_max (recording : s.Recording) :
    s.histogram.max.toInt = s.histogram.max.toNat := by
  refine BitVec.toInt_eq_toNat_of_lt ?_
  rcases recording.attained with zero | member
  · rw [zero]
    decide
  · have bound := recording.bounded _ member
    omega

theorem Begun.readMax (begun : s.Begun pct n) (recording : s.Recording)
    (settled : ∀ sample ∈ s.returnedBefore, sample ≤ s.histogram.max.toNat) :
    { s with reader := .scanning pct n s.histogram.max.toInt 0 0 }.Reading := by
  refine ⟨⟨begun.percentage, begun.positive, begun.enough, begun.earlier⟩, by decide, ?_,
    Nat.zero_le _, HdrHistogram.rankOf_pos pct n, fun sample member => ?_, ?_⟩
  · exact le_of_eq (List.countP_eq_zero.mpr (by simp))
  · rw [recording.toInt_max]
    exact_mod_cast settled sample member
  · rw [recording.toInt_max]
    rcases recording.attained with zero | member
    · exact Or.inl (by rw [zero]; rfl)
    · exact Or.inr ⟨_, member, le_rfl⟩

theorem Reading.step {after : SharedHistogram} {action : HistogramAction} (reading : s.Reading)
    (recording : s.Recording) (range : s.InRange action) (stepped : s.step action = some after) :
    after.Reading := by
  cases moves_of_step stepped with
  | recordNs ns ready => exact reading.grow rfl rfl rfl rfl (List.prefix_append _ _) le_rfl
  | addCount | addSum => exact reading.grow rfl rfl rfl rfl (List.prefix_refl _) le_rfl
  | loadMax v comparing =>
    unfold SharedHistogram.loadMax
    split <;> exact reading.grow rfl rfl rfl rfl (List.prefix_refl _) le_rfl
  | storeMax v storing =>
    exact reading.grow rfl rfl rfl rfl (List.prefix_refl _) (le_of_lt (recording.storing v storing))
  | percentileNs pct => exact recording.loadCount range
  | readMax pct n loading =>
    unfold Reading at reading
    rw [loading] at reading
    exact reading.1.readMax recording reading.2
  | readCell pct n mx cell cum scanning =>
    unfold Reading at reading
    rw [scanning] at reading
    exact reading.readCell recording

end Scan

/-- In every interleaving of the recording thread and the reading one, a percentile is answered
from a cell between two others: that of the value of its rank when it was begun, and that of the
value of the same rank when it is answered, or from a largest value that none exceeds whose
`recordNs` had returned when the percentile was begun. -/
theorem percentile_between (s : SharedHistogram) (reached : Reaches step InRange initial s)
    (pct : ℚ) (n : Nat) (answer : Int) (answered : s.reader = .answered pct n answer)
    (counted : 0 < n) :
    ∃ earlier later, Ranks.smallest s.before (rankOf pct n) = some earlier ∧
      Ranks.smallest s.after (rankOf pct n) = some later ∧
      answer ≤ valueAt (cellIndex earlier) ∧
      (∀ sample ∈ s.returnedBefore, min (valueAt (cellIndex later)) sample ≤ answer) ∧
      (answer ≤ 0 ∨ ∃ sample ∈ s.after, answer ≤ sample) := by
  have both : s.Recording ∧ s.Reading := by
    refine @Reaches.invariant _ _ step InRange initial (fun s => s.Recording ∧ s.Reading)
      ⟨recording_initial, trivial⟩ (fun before action after holds range stepped => ?_) s reached
    exact ⟨holds.1.step range stepped, holds.2.step holds.1 range stepped⟩
  have reading := both.2
  unfold Reading at reading
  rw [answered] at reading
  exact reading counted

/-- Two values are recorded, and while the median of them is looked for a third, smaller one. -/
def recordDuring : List HistogramAction :=
  [.recordNs 5, .addCount, .addSum, .loadMax, .storeMax, .recordNs 7, .addCount,
    .percentileNs 50, .addSum, .loadMax, .storeMax, .recordNs 2, .readMax, .readCell, .readCell,
    .readCell]

theorem percentile_between_recordDuring :
    ∃ s : SharedHistogram, s.reader = .answered 50 2 2 ∧ s.returnedBefore = [5] ∧
      ∃ earlier, Ranks.smallest s.before (rankOf 50 2) = some earlier ∧
        2 ≤ valueAt (cellIndex earlier) := by
  have executed : (execute step InRange initial recordDuring).map
      (fun s => (s.reader, s.returnedBefore)) = some (.answered 50 2 2, [5]) := by
    decide +kernel
  obtain ⟨s, executed, read⟩ := Option.map_eq_some_iff.mp executed
  obtain ⟨answered, settled⟩ := Prod.mk.inj read
  obtain ⟨earlier, later, found, -, above, -⟩ :=
    percentile_between s (Reaches.start.execute executed) 50 2 2 answered (by decide)
  exact ⟨s, answered, settled, earlier, found, above⟩

end SharedHistogram

end Trading

/-
This file is about moments that keep a distance: each of them at least a gap after some
earlier ones. Moments that all keep it from one another are few in a short interval,
because the gaps between them add up to no more than the interval is long.

The moments are numbers in the order in which they come; that the order is kept is an
assumption on the clock they are read from.
-/

import Mathlib.Algebra.Order.Group.Defs
import Mathlib.Algebra.Order.Monoid.Defs
import Mathlib.Data.List.Basic
import Mathlib.Tactic.Abel

namespace Spacing

variable {Moment : Type*} [AddCommGroup Moment] [PartialOrder Moment] [IsOrderedAddMonoid Moment]
  {gap low high : Moment} {moments : List Moment}

/-- Moments that are a gap apart, in an interval: the gaps between them fit into it. -/
theorem gaps_le (spaced : moments.Pairwise fun earlier later => gap ≤ later - earlier)
    (inside : ∀ moment ∈ moments, low ≤ moment ∧ moment ≤ high) (ordered : low ≤ high) :
    (moments.length - 1) • gap ≤ high - low := by
  induction moments generalizing low with
  | nil =>
    rw [List.length_nil, Nat.zero_sub, zero_nsmul]
    exact sub_nonneg.mpr ordered
  | cons first rest inductionHypothesis =>
    have bounds := inside first List.mem_cons_self
    obtain ⟨fromFirst, spacedRest⟩ := List.pairwise_cons.mp spaced
    cases rest with
    | nil =>
      rw [List.length_singleton, Nat.sub_self, zero_nsmul]
      exact sub_nonneg.mpr ordered
    | cons second others =>
      have later : ∀ moment ∈ second :: others, first + gap ≤ moment ∧ moment ≤ high := by
        intro moment mem
        refine ⟨?_, (inside moment (List.mem_cons_of_mem _ mem)).2⟩
        rw [add_comm]
        exact le_sub_iff_add_le.mp (fromFirst moment mem)
      have second := later second List.mem_cons_self
      have fits := inductionHypothesis spacedRest later (second.1.trans second.2)
      rw [List.length_cons, Nat.add_sub_cancel, List.length_cons, succ_nsmul]
      rw [List.length_cons, Nat.add_sub_cancel] at fits
      calc others.length • gap + gap
          ≤ high - (first + gap) + gap := add_le_add_left fits gap
        _ = high - first := by abel
        _ ≤ high - low := sub_le_sub_left bounds.1 high

end Spacing

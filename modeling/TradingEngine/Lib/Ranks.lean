/-
This file is about the ranks of a list: its smallest value, the second smallest and so on.
The value of a rank is the one that stands there in the sorted list, and counting the
values that meet a condition which is passed on to smaller values finds it: the condition
holds of the value of a rank exactly when that many values meet it.

This is what a histogram rests on, which knows its samples only by how many of them lie at
or below each of its cells.
-/

import Mathlib.Data.List.Sort
import Mathlib.Order.Basic

namespace Ranks

variable {Value : Type} [LinearOrder Value] {values : List Value} {rank : Nat} {value : Value}

/-- The value of a rank, counted from one. -/
def smallest (values : List Value) (rank : Nat) : Option Value :=
  (values.mergeSort (· ≤ ·))[rank - 1]?

/-- On a sorted list a condition that is passed on to smaller values holds of the first ones. -/
theorem lt_countP_iff {sorted : List Value} (ordered : sorted.Pairwise (· ≤ ·))
    {condition : Value → Bool}
    (closed : ∀ small ∈ sorted, ∀ large ∈ sorted, small ≤ large → condition large = true →
      condition small = true)
    {index : Nat} (found : sorted[index]? = some value) :
    index < sorted.countP condition ↔ condition value = true := by
  induction sorted generalizing index with
  | nil => cases found
  | cons first rest inductionHypothesis =>
    obtain ⟨least, behind⟩ := List.pairwise_cons.mp ordered
    cases meets : condition first with
    | true =>
      rw [List.countP_cons_of_pos meets]
      cases index with
      | zero =>
        obtain rfl := Option.some.inj found
        exact iff_of_true (Nat.succ_pos _) meets
      | succ index =>
        rw [Nat.add_lt_add_iff_right]
        exact inductionHypothesis behind (fun small smaller large larger =>
          closed small (List.mem_cons_of_mem _ smaller) large (List.mem_cons_of_mem _ larger)) found
    | false =>
      have none : ∀ other ∈ first :: rest, ¬condition other = true := by
        intro other member holds
        rcases List.mem_cons.mp member with same | later
        · rw [same, meets] at holds
          cases holds
        · rw [closed first List.mem_cons_self other member (least other later) holds] at meets
          cases meets
      rw [List.countP_eq_zero.mpr none]
      exact iff_of_false (Nat.not_lt_zero _) (none value (List.mem_of_getElem? found))

theorem mem_of_smallest (found : smallest values rank = some value) : value ∈ values :=
  List.mem_mergeSort.mp (List.mem_of_getElem? found)

/-- As many values meet a condition that is passed on to smaller values as the highest rank of
which it holds. -/
theorem le_countP_iff (found : smallest values rank = some value) (positive : 0 < rank)
    {condition : Value → Bool}
    (closed : ∀ small ∈ values, ∀ large ∈ values, small ≤ large → condition large = true →
      condition small = true) :
    rank ≤ values.countP condition ↔ condition value = true := by
  have ordered := List.pairwise_mergeSort' (r := (· ≤ ·)) values
  rw [← lt_countP_iff ordered _ found, (List.mergeSort_perm values _).countP_eq]
  · omega
  · intro small smaller large larger
    exact closed small (List.mem_mergeSort.mp smaller) large (List.mem_mergeSort.mp larger)

theorem exists_smallest (positive : 0 < rank) (bound : rank ≤ values.length) :
    ∃ value, smallest values rank = some value := by
  have inside : rank - 1 < (values.mergeSort (· ≤ ·)).length := by
    rw [List.length_mergeSort]
    omega
  exact ⟨_, List.getElem?_eq_getElem inside⟩

/-- The values of ranks are in the order of the ranks. -/
theorem smallest_mono {later : Nat} {larger : Value} (found : smallest values rank = some value)
    (foundLater : smallest values later = some larger) (positive : 0 < rank)
    (ordered : rank ≤ later) : value ≤ larger := by
  have closed : ∀ small ∈ values, ∀ large ∈ values, small ≤ large →
      decide (large ≤ larger) = true → decide (small ≤ larger) = true :=
    fun _ _ _ _ below holds => decide_eq_true (le_trans below (of_decide_eq_true holds))
  have count := (le_countP_iff foundLater (lt_of_lt_of_le positive ordered) closed).mpr
    (decide_eq_true (le_refl larger))
  exact of_decide_eq_true ((le_countP_iff found positive closed).mp (le_trans ordered count))

end Ranks

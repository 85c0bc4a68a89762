/-
This file is about what is bound to happen in a labelled transition system whose steps are
shared by several parties. A run makes steps for ever or until no step is possible. A
party is treated fairly if it makes a step whenever it could make one at every moment from
some moment on. The variant rule says when a fair party gets somewhere: it can always make
a step before that, each of its steps lowers a variant, and no step of the others raises
it.

A stage that ends is the start of the next one, so a result about a program with several
parties is a chain of such stages, each with the party it waits for and a variant of its
own.
-/

import Mathlib.Order.WellFounded
import TradingEngine.Lib.Transition

namespace Transition

variable {State Label : Type} {step : State → Label → Option State}

/-- A run that is not cut short: its states, and the labels of the steps between them. A state
without a label is one in which no step is possible, and there the run stays. -/
structure Run (step : State → Label → Option State) where
  state : Nat → State
  label : Nat → Option Label
  moved : ∀ n taken, label n = some taken → step (state n) taken = some (state (n + 1))
  halted : ∀ n, label n = none → state (n + 1) = state n ∧ ∀ other, step (state n) other = none

namespace Run

variable {run : Run step} {party : Label → Prop} {Invariant : State → Prop} {n : Nat}

/-- Weak fairness: a party that could make a step at every moment from some moment on makes one. -/
def Fair (run : Run step) (party : Label → Prop) : Prop :=
  ∀ n, (∀ m ≥ n, ∃ label, party label ∧ (step (run.state m) label).isSome = true) →
    ∃ m ≥ n, ∃ label, run.label m = some label ∧ party label

/-- One moment of a run: a step, or the same state once more. -/
theorem next (run : Run step) (m : Nat) :
    run.state (m + 1) = run.state m ∨
      ∃ label, run.label m = some label ∧ step (run.state m) label = some (run.state (m + 1)) := by
  cases taken : run.label m with
  | none => exact Or.inl (run.halted m taken).1
  | some label => exact Or.inr ⟨label, rfl, run.moved m label taken⟩

theorem reaches {start : State} (reached : Reaches step Free start (run.state n)) {m : Nat}
    (later : n ≤ m) : Reaches step Free start (run.state m) := by
  induction m, later using Nat.le_induction with
  | base => exact reached
  | succ m _ inductionHypothesis =>
    rcases run.next m with same | ⟨label, _, stepped⟩
    · rw [same]
      exact inductionHypothesis
    · exact inductionHypothesis.next label trivial stepped

/-- What every step preserves holds at every later moment of a run. -/
theorem invariant
    (preserved : ∀ state label after, Invariant state → step state label = some after →
      Invariant after)
    (holds : Invariant (run.state n)) {m : Nat} (later : n ≤ m) : Invariant (run.state m) := by
  induction m, later using Nat.le_induction with
  | base => exact holds
  | succ m _ inductionHypothesis =>
    rcases run.next m with same | ⟨label, _, stepped⟩
    · rw [same]
      exact inductionHypothesis
    · exact preserved _ _ _ inductionHypothesis stepped

/-- The variant rule. -/
theorem eventually {Rank : Type} [Preorder Rank] [WellFoundedLT Rank] (Goal : State → Prop)
    (rank : State → Rank) (fair : run.Fair party)
    (preserved : ∀ state label after, Invariant state → step state label = some after →
      Invariant after)
    (can : ∀ state, Invariant state → ¬Goal state →
      ∃ label, party label ∧ (step state label).isSome = true)
    (lowers : ∀ state label after, Invariant state → party label →
      step state label = some after → ¬Goal after → rank after < rank state)
    (keeps : ∀ state label after, Invariant state → ¬party label →
      step state label = some after → ¬Goal after → rank after ≤ rank state)
    (holds : Invariant (run.state n)) : ∃ m ≥ n, Goal (run.state m) := by
  by_contra never
  have missed : ∀ m ≥ n, ¬Goal (run.state m) := fun m later reached => never ⟨m, later, reached⟩
  have held : ∀ m ≥ n, Invariant (run.state m) := fun m later => invariant preserved holds later
  have falling : ∀ first ≥ n, ∀ last ≥ first, rank (run.state last) ≤ rank (run.state first) := by
    intro first after last later
    induction last, later using Nat.le_induction with
    | base => exact le_refl _
    | succ m later inductionHypothesis =>
      have before := le_trans after later
      have unreached := missed (m + 1) (Nat.le_succ_of_le before)
      refine le_trans ?_ inductionHypothesis
      rcases run.next m with same | ⟨label, _, stepped⟩
      · rw [same]
      · by_cases own : party label
        · exact le_of_lt (lowers _ _ _ (held m before) own stepped unreached)
        · exact keeps _ _ _ (held m before) own stepped unreached
  have endless : ∀ value, ∀ m ≥ n, rank (run.state m) = value → False := by
    intro value
    induction value using WellFoundedLT.induction with
    | ind value inductionHypothesis =>
      intro m later same
      obtain ⟨k, after, label, taken, own⟩ := fair m fun k after =>
        can _ (held k (le_trans later after)) (missed k (le_trans later after))
      have before := le_trans later after
      have lower := lowers _ _ _ (held k before) own (run.moved k label taken)
        (missed (k + 1) (Nat.le_succ_of_le before))
      refine inductionHypothesis _ ?_ (k + 1) (Nat.le_succ_of_le before) rfl
      rw [← same]
      exact lt_of_lt_of_le lower (falling m later k after)
  exact endless _ n le_rfl rfl

/-! ### Runs that end -/

/-- A list of steps after which no step is possible is a run. -/
def ofLabels {start final : State} {labels : List Label}
    (executed : execute step Free start labels = some final)
    (halted : ∀ label, step final label = none) : Run step where
  state n := (execute step Free start (labels.take n)).getD final
  label n := labels[n]?
  moved n taken there := by
    obtain ⟨bound, here⟩ := List.getElem?_eq_some_iff.mp there
    have whole := executed
    rw [← List.take_append_drop n labels, execute_append] at whole
    obtain ⟨middle, before, after⟩ := Option.bind_eq_some_iff.mp whole
    rw [List.drop_eq_getElem_cons bound, here, execute,
      if_pos (show Free middle taken from trivial)] at after
    obtain ⟨next, stepped, _⟩ := Option.bind_eq_some_iff.mp after
    rw [List.take_add_one, there, execute_append, before]
    simp [execute, stepped, Free]
  halted n absent := by
    have short := List.getElem?_eq_none_iff.mp absent
    rw [List.take_of_length_le short, List.take_of_length_le (Nat.le_succ_of_le short), executed]
    exact ⟨rfl, halted⟩

/-- A run that ends is fair to everybody. -/
theorem fair_ofLabels {start final : State} {labels : List Label}
    (executed : execute step Free start labels = some final)
    (halted : ∀ label, step final label = none) (party : Label → Prop) :
    (ofLabels executed halted).Fair party := by
  intro n always
  obtain ⟨label, _, possible⟩ := always (max n labels.length) (le_max_left _ _)
  have ended : (ofLabels executed halted).state (max n labels.length) = final := by
    show (execute step Free start (labels.take _)).getD final = final
    rw [List.take_of_length_le (le_max_right _ _), executed, Option.getD_some]
  rw [ended, halted label] at possible
  cases possible

end Run

end Transition

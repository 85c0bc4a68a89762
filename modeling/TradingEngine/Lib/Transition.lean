/-
This file is a small theory of labelled transition systems given by a partial step
function: the states a start reaches when every step meets a side condition, and the
invariant rule for them. A run without side condition is a run under `Free`.

An assumption about a run, such as one about the feed or about the order of two steps, is
such a side condition: a predicate on the state before a step and the step. `execute` runs
a list of steps, which is how concrete runs are given, and a simulation rule carries
reachability from one system to another one.
-/

import Mathlib.Tactic.Common

namespace Transition

variable {State Label : Type} {step : State → Label → Option State}
  {allowed : State → Label → Prop} {start : State}

/-- The side condition every step meets. -/
def Free (_ : State) (_ : Label) : Prop := True

instance (state : State) (label : Label) : Decidable (Free state label) :=
  inferInstanceAs (Decidable True)

/-- The states reached from `start` by steps that all meet `allowed`. -/
inductive Reaches (step : State → Label → Option State) (allowed : State → Label → Prop)
    (start : State) : State → Prop where
  | start : Reaches step allowed start start
  | next {state after : State} (label : Label) (reached : Reaches step allowed start state)
      (permitted : allowed state label) (stepped : step state label = some after) :
      Reaches step allowed start after

/-- What holds at the start and survives every allowed step holds in every reached state. -/
theorem Reaches.invariant {Invariant : State → Prop} (initial : Invariant start)
    (preserved : ∀ state label after, Invariant state → allowed state label →
      step state label = some after → Invariant after)
    {state : State} (reached : Reaches step allowed start state) : Invariant state := by
  induction reached with
  | start => exact initial
  | next label reached permitted stepped inductionHypothesis =>
    exact preserved _ label _ inductionHypothesis permitted stepped

theorem Reaches.mono {looser : State → Label → Prop}
    (implied : ∀ state label, allowed state label → looser state label) {state : State}
    (reached : Reaches step allowed start state) : Reaches step looser start state := by
  induction reached with
  | start => exact .start
  | next label reached permitted stepped inductionHypothesis =>
    exact .next label inductionHypothesis (implied _ label permitted) stepped

theorem Reaches.trans {middle final : State} (earlier : Reaches step allowed start middle)
    (later : Reaches step allowed middle final) : Reaches step allowed start final := by
  induction later with
  | start => exact earlier
  | next label reached permitted stepped inductionHypothesis =>
    exact .next label inductionHypothesis permitted stepped

/-- Forward simulation: where every step of a system leaves the view of it alone or is a step of
another system on that view, the views of the states reached are reached there. -/
theorem Reaches.simulate {Abstract Move : Type} {move : Abstract → Move → Option Abstract}
    {view : State → Abstract} (Invariant : State → Prop) (initial : Invariant start)
    (preserved : ∀ state label after, Invariant state → step state label = some after →
      Invariant after)
    (simulated : ∀ state label after, Invariant state → step state label = some after →
      view after = view state ∨ ∃ taken, move (view state) taken = some (view after))
    {state : State} (reached : Reaches step allowed start state) :
    Reaches move Free (view start) (view state) := by
  have both : Invariant state ∧ Reaches move Free (view start) (view state) := by
    induction reached with
    | start => exact ⟨initial, .start⟩
    | next label reached permitted stepped inductionHypothesis =>
      obtain ⟨holds, seen⟩ := inductionHypothesis
      refine ⟨preserved _ label _ holds stepped, ?_⟩
      rcases simulated _ label _ holds stepped with same | ⟨taken, moved⟩
      · rw [same]
        exact seen
      · exact seen.next taken trivial moved
  exact both.2

/-- Make a list of steps, as long as each meets `allowed` and is possible. -/
def execute (step : State → Label → Option State) (allowed : State → Label → Prop)
    [∀ state label, Decidable (allowed state label)] : State → List Label → Option State
  | state, [] => some state
  | state, label :: rest =>
    if allowed state label then (step state label).bind fun after => execute step allowed after rest
    else none

/-- Two lists of steps run one after the other. -/
theorem execute_append [∀ state label, Decidable (allowed state label)] (state : State)
    (earlier later : List Label) :
    execute step allowed state (earlier ++ later) =
      (execute step allowed state earlier).bind fun after => execute step allowed after later := by
  induction earlier generalizing state with
  | nil => rfl
  | cons label rest inductionHypothesis =>
    rw [List.cons_append, execute, execute]
    split
    · simp only [inductionHypothesis, Option.bind_assoc]
    · rfl

/-- A list of allowed steps that runs leads to a state that is reached. -/
theorem Reaches.execute [∀ state label, Decidable (allowed state label)] {labels : List Label}
    {state after : State} (reached : Reaches step allowed start state)
    (executed : execute step allowed state labels = some after) :
    Reaches step allowed start after := by
  induction labels generalizing state with
  | nil =>
    obtain rfl := Option.some.inj executed
    exact reached
  | cons label rest inductionHypothesis =>
    rw [Transition.execute] at executed
    split at executed
    · rename_i permitted
      obtain ⟨next, stepped, later⟩ := Option.bind_eq_some_iff.mp executed
      exact inductionHypothesis (.next label reached permitted stepped) later
    · cases executed

/-- A list of steps that meet `allowed` wherever they are made is a run under it. -/
theorem Reaches.execute_free {labels : List Label} {state after : State}
    (reached : Reaches step allowed start state)
    (permitted : ∀ label ∈ labels, ∀ state, allowed state label)
    (executed : Transition.execute step Free state labels = some after) :
    Reaches step allowed start after := by
  induction labels generalizing state with
  | nil =>
    obtain rfl := Option.some.inj executed
    exact reached
  | cons label rest inductionHypothesis =>
    rw [Transition.execute, if_pos (show Free state label from trivial)] at executed
    obtain ⟨next, stepped, later⟩ := Option.bind_eq_some_iff.mp executed
    refine inductionHypothesis (.next label reached ?_ stepped) ?_ later
    · exact permitted label List.mem_cons_self state
    · exact fun other mem => permitted other (List.mem_cons_of_mem _ mem)

end Transition

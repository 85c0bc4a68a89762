/-
This file says what the breaker's flag means in terms of the calls that were made on it:
it is set exactly if some error since the last reset was at least the threshold-th of its
window, and every window that ended since then had an error in it.

The calls are cut at the window boundaries and at the resets. The error counter is the
number of errors since the last cut, so both conditions can be read off the calls. A reset
that comes in the middle of a window cuts the errors and not the window, which is why the
two kinds of cuts are kept apart.
-/

import Mathlib.Data.List.Induction
import Mathlib.Data.Nat.Find
import TradingEngine.CircuitBreaker

namespace Trading

namespace CircuitBreaker

/-! ### Calls and their windows -/

/-- One call on the breaker. -/
inductive Call where
  | recordMessage
  | recordError
  | reset
deriving DecidableEq, Repr

/-- Make one call on the breaker. -/
def call (breaker : CircuitBreaker) : Call → CircuitBreaker
  | .recordMessage => breaker.recordMessage
  | .recordError => breaker.recordError
  | .reset => breaker.reset

/-- The breaker after a sequence of calls. -/
def run (threshold window : Nat) (calls : List Call) : CircuitBreaker :=
  calls.foldl call { threshold, windowMessages := window }

/-- The last of the calls is a message that ends a window. -/
def IsBoundary (window : Nat) (calls : List Call) : Prop :=
  calls.getLast? = some .recordMessage ∧ window ∣ calls.count .recordMessage

instance (window : Nat) (calls : List Call) : Decidable (IsBoundary window calls) :=
  inferInstanceAs (Decidable (_ ∧ _))

/-- The last of the calls is a boundary or a reset. -/
def IsCut (window : Nat) (calls : List Call) : Prop :=
  calls.getLast? = some .reset ∨ IsBoundary window calls

instance (window : Nat) (calls : List Call) : Decidable (IsCut window calls) :=
  inferInstanceAs (Decidable (_ ∨ _))

/-- How many calls there are up to the last boundary or reset. -/
def lastCut (window : Nat) (calls : List Call) : Nat :=
  Nat.findGreatest (fun n => IsCut window (calls.take n)) calls.length

/-- The number of errors since the last boundary or reset. -/
def windowErrors (window : Nat) (calls : List Call) : Nat :=
  (calls.drop (lastCut window calls)).count .recordError

section Windows

variable {window : Nat} {calls : List Call} {next : Call}

theorem windowErrors_of_isCut (cut : IsCut window (calls ++ [next])) :
    windowErrors window (calls ++ [next]) = 0 := by
  have last : lastCut window (calls ++ [next]) = (calls ++ [next]).length :=
    Nat.findGreatest_eq (by rwa [List.take_length])
  rw [windowErrors, last, List.drop_length]
  rfl

theorem lastCut_concat (uncut : ¬IsCut window (calls ++ [next])) :
    lastCut window (calls ++ [next]) = lastCut window calls := by
  obtain ⟨bound, cut, later⟩ :=
    Nat.findGreatest_eq_iff.mp (rfl : lastCut window calls = lastCut window calls)
  refine Nat.findGreatest_eq_iff.mpr ⟨?_, fun some => ?_, fun n after inside cut' => ?_⟩
  · rw [List.length_append]
    exact Nat.le_add_right_of_le bound
  · rw [List.take_append_of_le_length bound]
    exact cut some
  · rcases Nat.lt_or_ge calls.length n with whole | part
    · rw [List.take_of_length_le (by simpa using Nat.succ_le_of_lt whole)] at cut'
      exact uncut cut'
    · rw [List.take_append_of_le_length part] at cut'
      exact later after part cut'

theorem windowErrors_concat (uncut : ¬IsCut window (calls ++ [next])) :
    windowErrors window (calls ++ [next]) =
      windowErrors window calls + if next = .recordError then 1 else 0 := by
  have bound : lastCut window calls ≤ calls.length := Nat.findGreatest_le _
  rw [windowErrors, lastCut_concat uncut, List.drop_append_of_le_length bound, List.count_append,
    windowErrors, List.count_singleton]
  simp

theorem isCut_concat (window : Nat) (calls : List Call) (next : Call) :
    IsCut window (calls ++ [next]) ↔ next = .reset ∨
      next = .recordMessage ∧ window ∣ calls.count .recordMessage + 1 := by
  unfold IsCut IsBoundary
  rw [List.getLast?_concat, Option.some.injEq, Option.some.injEq, List.count_append]
  refine or_congr_right (and_congr_right fun same => ?_)
  rw [same, List.count_singleton_self]

end Windows

/-! ### What the flag remembers -/

/-- The error between `before` and `after` has left the breaker tripped: it was not reset since,
the error was at least the threshold-th of its window, and every window that ended since had an
error. -/
structure TrippedBy (threshold window : Nat) (before after : List Call) : Prop where
  unreset : .reset ∉ after
  reached : threshold ≤ windowErrors window (before ++ [.recordError])
  dirty : ∀ closed rest, after = closed ++ .recordMessage :: rest →
    IsBoundary window (before ++ .recordError :: closed ++ [.recordMessage]) →
      0 < windowErrors window (before ++ .recordError :: closed)

section Flag

variable {threshold window : Nat}

/-- Some error has left the breaker tripped. -/
def Tripped (threshold window : Nat) (calls : List Call) : Prop :=
  ∃ before after, calls = before ++ .recordError :: after ∧
    TrippedBy threshold window before after

theorem not_tripped_nil : ¬Tripped threshold window [] := by
  rintro ⟨before, after, split, -⟩
  cases before <;> cases split

/-- One more call trips the breaker itself, or leaves it tripped: it must then not reset it and
not end a window without errors. -/
theorem tripped_concat (calls : List Call) (next : Call) :
    Tripped threshold window (calls ++ [next]) ↔
      (next = .recordError ∧ threshold ≤ windowErrors window (calls ++ [.recordError])) ∨
        (Tripped threshold window calls ∧ next ≠ .reset ∧
          (IsBoundary window (calls ++ [next]) → 0 < windowErrors window calls)) := by
  constructor
  · rintro ⟨before, after, split, unreset, reached, dirty⟩
    rcases List.eq_nil_or_concat after with rfl | ⟨front, last, rfl⟩
    · obtain ⟨rfl, same⟩ := List.append_inj' split rfl
      obtain rfl := List.head_eq_of_cons_eq same
      exact Or.inl ⟨rfl, reached⟩
    · rw [List.concat_eq_append] at *
      rw [← List.cons_append, ← List.append_assoc] at split
      obtain ⟨rfl, same⟩ := List.append_inj' split rfl
      obtain rfl := List.head_eq_of_cons_eq same
      rw [List.mem_append, not_or] at unreset
      refine Or.inr ⟨⟨before, front, rfl, unreset.1, reached, ?_⟩, ?_, fun boundary => ?_⟩
      · intro closed rest split'
        exact dirty closed (rest ++ [next]) (by rw [split', List.append_assoc]; rfl)
      · rintro rfl
        exact unreset.2 (List.mem_singleton_self _)
      · have message := boundary.1
        rw [List.getLast?_concat, Option.some.injEq] at message
        subst message
        exact dirty front [] rfl boundary
  · rintro (⟨rfl, reached⟩ | ⟨⟨before, after, rfl, unreset, reached, dirty⟩, kept, clean⟩)
    · exact ⟨calls, [], rfl, List.not_mem_nil, reached, fun closed _ split => by
        cases closed <;> cases split⟩
    · refine ⟨before, after ++ [next], by rw [List.append_assoc]; rfl, ?_, reached, ?_⟩
      · rw [List.mem_append, not_or, List.mem_singleton]
        exact ⟨unreset, kept.symm⟩
      · intro closed rest split boundary
        rcases List.eq_nil_or_concat rest with rfl | ⟨front, last, rfl⟩
        · obtain ⟨rfl, same⟩ := List.append_inj' split rfl
          obtain rfl := List.head_eq_of_cons_eq same
          exact clean boundary
        · rw [List.concat_eq_append, ← List.cons_append, ← List.append_assoc] at split
          obtain ⟨rfl, -⟩ := List.append_inj' split rfl
          exact dirty closed front rfl boundary

end Flag

/-! ### Every sequence of calls -/

/-- The counters and the flag of a breaker after some calls. -/
structure Follows (threshold window : Nat) (calls : List Call) (breaker : CircuitBreaker) :
    Prop where
  threshold_eq : breaker.threshold = threshold
  windows : breaker.windowMessages = window
  msgs : breaker.msgs = calls.count .recordMessage
  errors : breaker.errors = windowErrors window calls
  tripped : breaker.tripped = true ↔ Tripped threshold window calls

section Steps

variable {threshold window : Nat} {calls : List Call} {breaker : CircuitBreaker}

theorem Follows.recordError (follows : Follows threshold window calls breaker) :
    Follows threshold window (calls ++ [.recordError]) breaker.recordError := by
  have uncut : ¬IsCut window (calls ++ [.recordError]) := by
    rw [isCut_concat]
    simp
  have inside : ¬IsBoundary window (calls ++ [.recordError]) := fun ends => uncut (Or.inr ends)
  have errors : breaker.errors + 1 = windowErrors window (calls ++ [.recordError]) := by
    rw [windowErrors_concat uncut, if_pos rfl, follows.errors]
  refine ⟨follows.threshold_eq, follows.windows, ?_, errors, ?_⟩
  · rw [List.count_append]
    exact follows.msgs
  · rw [tripped_concat, ← follows.tripped, ← errors]
    unfold CircuitBreaker.recordError
    dsimp only
    rw [follows.threshold_eq]
    split
    · rename_i reached
      exact iff_of_true rfl (Or.inl ⟨rfl, reached⟩)
    · rename_i short
      simp [short, inside]

theorem Follows.reset (follows : Follows threshold window calls breaker) :
    Follows threshold window (calls ++ [.reset]) breaker.reset := by
  have cut : IsCut window (calls ++ [.reset]) := (isCut_concat _ _ _).mpr (Or.inl rfl)
  refine ⟨follows.threshold_eq, follows.windows, ?_, (windowErrors_of_isCut cut).symm, ?_⟩
  · rw [List.count_append]
    exact follows.msgs
  · rw [tripped_concat]
    simp [CircuitBreaker.reset]

/-- A message ends a window and looks at its errors, or changes nothing but the count. -/
theorem Follows.recordMessage (positive : 0 < window)
    (follows : Follows threshold window calls breaker) :
    Follows threshold window (calls ++ [.recordMessage]) breaker.recordMessage := by
  have count : (calls ++ [Call.recordMessage]).count Call.recordMessage = breaker.msgs + 1 := by
    rw [List.count_append, List.count_singleton_self, follows.msgs]
  rw [recordMessage_eq positive follows.windows]
  split
  · rename_i ends
    have boundary : IsBoundary window (calls ++ [.recordMessage]) :=
      ⟨List.getLast?_concat, count ▸ Nat.dvd_of_mod_eq_zero ends⟩
    refine ⟨follows.threshold_eq, follows.windows, count.symm,
      (windowErrors_of_isCut (Or.inr boundary)).symm, ?_⟩
    rw [tripped_concat, ← follows.tripped, ← follows.errors]
    rcases Nat.eq_zero_or_pos breaker.errors with clean | dirty
    · simp [clean, boundary]
    · simp [Nat.pos_iff_ne_zero.mp dirty, dirty]
  · rename_i inside
    have uncut : ¬IsCut window (calls ++ [.recordMessage]) := by
      rw [isCut_concat, ← follows.msgs]
      rintro (reset | ⟨-, ends⟩)
      · cases reset
      · exact inside (Nat.mod_eq_zero_of_dvd ends)
    have within : ¬IsBoundary window (calls ++ [.recordMessage]) := fun ends => uncut (Or.inr ends)
    refine ⟨follows.threshold_eq, follows.windows, count.symm, ?_, ?_⟩
    · rw [windowErrors_concat uncut]
      exact follows.errors
    · rw [tripped_concat, ← follows.tripped]
      simp [within]

end Steps

theorem follows_run (threshold : Nat) {window : Nat} (positive : 0 < window) (calls : List Call) :
    Follows threshold window calls (run threshold window calls) := by
  induction calls using List.reverseRecOn with
  | nil => exact ⟨rfl, rfl, rfl, rfl, iff_of_false Bool.false_ne_true not_tripped_nil⟩
  | append_singleton calls next inductionHypothesis =>
    rw [run, List.foldl_append]
    cases next with
    | recordMessage => exact inductionHypothesis.recordMessage positive
    | recordError => exact inductionHypothesis.recordError
    | reset => exact inductionHypothesis.reset

/-- After any calls the breaker is tripped exactly if there is an error after the last reset that
was at least the threshold-th since the boundary or reset before it, and no boundary after it
ended a window without an error. -/
theorem isTripped_iff (threshold window : Nat) (positive : 1 ≤ window) (calls : List Call) :
    (run threshold window calls).isTripped = true ↔
      ∃ before after, calls = before ++ .recordError :: after ∧ .reset ∉ after ∧
        threshold ≤ windowErrors window (before ++ [.recordError]) ∧
        ∀ closed rest, after = closed ++ .recordMessage :: rest →
          IsBoundary window (before ++ .recordError :: closed ++ [.recordMessage]) →
            0 < windowErrors window (before ++ .recordError :: closed) := by
  refine (follows_run threshold positive calls).tripped.trans ?_
  constructor
  · rintro ⟨before, after, split, unreset, reached, dirty⟩
    exact ⟨before, after, split, unreset, reached, dirty⟩
  · rintro ⟨before, after, split, unreset, reached, dirty⟩
    exact ⟨before, after, split, unreset, reached, dirty⟩

/-- Two errors trip the breaker, and the end of their window does not untrip it. -/
theorem isTripped_iff_dirty :
    (run 2 2 [.recordMessage, .recordError, .recordError, .recordMessage]).isTripped = true := by
  refine (isTripped_iff 2 2 (by decide) _).mpr
    ⟨[.recordMessage, .recordError], [.recordMessage], rfl, by decide, by decide, ?_⟩
  intro closed rest split _
  cases closed with
  | nil => decide
  | cons first later => cases later <;> cases split

end CircuitBreaker

end Trading

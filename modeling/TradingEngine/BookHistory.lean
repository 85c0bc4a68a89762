/-
This file says which levels a book holds in terms of the calls that were made on
it, with no assumption on the ticks.

A level is held exactly when the last update of its side and tick since the last
clear was positive, fell inside the window when it was made, and its tick has
stayed inside the window through every recentering since. So a tick the window
has drifted away from does not come back with its old quantity, and the book
never reports a level that a plain map fed with the same updates does not hold.
-/

import Mathlib.Data.List.Induction
import TradingEngine.ReferenceBook

namespace Trading

namespace BoundedBook

variable {capacity : Nat}

/-- The calls split at the update that set a level: it is the last one for its side and tick
since the last clear, it was positive and inside the window when it was made, and the window
has covered its tick after it and after every call since. -/
structure HeldSince (capacity : Nat) (side : Side) (tick : Int) (quantity : ℚ)
    (calls before after : List Call) : Prop where
  split : calls = before ++ .update side ⟨tick⟩ ⟨quantity⟩ :: after
  last : ∀ call ∈ after, call ≠ .clear ∧ ∀ qty, call ≠ .update side ⟨tick⟩ qty
  positive : 0 < quantity
  inside : Covers capacity ((run capacity before).anchor ⟨tick⟩).refTick tick
  kept : ∀ done, done <+: after →
    Covers capacity (run capacity (before ++ .update side ⟨tick⟩ ⟨quantity⟩ :: done)).refTick tick

theorem run_append_singleton (calls : List Call) (call : Call) :
    run capacity (calls ++ [call]) = (run capacity calls).call call := by
  rw [run, List.foldl_append]
  rfl

theorem not_heldSince_nil {side : Side} {tick : Int} {quantity : ℚ} {before after : List Call} :
    ¬HeldSince capacity side tick quantity [] before after := by
  intro held
  have split := held.split
  cases before <;> cases split

/-- One more call either sets the level itself, or leaves a held level held: it must then
not clear the book, not name the level and not move the window off its tick. -/
theorem heldSince_append_singleton (side : Side) (tick : Int) (quantity : ℚ) (calls : List Call)
    (call : Call) :
    (∃ before after, HeldSince capacity side tick quantity (calls ++ [call]) before after) ↔
      (call = .update side ⟨tick⟩ ⟨quantity⟩ ∧ 0 < quantity ∧
          Covers capacity ((run capacity calls).anchor ⟨tick⟩).refTick tick ∧
          Covers capacity (run capacity (calls ++ [call])).refTick tick) ∨
        ((∃ before after, HeldSince capacity side tick quantity calls before after) ∧
          (call ≠ .clear ∧ ∀ qty, call ≠ .update side ⟨tick⟩ qty) ∧
          Covers capacity (run capacity (calls ++ [call])).refTick tick) := by
  constructor
  · rintro ⟨before, after, held⟩
    rcases List.eq_nil_or_concat after with rfl | ⟨front, last, rfl⟩
    · obtain ⟨rfl, same⟩ := List.append_inj' held.split rfl
      obtain rfl := List.head_eq_of_cons_eq same
      exact Or.inl ⟨rfl, held.positive, held.inside, held.kept [] (List.nil_prefix)⟩
    · have split := held.split
      rw [List.concat_eq_append, ← List.cons_append, ← List.append_assoc] at split
      obtain ⟨rfl, same⟩ := List.append_inj' split rfl
      obtain rfl := List.head_eq_of_cons_eq same
      refine Or.inr ⟨⟨before, front, rfl, ?_, held.positive, held.inside, ?_⟩, ?_, ?_⟩
      · exact fun other member => held.last other (by simp [member])
      · exact fun done isPrefix => held.kept done (isPrefix.trans (by simp))
      · exact held.last call (by simp)
      · have covered := held.kept _ List.prefix_rfl
        rw [← held.split] at covered
        exact covered
  · rintro (⟨rfl, positive, inside, covered⟩ | ⟨⟨before, after, held⟩, other, covered⟩)
    · refine ⟨calls, [], rfl, by simp, positive, inside, fun done isPrefix => ?_⟩
      rw [List.prefix_nil.mp isPrefix]
      exact covered
    · refine ⟨before, after ++ [call], ?_, ?_, held.positive, held.inside, ?_⟩
      · rw [held.split, List.append_assoc]
        rfl
      · intro later member
        rcases List.mem_append.mp member with early | final
        · exact held.last later early
        · rw [List.mem_singleton.mp final]
          exact other
      · intro done isPrefix
        rcases List.prefix_concat_iff.mp isPrefix with rfl | early
        · rw [← List.cons_append, ← List.append_assoc, ← held.split]
          exact covered
        · exact held.kept done early

/-- One update, read as in the history: it sets the level, or keeps a level it does not
name. -/
theorem levelAt_update_iff [ValidCapacity capacity] {book : BoundedBook capacity}
    (wellFormed : WellFormed book) (side other : Side) (price : Price) (qty : Qty) (tick : Int)
    (quantity : ℚ) :
    (book.update other price qty).levelAt side tick = some quantity ↔
      (Call.update other price qty = .update side ⟨tick⟩ ⟨quantity⟩ ∧ 0 < quantity ∧
          Covers capacity (book.anchor ⟨tick⟩).refTick tick ∧
          Covers capacity (book.update other price qty).refTick tick) ∨
        (book.levelAt side tick = some quantity ∧
          (Call.update other price qty ≠ .clear ∧
            ∀ later, Call.update other price qty ≠ .update side ⟨tick⟩ later) ∧
          Covers capacity (book.update other price qty).refTick tick) := by
  obtain ⟨ticks⟩ := price
  obtain ⟨value⟩ := qty
  rw [levelAt_update wellFormed.anchored]
  by_cases covered : Covers capacity (book.update other ⟨ticks⟩ ⟨value⟩).refTick tick
  · rw [if_pos covered]
    by_cases own : side = other ∧ tick = ticks
    · obtain ⟨rfl, rfl⟩ := own
      by_cases inside : Covers capacity (book.anchor ⟨tick⟩).refTick tick
      · rw [if_pos ⟨rfl, rfl, inside⟩]
        constructor
        · intro found
          split at found
          · rename_i positive
            obtain rfl := Option.some.inj found
            exact Or.inl ⟨rfl, positive, inside, covered⟩
          · cases found
        · rintro (⟨same, positive, -, -⟩ | ⟨-, ⟨-, different⟩, -⟩)
          · have equal : value = quantity := congrArg Qty.value (Call.update.inj same).2.2
            rw [equal, if_pos positive]
          · exact absurd rfl (different ⟨value⟩)
      · rw [if_neg fun all => inside all.2.2]
        have absent : book.levelAt side tick = none := by
          rw [← levelAt_anchor wellFormed.anchored ⟨tick⟩]
          exact levelAt_eq_none_of_not_covers inside side
        rw [absent]
        constructor
        · intro found
          cases found
        · rintro (⟨-, -, covers, -⟩ | ⟨found, -, -⟩)
          · exact absurd covers inside
          · cases found
    · rw [if_neg fun all => own ⟨all.1, all.2.1⟩]
      have different (later : Qty) :
          Call.update other ⟨ticks⟩ ⟨value⟩ ≠ .update side ⟨tick⟩ later := by
        intro same
        obtain ⟨sides, prices, -⟩ := Call.update.inj same
        exact own ⟨sides.symm, (congrArg Price.ticks prices).symm⟩
      constructor
      · intro found
        exact Or.inr ⟨found, ⟨by simp, different⟩, covered⟩
      · rintro (⟨same, -⟩ | ⟨found, -, -⟩)
        · exact absurd same (different _)
        · exact found
  · rw [if_neg covered]
    constructor
    · intro found
      cases found
    · rintro (⟨-, -, -, covers⟩ | ⟨-, -, covers⟩)
      · exact absurd covers covered
      · exact absurd covers covered

/-- A reachable book holds a level exactly when its history does. -/
theorem levelAt_run [ValidCapacity capacity] (calls : List Call) (side : Side) (tick : Int)
    (quantity : ℚ) :
    (run capacity calls).levelAt side tick = some quantity ↔
      ∃ before after, HeldSince capacity side tick quantity calls before after := by
  induction calls using List.reverseRecOn with
  | nil =>
    constructor
    · intro found
      rw [run, List.foldl_nil, levelAt_fresh] at found
      cases found
    · rintro ⟨before, after, held⟩
      exact absurd held not_heldSince_nil
  | append_singleton calls call inductionHypothesis =>
    have wellFormed : WellFormed (run capacity calls) := run_wellFormed calls
    have anchored := wellFormed.anchored
    rw [heldSince_append_singleton, ← inductionHypothesis]
    cases call with
    | clear =>
      rw [run_append_singleton]
      simp only [BoundedBook.call, levelAt_clear, reduceCtorEq, false_and, ne_eq, not_true_eq_false,
        and_false, or_self]
    | seedReference price =>
      have same : (run capacity (calls ++ [.seedReference price])).levelAt side tick =
          (run capacity calls).levelAt side tick := by
        rw [run_append_singleton]
        exact levelAt_seedReference anchored price side tick
      constructor
      · intro found
        exact Or.inr ⟨same ▸ found, ⟨by simp, by simp⟩, covers_of_levelAt found⟩
      · rintro (⟨impossible, -⟩ | ⟨found, -, -⟩)
        · cases impossible
        · exact same ▸ found
    | update other price qty =>
      rw [run_append_singleton]
      exact levelAt_update_iff wellFormed side other price qty tick quantity

/-- The book never reports a level or a quantity that the plain map does not hold. -/
theorem levelAt_run_subset [ValidCapacity capacity] (calls : List Call) (side : Side) (tick : Int)
    (quantity : ℚ) (found : (run capacity calls).levelAt side tick = some quantity) :
    (ReferenceBook.run calls).levelAt side tick = some quantity := by
  induction calls using List.reverseRecOn generalizing quantity with
  | nil =>
    rw [run, List.foldl_nil, levelAt_fresh] at found
    cases found
  | append_singleton calls call inductionHypothesis =>
    have wellFormed : WellFormed (run capacity calls) := run_wellFormed calls
    rw [run_append_singleton] at found
    rw [ReferenceBook.run, List.foldl_append]
    show ((ReferenceBook.run calls).call call).levelAt side tick = some quantity
    cases call with
    | clear =>
      simp only [BoundedBook.call, levelAt_clear, reduceCtorEq] at found
    | seedReference price =>
      rw [BoundedBook.call, levelAt_seedReference wellFormed.anchored] at found
      exact inductionHypothesis quantity found
    | update other price qty =>
      rw [ReferenceBook.call, ReferenceBook.levelAt_update]
      rcases (levelAt_update_iff wellFormed side other price qty tick quantity).mp found with
        ⟨same, positive, -, -⟩ | ⟨kept, ⟨-, different⟩, -⟩
      · obtain ⟨rfl, rfl, rfl⟩ := Call.update.inj same
        rw [if_pos ⟨rfl, rfl⟩, if_pos positive]
      · rw [if_neg, inductionHypothesis quantity kept]
        rintro ⟨rfl, rfl⟩
        exact different qty rfl

/-- The levels a reachable book reports are exactly characterised by its history, and the
plain map fed with the same calls holds each of them. -/
theorem depth_reports_iff [ValidCapacity capacity] (calls : List Call) (side : Side) (tick : Int)
    (quantity : ℚ) :
    ((∃ n, ⟨⟨tick⟩, ⟨quantity⟩⟩ ∈ (run capacity calls).depth side n) ↔
        ∃ before after, HeldSince capacity side tick quantity calls before after) ∧
      ((∃ n, ⟨⟨tick⟩, ⟨quantity⟩⟩ ∈ (run capacity calls).depth side n) →
        (ReferenceBook.run calls).levelAt side tick = some quantity) := by
  have indexed : Indexed (run capacity calls) := run_indexed calls
  have reported : (∃ n, ⟨⟨tick⟩, ⟨quantity⟩⟩ ∈ (run capacity calls).depth side n) ↔
      (run capacity calls).levelAt side tick = some quantity := by
    constructor
    · rintro ⟨n, member⟩
      rw [depth_eq indexed] at member
      exact mem_levels.mp (List.mem_of_mem_take member)
    · intro found
      refine ⟨((run capacity calls).levels side).length, ?_⟩
      rw [depth_eq indexed, List.take_length]
      exact mem_levels.mpr found
  rw [reported]
  exact ⟨levelAt_run calls side tick quantity, levelAt_run_subset calls side tick quantity⟩

/-- A bid that drifts up and back: the window leaves tick 100 and returns to it. -/
def drifting : List Call :=
  [.update .bid ⟨100⟩ ⟨1⟩, .update .bid ⟨131⟩ ⟨1⟩, .update .bid ⟨162⟩ ⟨1⟩, .update .bid ⟨162⟩ ⟨0⟩]

/-- After the drift the window covers tick 100 again, but the history no longer holds it. -/
theorem depth_reports_drifting :
    Covers 64 (run 64 drifting).refTick 100 ∧
      ¬∃ before after, HeldSince 64 .bid 100 1 drifting before after := by
  refine ⟨by decide +kernel, fun held => ?_⟩
  obtain ⟨n, member⟩ := (depth_reports_iff drifting .bid 100 1).1.mpr held
  rw [depth_eq (run_indexed drifting)] at member
  have listed := List.mem_of_mem_take member
  revert listed
  decide +kernel

end BoundedBook

end Trading

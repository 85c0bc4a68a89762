/-
This file says how far the risk manager keeps symbols apart. Positions, limits and cash
are per symbol, but the tick size and the switch of the cash check belong to the whole
manager: configuring any symbol with cash sets both. What one symbol shows is therefore
determined by its own calls together with the setting each of its fills, and the last
question, finds; calls for another symbol reach it through that setting only.

Two sequences of calls are compared as wholes, the one with the calls for other symbols
and the one without them, and the condition under which they show the same is read off the
calls.
-/

import TradingEngine.RiskManager

namespace Trading

namespace RiskManager

/-! ### Sequences of calls -/

/-- One call that changes the manager. -/
inductive Call where
  | configure (id : SymbolId) (maxPosition initialCash tickSize : ℚ)
  | onFill (report : ExecutionReport)
deriving DecidableEq, Repr

/-- The symbol a call is for. -/
def Call.symbolId : Call → SymbolId
  | .configure id _ _ _ => id
  | .onFill report => report.symbolId

/-- Make one call on the risk manager. -/
def call (risk : RiskManager) : Call → RiskManager
  | .configure id maxPosition initialCash tickSize =>
    risk.configure id maxPosition initialCash tickSize
  | .onFill report => risk.onFill report

/-- The manager after a sequence of calls. -/
def run (calls : List Call) : RiskManager := calls.foldl call fresh

/-! ### The manager-wide setting -/

/-- The setting of the cash check: off, or on with a tick size. -/
abbrev Setting := Option ℚ

/-- A configuration with cash turns the check on, at its tick size. -/
def Call.setting (before : Setting) : Call → Setting
  | .configure id _ initialCash tickSize =>
    if id < maxSymbols ∧ 0 ≤ initialCash then some tickSize else before
  | .onFill _ => before

/-- Whether a call books a fill of the symbol. -/
def Call.fills (id : SymbolId) : Call → Bool
  | .configure _ _ _ _ => false
  | .onFill report => report.isFill ∧ report.symbolId = id

/-- The settings that the fills of a symbol find, and the one found at the end. -/
def found (id : SymbolId) : List Call → Setting → List Setting
  | [], setting => [setting]
  | call :: rest, setting =>
    if call.fills id then setting :: found id rest (call.setting setting)
    else found id rest (call.setting setting)

/-- The manager holds a setting. -/
structure Holds (risk : RiskManager) (setting : Setting) : Prop where
  enabled : risk.cashEnabled = setting.isSome
  tick : risk.cashEnabled = true → setting = some risk.tick

theorem Holds.eq_none {risk : RiskManager} {setting : Setting} (holds : Holds risk setting)
    (disabled : risk.cashEnabled = false) : setting = none := by
  rw [← Option.not_isSome_iff_eq_none, ← holds.enabled, disabled]
  exact Bool.false_ne_true

theorem fresh_holds : Holds fresh none := ⟨rfl, nofun⟩

/-- What configuring a symbol does, with cash and without. -/
theorem configure_eq (risk : RiskManager) {id : SymbolId} (inside : id < maxSymbols)
    (maxPosition initialCash tickSize : ℚ) :
    risk.configure id maxPosition initialCash tickSize =
      if 0 ≤ initialCash then
        { risk with
          maxPositions := risk.maxPositions.setIfInBounds id maxPosition
          cashes := risk.cashes.setIfInBounds id initialCash
          cashEnabled := true
          tick := tickSize }
      else { risk with maxPositions := risk.maxPositions.setIfInBounds id maxPosition } := by
  unfold configure
  rw [if_neg (Nat.not_le.mpr inside)]

theorem Holds.call {risk : RiskManager} {setting : Setting} (holds : Holds risk setting)
    (call : Call) : Holds (risk.call call) (call.setting setting) := by
  cases call with
  | configure id maxPosition initialCash tickSize =>
    unfold RiskManager.call Call.setting
    dsimp only
    by_cases inside : id < maxSymbols
    · rw [configure_eq risk inside]
      by_cases funded : 0 ≤ initialCash
      · rw [if_pos funded, if_pos (And.intro inside funded)]
        exact ⟨rfl, fun _ => rfl⟩
      · rw [if_neg funded, if_neg (fun both : id < maxSymbols ∧ 0 ≤ initialCash => funded both.2)]
        exact ⟨holds.enabled, holds.tick⟩
    · rw [if_neg (fun both : id < maxSymbols ∧ 0 ≤ initialCash => inside both.1)]
      unfold configure
      rw [if_pos (Nat.not_lt.mp inside)]
      exact holds
  | onFill report =>
    show Holds (risk.onFill report) setting
    unfold onFill
    split
    · exact holds
    · dsimp only
      split <;> exact ⟨holds.enabled, holds.tick⟩

/-! ### What one symbol shows -/

/-- The per-symbol part of the manager. -/
structure View where
  position : ℚ
  maxPosition : ℚ
  cash : ℚ

/-- What a risk manager holds for one symbol. -/
def view (risk : RiskManager) (id : SymbolId) : View where
  position := risk.positions.getD id 0
  maxPosition := risk.maxPositions.getD id 0
  cash := risk.cashes.getD id 0

/-- A fill, under a setting. -/
def View.fill (view : View) (setting : Setting) (report : ExecutionReport) : View where
  position := view.position + signedQty report.side report.execQty.value
  maxPosition := view.maxPosition
  cash := match setting with
    | none => view.cash
    | some tick => view.cash -
        signedQty report.side report.execQty.value * report.execPrice.toDouble tick

/-- Replay the calls of one symbol, each fill under the next of the settings found. -/
def View.replay : List Call → List Setting → View → View
  | [], _, view => view
  | .configure _ maxPosition initialCash _ :: rest, settings, view =>
    replay rest settings { view with
      maxPosition
      cash := if 0 ≤ initialCash then initialCash else view.cash }
  | .onFill report :: rest, settings, view =>
    if report.isFill then
      match settings with
      | [] => view
      | setting :: later => replay rest later (view.fill setting report)
    else replay rest settings view

theorem View.replay_fill {report : ExecutionReport} (fills : report.isFill = true)
    (rest : List Call) (setting : Setting) (later : List Setting) (view : View) :
    View.replay (.onFill report :: rest) (setting :: later) view =
      View.replay rest later (view.fill setting report) :=
  if_pos fills

theorem View.replay_skip {report : ExecutionReport} (empty : ¬report.isFill = true)
    (rest : List Call) (settings : List Setting) (view : View) :
    View.replay (.onFill report :: rest) settings view = View.replay rest settings view :=
  if_neg empty

theorem view_call_other {risk : RiskManager} {id : SymbolId} {call : Call}
    (other : call.symbolId ≠ id) : (risk.call call).view id = risk.view id := by
  have apart : ∀ count value (values : Vector ℚ count),
      (values.setIfInBounds call.symbolId value).getD id 0 = values.getD id 0 := by
    intro count value values
    rw [Slots.getD_setIfInBounds, if_neg fun same => other same.1.symm]
  cases call with
  | configure symbol maxPosition initialCash tickSize =>
    unfold RiskManager.call
    dsimp only
    by_cases inside : symbol < maxSymbols
    · rw [configure_eq risk inside]
      unfold view
      split
      · exact congrArg₂ (View.mk _) (apart _ _ _) (apart _ _ _)
      · exact congrArg₂ (View.mk _) (apart _ _ _) rfl
    · unfold configure
      rw [if_pos (Nat.not_lt.mp inside)]
  | onFill report =>
    unfold RiskManager.call onFill view
    dsimp only
    split
    · rfl
    · split
      · exact congrArg₂ (fun position cash => View.mk position _ cash) (apart _ _ _) (apart _ _ _)
      · exact congrArg₂ (fun position cash => View.mk position _ cash) (apart _ _ _) rfl

/-- Configuring a symbol sets what it shows. -/
theorem view_configure {risk : RiskManager} {id : SymbolId} (inside : id < maxSymbols)
    (maxPosition initialCash tickSize : ℚ) :
    (risk.configure id maxPosition initialCash tickSize).view id =
      { risk.view id with
        maxPosition
        cash := if 0 ≤ initialCash then initialCash else (risk.view id).cash } := by
  have own : ∀ value (values : Vector ℚ maxSymbols),
      (values.setIfInBounds id value).getD id 0 = value := by
    intro value values
    rw [Slots.getD_setIfInBounds, if_pos ⟨rfl, inside⟩]
  rw [configure_eq risk inside]
  unfold view
  split
  · exact congrArg₂ (View.mk _) (own _ _) (own _ _)
  · exact congrArg₂ (View.mk _) (own _ _) rfl

/-- A fill moves what its symbol shows, by the setting it finds. -/
theorem view_onFill {risk : RiskManager} {setting : Setting} (holds : Holds risk setting)
    {report : ExecutionReport} (fills : report.isFill = true)
    (inside : report.symbolId < maxSymbols) :
    (risk.onFill report).view report.symbolId =
      (risk.view report.symbolId).fill setting report := by
  have own : ∀ value (values : Vector ℚ maxSymbols),
      (values.setIfInBounds report.symbolId value).getD report.symbolId 0 = value := by
    intro value values
    rw [Slots.getD_setIfInBounds, if_pos ⟨rfl, inside⟩]
  unfold onFill view View.fill
  rw [if_neg (not_or.mpr ⟨not_not.mpr fills, Nat.not_le.mpr inside⟩)]
  dsimp only
  cases enabled : risk.cashEnabled with
  | false =>
    rw [holds.eq_none enabled]
    exact congrArg₂ (fun position cash => View.mk position _ cash) (own _ _) rfl
  | true =>
    rw [holds.tick enabled]
    exact congrArg₂ (fun position cash => View.mk position _ cash) (own _ _) (own _ _)

/-- The answer to an order, from what its symbol shows and the setting. -/
def View.approves (view : View) (setting : Setting) (order : NewOrder) : Bool :=
  let projected := view.position + signedQty order.side order.qty.value
  if view.maxPosition < projected ∨ projected < -view.maxPosition then false
  else match setting with
    | none => true
    | some tick =>
      if order.side = .bid ∧ view.cash < order.qty.value * order.price.toDouble tick then false
      else true

theorem approve_eq_approves {risk : RiskManager} {setting : Setting} (holds : Holds risk setting)
    {order : NewOrder} (inside : order.symbolId < maxSymbols) :
    risk.approve order = (risk.view order.symbolId).approves setting order := by
  unfold approve View.approves view
  rw [if_neg (Nat.not_le.mpr inside)]
  dsimp only
  split
  · rfl
  · cases enabled : risk.cashEnabled with
    | false =>
      rw [holds.eq_none enabled]
      exact if_neg fun both => Bool.false_ne_true both.1
    | true =>
      rw [holds.tick enabled]
      by_cases buy : order.side = .bid
      · rw [if_pos ⟨rfl, buy⟩]
        split
        · rename_i short
          exact (if_pos ⟨buy, short⟩).symm
        · rename_i affordable
          exact (if_neg fun both => affordable both.2).symm
      · rw [if_neg fun both => buy both.2]
        exact (if_neg fun both => buy both.1).symm

/-! ### Runs -/

theorem Holds.foldl {risk : RiskManager} {setting : Setting} (holds : Holds risk setting)
    (calls : List Call) :
    Holds (calls.foldl RiskManager.call risk) (calls.foldl Call.setting setting) := by
  induction calls generalizing risk setting with
  | nil => exact holds
  | cons call rest inductionHypothesis => exact inductionHypothesis (holds.call call)

/-- The last of the settings found is the one at the end. -/
theorem found_getLast (id : SymbolId) (calls : List Call) (setting : Setting) :
    (found id calls setting).getLast? = some (calls.foldl Call.setting setting) := by
  induction calls generalizing setting with
  | nil => rfl
  | cons call rest inductionHypothesis =>
    unfold found
    split
    · rw [List.getLast?_cons, inductionHypothesis]
      rfl
    · exact inductionHypothesis _

/-- What a symbol shows after a sequence of calls is its own calls replayed under the settings
its fills find. -/
theorem view_foldl {risk : RiskManager} {setting : Setting} (holds : Holds risk setting)
    {id : SymbolId} (inside : id < maxSymbols) (calls : List Call) :
    (calls.foldl call risk).view id =
      View.replay (calls.filter fun call => call.symbolId = id) (found id calls setting)
        (risk.view id) := by
  induction calls generalizing risk setting with
  | nil => rfl
  | cons call rest inductionHypothesis =>
    have later := inductionHypothesis (holds.call call)
    rw [List.foldl_cons, later]
    by_cases own : call.symbolId = id
    · rw [List.filter_cons_of_pos (by simpa using own)]
      cases call with
      | configure symbol maxPosition initialCash tickSize =>
        obtain rfl : symbol = id := own
        show _ = View.replay _ (found symbol rest _) _
        rw [RiskManager.call, view_configure inside]
        rfl
      | onFill report =>
        obtain rfl : report.symbolId = id := own
        by_cases fills : report.isFill = true
        · have booked : (Call.onFill report).fills report.symbolId = true :=
            decide_eq_true ⟨fills, rfl⟩
          rw [found, booked, if_pos rfl, View.replay_fill fills, RiskManager.call,
            view_onFill holds fills inside]
        · have skipped : (Call.onFill report).fills report.symbolId = false :=
            decide_eq_false fun both => fills both.1
          have same : risk.call (.onFill report) = risk := if_pos (Or.inl fills)
          rw [found, skipped, if_neg Bool.false_ne_true, View.replay_skip fills, same]
    · have quiet : call.fills id = false := by
        cases call with
        | configure => rfl
        | onFill report => exact decide_eq_false fun both => own both.2
      rw [List.filter_cons_of_neg (by simpa using own), view_call_other own, found, quiet]
      rfl

/-- Two sequences of calls that differ only by calls for `other` leave `id` with the same
position, the same cash and the same answer to every order, if its fills and the end find the
same settings in both. -/
theorem calls_isolated (id other : SymbolId) (inside : id < maxSymbols) (distinct : id ≠ other)
    (first second : List Call)
    (same : (first.filter fun call => call.symbolId ≠ other) =
      second.filter fun call => call.symbolId ≠ other)
    (settings : found id first none = found id second none) :
    (run first).position id = (run second).position id ∧
      (run first).cash id = (run second).cash id ∧
      ∀ order : NewOrder, order.symbolId = id →
        (run first).approve order = (run second).approve order := by
  have own : ∀ calls : List Call, (calls.filter fun call => call.symbolId = id) =
      (calls.filter fun call => call.symbolId ≠ other).filter fun call => call.symbolId = id := by
    intro calls
    rw [List.filter_filter]
    refine List.filter_congr fun call _ => ?_
    by_cases mine : call.symbolId = id
    · rw [decide_eq_true mine, Bool.true_and, decide_eq_true (mine ▸ distinct)]
    · rw [decide_eq_false mine, Bool.false_and]
  have views : (run first).view id = (run second).view id := by
    unfold run
    rw [view_foldl fresh_holds inside first, view_foldl fresh_holds inside second, own first,
      own second, same, settings]
  have ends : first.foldl Call.setting none = second.foldl Call.setting none := by
    have last := found_getLast id first none
    rw [settings, found_getLast id second none] at last
    exact (Option.some.inj last).symm
  refine ⟨?_, ?_, ?_⟩
  · unfold position
    rw [if_pos inside, if_pos inside]
    exact congrArg View.position views
  · unfold cash
    rw [if_pos inside, if_pos inside]
    exact congrArg View.cash views
  · rintro order rfl
    have firstHolds : Holds (run first) _ := fresh_holds.foldl first
    have secondHolds : Holds (run second) _ := fresh_holds.foldl second
    rw [approve_eq_approves firstHolds inside, approve_eq_approves secondHolds inside, ends,
      views]

/-- Configuring and filling symbol 1 with the tick size of symbol 0 does not reach symbol 0. -/
theorem calls_isolated_same_tick :
    (run [.configure 0 10 500 (1 / 100), .configure 1 10 900 (1 / 100),
        .onFill ⟨1, 1, .bid, true, ⟨200⟩, ⟨3⟩, 0⟩,
        .onFill ⟨2, 0, .bid, true, ⟨100⟩, ⟨2⟩, 0⟩]).cash 0 =
      (run [.configure 0 10 500 (1 / 100), .onFill ⟨2, 0, .bid, true, ⟨100⟩, ⟨2⟩, 0⟩]).cash 0 :=
  (calls_isolated 0 1 (by decide) (by decide) _ _ rfl (by decide +kernel)).2.1

/-- Configuring symbol 1 with cash turns the cash check on for symbol 0, which was configured
without it: a buy that was approved is not any more. -/
theorem calls_not_isolated :
    ([.configure 0 10 (-1) 0, .configure 1 10 0 (1 / 100)].filter
        fun call : Call => call.symbolId ≠ 1) =
      ([.configure 0 10 (-1) 0].filter fun call : Call => call.symbolId ≠ 1) ∧
    (run [.configure 0 10 (-1) 0]).approve ⟨1, 0, .bid, ⟨1⟩, ⟨1⟩, 0⟩ = true ∧
    (run [.configure 0 10 (-1) 0, .configure 1 10 0 (1 / 100)]).approve
      ⟨1, 0, .bid, ⟨1⟩, ⟨1⟩, 0⟩ = false := by
  decide +kernel

end RiskManager

end Trading

/-
This file is `loadConfig` of `main.cpp`: it reads a configuration out of a JSON document, key by
key with a default for each, and then checks it. The JSON library is a parameter. A lookup that
throws is no error code of `loadConfig`: nothing catches it.

What the lookups come to is a table: every key with its section, its type, its default and the
field it fills. Against the table, and what is documented of the library, the file says which
documents are accepted and as which configuration, which are turned down and which throw. The
other files assume a validated configuration. This one says that it is exactly what `loadConfig`
accepts, that the components take it over unchanged, and that each such configuration can be
written down so that it is read back.
-/

import TradingEngine.Ledgers
import TradingEngine.Lib.JsonTree

namespace Trading

/-- A configuration, with what the threads and the connection read of it. -/
structure EngineConfig extends RuntimeConfig where
  productId : String := "BTC-USD"
  networkCoreId : Int := -1
  strategyCoreId : Int := -1
  strategyBusySpin : Bool := false
  strategySleepUs : Int := 50
  host : String := "ws-feed.exchange.coinbase.com"
  port : String := "443"
  channel : String := "level2_batch"
deriving DecidableEq

/-- What `loadConfig` comes to without a configuration: its error codes, and an exception. -/
inductive LoadError where
  | configFileNotFound
  | parseMalformedJson
  | configInvalidValue
  /-- the exception of a lookup -/
  | typeError
deriving DecidableEq, Repr

/-! ### The keys -/

section Keys

variable (lib : JsonLibrary)

/-- The keys of the section for the threads. -/
def readThreading (t : lib.Value) (cfg : EngineConfig) : Option EngineConfig := do
  let networkCoreId ← lib.value .int32 t "network_core" (-1)
  let strategyCoreId ← lib.value .int32 t "strategy_core" (-1)
  let strategyBusySpin ← lib.value .boolean t "strategy_busy_spin" false
  let strategySleepUs ← lib.value .int32 t "strategy_sleep_us" 50
  return { cfg with networkCoreId, strategyCoreId, strategyBusySpin, strategySleepUs }

/-- The keys of the section for the strategy. -/
def readStrategy (s : lib.Value) (cfg : EngineConfig) : Option EngineConfig := do
  let depthLevels ← lib.value .size s "depth_levels" 5
  let smoothingWindow ← lib.value .size s "smoothing_window" 5
  let entryImbalance ← lib.value .double s "entry_imbalance" (3 / 10)
  let takeProfitBps ← lib.value .double s "take_profit_bps" 8
  let stopLossBps ← lib.value .double s "stop_loss_bps" 8
  let maxSpreadBps ← lib.value .double s "max_spread_bps" 5
  let tradeFraction ← lib.value .double s "trade_fraction" (1 / 10)
  let cooldownS ← lib.value .double s "cooldown_s" 2
  let allowShort ← lib.value .boolean s "allow_short" true
  return { cfg with
    strategy := { depthLevels, smoothingWindow, entryImbalance, takeProfitBps, stopLossBps,
                  maxSpreadBps, tradeFraction, cooldownS, allowShort } }

/-- The keys of the section for the breaker; the defaults are what the configuration holds. -/
def readRisk (r : lib.Value) (cfg : EngineConfig) : Option EngineConfig := do
  let circuitErrorThreshold ← lib.value .uint64 r "circuit_error_threshold"
    cfg.circuitErrorThreshold
  let circuitWindowMsgs ← lib.value .uint64 r "circuit_window_msgs" cfg.circuitWindowMsgs
  return { cfg with circuitErrorThreshold, circuitWindowMsgs }

/-- The keys of the section for the connection. -/
def readVenue (v : lib.Value) (cfg : EngineConfig) : Option EngineConfig := do
  let host ← lib.value .string v "host" cfg.host
  let port ← lib.value .string v "port" cfg.port
  let channel ← lib.value .string v "channel" cfg.channel
  return { cfg with host, port, channel }

/-- A section that is absent leaves the configuration as it is. -/
def readSection (j : lib.Value) (key : String)
    (read : lib.Value → EngineConfig → Option EngineConfig) (cfg : EngineConfig) :
    Option EngineConfig :=
  if lib.contains j key then read (lib.index j key) cfg else some cfg

/-- All keys, with the symbol's number as it was read, before it becomes a symbol's number of 16
bits. -/
def readConfig (j : lib.Value) : Option (Int × EngineConfig) := do
  let productId ← lib.value .string j "product_id" "BTC-USD"
  let symbolId ← lib.value .int32 j "symbol_id" 0
  let tickSize ← lib.value .double j "tick_size" (1 / 100)
  let maxPosition ← lib.value .double j "max_position" 5
  let initialCash ← lib.value .double j "initial_cash" 10000
  let cfg : EngineConfig :=
    { productId, symbolId := (symbolId % 2 ^ 16).toNat, tickSize, maxPosition, initialCash }
  let cfg ← readSection lib j "threading" (readThreading lib) cfg
  let cfg ← readSection lib j "strategy" (readStrategy lib) cfg
  let cfg ← readSection lib j "risk" (readRisk lib) cfg
  let cfg ← readSection lib j "venue" (readVenue lib) cfg
  return (symbolId, cfg)

/-- The checks, in order. -/
def checkConfig (symbolId : Int) (cfg : EngineConfig) : Except LoadError EngineConfig :=
  if cfg.tickSize ≤ 0 then .error .configInvalidValue
  else if cfg.maxPosition ≤ 0 then .error .configInvalidValue
  else if cfg.initialCash < 0 then .error .configInvalidValue
  else if symbolId < 0 ∨ maxSymbols ≤ symbolId then .error .configInvalidValue
  else if cfg.strategy.depthLevels = 0 ∨ cfg.strategy.smoothingWindow = 0 then
    .error .configInvalidValue
  else if maxDepth < cfg.strategy.depthLevels then .error .configInvalidValue
  else if maxRolling < cfg.strategy.smoothingWindow then .error .configInvalidValue
  else if cfg.circuitErrorThreshold = 0 ∨ cfg.circuitWindowMsgs = 0 then .error .configInvalidValue
  else if cfg.strategySleepUs ≤ 0 then .error .configInvalidValue
  else if cfg.strategy.tradeFraction ≤ 0 ∨ 1 < cfg.strategy.tradeFraction then
    .error .configInvalidValue
  else if cfg.strategy.entryImbalance < 0 ∨ 1 < cfg.strategy.entryImbalance then
    .error .configInvalidValue
  else if cfg.strategy.takeProfitBps ≤ 0 ∨ cfg.strategy.stopLossBps ≤ 0 then
    .error .configInvalidValue
  else if cfg.host = "" ∨ cfg.port = "" then .error .configInvalidValue
  else .ok cfg

/-- The configuration in a file: no file, a file that is no JSON, or a document. -/
def loadConfig (file : Option (Option lib.Value)) : Except LoadError EngineConfig :=
  match file with
  | none => .error .configFileNotFound
  | some none => .error .parseMalformedJson
  | some (some j) =>
    match readConfig lib j with
    | none => .error .typeError
    | some (symbolId, cfg) => checkConfig symbolId cfg

end Keys

/-! ### What is accepted -/

/-- What the checks of `loadConfig` ask for. -/
structure EngineConfig.Accepted (cfg : EngineConfig) : Prop where
  valid : cfg.toRuntimeConfig.Valid
  strategySleepUs : 0 < cfg.strategySleepUs
  host : cfg.host ≠ ""
  port : cfg.port ≠ ""

theorem guard_eq_ok {condition : Prop} [Decidable condition] {error : LoadError}
    {rest : Except LoadError EngineConfig} {cfg : EngineConfig} :
    (if condition then .error error else rest) = .ok cfg ↔ ¬condition ∧ rest = .ok cfg := by
  by_cases fails : condition <;> simp [fails]

/-- The checks pass exactly for a valid configuration with the number of a symbol. -/
theorem checkConfig_eq_ok_iff {symbolId : Int} {cfg checked : EngineConfig}
    (narrowed : cfg.symbolId = (symbolId % 2 ^ 16).toNat) :
    checkConfig symbolId cfg = .ok checked ↔
      symbolId = cfg.symbolId ∧ cfg.Accepted ∧ checked = cfg := by
  unfold checkConfig
  simp only [guard_eq_ok, not_le, not_lt, not_or, Except.ok.injEq]
  constructor
  · rintro ⟨tick, position, cash, ⟨lower, upper⟩, ⟨depth, window⟩, deep, long, ⟨errors, messages⟩,
      sleep, ⟨fraction, whole⟩, ⟨imbalance, one⟩, ⟨profit, loss⟩, ⟨host, port⟩, rfl⟩
    have same : symbolId = cfg.symbolId := by
      rw [narrowed]
      unfold maxSymbols at upper
      omega
    have inside : (cfg.symbolId : Int) < maxSymbols := same ▸ upper
    refine ⟨same, ⟨?_, sleep, host, port⟩, rfl⟩
    exact {
      tickSize := tick
      maxPosition := position
      initialCash := cash
      symbolId := by exact_mod_cast inside
      depthLevels := ⟨Nat.pos_of_ne_zero depth, deep⟩
      smoothingWindow := ⟨Nat.pos_of_ne_zero window, long⟩
      circuitErrorThreshold := Nat.pos_of_ne_zero errors
      circuitWindowMsgs := Nat.pos_of_ne_zero messages
      tradeFraction := ⟨fraction, whole⟩
      entryImbalance := ⟨imbalance, one⟩
      takeProfitBps := profit
      stopLossBps := loss }
  · rintro ⟨same, ⟨valid, sleep, host, port⟩, rfl⟩
    have inside : (checked.symbolId : Int) < maxSymbols := by exact_mod_cast valid.symbolId
    exact ⟨valid.tickSize, valid.maxPosition, valid.initialCash, ⟨by omega, by omega⟩,
      ⟨valid.depthLevels.1.ne', valid.smoothingWindow.1.ne'⟩, valid.depthLevels.2,
      valid.smoothingWindow.2,
      ⟨valid.circuitErrorThreshold.ne', valid.circuitWindowMsgs.ne'⟩, sleep,
      valid.tradeFraction, valid.entryImbalance, ⟨valid.takeProfitBps, valid.stopLossBps⟩,
      ⟨host, port⟩, rfl⟩

/-! ### The table of the keys -/

/-- The keys at the top; the symbol's number is taken as it was read. -/
def topSettings : List (JsonSetting (Int × EngineConfig)) :=
  [⟨none, "product_id", .string, "BTC-USD", fun read => read.2.productId⟩,
    ⟨none, "symbol_id", .int32, (0 : Int), fun read => read.1⟩,
    ⟨none, "tick_size", .double, (1 / 100 : ℚ), fun read => read.2.tickSize⟩,
    ⟨none, "max_position", .double, (5 : ℚ), fun read => read.2.maxPosition⟩,
    ⟨none, "initial_cash", .double, (10000 : ℚ), fun read => read.2.initialCash⟩]

/-- The keys of the section `threading`, each with its type, its default and the field it sets. -/
def threadingSettings : List (JsonSetting (Int × EngineConfig)) :=
  [⟨some "threading", "network_core", .int32, (-1 : Int), fun read => read.2.networkCoreId⟩,
    ⟨some "threading", "strategy_core", .int32, (-1 : Int), fun read => read.2.strategyCoreId⟩,
    ⟨some "threading", "strategy_busy_spin", .boolean, false,
      fun read => read.2.strategyBusySpin⟩,
    ⟨some "threading", "strategy_sleep_us", .int32, (50 : Int),
      fun read => read.2.strategySleepUs⟩]

/-- The keys of the section `strategy`. -/
def strategySettings : List (JsonSetting (Int × EngineConfig)) :=
  [⟨some "strategy", "depth_levels", .size, (5 : Nat), fun read => read.2.strategy.depthLevels⟩,
    ⟨some "strategy", "smoothing_window", .size, (5 : Nat),
      fun read => read.2.strategy.smoothingWindow⟩,
    ⟨some "strategy", "entry_imbalance", .double, (3 / 10 : ℚ),
      fun read => read.2.strategy.entryImbalance⟩,
    ⟨some "strategy", "take_profit_bps", .double, (8 : ℚ),
      fun read => read.2.strategy.takeProfitBps⟩,
    ⟨some "strategy", "stop_loss_bps", .double, (8 : ℚ),
      fun read => read.2.strategy.stopLossBps⟩,
    ⟨some "strategy", "max_spread_bps", .double, (5 : ℚ),
      fun read => read.2.strategy.maxSpreadBps⟩,
    ⟨some "strategy", "trade_fraction", .double, (1 / 10 : ℚ),
      fun read => read.2.strategy.tradeFraction⟩,
    ⟨some "strategy", "cooldown_s", .double, (2 : ℚ), fun read => read.2.strategy.cooldownS⟩,
    ⟨some "strategy", "allow_short", .boolean, true, fun read => read.2.strategy.allowShort⟩]

/-- The keys of the section `risk`. -/
def riskSettings : List (JsonSetting (Int × EngineConfig)) :=
  [⟨some "risk", "circuit_error_threshold", .uint64, (20 : Nat),
      fun read => read.2.circuitErrorThreshold⟩,
    ⟨some "risk", "circuit_window_msgs", .uint64, (500 : Nat),
      fun read => read.2.circuitWindowMsgs⟩]

/-- The keys of the section `venue`. -/
def venueSettings : List (JsonSetting (Int × EngineConfig)) :=
  [⟨some "venue", "host", .string, "ws-feed.exchange.coinbase.com", fun read => read.2.host⟩,
    ⟨some "venue", "port", .string, "443", fun read => read.2.port⟩,
    ⟨some "venue", "channel", .string, "level2_batch", fun read => read.2.channel⟩]

/-- All keys that `loadConfig` looks up. -/
def settings : List (JsonSetting (Int × EngineConfig)) :=
  topSettings ++ threadingSettings ++ strategySettings ++ riskSettings ++ venueSettings

/-- The lookups of some settings find the values of a configuration. -/
def Found (lib : JsonLibrary) (j : lib.Value) (settings : List (JsonSetting (Int × EngineConfig)))
    (read : Int × EngineConfig) : Prop :=
  ∀ setting ∈ settings, setting.lookup lib j = some (setting.field read)

section Read

variable {lib : JsonLibrary} {j : lib.Value} {cfg after : EngineConfig} {symbolId : Int}

/-- The lookups in a section: of the section where it is present, else the defaults. -/
theorem found_section (name : String) {settings : List (JsonSetting (Int × EngineConfig))}
    (inside : ∀ setting ∈ settings, setting.within = some name) {read : Int × EngineConfig} :
    Found lib j settings read ↔ ∀ setting ∈ settings,
      if lib.contains j name = true then
        lib.value setting.type (lib.index j name) setting.key setting.default =
          some (setting.field read)
      else setting.default = setting.field read := by
  refine forall₂_congr fun setting listed => ?_
  unfold JsonSetting.lookup JsonSetting.holder
  rw [inside setting listed]
  dsimp only
  by_cases present : lib.contains j name = true
  · rw [if_pos present, if_pos present]
  · rw [if_neg present, if_neg present]
    exact ⟨Option.some.inj, congrArg some⟩

/-- The section `threading` is read by the lookups of its keys, and sets no other field. -/
theorem readSection_threading (symbolId : Int)
    (fresh : cfg.networkCoreId = -1 ∧ cfg.strategyCoreId = -1 ∧ cfg.strategyBusySpin = false ∧
      cfg.strategySleepUs = 50) :
    readSection lib j "threading" (readThreading lib) cfg = some after ↔
      Found lib j threadingSettings (symbolId, after) ∧
        after = { cfg with
          networkCoreId := after.networkCoreId
          strategyCoreId := after.strategyCoreId
          strategyBusySpin := after.strategyBusySpin
          strategySleepUs := after.strategySleepUs } := by
  rw [found_section "threading" (by simp [threadingSettings])]
  unfold readSection readThreading threadingSettings
  simp only [List.forall_mem_cons]
  by_cases present : lib.contains j "threading" = true
  · simp only [if_pos present, Option.bind_eq_bind, Option.bind_eq_some_iff, Option.pure_def,
      Option.some.injEq]
    constructor
    · rintro ⟨_, network, _, strategy, _, spin, _, sleep, rfl⟩
      exact ⟨⟨network, strategy, spin, sleep, List.forall_mem_nil _⟩, rfl⟩
    · rintro ⟨⟨network, strategy, spin, sleep, -⟩, same⟩
      exact ⟨_, network, _, strategy, _, spin, _, sleep, same.symm⟩
  · simp only [if_neg present, Option.some.injEq]
    obtain ⟨network, strategy, spin, sleep⟩ := fresh
    constructor
    · rintro rfl
      exact ⟨⟨network.symm, strategy.symm, spin.symm, sleep.symm, List.forall_mem_nil _⟩, rfl⟩
    · rintro ⟨⟨toNetwork, toStrategy, toSpin, toSleep, -⟩, same⟩
      rw [same, ← network.trans toNetwork, ← strategy.trans toStrategy, ← spin.trans toSpin,
        ← sleep.trans toSleep]

/-- The section `strategy` is read by the lookups of its keys, and sets no other field. -/
theorem readSection_strategy (symbolId : Int) (fresh : cfg.strategy = {}) :
    readSection lib j "strategy" (readStrategy lib) cfg = some after ↔
      Found lib j strategySettings (symbolId, after) ∧
        after = { cfg with strategy := after.strategy } := by
  rw [found_section "strategy" (by simp [strategySettings])]
  unfold readSection readStrategy strategySettings
  simp only [List.forall_mem_cons]
  by_cases present : lib.contains j "strategy" = true
  · simp only [if_pos present, Option.bind_eq_bind, Option.bind_eq_some_iff, Option.pure_def,
      Option.some.injEq]
    constructor
    · rintro ⟨_, depth, _, window, _, imbalance, _, profit, _, loss, _, spread, _, fraction, _,
        cooldown, _, short, rfl⟩
      exact ⟨⟨depth, window, imbalance, profit, loss, spread, fraction, cooldown, short,
        List.forall_mem_nil _⟩, rfl⟩
    · rintro ⟨⟨depth, window, imbalance, profit, loss, spread, fraction, cooldown, short, -⟩,
        same⟩
      exact ⟨_, depth, _, window, _, imbalance, _, profit, _, loss, _, spread, _, fraction, _,
        cooldown, _, short, same.symm⟩
  · simp only [if_neg present, Option.some.injEq]
    constructor
    · rintro rfl
      rw [fresh]
      exact ⟨⟨rfl, rfl, rfl, rfl, rfl, rfl, rfl, rfl, rfl, List.forall_mem_nil _⟩, fresh ▸ rfl⟩
    · rintro ⟨⟨depth, window, imbalance, profit, loss, spread, fraction, cooldown, short, -⟩,
        same⟩
      have defaults : after.strategy = cfg.strategy := by
        rw [fresh]
        exact StrategyParams.ext depth.symm window.symm imbalance.symm profit.symm loss.symm
          spread.symm fraction.symm cooldown.symm short.symm
      rw [same, defaults]

/-- The section `risk` is read by the lookups of its keys, and sets no other field. -/
theorem readSection_risk (symbolId : Int)
    (fresh : cfg.circuitErrorThreshold = 20 ∧ cfg.circuitWindowMsgs = 500) :
    readSection lib j "risk" (readRisk lib) cfg = some after ↔
      Found lib j riskSettings (symbolId, after) ∧
        after = { cfg with
          circuitErrorThreshold := after.circuitErrorThreshold
          circuitWindowMsgs := after.circuitWindowMsgs } := by
  rw [found_section "risk" (by simp [riskSettings])]
  unfold readSection readRisk riskSettings
  obtain ⟨threshold, window⟩ := fresh
  simp only [List.forall_mem_cons, threshold, window]
  by_cases present : lib.contains j "risk" = true
  · simp only [if_pos present, Option.bind_eq_bind, Option.bind_eq_some_iff, Option.pure_def,
      Option.some.injEq]
    constructor
    · rintro ⟨_, errors, _, messages, rfl⟩
      exact ⟨⟨errors, messages, List.forall_mem_nil _⟩, rfl⟩
    · rintro ⟨⟨errors, messages, -⟩, same⟩
      exact ⟨_, errors, _, messages, same.symm⟩
  · simp only [if_neg present, Option.some.injEq]
    constructor
    · rintro rfl
      exact ⟨⟨threshold.symm, window.symm, List.forall_mem_nil _⟩, rfl⟩
    · rintro ⟨⟨errors, messages, -⟩, same⟩
      rw [same, ← threshold.trans errors, ← window.trans messages]

/-- The section `venue` is read by the lookups of its keys, and sets no other field. -/
theorem readSection_venue (symbolId : Int)
    (fresh : cfg.host = "ws-feed.exchange.coinbase.com" ∧ cfg.port = "443" ∧
      cfg.channel = "level2_batch") :
    readSection lib j "venue" (readVenue lib) cfg = some after ↔
      Found lib j venueSettings (symbolId, after) ∧
        after = { cfg with
          host := after.host
          port := after.port
          channel := after.channel } := by
  rw [found_section "venue" (by simp [venueSettings])]
  unfold readSection readVenue venueSettings
  obtain ⟨host, port, channel⟩ := fresh
  simp only [List.forall_mem_cons, host, port, channel]
  by_cases present : lib.contains j "venue" = true
  · simp only [if_pos present, Option.bind_eq_bind, Option.bind_eq_some_iff, Option.pure_def,
      Option.some.injEq]
    constructor
    · rintro ⟨_, toHost, _, toPort, _, toChannel, rfl⟩
      exact ⟨⟨toHost, toPort, toChannel, List.forall_mem_nil _⟩, rfl⟩
    · rintro ⟨⟨toHost, toPort, toChannel, -⟩, same⟩
      exact ⟨_, toHost, _, toPort, _, toChannel, same.symm⟩
  · simp only [if_neg present, Option.some.injEq]
    constructor
    · rintro rfl
      exact ⟨⟨host.symm, port.symm, channel.symm, List.forall_mem_nil _⟩, rfl⟩
    · rintro ⟨⟨toHost, toPort, toChannel, -⟩, same⟩
      rw [same, ← host.trans toHost, ← port.trans toPort, ← channel.trans toChannel]

theorem found_append {earlier later : List (JsonSetting (Int × EngineConfig))}
    {read : Int × EngineConfig} :
    Found lib j (earlier ++ later) read ↔ Found lib j earlier read ∧ Found lib j later read :=
  List.forall_mem_append

/-- Lookups tell only of the fields their settings set. -/
theorem found_congr {settings : List (JsonSetting (Int × EngineConfig))}
    {read other : Int × EngineConfig}
    (same : ∀ setting ∈ settings, setting.field read = setting.field other) :
    Found lib j settings read ↔ Found lib j settings other :=
  forall₂_congr fun setting listed => by rw [same setting listed]

/-- The lookups at the top, one by one. -/
theorem found_top {read : Int × EngineConfig} :
    Found lib j topSettings read ↔
      lib.value .string j "product_id" "BTC-USD" = some read.2.productId ∧
        lib.value .int32 j "symbol_id" 0 = some read.1 ∧
        lib.value .double j "tick_size" (1 / 100) = some read.2.tickSize ∧
        lib.value .double j "max_position" 5 = some read.2.maxPosition ∧
        lib.value .double j "initial_cash" 10000 = some read.2.initialCash := by
  unfold Found topSettings
  simp only [List.forall_mem_cons]
  constructor
  · rintro ⟨product, symbol, tick, position, cash, -⟩
    exact ⟨product, symbol, tick, position, cash⟩
  · rintro ⟨product, symbol, tick, position, cash⟩
    exact ⟨product, symbol, tick, position, cash, List.forall_mem_nil _⟩

/-- What is read is what the lookups of the table find, with the symbol's number narrowed. -/
theorem readConfig_eq_some_iff :
    readConfig lib j = some (symbolId, cfg) ↔
      Found lib j settings (symbolId, cfg) ∧ cfg.symbolId = (symbolId % 2 ^ 16).toNat := by
  unfold settings readConfig
  rw [found_append, found_append, found_append, found_append]
  simp only [Option.bind_eq_bind, Option.bind_eq_some_iff, Option.pure_def, Option.some.injEq,
    Prod.mk.injEq]
  constructor
  · rintro ⟨productId, product, number, symbol, tickSize, tick, maxPosition, position,
      initialCash, cash, first, threading, second, strategy, third, risk, fourth, venue, rfl, rfl⟩
    obtain ⟨inThreading, toFirst⟩ :=
      (readSection_threading number ⟨rfl, rfl, rfl, rfl⟩).mp threading
    obtain ⟨inStrategy, toSecond⟩ := (readSection_strategy number (by rw [toFirst])).mp strategy
    obtain ⟨inRisk, toThird⟩ :=
      (readSection_risk number (by rw [toSecond, toFirst]; exact ⟨rfl, rfl⟩)).mp risk
    obtain ⟨inVenue, toFourth⟩ := (readSection_venue number (by
      rw [toThird, toSecond, toFirst]; exact ⟨rfl, rfl, rfl⟩)).mp venue
    refine ⟨⟨⟨⟨⟨?_, ?_⟩, ?_⟩, ?_⟩, inVenue⟩, ?_⟩
    · rw [found_top, toFourth, toThird, toSecond, toFirst]
      exact ⟨product, symbol, tick, position, cash⟩
    · refine (found_congr ?_).mp inThreading
      rw [toFourth, toThird, toSecond]
      simp [threadingSettings]
    · refine (found_congr ?_).mp inStrategy
      rw [toFourth, toThird]
      simp [strategySettings]
    · refine (found_congr ?_).mp inRisk
      rw [toFourth]
      simp [riskSettings]
    · rw [toFourth, toThird, toSecond, toFirst]
  · rintro ⟨⟨⟨⟨⟨top, threading⟩, strategy⟩, risk⟩, venue⟩, narrowed⟩
    obtain ⟨product, symbol, tick, position, cash⟩ := found_top.mp top
    let first : EngineConfig :=
      { productId := cfg.productId
        symbolId := (symbolId % 2 ^ 16).toNat
        tickSize := cfg.tickSize
        maxPosition := cfg.maxPosition
        initialCash := cfg.initialCash
        networkCoreId := cfg.networkCoreId
        strategyCoreId := cfg.strategyCoreId
        strategyBusySpin := cfg.strategyBusySpin
        strategySleepUs := cfg.strategySleepUs }
    let second : EngineConfig := { first with strategy := cfg.strategy }
    let third : EngineConfig :=
      { second with
        circuitErrorThreshold := cfg.circuitErrorThreshold
        circuitWindowMsgs := cfg.circuitWindowMsgs }
    have whole : cfg =
        { third with host := cfg.host, port := cfg.port, channel := cfg.channel } := by
      show cfg = { cfg with symbolId := (symbolId % 2 ^ 16).toNat }
      rw [← narrowed]
    refine ⟨_, product, _, symbol, _, tick, _, position, _, cash,
      first, (readSection_threading symbolId ⟨rfl, rfl, rfl, rfl⟩).mpr
        ⟨(found_congr ?_).mp threading, rfl⟩,
      second, (readSection_strategy symbolId rfl).mpr ⟨(found_congr ?_).mp strategy, rfl⟩,
      third, (readSection_risk symbolId ⟨rfl, rfl⟩).mpr ⟨(found_congr ?_).mp risk, rfl⟩,
      cfg, (readSection_venue symbolId ⟨rfl, rfl, rfl⟩).mpr ⟨venue, whole⟩, rfl, rfl⟩
    · simp [threadingSettings, first]
    · simp [strategySettings, second]
    · simp [riskSettings, third]

/-- If every lookup finds something, a configuration is read. -/
theorem exists_found (all : ∀ setting ∈ settings, ∃ value, setting.lookup lib j = some value) :
    ∃ symbolId cfg, Found lib j settings (symbolId, cfg) ∧
      cfg.symbolId = (symbolId % 2 ^ 16).toNat := by
  unfold settings at all
  simp only [List.forall_mem_append] at all
  obtain ⟨⟨⟨⟨top, threading⟩, strategy⟩, risk⟩, venue⟩ := all
  unfold topSettings at top
  unfold threadingSettings at threading
  unfold strategySettings at strategy
  unfold riskSettings at risk
  unfold venueSettings at venue
  simp only [List.forall_mem_cons] at top threading strategy risk venue
  obtain ⟨⟨productId, product⟩, ⟨symbolId, symbol⟩, ⟨tickSize, tick⟩, ⟨maxPosition, position⟩,
    ⟨initialCash, cash⟩, -⟩ := top
  obtain ⟨⟨networkCoreId, network⟩, ⟨strategyCoreId, core⟩, ⟨strategyBusySpin, spin⟩,
    ⟨strategySleepUs, sleep⟩, -⟩ := threading
  obtain ⟨⟨depthLevels, depth⟩, ⟨smoothingWindow, window⟩, ⟨entryImbalance, imbalance⟩,
    ⟨takeProfitBps, profit⟩, ⟨stopLossBps, loss⟩, ⟨maxSpreadBps, spread⟩,
    ⟨tradeFraction, fraction⟩, ⟨cooldownS, cooldown⟩, ⟨allowShort, short⟩, -⟩ := strategy
  obtain ⟨⟨circuitErrorThreshold, errors⟩, ⟨circuitWindowMsgs, messages⟩, -⟩ := risk
  obtain ⟨⟨host, toHost⟩, ⟨port, toPort⟩, ⟨channel, toChannel⟩, -⟩ := venue
  let cfg : EngineConfig :=
    { productId, symbolId := (symbolId % 2 ^ 16).toNat, tickSize, maxPosition, initialCash
      networkCoreId, strategyCoreId, strategyBusySpin, strategySleepUs
      strategy := { depthLevels, smoothingWindow, entryImbalance, takeProfitBps, stopLossBps,
                    maxSpreadBps, tradeFraction, cooldownS, allowShort }
      circuitErrorThreshold, circuitWindowMsgs, host, port, channel }
  refine ⟨symbolId, cfg, ?_, rfl⟩
  unfold settings
  rw [found_append, found_append, found_append, found_append]
  unfold Found topSettings threadingSettings strategySettings riskSettings venueSettings
  simp only [List.forall_mem_cons]
  exact ⟨⟨⟨⟨⟨product, symbol, tick, position, cash, List.forall_mem_nil _⟩,
    ⟨network, core, spin, sleep, List.forall_mem_nil _⟩⟩,
    ⟨depth, window, imbalance, profit, loss, spread, fraction, cooldown, short,
      List.forall_mem_nil _⟩⟩, ⟨errors, messages, List.forall_mem_nil _⟩⟩,
    ⟨toHost, toPort, toChannel, List.forall_mem_nil _⟩⟩

end Read

/-! ### Which documents load -/

/-- A document supplies the values of a configuration for every key, with the symbol's number as
it was read. -/
def EngineConfig.Supplied (lib : JsonLibrary) (j : lib.Value) (symbolId : Int)
    (cfg : EngineConfig) : Prop :=
  ∀ setting ∈ settings, setting.Supplied lib j (setting.field (symbolId, cfg))

section Load

variable {lib : JsonLibrary} {j : lib.Value} {cfg : EngineConfig} {symbolId : Int}

theorem readConfig_iff_supplied (documented : lib.Documented) :
    readConfig lib j = some (symbolId, cfg) ↔
      cfg.Supplied lib j symbolId ∧ cfg.symbolId = (symbolId % 2 ^ 16).toNat := by
  rw [readConfig_eq_some_iff]
  refine and_congr_left' (forall₂_congr fun setting _ => ?_)
  exact JsonSetting.lookup_eq_some_iff documented

theorem readConfig_eq_none_iff (documented : lib.Documented) :
    readConfig lib j = none ↔ ∃ setting ∈ settings, ¬setting.Readable lib j := by
  constructor
  · intro nothing
    by_contra readable
    simp only [not_exists, not_and, not_not] at readable
    obtain ⟨symbolId, cfg, found⟩ := exists_found (j := j) fun setting listed =>
      Option.ne_none_iff_exists'.mp fun missing =>
        (JsonSetting.lookup_eq_none_iff documented).mp missing (readable setting listed)
    rw [readConfig_eq_some_iff.mpr found] at nothing
    cases nothing
  · rintro ⟨setting, listed, unreadable⟩
    have missing := (JsonSetting.lookup_eq_none_iff documented).mpr unreadable
    rw [Option.eq_none_iff_forall_not_mem]
    rintro ⟨symbolId, cfg⟩ read
    have found := (readConfig_eq_some_iff.mp read).1 setting listed
    rw [missing] at found
    cases found

/-- A document that supplies a valid configuration loads as that configuration. -/
theorem loadConfig_of_supplied (documented : lib.Documented)
    (supplied : cfg.Supplied lib j cfg.symbolId) (accepted : cfg.Accepted) :
    loadConfig lib (some (some j)) = .ok cfg := by
  have inside : (cfg.symbolId : Int) < maxSymbols := by exact_mod_cast accepted.valid.symbolId
  have narrowed : cfg.symbolId = ((cfg.symbolId : Int) % 2 ^ 16).toNat := by
    rw [Int.emod_eq_of_lt (by omega) (lt_trans inside (by decide))]
    exact (Int.toNat_natCast _).symm
  unfold loadConfig
  dsimp only
  rw [(readConfig_iff_supplied documented).mpr ⟨supplied, narrowed⟩]
  exact (checkConfig_eq_ok_iff narrowed).mpr ⟨rfl, accepted, rfl⟩

/-- What loads was read from a document, and is valid. -/
theorem loadConfig_accepted {file : Option (Option lib.Value)}
    (loaded : loadConfig lib file = .ok cfg) :
    ∃ j, file = some (some j) ∧ readConfig lib j = some ((cfg.symbolId : Int), cfg) ∧
      cfg.Accepted := by
  match file with
  | none | some none => cases loaded
  | some (some j) =>
    unfold loadConfig at loaded
    dsimp only at loaded
    split at loaded
    · cases loaded
    · rename_i symbolId read done
      obtain ⟨same, accepted, rfl⟩ :=
        (checkConfig_eq_ok_iff (readConfig_eq_some_iff.mp done).2).mp loaded
      rw [same] at done
      exact ⟨j, rfl, done, accepted⟩

end Load

/-- `loadConfig` accepts a file exactly if it is a document that supplies the configuration for
every key of the table, where the symbol's number is the one it stands for and not just the same up
to 16 bits, and the configuration is valid. -/
theorem loadConfig_eq_ok_iff (lib : JsonLibrary) (documented : lib.Documented)
    (file : Option (Option lib.Value)) (cfg : EngineConfig) :
    loadConfig lib file = .ok cfg ↔
      ∃ j, file = some (some j) ∧ cfg.Supplied lib j cfg.symbolId ∧ cfg.Accepted := by
  constructor
  · intro loaded
    obtain ⟨j, rfl, read, accepted⟩ := loadConfig_accepted loaded
    exact ⟨j, rfl, ((readConfig_iff_supplied documented).mp read).1, accepted⟩
  · rintro ⟨j, rfl, supplied, accepted⟩
    exact loadConfig_of_supplied documented supplied accepted

/-- Some keys at the top, and one key of one section; the other sections are absent. -/
def sparseDocument : JsonTree :=
  .object
    [("product_id", .string "ETH-EUR"), ("symbol_id", .integer 7),
      ("strategy", .object [("cooldown_s", .integer 3), ("allow_short", .boolean false)])]

/-- The defaults, but for what the sparse document says. -/
def sparseConfig : EngineConfig where
  productId := "ETH-EUR"
  symbolId := 7
  strategy := { cooldownS := 3, allowShort := false }

theorem sparseConfig_accepted : sparseConfig.Accepted := by
  refine ⟨?_, by decide, by decide, by decide⟩
  constructor <;> decide +kernel

theorem sparseConfig_supplied :
    sparseConfig.Supplied JsonTree.library sparseDocument sparseConfig.symbolId := by
  simp [EngineConfig.Supplied, settings, topSettings, threadingSettings, strategySettings,
    riskSettings, venueSettings, JsonSetting.Supplied, JsonSetting.holder, sparseDocument,
    sparseConfig, JsonTree.library, JsonTree.find?, JsonTree.isObject, JsonTree.get,
    JsonTree.toInt32]

theorem loadConfig_eq_ok_iff_sparse :
    loadConfig JsonTree.library (some (some sparseDocument)) = .ok sparseConfig :=
  (loadConfig_eq_ok_iff JsonTree.library JsonTree.library_documented (some (some sparseDocument))
    sparseConfig).mpr ⟨sparseDocument, rfl, sparseConfig_supplied, sparseConfig_accepted⟩

/-! ### Which documents do not -/

theorem guard_cases {condition : Prop} [Decidable condition] {error : LoadError}
    {rest : Except LoadError EngineConfig} {cfg : EngineConfig}
    (passed : rest = .ok cfg ∨ rest = .error error) :
    (if condition then .error error else rest) = .ok cfg ∨
      (if condition then .error error else rest) = .error error := by
  by_cases fails : condition
  · exact Or.inr (if_pos fails)
  · rw [if_neg fails]
    exact passed

theorem checkConfig_cases (symbolId : Int) (cfg : EngineConfig) :
    checkConfig symbolId cfg = .ok cfg ∨
      checkConfig symbolId cfg = .error .configInvalidValue := by
  unfold checkConfig
  iterate 13 refine guard_cases ?_
  exact Or.inl rfl

/-- `loadConfig` throws exactly if some key of the table cannot be read: its value does not convert,
or what should hold it is no object. What it turns down otherwise it turns down for its values: the
symbol's number is out of range, whatever it is in 16 bits, or the configuration is not valid. -/
theorem loadConfig_eq_error_iff (lib : JsonLibrary) (documented : lib.Documented)
    (j : lib.Value) :
    (loadConfig lib (some (some j)) = .error .typeError ↔
        ∃ setting ∈ settings, ¬setting.Readable lib j) ∧
      (loadConfig lib (some (some j)) = .error .configInvalidValue ↔
        ∃ (symbolId : Int) (cfg : EngineConfig), cfg.Supplied lib j symbolId ∧
          cfg.symbolId = (symbolId % 2 ^ 16).toNat ∧
          ¬(0 ≤ symbolId ∧ symbolId < maxSymbols ∧ cfg.Accepted)) := by
  rw [← readConfig_eq_none_iff documented]
  unfold loadConfig
  dsimp only
  cases done : readConfig lib j with
  | none =>
    refine ⟨iff_of_true rfl rfl, iff_of_false nofun ?_⟩
    rintro ⟨symbolId, cfg, supplied, narrowed, -⟩
    rw [(readConfig_iff_supplied documented).mpr ⟨supplied, narrowed⟩] at done
    cases done
  | some read =>
    obtain ⟨symbolId, cfg⟩ := read
    obtain ⟨supplied, narrowed⟩ := (readConfig_iff_supplied documented).mp done
    have accepts := @checkConfig_eq_ok_iff symbolId cfg cfg narrowed
    have inside : symbolId = cfg.symbolId ∧ cfg.Accepted ↔
        0 ≤ symbolId ∧ symbolId < maxSymbols ∧ cfg.Accepted := by
      constructor
      · rintro ⟨rfl, accepted⟩
        exact ⟨Int.natCast_nonneg _, Int.ofNat_lt.mpr accepted.valid.symbolId, accepted⟩
      · rintro ⟨positive, bounded, accepted⟩
        refine ⟨?_, accepted⟩
        rw [narrowed, Int.emod_eq_of_lt positive (lt_trans bounded (by decide)),
          Int.toNat_of_nonneg positive]
    dsimp only
    constructor
    · refine iff_of_false (fun threw => ?_) nofun
      rcases checkConfig_cases symbolId cfg with ok | invalid
      · cases ok.symm.trans threw
      · cases invalid.symm.trans threw
    · constructor
      · intro invalid
        refine ⟨symbolId, cfg, supplied, narrowed, fun accepted => ?_⟩
        obtain ⟨same, valid⟩ := inside.mpr accepted
        cases (accepts.mpr ⟨same, valid, rfl⟩).symm.trans invalid
      · rintro ⟨number, other, otherSupplied, otherNarrowed, refused⟩
        have read := (readConfig_iff_supplied documented).mpr ⟨otherSupplied, otherNarrowed⟩
        rw [done] at read
        obtain ⟨rfl, rfl⟩ := Prod.mk.inj (Option.some.inj read)
        refine (checkConfig_cases symbolId cfg).resolve_left fun ok => refused ?_
        obtain ⟨same, valid, -⟩ := accepts.mp ok
        exact inside.mp ⟨same, valid⟩

/-- A section that is no object throws, and so does a document that is none; a symbol's number that
is zero in 16 bits only is turned down. -/
theorem loadConfig_eq_error_iff_misread :
    loadConfig JsonTree.library (some (some (.object [("venue", .string "coinbase")]))) =
        .error .typeError ∧
      loadConfig JsonTree.library (some (some (.array []))) = .error .typeError ∧
      loadConfig JsonTree.library (some (some (.object [("symbol_id", .integer (2 ^ 16))]))) =
        .error .configInvalidValue := by
  have throws := fun j => (loadConfig_eq_error_iff JsonTree.library JsonTree.library_documented j).1
  have refuses := fun j =>
    (loadConfig_eq_error_iff JsonTree.library JsonTree.library_documented j).2
  refine ⟨(throws _).mpr ?_, (throws _).mpr ?_, (refuses _).mpr ⟨2 ^ 16, {}, ?_, rfl, ?_⟩⟩
  · refine ⟨⟨some "venue", "host", .string, "ws-feed.exchange.coinbase.com",
      fun read => read.2.host⟩, by simp [settings, venueSettings], fun readable => ?_⟩
    cases (readable (.string "coinbase") rfl).1
  · refine ⟨⟨none, "product_id", .string, "BTC-USD", fun read => read.2.productId⟩,
      by simp [settings, topSettings], fun readable => ?_⟩
    cases (readable (.array []) rfl).1
  · simp [EngineConfig.Supplied, settings, topSettings, threadingSettings, strategySettings,
      riskSettings, venueSettings, JsonSetting.Supplied, JsonSetting.holder, JsonTree.library,
      JsonTree.find?, JsonTree.isObject, JsonTree.get, JsonTree.toInt32]
  · rintro ⟨-, bounded, -⟩
    exact absurd bounded (by decide)

/-! ### Writing a configuration down -/

/-- The integers fit their types. -/
structure EngineConfig.Fits (cfg : EngineConfig) : Prop where
  networkCoreId : -2 ^ 31 ≤ cfg.networkCoreId ∧ cfg.networkCoreId < 2 ^ 31
  strategyCoreId : -2 ^ 31 ≤ cfg.strategyCoreId ∧ cfg.strategyCoreId < 2 ^ 31
  strategySleepUs : cfg.strategySleepUs < 2 ^ 31
  circuitErrorThreshold : cfg.circuitErrorThreshold < 2 ^ 64
  circuitWindowMsgs : cfg.circuitWindowMsgs < 2 ^ 64

/-- The sections a configuration file has. -/
def sectionNames : List String := ["threading", "strategy", "risk", "venue"]

/-- A document that holds a configuration, every key of the table in its place. -/
def EngineConfig.toJson (lib : JsonLibrary) (cfg : EngineConfig) : lib.Value :=
  JsonSetting.write lib settings ((cfg.symbolId : Int), cfg) sectionNames

theorem settings_distinct : JsonSetting.Distinct settings sectionNames where
  top := by decide +kernel
  sections := by decide +kernel
  named := by
    simp [settings, topSettings, threadingSettings, strategySettings, riskSettings,
      venueSettings, sectionNames]

/-- The values of a valid configuration are in the ranges of their types. -/
theorem settings_inRange {cfg : EngineConfig} (accepted : cfg.Accepted) (fits : cfg.Fits) :
    ∀ setting ∈ settings, setting.type.InRange (setting.field ((cfg.symbolId : Int), cfg)) := by
  have symbol : (cfg.symbolId : Int) < maxSymbols := by exact_mod_cast accepted.valid.symbolId
  have depth := lt_of_le_of_lt accepted.valid.depthLevels.2 (by decide : maxDepth < 2 ^ 16)
  have window :=
    lt_of_le_of_lt accepted.valid.smoothingWindow.2 (by decide : maxRolling < 2 ^ 16)
  have most : (maxSymbols : Int) < 2 ^ 31 := by decide
  have number : -2 ^ 31 ≤ (cfg.symbolId : Int) ∧ (cfg.symbolId : Int) < 2 ^ 31 :=
    ⟨by omega, by omega⟩
  have positive := accepted.strategySleepUs
  have sleep : -2 ^ 31 ≤ cfg.strategySleepUs ∧ cfg.strategySleepUs < 2 ^ 31 :=
    ⟨by omega, fits.strategySleepUs⟩
  unfold settings
  simp only [List.forall_mem_append]
  refine ⟨⟨⟨⟨?_, ?_⟩, ?_⟩, ?_⟩, ?_⟩
  · unfold topSettings
    simp only [List.forall_mem_cons]
    exact ⟨trivial, number, trivial, trivial, trivial, List.forall_mem_nil _⟩
  · unfold threadingSettings
    simp only [List.forall_mem_cons]
    exact ⟨fits.networkCoreId, fits.strategyCoreId, trivial, sleep, List.forall_mem_nil _⟩
  · unfold strategySettings
    simp only [List.forall_mem_cons]
    exact ⟨depth, window, trivial, trivial, trivial, trivial, trivial, trivial, trivial,
      List.forall_mem_nil _⟩
  · unfold riskSettings
    simp only [List.forall_mem_cons]
    exact ⟨fits.circuitErrorThreshold, fits.circuitWindowMsgs, List.forall_mem_nil _⟩
  · unfold venueSettings
    simp only [List.forall_mem_cons]
    exact ⟨trivial, trivial, trivial, List.forall_mem_nil _⟩

/-- Every valid configuration, written down as a document, is read back as it is. -/
theorem loadConfig_toJson (lib : JsonLibrary) (documented : lib.Documented) (writes : lib.Writes)
    (cfg : EngineConfig) (accepted : cfg.Accepted) (fits : cfg.Fits) :
    loadConfig lib (some (some (cfg.toJson lib))) = .ok cfg := by
  refine loadConfig_of_supplied documented (fun setting listed => ?_) accepted
  exact JsonSetting.supplied_write writes settings_distinct listed
    (settings_inRange accepted fits setting listed)

/-- A configuration with no default left in it. -/
def ownConfig : EngineConfig where
  productId := "ETH-EUR"
  symbolId := 7
  tickSize := 1 / 4
  maxPosition := 3
  initialCash := 20000
  strategy :=
    { depthLevels := 2
      smoothingWindow := 3
      entryImbalance := 1 / 5
      takeProfitBps := 4
      stopLossBps := 6
      maxSpreadBps := 7 / 2
      tradeFraction := 1 / 4
      cooldownS := 1
      allowShort := false }
  networkCoreId := 2
  strategyCoreId := 3
  strategyBusySpin := true
  strategySleepUs := 10
  circuitErrorThreshold := 5
  circuitWindowMsgs := 100
  host := "ws.example"
  port := "8443"
  channel := "level2"

theorem ownConfig_accepted : ownConfig.Accepted := by
  refine ⟨?_, by decide, by decide, by decide⟩
  constructor <;> decide +kernel

theorem ownConfig_fits : ownConfig.Fits := by
  constructor <;> decide

/-- A configuration that differs from the defaults in every key is read back. -/
theorem loadConfig_toJson_own :
    (∀ setting ∈ settings, setting.field ((ownConfig.symbolId : Int), ownConfig) ≠
        setting.default) ∧
      loadConfig JsonTree.library (some (some (ownConfig.toJson JsonTree.library))) =
        .ok ownConfig := by
  refine ⟨?_, loadConfig_toJson JsonTree.library JsonTree.library_documented
    JsonTree.library_writes ownConfig ownConfig_accepted ownConfig_fits⟩
  simp [settings, topSettings, threadingSettings, strategySettings, riskSettings, venueSettings,
    ownConfig]
  norm_num

/-! ### What the components take over -/

theorem clamp_eq {value bound : Nat} (inside : 0 < value ∧ value ≤ bound) :
    ImbalanceStrategy.clamp value bound = value := by
  unfold ImbalanceStrategy.clamp
  rw [if_neg inside.1.ne', if_neg (not_lt.mpr inside.2)]

theorem EngineConfig.Accepted.unclamped {cfg : EngineConfig} (accepted : cfg.Accepted) :
    (ImbalanceStrategy.create cfg.strategy).params = cfg.strategy := by
  unfold ImbalanceStrategy.create
  rw [clamp_eq accepted.valid.smoothingWindow, clamp_eq accepted.valid.depthLevels]

/-- What a file that loads says is what the engine trades with after any events: no clamp and no
guard of the components ever changes it. -/
theorem loadConfig_reaches (lib : JsonLibrary) (file : Option (Option lib.Value))
    (cfg : EngineConfig) (loaded : loadConfig lib file = .ok cfg)
    (events : List (EventClock × MarketEvent)) :
    (Runtime.run cfg.toRuntimeConfig events).cfg = cfg.toRuntimeConfig ∧
      (Runtime.run cfg.toRuntimeConfig events).strategy.params = cfg.strategy ∧
      (Runtime.run cfg.toRuntimeConfig events).strategy.symbol = cfg.symbolId ∧
      (Runtime.run cfg.toRuntimeConfig events).strategy.tickSize = cfg.tickSize ∧
      (Runtime.run cfg.toRuntimeConfig events).risk.tick = cfg.tickSize ∧
      (Runtime.run cfg.toRuntimeConfig events).risk.cashEnabled = true := by
  obtain ⟨j, -, -, accepted⟩ := loadConfig_accepted loaded
  have sound := Runtime.run_sound accepted.valid events
  have ledgers := sound.ledgers
  exact ⟨sound.configured, ledgers.params.trans accepted.unclamped, ledgers.symbol,
    ledgers.tickSize, ledgers.tick, ledgers.enabled⟩

theorem ownConfig_loads :
    loadConfig JsonTree.library (some (some (ownConfig.toJson JsonTree.library))) =
      .ok ownConfig := by
  refine loadConfig_of_supplied JsonTree.library_documented (fun setting listed => ?_)
    ownConfig_accepted
  exact JsonSetting.supplied_write JsonTree.library_writes settings_distinct listed
    (settings_inRange ownConfig_accepted ownConfig_fits setting listed)

theorem ownConfig_trades :
    ((Runtime.create ownConfig.toRuntimeConfig).desk.tradeAll ownConfig.toRuntimeConfig
      [Runtime.thinQuote]).fills = 1 := by
  decide +kernel

/-- A configuration of its own is loaded and trades. -/
theorem loadConfig_reaches_own :
    (Runtime.run ownConfig.toRuntimeConfig [Runtime.thinQuote]).metrics.fills = 1 ∧
      (Runtime.run ownConfig.toRuntimeConfig [Runtime.thinQuote]).strategy.params =
        ownConfig.strategy ∧
      (Runtime.run ownConfig.toRuntimeConfig [Runtime.thinQuote]).strategy.symbol = 7 ∧
      (Runtime.run ownConfig.toRuntimeConfig [Runtime.thinQuote]).risk.tick = 1 / 4 := by
  obtain ⟨-, params, symbol, -, tick, -⟩ := loadConfig_reaches JsonTree.library
    (some (some (ownConfig.toJson JsonTree.library))) ownConfig ownConfig_loads
    [Runtime.thinQuote]
  obtain ⟨-, -, fills, -⟩ := Runtime.of_desk (Runtime.run_desk ownConfig.toRuntimeConfig
    (List.forall_mem_singleton.mpr Runtime.thinQuote_small))
  exact ⟨fills.trans ownConfig_trades, params, symbol, tick⟩

end Trading

/-
This file goes from what the venue writes to the book. A message of the venue has a type, and
under it levels, changes, a number or a text; prices and sizes are decimal numbers in any
spelling, as texts. The message is written as an object with its parts under their keys, in
any order and beside any others.

The parser reads such an object as the message, with every number rounded to a `double`. What
the rounding does to a price is undone by the tick grid: a price of a whole number of units is
turned into that number of ticks, though neither it nor the configured tick size is what it
was, and their quotient is rounded once more. So the book behind the whole pipeline is the plain
map of the levels as written.
-/

import TradingEngine.Fidelity
import TradingEngine.Lib.RelativeError
import TradingEngine.ParserGrammar

namespace Trading

open Rounding (OffBy Normal RoundsNormal RoundsToDouble doubleError nearest normal_of_one_le
  offBy_nearest rounded roundsNormal_nearest roundsToDouble_nearest)
open Strtod (Double Numeral)
open Transition
open BoundedBook (Call)

/-! ### What the venue writes -/

/-- A level as the venue writes it. -/
structure WrittenLevel where
  price : Numeral
  qty : Numeral

/-- A change as the venue writes it. -/
structure WrittenChange where
  side : Side
  price : Numeral
  qty : Numeral

/-- What a message carries. -/
inductive WrittenBody where
  | snapshot (bids asks : List WrittenLevel)
  | l2Update (changes : List WrittenChange)
  | heartbeat (sequence : Nat)
  | error (message : List Char)
  | subscriptions

/-- A message of the venue. -/
structure WrittenMessage where
  productId : Option (List Char)
  body : WrittenBody

namespace WrittenLevel

/-- The array a level is written as. -/
def json (level : WrittenLevel) : Json :=
  .array [.string level.price.text, .string level.qty.text]

/-- Both numbers fit the parser's buffer. -/
def Short (level : WrittenLevel) : Prop :=
  CoinbaseParser.Short level.price.text ∧ CoinbaseParser.Short level.qty.text

end WrittenLevel

namespace WrittenChange

/-- The array a change is written as. -/
def json (change : WrittenChange) : Json :=
  .array [.string (match change.side with | .bid => "buy".toList | .ask => "sell".toList),
    .string change.price.text, .string change.qty.text]

/-- Both numbers of the change fit the parser's buffer. -/
def Short (change : WrittenChange) : Prop :=
  CoinbaseParser.Short change.price.text ∧ CoinbaseParser.Short change.qty.text

end WrittenChange

namespace WrittenBody

/-- The type of the message. -/
def type : WrittenBody → CoinbaseMsgType
  | snapshot _ _ => .snapshot
  | l2Update _ => .l2Update
  | heartbeat _ => .heartbeat
  | error _ => .error
  | subscriptions => .subscriptions

/-- How the venue names the type. -/
def typeText : WrittenBody → List Char
  | snapshot _ _ => "snapshot".toList
  | l2Update _ => "l2update".toList
  | heartbeat _ => "heartbeat".toList
  | error _ => "error".toList
  | subscriptions => "subscriptions".toList

/-- The parts under the type. -/
def fields : WrittenBody → List (List Char × Json)
  | snapshot bids asks => [("bids".toList, .array (bids.map WrittenLevel.json)),
      ("asks".toList, .array (asks.map WrittenLevel.json))]
  | l2Update changes => [("changes".toList, .array (changes.map WrittenChange.json))]
  | heartbeat sequence => [("sequence".toList, .number (Nat.toDigits 10 sequence))]
  | error message => [("message".toList, .string message)]
  | subscriptions => []

/-- Every number is one the parser has room for. -/
def Fits : WrittenBody → Prop
  | snapshot bids asks => (∀ level ∈ bids, level.Short) ∧ ∀ level ∈ asks, level.Short
  | l2Update changes => ∀ change ∈ changes, change.Short
  | heartbeat sequence => sequence < 2 ^ 64
  | error _ | subscriptions => True

end WrittenBody

namespace WrittenMessage

/-- The parts of the message. -/
def fields (message : WrittenMessage) : List (List Char × Json) :=
  ("type".toList, .string message.body.typeText) ::
    ((message.productId.map fun id => ("product_id".toList, Json.string id)).toList ++
      message.body.fields)

/-- The message is written as the object: its parts stand under their keys. -/
structure Writes (message : WrittenMessage) (root : List (List Char × Json)) : Prop where
  type : field root "type".toList = some (.string message.body.typeText)
  productId : field root "product_id".toList = message.productId.map .string
  body : ∀ part ∈ message.body.fields, field root part.1 = some part.2

end WrittenMessage

/-! ### What the parser makes of it -/

/-- The level as the parser reads it. -/
def WrittenLevel.parsed (round : ℚ → Double) (level : WrittenLevel) : ParsedLevel :=
  ⟨round level.price.value, round level.qty.value⟩

/-- The change as the parser reads it. -/
def WrittenChange.parsed (round : ℚ → Double) (change : WrittenChange) : ParsedChange :=
  ⟨change.side, round change.price.value, round change.qty.value⟩

/-- The message with every number rounded. -/
def WrittenMessage.parsed (round : ℚ → Double) (message : WrittenMessage) : ParsedMessage :=
  let out : ParsedMessage :=
    { type := message.body.type, productId := message.productId.getD [] }
  match message.body with
  | .snapshot bids asks =>
    { out with
      bids := bids.map fun level => level.parsed round
      asks := asks.map fun level => level.parsed round }
  | .l2Update changes => { out with changes := changes.map fun change => change.parsed round }
  | .heartbeat sequence => { out with sequence }
  | .error message => { out with errorMessage := message }
  | .subscriptions => out

namespace CoinbaseParser

variable {round : ℚ → Double}

theorem parseDouble_numeral {numeral : Numeral} (short : Short numeral.text) :
    parseDouble round numeral.text = some (round numeral.value) :=
  parseDouble_of_decimal? short (Strtod.decimal?_iff.mpr ⟨numeral, rfl, rfl⟩)

theorem parseLevel_json {level : WrittenLevel} (short : level.Short) :
    level.json.getArray.bind (parseLevel round) = some (level.parsed round) := by
  show parseLevel round [.string level.price.text, .string level.qty.text] = _
  rw [parseLevel_eq]
  show (firstTwo (numbers round [level.price.text, level.qty.text])).map _ = _
  unfold numbers
  rw [List.filterMap_cons_some (parseDouble_numeral short.1),
    List.filterMap_cons_some (parseDouble_numeral short.2)]
  rfl

theorem parseChange_json {change : WrittenChange} (short : change.Short) :
    change.json.getArray.bind (parseChange round) = some (change.parsed round) := by
  show parseChange round [.string _, .string change.price.text, .string change.qty.text] = _
  rw [parseChange_eq]
  show (firstTwo (numbers round [change.price.text, change.qty.text])).map _ = _
  unfold numbers
  rw [List.filterMap_cons_some (parseDouble_numeral short.1),
    List.filterMap_cons_some (parseDouble_numeral short.2)]
  obtain ⟨side, price, qty⟩ := change
  cases side <;> rfl

/-- An array of entries that are all read is read entry by entry. -/
theorem arrays_of_json {Entry Read : Type} {json : Entry → Json} {parse : List Json → Option Read}
    {read : Entry → Read} {root : List (List Char × Json)} {key : List Char} {entries : List Entry}
    (written : field root key = some (.array (entries.map json)))
    (reads : ∀ entry ∈ entries, ((json entry).getArray).bind parse = some (read entry)) :
    (arrays root key).filterMap parse = entries.map read := by
  unfold arrays
  rw [written]
  show ((entries.map json).filterMap Json.getArray).filterMap parse = _
  rw [List.filterMap_filterMap, List.filterMap_map, ← List.filterMap_eq_map]
  exact List.filterMap_congr reads

theorem getUint64_digits {sequence : Nat} (fits : sequence < 2 ^ 64) :
    (Json.number (Nat.toDigits 10 sequence)).getUint64 = some sequence := by
  have value : Strtod.decimal.natOf (Nat.toDigits 10 sequence) = sequence := by
    have read := @Nat.ofDigitChars_ten_toDigits sequence
    rw [Nat.ofDigitChars_eq_foldl] at read
    exact read
  have digits : (Nat.toDigits 10 sequence).all Char.isDigit = true :=
    List.all_eq_true.mpr fun c member =>
      Nat.isDigit_of_mem_toDigits (by decide) (by decide) member
  unfold Json.getUint64
  dsimp only
  rw [value, if_pos ⟨digits, fits⟩]

theorem typeFromString_typeText (body : WrittenBody) :
    typeFromString body.typeText = body.type := by
  cases body <;> rfl

/-- An object with the parts of a message under their keys is read as the message. -/
theorem parse_writes {message : WrittenMessage} {root : List (List Char × Json)}
    (writes : message.Writes root) (fits : message.body.Fits) :
    parse round (some (.object root)) = (.ok, message.parsed round) := by
  obtain ⟨productId, body⟩ := message
  have typed : (field root "type".toList).bind Json.getString = some body.typeText := by
    rw [writes.type]
    rfl
  have product : ((field root "product_id".toList).bind Json.getString).getD [] =
      productId.getD [] := by
    rw [writes.productId]
    cases productId <;> rfl
  unfold parse
  rw [show (some (Json.object root)).bind Json.getObject = some root from rfl]
  dsimp only
  rw [typed]
  dsimp only
  rw [product, typeFromString_typeText]
  have parts := writes.body
  congr 1
  cases body with
  | snapshot bids asks =>
    have bidsRead := arrays_of_json (parts ("bids".toList, _) List.mem_cons_self)
      fun level listed => @parseLevel_json round level (fits.1 level listed)
    have asksRead := arrays_of_json
      (parts ("asks".toList, _) (List.mem_cons_of_mem _ List.mem_cons_self))
      fun level listed => @parseLevel_json round level (fits.2 level listed)
    unfold fill WrittenMessage.parsed
    dsimp only [WrittenBody.type]
    rw [bidsRead, asksRead]
  | l2Update changes =>
    have read := arrays_of_json (parts ("changes".toList, _) List.mem_cons_self)
      fun change listed => @parseChange_json round change (fits change listed)
    unfold fill WrittenMessage.parsed
    dsimp only [WrittenBody.type]
    rw [read]
  | heartbeat sequence =>
    unfold fill WrittenMessage.parsed
    dsimp only [WrittenBody.type]
    rw [parts ("sequence".toList, _) List.mem_cons_self, Option.bind_some,
      getUint64_digits fits]
    rfl
  | error message =>
    unfold fill WrittenMessage.parsed
    dsimp only [WrittenBody.type]
    rw [parts ("message".toList, _) List.mem_cons_self]
    rfl
  | subscriptions => rfl

theorem keys_ne_productId (body : WrittenBody) :
    ∀ part ∈ WrittenMessage.fields ⟨none, body⟩, part.1 ≠ "product_id".toList := by
  cases body <;> simp [WrittenMessage.fields, WrittenBody.fields]

theorem field_of_mem {root : List (List Char × Json)} (distinct : (root.map Prod.fst).Nodup)
    {part : List Char × Json} (member : part ∈ root) : field root part.1 = some part.2 := by
  unfold field
  induction root with
  | nil => cases member
  | cons first rest inductionHypothesis =>
    rw [List.map_cons, List.nodup_cons] at distinct
    rcases List.mem_cons.mp member with rfl | later
    · rw [List.find?_cons_of_pos (by simp)]
      rfl
    · have other : ¬first.1 = part.1 := fun same =>
        distinct.1 (same ▸ List.mem_map_of_mem later)
      rw [List.find?_cons_of_neg (by simpa using other)]
      exact inductionHypothesis distinct.2 later

/-- The parser reads what the venue writes: the parts of a message, in any order and with any
others under other keys between them, give the message back, with every number rounded. -/
theorem parse_fields (round : ℚ → Double) (message : WrittenMessage)
    (root others : List (List Char × Json)) (written : root.Perm (message.fields ++ others))
    (distinct : (root.map Prod.fst).Nodup)
    (apart : ∀ other ∈ others, other.1 ≠ "product_id".toList) (fits : message.body.Fits) :
    parse round (some (.object root)) = (.ok, message.parsed round) := by
  have found : ∀ part ∈ message.fields, field root part.1 = some part.2 := fun part member =>
    field_of_mem distinct (written.mem_iff.mpr (List.mem_append_left _ member))
  refine parse_writes ⟨found _ List.mem_cons_self, ?_, fun part member => ?_⟩ fits
  · obtain ⟨productId, body⟩ := message
    cases productId with
    | some id => exact found _ (List.mem_cons_of_mem _ List.mem_cons_self)
    | none =>
      unfold field
      rw [Option.map_none, Option.map_eq_none_iff, List.find?_eq_none]
      intro part member same
      have keyed : part.1 = "product_id".toList := of_decide_eq_true same
      rcases List.mem_append.mp (written.mem_iff.mp member) with own | other
      · exact absurd keyed (keys_ne_productId body part own)
      · exact apart part other keyed
  · exact found part (List.mem_cons_of_mem _ (List.mem_append_right _ member))

/-- A change of the venue, with the time it also writes. -/
def tickChange : WrittenChange :=
  ⟨.bid, ⟨.none, ⟨"64999".toList, some "50".toList, none, List.all_eq_true.mp rfl, by decide⟩⟩,
    ⟨.none, ⟨"2".toList, some "0".toList, none, List.all_eq_true.mp rfl, by decide⟩⟩⟩

theorem parse_fields_timed :
    parse .finite (some (.object [("type".toList, .string "l2update".toList),
      ("time".toList, .string "12:00:00".toList),
      ("changes".toList, .array [tickChange.json]),
      ("product_id".toList, .string "BTC-USD".toList)])) =
    (.ok, { type := .l2Update, productId := "BTC-USD".toList
            changes := [⟨.bid, .finite (129999 / 2), .finite 2⟩] }) := by
  have value : tickChange.parsed .finite = ⟨.bid, .finite (129999 / 2), .finite 2⟩ := by
    decide +kernel
  have read := parse_fields .finite ⟨some "BTC-USD".toList, .l2Update [tickChange]⟩
    [("type".toList, .string "l2update".toList), ("time".toList, .string "12:00:00".toList),
      ("changes".toList, .array [tickChange.json]),
      ("product_id".toList, .string "BTC-USD".toList)]
    [("time".toList, .string "12:00:00".toList)]
    (.cons _ (List.reverse_perm [_, _, _]).symm) (by decide) (by decide)
    (List.forall_mem_singleton.mpr ⟨by decide, by decide⟩)
  rw [read, ← value]
  rfl

end CoinbaseParser

/-! ### From the numbers to the grid -/

/-- A price of a whole number of units, not too many for a `double` to tell apart. -/
def OnGrid (grid : ℚ) (price : Numeral) : Prop :=
  ∃ ticks : Int, price.value = ticks * grid ∧ |ticks| < 2 ^ 50

/-- The price that is meant: the number of units as it is written. -/
def gridPrice (grid : ℚ) (price : Numeral) : Price := Price.fromDouble price.value grid

namespace WrittenLevel

/-- The price is on the grid, and both numbers are in the range of a `double`. -/
def OnGrid (grid : ℚ) (level : WrittenLevel) : Prop :=
  Trading.OnGrid grid level.price ∧ Normal level.price.value ∧ Normal level.qty.value

/-- The level as it is read. -/
def read (round : ℚ → Double) (level : WrittenLevel) : CoinbasePriceLevel :=
  ⟨rounded round level.price.value, rounded round level.qty.value⟩

/-- The level that is meant: its price is as written. -/
def level (round : ℚ → Double) (grid : ℚ) (level : WrittenLevel) : PriceLevel :=
  ⟨gridPrice grid level.price, ⟨rounded round level.qty.value⟩⟩

end WrittenLevel

namespace WrittenChange

/-- The price of the change is on the grid, and both of its numbers are normal. -/
def OnGrid (grid : ℚ) (change : WrittenChange) : Prop :=
  Trading.OnGrid grid change.price ∧ Normal change.price.value ∧ Normal change.qty.value

/-- The change in rounded numbers. -/
def read (round : ℚ → Double) (change : WrittenChange) : CoinbaseChange :=
  ⟨change.side, rounded round change.price.value, rounded round change.qty.value⟩

/-- The update that is meant. -/
def call (round : ℚ → Double) (grid : ℚ) (change : WrittenChange) : Call :=
  .update change.side (gridPrice grid change.price) ⟨rounded round change.qty.value⟩

end WrittenChange

namespace WrittenBody

/-- Every price of the message is on the grid. -/
def OnGrid (grid : ℚ) : WrittenBody → Prop
  | snapshot bids asks => (∀ level ∈ bids, level.OnGrid grid) ∧ ∀ level ∈ asks, level.OnGrid grid
  | l2Update changes => ∀ change ∈ changes, change.OnGrid grid
  | heartbeat _ | error _ | subscriptions => True

/-- The bids of a snapshot. -/
def bids : WrittenBody → List WrittenLevel
  | snapshot bids _ => bids
  | _ => []

/-- The asks of a snapshot. -/
def asks : WrittenBody → List WrittenLevel
  | snapshot _ asks => asks
  | _ => []

/-- The changes of an update. -/
def changes : WrittenBody → List WrittenChange
  | l2Update changes => changes
  | _ => []

/-- The message in rounded numbers. -/
def read (round : ℚ → Double) (body : WrittenBody) : CoinbaseMessage where
  type := body.type
  bids := body.bids.map fun level => level.read round
  asks := body.asks.map fun level => level.read round
  changes := body.changes.map fun change => change.read round

end WrittenBody

/-- An object that says a message of the venue, on its grid. -/
structure WireMessage (grid : ℚ) where
  message : WrittenMessage
  root : List (List Char × Json)
  writes : message.Writes root
  fits : message.body.Fits
  onGrid : message.body.OnGrid grid

/-- The message the client hands on for an object. -/
def CoinbaseParser.delivered (round : ℚ → Double) (root : List (List Char × Json)) :
    Option CoinbaseMessage :=
  match parse round (some (.object root)) with
  | (.ok, out) => out.message?
  | _ => none

theorem mapM_map_eq_some {Entry Parsed Read : Type} {f : Parsed → Option Read}
    {parsed : Entry → Parsed} {read : Entry → Read} {entries : List Entry}
    (each : ∀ entry ∈ entries, f (parsed entry) = some (read entry)) :
    (entries.map parsed).mapM f = some (entries.map read) := by
  induction entries with
  | nil => rfl
  | cons entry rest inductionHypothesis =>
    rw [List.map_cons, List.mapM_cons, each entry List.mem_cons_self,
      inductionHypothesis fun other member => each other (List.mem_cons_of_mem _ member)]
    rfl

section Grid

variable {round : ℚ → Double} {grid tickSize : ℚ}

/-- A price on the grid ends on its tick, through a rounded price, a rounded tick size and a rounded
quotient. -/
theorem fromDouble_rounded [DoubleDivision] (divides : RoundsNormal DoubleDivision.round)
    (rounds : RoundsToDouble round) (positive : 0 < grid)
    (near : OffBy doubleError grid tickSize) {price : Numeral} (onGrid : OnGrid grid price)
    (normal : Normal price.value) :
    Price.fromDouble (rounded round price.value) tickSize = gridPrice grid price := by
  obtain ⟨ticks, value, few⟩ := onGrid
  have valued := (rounds.finite normal).2
  have exact : gridPrice grid price = ⟨ticks⟩ := by
    rw [gridPrice, value]
    exact Price.fromDouble_toDouble ⟨ticks⟩ positive
  rw [exact]
  unfold Price.fromDouble
  congr 1
  exact Rounding.llround_div_eq divides positive few (value ▸ valued) near

/-- A level on the grid gets the tick it was written at. -/
theorem toLevel_read [DoubleDivision] (divides : RoundsNormal DoubleDivision.round)
    (rounds : RoundsToDouble round) (positive : 0 < grid)
    (near : OffBy doubleError grid tickSize) {level : WrittenLevel} (onGrid : level.OnGrid grid) :
    (level.read round).toLevel tickSize = level.level round grid :=
  congrArg (PriceLevel.mk · _)
    (fromDouble_rounded divides rounds positive near onGrid.1 onGrid.2.1)

theorem level?_parsed (rounds : RoundsToDouble round) {level : WrittenLevel}
    (onGrid : level.OnGrid grid) : (level.parsed round).level? = some (level.read round) := by
  unfold ParsedLevel.level? WrittenLevel.parsed
  dsimp only
  rw [(rounds.finite onGrid.2.1).1, (rounds.finite onGrid.2.2).1]
  rfl

theorem change?_parsed (rounds : RoundsToDouble round) {change : WrittenChange}
    (onGrid : change.OnGrid grid) : (change.parsed round).change? = some (change.read round) := by
  unfold ParsedChange.change? WrittenChange.parsed
  dsimp only
  rw [(rounds.finite onGrid.2.1).1, (rounds.finite onGrid.2.2).1]
  rfl

theorem message?_parsed (rounds : RoundsToDouble round) {message : WrittenMessage}
    (onGrid : message.body.OnGrid grid) :
    (message.parsed round).message? = some (message.body.read round) := by
  obtain ⟨productId, body⟩ := message
  unfold WrittenMessage.parsed ParsedMessage.message?
  cases body with
  | snapshot bids asks =>
    dsimp only
    rw [mapM_map_eq_some fun level listed => level?_parsed rounds (onGrid.1 level listed),
      mapM_map_eq_some fun level listed => level?_parsed rounds (onGrid.2 level listed)]
    rfl
  | l2Update changes =>
    dsimp only
    rw [mapM_map_eq_some fun change listed => change?_parsed rounds (onGrid change listed)]
    rfl
  | heartbeat | error | subscriptions => rfl

theorem delivered_wire (rounds : RoundsToDouble round) (wire : WireMessage grid) :
    CoinbaseParser.delivered round wire.root = some (wire.message.body.read round) := by
  have parsed : CoinbaseParser.parse round (some (.object wire.root)) =
      (.ok, wire.message.parsed round) := CoinbaseParser.parse_writes wire.writes wire.fits
  unfold CoinbaseParser.delivered
  rw [parsed]
  exact message?_parsed rounds wire.onGrid

end Grid

/-! ### From the wire to the book -/

/-- The calls on a plain map that a feed means: the levels of the snapshot that its event carries,
and then every change. -/
def wireCalls (round : ℚ → Double) (grid : ℚ) (snapshot : WrittenBody)
    (updates : List WrittenBody) : List Call :=
  levelCalls .bid ((snapshot.bids.take maxSnapLevels).map fun level => level.level round grid) ++
    levelCalls .ask ((snapshot.asks.take maxSnapLevels).map fun level =>
      level.level round grid) ++
    (updates.flatMap WrittenBody.changes).map fun change => change.call round grid

section Wire

variable {round : ℚ → Double} {grid tickSize : ℚ}

/-- So do the levels of a side. -/
theorem levels_read [DoubleDivision] (divides : RoundsNormal DoubleDivision.round)
    (rounds : RoundsToDouble round) (positive : 0 < grid)
    (near : OffBy doubleError grid tickSize) {levels : List WrittenLevel}
    (onGrid : ∀ level ∈ levels, level.OnGrid grid) :
    ((levels.map fun level => level.read round).take maxSnapLevels).map
        (fun level => level.toLevel tickSize) =
      (levels.take maxSnapLevels).map fun level => level.level round grid := by
  rw [← List.map_take, List.map_map]
  exact List.map_congr_left fun level listed =>
    toLevel_read divides rounds positive near (onGrid level (List.mem_of_mem_take listed))

/-- Changes on the grid become the calls that were meant. -/
theorem changeCalls_read [DoubleDivision] (divides : RoundsNormal DoubleDivision.round)
    (rounds : RoundsToDouble round) (positive : 0 < grid)
    (near : OffBy doubleError grid tickSize) {changes : List WrittenChange}
    (onGrid : ∀ change ∈ changes, change.OnGrid grid) :
    changeCalls tickSize (changes.map fun change => change.read round) =
      changes.map fun change => change.call round grid := by
  unfold changeCalls
  rw [List.map_map]
  refine List.map_congr_left fun change listed => ?_
  obtain ⟨gridded, normal, -⟩ := onGrid change listed
  show Call.update _ (Price.fromDouble (rounded round change.price.value) tickSize) _ = _
  rw [fromDouble_rounded divides rounds positive near gridded normal]
  rfl

theorem WrittenBody.onGrid_parts {body : WrittenBody} (onGrid : body.OnGrid grid) :
    (∀ level ∈ body.bids, level.OnGrid grid) ∧ (∀ level ∈ body.asks, level.OnGrid grid) ∧
      ∀ change ∈ body.changes, change.OnGrid grid := by
  have noLevel : ∀ level ∈ ([] : List WrittenLevel), level.OnGrid grid := fun _ listed =>
    absurd listed List.not_mem_nil
  have noChange : ∀ change ∈ ([] : List WrittenChange), change.OnGrid grid := fun _ listed =>
    absurd listed List.not_mem_nil
  cases body with
  | snapshot bids asks => exact ⟨onGrid.1, onGrid.2, noChange⟩
  | l2Update changes => exact ⟨noLevel, noLevel, onGrid⟩
  | heartbeat | error | subscriptions => exact ⟨noLevel, noLevel, noChange⟩

/-- The calls the runtime makes for a feed as it is read are those it means. -/
theorem feedCalls_read [DoubleDivision] (divides : RoundsNormal DoubleDivision.round)
    (rounds : RoundsToDouble round) (positive : 0 < grid)
    (near : OffBy doubleError grid tickSize) (snapshot : WireMessage grid)
    (updates : List (WireMessage grid × Timestamp)) :
    feedCalls tickSize (snapshot.message.body.read round).truncated
        (updates.map fun update => (update.1.message.body.read round, update.2)) =
      wireCalls round grid snapshot.message.body
        (updates.map fun update => update.1.message.body) := by
  obtain ⟨bids, asks, -⟩ := WrittenBody.onGrid_parts snapshot.onGrid
  have changes : ((updates.map fun update =>
        (update.1.message.body.read round, update.2)).flatMap fun message => message.1.changes) =
      ((updates.map fun update => update.1.message.body).flatMap WrittenBody.changes).map
        fun change => change.read round := by
    rw [List.flatMap_map, List.flatMap_map, List.map_flatMap]
    rfl
  have each : ∀ change ∈ (updates.map fun update => update.1.message.body).flatMap
      WrittenBody.changes, change.OnGrid grid := by
    intro change listed
    obtain ⟨body, found, inside⟩ := List.mem_flatMap.mp listed
    obtain ⟨update, -, rfl⟩ := List.mem_map.mp found
    exact (WrittenBody.onGrid_parts update.1.onGrid).2.2 change inside
  unfold feedCalls wireCalls
  rw [changes, changeCalls_read divides rounds positive near each]
  show levelCalls .bid (((snapshot.message.body.bids.map _).take maxSnapLevels).map _) ++
    levelCalls .ask (((snapshot.message.body.asks.map _).take maxSnapLevels).map _) ++ _ = _
  rw [levels_read divides rounds positive near bids,
    levels_read divides rounds positive near asks]

/-- The book of a truncated feed inside a band agrees with its reference map. -/
theorem agrees_feed [DoubleDivision] {low : Int} {snapshot : CoinbaseMessage}
    {updates : List (CoinbaseMessage × Timestamp)}
    (inside : ∀ call ∈ feedCalls tickSize snapshot.truncated updates,
      call.InBand bookCapacity low) :
    BoundedBook.Agrees low
      (((MarketEvent.Snap.ofMessage snapshot tickSize).calls ++
        changeCalls tickSize (updates.flatMap fun message => message.1.changes)).foldl
          BoundedBook.call (BoundedBook.fresh bookCapacity))
      (ReferenceBook.run (feedCalls tickSize snapshot.truncated updates)) := by
  have bidsInside : ∀ call ∈ levelCalls .bid (snapshot.truncated.bidLevels tickSize),
      call.InBand bookCapacity low := fun call member =>
    inside call (List.mem_append_left _ (List.mem_append_left _ member))
  have asksInside : ∀ call ∈ levelCalls .ask (snapshot.truncated.askLevels tickSize),
      call.InBand bookCapacity low := fun call member =>
    inside call (List.mem_append_left _ (List.mem_append_right _ member))
  rw [snapCalls_append_changeCalls, ← ReferenceBook.run_anchored]
  refine (BoundedBook.Agrees.fresh low).foldl _ fun call member => ?_
  rcases List.mem_cons.mp member with rfl | later
  · trivial
  · rcases List.mem_append.mp later with anchoring | feeding
    · exact anchorCalls_inBand bidsInside asksInside call anchoring
    · exact inside call feeding

/-- What was received are the messages as they are read. -/
theorem received_read (rounds : RoundsToDouble round)
    {received : List (CoinbaseMessage × Timestamp)} {wires : List (WireMessage grid × Timestamp)}
    (delivered : received.map (fun message => (some message.1, message.2)) =
      wires.map fun wire => (CoinbaseParser.delivered round wire.1.root, wire.2)) :
    received = wires.map fun wire => (wire.1.message.body.read round, wire.2) := by
  have injective : Function.Injective
      fun message : CoinbaseMessage × Timestamp => (some message.1, message.2) := by
    rintro ⟨first, firstTs⟩ ⟨second, secondTs⟩ same
    obtain ⟨messages, stamps⟩ := Prod.mk.inj same
    exact Prod.ext (Option.some.inj messages) stamps
  refine List.map_injective_iff.mpr injective (delivered.trans ?_)
  rw [List.map_map]
  exact List.map_congr_left fun wire _ => congrArg (Prod.mk · wire.2) (delivered_wire rounds wire.1)

end Wire

namespace System

/-- On one connection with no event lost, once everything is handled, the book lists what the
venue wrote, at the ticks it wrote: the plain map of the first `maxSnapLevels` levels of each side
of the snapshot and every change after it, all inside a band of half the capacity. Neither the
prices nor the tick size nor a quotient of the two have to be exact for it. -/
theorem book_of_wire [DoubleDivision] (divides : RoundsNormal DoubleDivision.round)
    (cfg : RuntimeConfig) (s : System)
    (reached : Reaches step OneConnection (initial cfg) s)
    (kept : s.rt.metrics.queueFullDrops = 0) (settled : s.Settled) (round : ℚ → Double)
    (rounds : RoundsToDouble round) (grid : ℚ) (positive : 0 < grid)
    (near : OffBy doubleError grid cfg.tickSize) (snapshot : WireMessage grid) (recvTs : Timestamp)
    (updates : List (WireMessage grid × Timestamp))
    (received : s.received.map (fun message => (some message.1, message.2)) =
      ((snapshot, recvTs) :: updates).map fun wire =>
        (CoinbaseParser.delivered round wire.1.root, wire.2))
    (low : Int)
    (inside : ∀ call ∈ wireCalls round grid snapshot.message.body
      (updates.map fun update => update.1.message.body), call.InBand bookCapacity low)
    (side : Side) :
    let reference := ReferenceBook.run (wireCalls round grid snapshot.message.body
      (updates.map fun update => update.1.message.body))
    s.rt.book.topOfBook side = reference.best side ∧
      ∀ n, s.rt.book.depth side n = (reference.levels side).take n := by
  intro reference
  have messages := received_read rounds received
  have same := feedCalls_read divides rounds positive near snapshot updates
  have agrees := agrees_feed (same ▸ inside)
  rw [same, ← book_of_settled reached kept settled messages] at agrees
  exact agrees.queries side

/-- A snapshot of three at 1 and one at 1.20. -/
def quoteWire : WireMessage (1 / 100) where
  message := ⟨none, .snapshot
    [⟨⟨.none, ⟨"1".toList, none, none, List.all_eq_true.mp rfl, by decide⟩⟩,
      ⟨.none, ⟨"3".toList, none, none, List.all_eq_true.mp rfl, by decide⟩⟩⟩]
    [⟨⟨.none, ⟨"1".toList, some "20".toList, none, List.all_eq_true.mp rfl, by decide⟩⟩,
      ⟨.none, ⟨"1".toList, none, none, List.all_eq_true.mp rfl, by decide⟩⟩⟩]⟩
  root := [("type".toList, .string "snapshot".toList),
    ("bids".toList, .array [.array [.string "1".toList, .string "3".toList]]),
    ("asks".toList, .array [.array [.string "1.20".toList, .string "1".toList]])]
  writes := ⟨rfl, rfl, List.forall_mem_cons.mpr ⟨rfl, List.forall_mem_singleton.mpr rfl⟩⟩
  fits := ⟨List.forall_mem_singleton.mpr ⟨by decide, by decide⟩,
    List.forall_mem_singleton.mpr ⟨by decide, by decide⟩⟩
  onGrid := ⟨List.forall_mem_singleton.mpr ⟨⟨100, by decide +kernel, by decide⟩,
      normal_of_one_le (by decide +kernel) (by decide +kernel),
      normal_of_one_le (by decide +kernel) (by decide +kernel)⟩,
    List.forall_mem_singleton.mpr ⟨⟨120, by decide +kernel, by decide⟩,
      normal_of_one_le (by decide +kernel) (by decide +kernel),
      normal_of_one_le (by decide +kernel) (by decide +kernel)⟩⟩

/-- An update that lifts the bid to 1.15. -/
def liftWire : WireMessage (1 / 100) where
  message := ⟨none, .l2Update
    [⟨.bid, ⟨.none, ⟨"1".toList, some "15".toList, none, List.all_eq_true.mp rfl, by decide⟩⟩,
      ⟨.none, ⟨"2".toList, none, none, List.all_eq_true.mp rfl, by decide⟩⟩⟩]⟩
  root := [("type".toList, .string "l2update".toList),
    ("changes".toList, .array [.array
      [.string "buy".toList, .string "1.15".toList, .string "2".toList]])]
  writes := ⟨rfl, rfl, List.forall_mem_singleton.mpr rfl⟩
  fits := List.forall_mem_singleton.mpr ⟨by decide, by decide⟩
  onGrid := List.forall_mem_singleton.mpr ⟨⟨115, by decide +kernel, by decide⟩,
    normal_of_one_le (by decide +kernel) (by decide +kernel),
    normal_of_one_le (by decide +kernel) (by decide +kernel)⟩

/-- Quotients are rounded to 53 binary digits. -/
abbrev nearestDivision : DoubleDivision := ⟨nearest⟩

/-- The tick size a cent is rounded to. -/
def nearCent : RuntimeConfig where
  tickSize := nearest (1 / 100)

/-- A lifted bid behind a snapshot, as the venue writes them: neither the tick size nor the price
nor their quotient is what it stands for, and yet the bid is found at tick 115. -/
theorem book_of_wire_nearest :
    nearest (1 / 100) ≠ 1 / 100 ∧ nearest (115 / 100) ≠ 115 / 100 ∧
      nearest (nearest (115 / 100) / nearest (1 / 100)) ≠ 115 ∧
      ∃ s, Reaches (@step nearestDivision) OneConnection (initial nearCent) s ∧
        (s.received.flatMap fun message => message.1.changes) = [⟨.bid, nearest (115 / 100), 2⟩] ∧
        s.rt.book.topOfBook .bid = some ⟨⟨115⟩, ⟨2⟩⟩ := by
  refine ⟨by decide +kernel, by decide +kernel, by decide +kernel, ?_⟩
  let round : ℚ → Double := fun value => .finite (nearest value)
  obtain ⟨s, reached, received, kept, settled⟩ := @reaches_updated nearestDivision nearCent
    (quoteWire.message.body.read round) (liftWire.message.body.read round) rfl rfl 1 7 _ _ rfl rfl
  refine ⟨s, reached, ?_, ?_⟩
  · rw [received]
    decide +kernel
  have delivered : s.received.map (fun message => (some message.1, message.2)) =
      [(quoteWire, (1 : Timestamp)), (liftWire, 7)].map fun wire =>
        (CoinbaseParser.delivered round wire.1.root, wire.2) := by
    rw [received, List.map_cons, List.map_singleton, List.map_cons, List.map_singleton,
      delivered_wire roundsToDouble_nearest, delivered_wire roundsToDouble_nearest]
  have near : OffBy doubleError (1 / 100) nearCent.tickSize := offBy_nearest _
  rw [(@book_of_wire nearestDivision roundsNormal_nearest nearCent s reached kept settled round
    roundsToDouble_nearest (1 / 100) (by norm_num) near quoteWire 1 [(liftWire, 7)] delivered 0
    (by decide +kernel) .bid).1]
  decide +kernel

end System

end Trading

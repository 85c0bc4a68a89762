/-
This file is the feed parser of `coinbase_parser.cpp`, from the JSON tree that `simdjson`
delivers to the message. A missing document stands for a text that is no JSON.

The parser reads an entry item by item with a counter of the fields filled so far. An item
that is no string, or no number where one is due, is passed over and leaves the counter as it
is, so a later item fills the field instead.

A number is what `strtod` reads at the start of a text, rounded to a `double` by a function
that is left open: what the parser accepts does not depend on it.
-/

import TradingEngine.Feed
import TradingEngine.Lib.Strtod

namespace Trading

open Strtod (Double)

/-- A value of the document tree, a number as its literal. -/
inductive Json where
  | null
  | bool (value : Bool)
  | number (literal : List Char)
  | string (text : List Char)
  | array (items : List Json)
  | object (fields : List (List Char × Json))

namespace Json

/-- The text of a string; every other value is an error. -/
def getString : Json → Option (List Char)
  | string text => some text
  | _ => none

/-- The items of an array; every other value is an error. -/
def getArray : Json → Option (List Json)
  | array items => some items
  | _ => none

/-- The fields of an object; every other value is an error. -/
def getObject : Json → Option (List (List Char × Json))
  | object fields => some fields
  | _ => none

/-- A number without sign, point and exponent that fits 64 bits. -/
def getUint64 : Json → Option Nat
  | number literal =>
    let value := Strtod.decimal.natOf literal
    if literal.all Char.isDigit ∧ value < 2 ^ 64 then some value else none
  | _ => none

end Json

/-- The value of a field of an object. -/
def field (root : List (List Char × Json)) (key : List Char) : Option Json :=
  (root.find? fun entry => entry.1 = key).map Prod.snd

/-- What `parse` returns. -/
inductive Error where
  | ok
  | parseMalformedJson
  | parseUnexpectedShape
deriving DecidableEq, Repr

/-- A price level as it is parsed. -/
structure ParsedLevel where
  price : Double
  qty : Double
deriving DecidableEq, Repr

/-- A change as it is parsed. -/
structure ParsedChange where
  side : Side
  price : Double
  qty : Double
deriving DecidableEq, Repr

/-- A message as it is parsed, with its fields cleared. -/
structure ParsedMessage where
  type : CoinbaseMsgType := .unknown
  productId : List Char := []
  bids : List ParsedLevel := []
  asks : List ParsedLevel := []
  changes : List ParsedChange := []
  sequence : Nat := 0
  errorMessage : List Char := []
deriving DecidableEq, Repr

/-- The level in numbers, if both of its fields are finite. -/
def ParsedLevel.level? (level : ParsedLevel) : Option CoinbasePriceLevel :=
  level.price.value?.bind fun price => level.qty.value?.map fun qty => ⟨price, qty⟩

/-- The change in numbers, if both of its fields are finite. -/
def ParsedChange.change? (change : ParsedChange) : Option CoinbaseChange :=
  change.price.value?.bind fun price => change.qty.value?.map fun qty => ⟨change.side, price, qty⟩

/-- The message the runtime is handed, if all its numbers are finite. -/
def ParsedMessage.message? (parsed : ParsedMessage) : Option CoinbaseMessage :=
  (parsed.bids.mapM ParsedLevel.level?).bind fun bids =>
    (parsed.asks.mapM ParsedLevel.level?).bind fun asks =>
      (parsed.changes.mapM ParsedChange.change?).map fun changes =>
        ⟨parsed.type, bids, asks, changes⟩

namespace CoinbaseParser

/-- The type a message names; an unknown name is no error. -/
def typeFromString (text : List Char) : CoinbaseMsgType :=
  if text = "subscriptions".toList then .subscriptions
  else if text = "snapshot".toList then .snapshot
  else if text = "l2update".toList then .l2Update
  else if text = "heartbeat".toList then .heartbeat
  else if text = "error".toList then .error
  else .unknown

/-- The bytes of the buffer a number is copied to, with its terminator. -/
def bufferSize : Nat := 64

/-- The size of a text in bytes. -/
def byteSize (text : List Char) : Nat := (text.map Char.utf8Size).sum

section Parse

variable (round : ℚ → Double)

/-- Read the number at the start of a text that fits the buffer; what follows it is ignored. -/
def parseDouble (text : List Char) : Option Double :=
  if bufferSize ≤ byteSize text then none
  else
    (Strtod.strtod text).map fun read =>
      match read.1 with
      | .finite value => round value
      | other => other

/-- What the loop over a level has filled. The values of a field that is not filled yet are
never read. -/
structure LevelLoop where
  slot : Nat := 0
  price : Double := .finite 0
  qty : Double := .finite 0

/-- One round of the loop over the items of a level: an item without a number is skipped. -/
def levelStep (loop : LevelLoop) (item : Json) : LevelLoop :=
  match item.getString with
  | none => loop
  | some text =>
    match parseDouble round text with
    | none => loop
    | some value =>
      { slot := loop.slot + 1
        price := if loop.slot = 0 then value else loop.price
        qty := if loop.slot = 1 then value else loop.qty }

/-- The level of one array, unless two of its fields stay empty. -/
def parseLevel (items : List Json) : Option ParsedLevel :=
  let loop := items.foldl (levelStep round) {}
  if 2 ≤ loop.slot then some ⟨loop.price, loop.qty⟩ else none

/-- What the loop over a change has filled. -/
structure ChangeLoop where
  slot : Nat := 0
  side : Side := .bid
  price : Double := .finite 0
  qty : Double := .finite 0

/-- One round of the loop over the items of a change: the first string is the side. -/
def changeStep (loop : ChangeLoop) (item : Json) : ChangeLoop :=
  match item.getString with
  | none => loop
  | some text =>
    if loop.slot = 0 then
      { loop with slot := 1, side := if text = "buy".toList then .bid else .ask }
    else
      match parseDouble round text with
      | none => loop
      | some value =>
        { loop with
          slot := loop.slot + 1
          price := if loop.slot = 1 then value else loop.price
          qty := if loop.slot = 2 then value else loop.qty }

/-- The change of one array, unless one of its three fields stays empty. -/
def parseChange (items : List Json) : Option ParsedChange :=
  let loop := items.foldl (changeStep round) {}
  if 3 ≤ loop.slot then some ⟨loop.side, loop.price, loop.qty⟩ else none

/-- The arrays in a field of an object. -/
def arrays (root : List (List Char × Json)) (key : List Char) : List (List Json) :=
  (((field root key).bind Json.getArray).getD []).filterMap Json.getArray

/-- The fields of a message of a known type. -/
def fill (root : List (List Char × Json)) (out : ParsedMessage) : ParsedMessage :=
  match out.type with
  | .snapshot =>
    { out with
      bids := (arrays root "bids".toList).filterMap (parseLevel round)
      asks := (arrays root "asks".toList).filterMap (parseLevel round) }
  | .l2Update =>
    { out with changes := (arrays root "changes".toList).filterMap (parseChange round) }
  | .heartbeat =>
    { out with sequence := ((field root "sequence".toList).bind Json.getUint64).getD 0 }
  | .error =>
    { out with errorMessage := ((field root "message".toList).bind Json.getString).getD [] }
  | .subscriptions | .unknown => out

/-- Parse a document, if the library delivers one. Without a root object or a type nothing is
filled. -/
def parse (document : Option Json) : Error × ParsedMessage :=
  match document.bind Json.getObject with
  | none => (.parseMalformedJson, {})
  | some root =>
    match (field root "type".toList).bind Json.getString with
    | none => (.parseUnexpectedShape, {})
    | some type =>
      (.ok, fill round root
        { type := typeFromString type
          productId := ((field root "product_id".toList).bind Json.getString).getD [] })

end Parse

end CoinbaseParser

end Trading

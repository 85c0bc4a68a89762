/-
This file compares what the parser accepts with the venue's grammar: a level is two decimal
numbers, a change is one of the two sides and two decimal numbers, each a string of its own
and all of it, at the start of the array.

The parser looks for less. It takes the first string of a change as a side whatever it says,
and the first two strings with a number at their start, wherever they stand, as price and
quantity; and it does not see a number that does not fit its buffer. The conditions under
which an entry is read as the grammar says are exact.
-/

import TradingEngine.CoinbaseParser

namespace Trading

namespace CoinbaseParser

open Strtod (Double decimal?)

variable (round : ℚ → Double)

/-! ### The venue's grammar -/

/-- A side of the grammar: one of two words. -/
def venueSide (text : List Char) : Option Side :=
  if text = "buy".toList then some .bid
  else if text = "sell".toList then some .ask
  else none

/-- The value of a string that is a decimal number in its entirety. -/
def venueNumber : Json → Option Double
  | .string text => (decimal? text).map round
  | _ => none

/-- A level of the grammar: its price and its quantity come first. -/
def venueLevel : List Json → Option ParsedLevel
  | price :: qty :: _ =>
    (venueNumber round price).bind fun price =>
      (venueNumber round qty).map fun qty => ⟨price, qty⟩
  | _ => none

/-- A change of the grammar: its side, its price and its quantity come first. -/
def venueChange : List Json → Option ParsedChange
  | side :: price :: qty :: _ =>
    (side.getString.bind venueSide).bind fun side =>
      (venueNumber round price).bind fun price =>
        (venueNumber round qty).map fun qty => ⟨side, price, qty⟩
  | _ => none

/-! ### What the loops find -/

/-- The strings among some items. -/
def strings (items : List Json) : List (List Char) := items.filterMap Json.getString

/-- The numbers among some texts. -/
def numbers (texts : List (List Char)) : List Double := texts.filterMap (parseDouble round)

theorem strings_concat (items : List Json) (item : Json) :
    strings (items ++ [item]) = strings items ++ item.getString.toList := by
  unfold strings
  rw [List.filterMap_append]
  cases found : item.getString with
  | none => simp [found]
  | some text => simp [found]

theorem numbers_concat (texts : List (List Char)) (text : List Char) :
    numbers round (texts ++ [text]) = numbers round texts ++ (parseDouble round text).toList := by
  unfold numbers
  rw [List.filterMap_append]
  cases found : parseDouble round text with
  | none => simp [found]
  | some value => simp [found]

/-- The first two of some numbers. -/
def firstTwo : List Double → Option (Double × Double)
  | price :: qty :: _ => some (price, qty)
  | _ => none

theorem firstTwo_eq_none_iff {found : List Double} : firstTwo found = none ↔ found.length < 2 := by
  match found with
  | [] | [_] => simp [firstTwo]
  | _ :: _ :: rest => simp [firstTwo]

theorem firstTwo_eq_some_iff {found : List Double} {price qty : Double} :
    firstTwo found = some (price, qty) ↔ found.take 2 = [price, qty] := by
  match found with
  | [] | [_] => simp [firstTwo]
  | first :: second :: rest => simp [firstTwo]

/-- Two fields that a loop has filled with the first of some numbers. -/
structure Filled (found : List Double) (slot : Nat) (price qty : Double) : Prop where
  slot : slot = found.length
  price : price = (found[0]?).getD (.finite 0)
  qty : qty = (found[1]?).getD (.finite 0)

/-- One more number goes to the next field, if there is one left. -/
theorem Filled.concat {found : List Double} {slot : Nat} {price qty : Double}
    (filled : Filled found slot price qty) (value : Double) :
    Filled (found ++ [value]) (slot + 1) (if slot = 0 then value else price)
      (if slot = 1 then value else qty) := by
  obtain ⟨rfl, rfl, rfl⟩ := filled
  match found with
  | [] => exact ⟨rfl, rfl, rfl⟩
  | [first] => exact ⟨rfl, rfl, rfl⟩
  | first :: second :: rest =>
    refine ⟨by rw [List.length_append]; rfl, ?_, ?_⟩
    · exact if_neg (by simp)
    · exact if_neg (by simp)

theorem Filled.firstTwo {found : List Double} {slot : Nat} {price qty : Double}
    (filled : Filled found slot price qty) :
    (if 2 ≤ slot then some (price, qty) else none) = firstTwo found := by
  obtain ⟨rfl, rfl, rfl⟩ := filled
  match found with
  | [] | [_] => rfl
  | first :: second :: rest => exact if_pos (by simp)

theorem levelLoop_filled (items : List Json) :
    let loop := items.foldl (levelStep round) {}
    Filled (numbers round (strings items)) loop.slot loop.price loop.qty := by
  induction items using List.reverseRecOn with
  | nil => exact ⟨rfl, rfl, rfl⟩
  | append_singleton items item inductionHypothesis =>
    rw [List.foldl_append, List.foldl_cons, List.foldl_nil, strings_concat]
    generalize items.foldl (levelStep round) {} = loop at inductionHypothesis ⊢
    unfold levelStep
    cases item.getString with
    | none =>
      rw [Option.toList_none, List.append_nil]
      exact inductionHypothesis
    | some text =>
      rw [Option.toList_some, numbers_concat]
      dsimp only
      cases parseDouble round text with
      | none =>
        rw [Option.toList_none, List.append_nil]
        exact inductionHypothesis
      | some value => exact inductionHypothesis.concat value

/-- A level is the first two numbers. -/
theorem parseLevel_eq (items : List Json) :
    parseLevel round items =
      (firstTwo (numbers round (strings items))).map fun found => ⟨found.1, found.2⟩ := by
  rw [← (levelLoop_filled round items).firstTwo]
  unfold parseLevel
  dsimp only
  split <;> rfl

/-- What the loop over a change has filled once it has seen some strings. -/
def ChangeFilled (loop : ChangeLoop) : List (List Char) → Prop
  | [] => Filled [] loop.slot loop.price loop.qty
  | side :: texts =>
    loop.side = (if side = "buy".toList then .bid else .ask) ∧
      ∃ slot, loop.slot = slot + 1 ∧ Filled (numbers round texts) slot loop.price loop.qty

theorem changeLoop_filled (items : List Json) :
    ChangeFilled round (items.foldl (changeStep round) {}) (strings items) := by
  induction items using List.reverseRecOn with
  | nil => exact ⟨rfl, rfl, rfl⟩
  | append_singleton items item inductionHypothesis =>
    rw [List.foldl_append, List.foldl_cons, List.foldl_nil, strings_concat]
    generalize items.foldl (changeStep round) {} = loop at inductionHypothesis ⊢
    unfold changeStep
    cases item.getString with
    | none =>
      rw [Option.toList_none, List.append_nil]
      exact inductionHypothesis
    | some text =>
      rw [Option.toList_some]
      dsimp only
      cases found : strings items with
      | nil =>
        rw [found] at inductionHypothesis
        obtain ⟨slot, price, qty⟩ := inductionHypothesis
        rw [if_pos (show loop.slot = 0 from slot)]
        exact ⟨rfl, 0, rfl, rfl, price, qty⟩
      | cons side texts =>
        rw [found] at inductionHypothesis
        obtain ⟨sided, slot, counted, numbered⟩ := inductionHypothesis
        rw [if_neg (by omega : ¬loop.slot = 0)]
        cases read : parseDouble round text with
        | none =>
          refine ⟨sided, slot, counted, ?_⟩
          rw [List.append_eq, numbers_concat, read, Option.toList_none, List.append_nil]
          exact numbered
        | some value =>
          have first : (loop.slot = 1) = (slot = 0) := by simp [counted]
          have second : (loop.slot = 2) = (slot = 1) := by simp [counted]
          refine ⟨sided, slot + 1, congrArg Nat.succ counted, ?_⟩
          rw [List.append_eq, numbers_concat, read, Option.toList_some]
          simp only [first, second]
          exact numbered.concat value

/-- A change is the first string and the first two numbers after it. -/
theorem parseChange_eq (items : List Json) :
    parseChange round items = match strings items with
      | [] => none
      | side :: texts => (firstTwo (numbers round texts)).map fun found =>
        ⟨if side = "buy".toList then .bid else .ask, found.1, found.2⟩ := by
  have filled := changeLoop_filled round items
  unfold parseChange
  generalize items.foldl (changeStep round) {} = loop at filled ⊢
  cases found : strings items with
  | nil =>
    rw [found] at filled
    exact if_neg (by rw [show loop.slot = 0 from filled.slot]; decide)
  | cons side texts =>
    rw [found] at filled
    obtain ⟨sided, slot, counted, numbered⟩ := filled
    dsimp only
    rw [← numbered.firstTwo, counted, sided]
    simp only [Nat.reduceLeDiff]
    split <;> rfl

/-! ### When an entry is read as the grammar says -/

/-- The text fits the buffer. -/
def Short (text : List Char) : Prop := byteSize text < bufferSize

instance (text : List Char) : Decidable (Short text) := inferInstanceAs (Decidable (_ < _))

/-- The parser takes the text as a number: it fits the buffer and `strtod` reads a number at its
start. -/
def Readable (text : List Char) : Prop := Short text ∧ (Strtod.strtod text).isSome

instance (text : List Char) : Decidable (Readable text) := inferInstanceAs (Decidable (_ ∧ _))

theorem parseDouble_isSome_iff (text : List Char) :
    (parseDouble round text).isSome ↔ Readable text := by
  unfold parseDouble Readable
  split
  · rename_i long
    exact iff_of_false (by decide) fun readable => not_le.mpr readable.1 long
  · rename_i short
    rw [Option.isSome_map]
    exact ⟨fun read => ⟨not_le.mp short, read⟩, And.right⟩

theorem length_numbers (texts : List (List Char)) :
    (numbers round texts).length = texts.countP Readable := by
  rw [numbers, List.length_filterMap_eq_countP]
  refine List.countP_congr fun text _ => ?_
  rw [parseDouble_isSome_iff, decide_eq_true_iff]

variable {round} in
theorem parseDouble_of_decimal? {text : List Char} {value : ℚ} (short : Short text)
    (read : decimal? text = some value) : parseDouble round text = some (round value) := by
  unfold parseDouble
  rw [if_neg (not_le.mpr short), Strtod.strtod_of_decimal? read]
  rfl

/-- Two decimal numbers that some texts begin with are read as what they are: both fit the
buffer, or others of the same values take the place of those that do not. -/
def Stands (texts : List (List Char)) (price qty : Double) : Prop :=
  (∀ text ∈ texts.take 2, Short text) ∨
    (¬∀ text ∈ texts.take 2, Short text) ∧ (numbers round texts).take 2 = [price, qty]

/-- A level of the grammar is read as what it is, and another array has less than two strings
with a number at their start. -/
def ReadsLevel (items : List Json) : Prop :=
  match venueLevel round items with
  | some level => Stands round (strings items) level.price level.qty
  | none => (strings items).countP Readable < 2

/-- A change of the grammar is read as what it is, and another array has, after its first string,
less than two strings with a number at their start. -/
def ReadsChange (items : List Json) : Prop :=
  match venueChange round items with
  | some change => Stands round (strings items).tail change.price change.qty
  | none => (strings items).tail.countP Readable < 2

variable {round}

/-- Two decimal numbers stand exactly if they are the first two numbers the loop finds. -/
theorem stands_iff {first second : List Char} {texts : List (List Char)} {price qty : ℚ}
    (one : decimal? first = some price) (two : decimal? second = some qty) :
    Stands round (first :: second :: texts) (round price) (round qty) ↔
      (numbers round (first :: second :: texts)).take 2 = [round price, round qty] := by
  by_cases short : ∀ text ∈ (first :: second :: texts).take 2, Short text
  · refine iff_of_true (Or.inl short) ?_
    have firstShort := short first (by simp)
    have secondShort := short second (by simp)
    rw [numbers, List.filterMap_cons_some (parseDouble_of_decimal? firstShort one),
      List.filterMap_cons_some (parseDouble_of_decimal? secondShort two)]
    rfl
  · exact ⟨fun stands => (stands.resolve_left short).2, fun same => Or.inr ⟨short, same⟩⟩

theorem venueNumber_eq_some {item : Json} {value : Double}
    (read : venueNumber round item = some value) :
    ∃ text number, item = .string text ∧ decimal? text = some number ∧ round number = value := by
  cases item with
  | string text =>
    obtain ⟨number, found, same⟩ := Option.map_eq_some_iff.mp read
    exact ⟨text, number, rfl, found, same⟩
  | null | bool | number | array | object => cases read

theorem map_firstTwo_iff {Entry : Type} {make : Double → Double → Entry}
    (injective : ∀ a b c d, make a b = make c d → a = c ∧ b = d) {found : List Double}
    {price qty : Double} :
    (firstTwo found).map (fun two => make two.1 two.2) = some (make price qty) ↔
      found.take 2 = [price, qty] := by
  rw [← firstTwo_eq_some_iff, Option.map_eq_some_iff]
  constructor
  · rintro ⟨⟨first, second⟩, same, made⟩
    obtain ⟨rfl, rfl⟩ := injective _ _ _ _ made
    exact same
  · intro same
    exact ⟨_, same, rfl⟩

theorem parseLevel_iff (items : List Json) :
    parseLevel round items = venueLevel round items ↔ ReadsLevel round items := by
  rw [parseLevel_eq, ReadsLevel]
  cases venue : venueLevel round items with
  | none => rw [Option.map_eq_none_iff, firstTwo_eq_none_iff, length_numbers]
  | some level =>
    match items with
    | [] | [_] => cases venue
    | first :: second :: rest =>
      obtain ⟨price, priced, more⟩ := Option.bind_eq_some_iff.mp venue
      obtain ⟨qty, sized, rfl⟩ := Option.map_eq_some_iff.mp more
      obtain ⟨one, oneValue, rfl, oneRead, rfl⟩ := venueNumber_eq_some priced
      obtain ⟨two, twoValue, rfl, twoRead, rfl⟩ := venueNumber_eq_some sized
      show _ ↔ Stands round (one :: two :: strings rest) (round oneValue) (round twoValue)
      rw [stands_iff oneRead twoRead]
      exact @map_firstTwo_iff _ ParsedLevel.mk (fun _ _ _ _ => ParsedLevel.mk.inj) _ _ _

theorem venueSide_eq_some {text : List Char} {side : Side} (read : venueSide text = some side) :
    side = if text = "buy".toList then .bid else .ask := by
  unfold venueSide at read
  split at read
  · rename_i buys
    rw [if_pos buys, ← Option.some.inj read]
  · rename_i sells
    split at read
    · rw [if_neg sells, ← Option.some.inj read]
    · cases read

theorem parseChange_iff (items : List Json) :
    parseChange round items = venueChange round items ↔ ReadsChange round items := by
  rw [parseChange_eq, ReadsChange]
  cases venue : venueChange round items with
  | none =>
    cases strings items with
    | nil => exact iff_of_true rfl Nat.zero_lt_two
    | cons side texts =>
      dsimp only [List.tail_cons]
      rw [Option.map_eq_none_iff, firstTwo_eq_none_iff, length_numbers]
  | some change =>
    match items with
    | [] | [_] | [_, _] => cases venue
    | word :: first :: second :: rest =>
      obtain ⟨side, sided, more⟩ := Option.bind_eq_some_iff.mp venue
      obtain ⟨price, priced, more⟩ := Option.bind_eq_some_iff.mp more
      obtain ⟨qty, sized, rfl⟩ := Option.map_eq_some_iff.mp more
      obtain ⟨text, read, named⟩ := Option.bind_eq_some_iff.mp sided
      obtain ⟨one, oneValue, rfl, oneRead, rfl⟩ := venueNumber_eq_some priced
      obtain ⟨two, twoValue, rfl, twoRead, rfl⟩ := venueNumber_eq_some sized
      have texts : strings (word :: .string one :: .string two :: rest) =
          text :: one :: two :: strings rest := List.filterMap_cons_some read
      rw [texts]
      dsimp only [List.tail_cons]
      rw [stands_iff oneRead twoRead, venueSide_eq_some named]
      exact @map_firstTwo_iff _ (ParsedChange.mk _)
        (fun _ _ _ _ same => (ParsedChange.mk.inj same).2) _ _ _

/-! ### A message as a whole -/

theorem fill_type (root : List (List Char × Json)) (out : ParsedMessage) :
    (fill round root out).type = out.type := by
  unfold fill
  split <;> rfl

/-- The changes of an update are read one by one, and in order. -/
theorem fill_changes {root : List (List Char × Json)} {out : ParsedMessage}
    (update : out.type = .l2Update) :
    (fill round root out).changes =
      (arrays root "changes".toList).filterMap (parseChange round) := by
  rw [fill, update]

/-- So are the two sides of a snapshot. -/
theorem fill_levels {root : List (List Char × Json)} {out : ParsedMessage}
    (snapshot : out.type = .snapshot) :
    (fill round root out).bids = (arrays root "bids".toList).filterMap (parseLevel round) ∧
      (fill round root out).asks = (arrays root "asks".toList).filterMap (parseLevel round) := by
  rw [fill, snapshot]
  exact ⟨rfl, rfl⟩

/-- A parsed object is a message that was filled, or left as it was for want of a type. -/
theorem parse_cases (root : List (List Char × Json)) :
    (parse round (some (.object root))).2 = {} ∨
      ∃ out, (parse round (some (.object root))).2 = fill round root out := by
  unfold parse
  rw [show (some (Json.object root)).bind Json.getObject = some root from rfl]
  dsimp only
  split
  · exact Or.inl rfl
  · exact Or.inr ⟨_, rfl⟩

/-- The entries of a message are read one by one and in order, and each is read as the grammar
says under these conditions exactly. So a message whose entries all meet them is read as the
grammar says. -/
theorem parse_grammar_iff (round : ℚ → Double) (root : List (List Char × Json)) :
    let out := (parse round (some (.object root))).2
    let changes := arrays root "changes".toList
    let bids := arrays root "bids".toList
    let asks := arrays root "asks".toList
    (∀ items, parseChange round items = venueChange round items ↔ ReadsChange round items) ∧
    (∀ items, parseLevel round items = venueLevel round items ↔ ReadsLevel round items) ∧
    (out.type = .l2Update → out.changes = changes.filterMap (parseChange round) ∧
      ((∀ items ∈ changes, ReadsChange round items) →
        out.changes = changes.filterMap (venueChange round))) ∧
    (out.type = .snapshot → out.bids = bids.filterMap (parseLevel round) ∧
      out.asks = asks.filterMap (parseLevel round) ∧
      ((∀ items ∈ bids, ReadsLevel round items) →
        out.bids = bids.filterMap (venueLevel round)) ∧
      ((∀ items ∈ asks, ReadsLevel round items) →
        out.asks = asks.filterMap (venueLevel round))) := by
  intro out changes bids asks
  have levels : ∀ entries : List (List Json), (∀ items ∈ entries, ReadsLevel round items) →
      entries.filterMap (parseLevel round) = entries.filterMap (venueLevel round) :=
    fun entries reads => List.filterMap_congr fun items member =>
      (parseLevel_iff items).mpr (reads items member)
  refine ⟨parseChange_iff, parseLevel_iff, fun update => ?_, fun snapshot => ?_⟩
  · have read : out.changes = changes.filterMap (parseChange round) := by
      obtain empty | ⟨filled, same⟩ := @parse_cases round root
      · rw [show out = {} from empty] at update
        cases update
      · rw [show out = _ from same, fill_type] at update
        rw [show out = _ from same, fill_changes update]
    refine ⟨read, fun reads => read.trans (List.filterMap_congr fun items member => ?_)⟩
    exact (parseChange_iff items).mpr (reads items member)
  · have read : out.bids = bids.filterMap (parseLevel round) ∧
        out.asks = asks.filterMap (parseLevel round) := by
      obtain empty | ⟨filled, same⟩ := @parse_cases round root
      · rw [show out = {} from empty] at snapshot
        cases snapshot
      · rw [show out = _ from same, fill_type] at snapshot
        rw [show out = _ from same]
        exact fill_levels snapshot
    exact ⟨read.1, read.2, fun reads => read.1.trans (levels bids reads),
      fun reads => read.2.trans (levels asks reads)⟩

/-- The entries of an update: two of the grammar, and between them an unknown side with a price
that is no number and a sell whose quantity is no string. -/
def mixedEntries : List (List Json) :=
  [[.string "buy".toList, .string "64999.50".toList, .string "2.0".toList],
    [.string "hold".toList, .string "abc".toList, .string "5".toList],
    [.string "sell".toList, .string "65001".toList, .number "3".toList],
    [.string "sell".toList, .string "65000.25".toList, .string "0".toList]]

/-- The update with these entries. -/
def mixedUpdate : List (List Char × Json) :=
  [("type".toList, .string "l2update".toList),
    ("changes".toList, .array (mixedEntries.map .array))]

/-- The malformed entries contribute nothing, and the other two stay in order. -/
theorem parse_grammar_iff_mixedUpdate :
    (parse .finite (some (.object mixedUpdate))).2.changes =
      [⟨.bid, .finite (129999 / 2), .finite 2⟩, ⟨.ask, .finite (260001 / 4), .finite 0⟩] := by
  obtain ⟨-, -, update, -⟩ := parse_grammar_iff .finite mixedUpdate
  have entries : arrays mixedUpdate "changes".toList = mixedEntries := by rfl
  rw [entries] at update
  have reads : ∀ items ∈ mixedEntries, ReadsChange .finite items := by
    intro items listed
    simp only [mixedEntries, List.mem_cons, List.not_mem_nil, or_false] at listed
    obtain rfl | rfl | rfl | rfl := listed
    · exact Or.inl (by decide +kernel)
    · show List.countP (fun text => decide (Readable text)) _ < 2
      decide +kernel
    · show List.countP (fun text => decide (Readable text)) _ < 2
      decide +kernel
    · exact Or.inl (by decide +kernel)
  rw [(update (by decide +kernel)).2 reads]
  decide +kernel

/-- An update with a side that is none and a number with a tail. -/
def looseUpdate : Json :=
  .object [("type".toList, .string "l2update".toList),
    ("changes".toList, .array [.array
      [.string "hold".toList, .null, .string "12abc".toList, .string "5".toList]])]

/-- The parser takes it as a sell of five at twelve, where the grammar has no entry. -/
theorem looseUpdate_sells :
    (parse .finite (some looseUpdate)).1 = .ok ∧
    (parse .finite (some looseUpdate)).2.changes = [⟨.ask, .finite 12, .finite 5⟩] ∧
    venueChange .finite
      [.string "hold".toList, .null, .string "12abc".toList, .string "5".toList] = none := by
  decide +kernel

end CoinbaseParser

end Trading

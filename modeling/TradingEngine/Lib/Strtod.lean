/-
This file is `strtod` of the C library in the C locale: white space, a sign, and then the
longest of an infinity, a not-a-number, a hexadecimal and a decimal number that the text
begins with. It returns what it read and the rest of the text, or nothing if no number
begins there.

The values are exact. A caller that works with a fixed format rounds them itself.

A decimal number is given by a grammar of its own. The scanner accepts the texts of the
grammar and no others, and `strtod` reads such a text to its end.
-/

import Mathlib.Algebra.Field.Rat
import Mathlib.Data.List.TakeWhile
import Mathlib.Tactic.Common

namespace Strtod

/-- What `strtod` can return. -/
inductive Double where
  | finite (value : ℚ)
  | infinite (negative : Bool)
  | nan
deriving DecidableEq, Repr

/-- The value, if it is one. -/
def Double.value? : Double → Option ℚ
  | finite value => some value
  | _ => none

/-! ### Scanning -/

/-- How numbers are written in a base: its digits, the letters that begin an exponent, and what
the exponent is a power of. -/
structure Radix where
  base : Nat
  isDigit : Char → Bool
  digit : Char → Nat
  letters : List Char
  power : Nat

/-- Decimal digits, with `e` before the exponent. -/
def decimal : Radix := ⟨10, Char.isDigit, fun c => c.toNat - 48, ['e', 'E'], 10⟩

/-- The character is a hexadecimal digit of either case. -/
def isHexDigit (c : Char) : Bool := c.isDigit || ('a' ≤ c.toLower && c.toLower ≤ 'f')

/-- The value of a hexadecimal digit. -/
def hexDigit (c : Char) : Nat := if c.isDigit then c.toNat - 48 else c.toLower.toNat - 87

/-- Hexadecimal digits, with `p` before an exponent to the base 2. -/
def hexadecimal : Radix := ⟨16, isHexDigit, hexDigit, ['p', 'P'], 2⟩

/-- The number some digits stand for. -/
def Radix.natOf (radix : Radix) (digits : List Char) : Nat :=
  digits.foldl (fun value c => radix.base * value + radix.digit c) 0

/-- The sign before a number, if there is one. -/
inductive Sign where
  | none
  | plus
  | minus
deriving DecidableEq, Repr

namespace Sign

/-- How a sign is written. -/
def text : Sign → List Char
  | none => []
  | plus => ['+']
  | minus => ['-']

/-- Only a minus makes a number negative. -/
def negative (sign : Sign) : Bool := sign = minus

/-- What the sign multiplies with. -/
def factor (sign : Sign) : Int := if sign.negative then -1 else 1

end Sign

/-- Take a sign off the text. -/
def scanSign : List Char → Sign × List Char
  | '+' :: rest => (.plus, rest)
  | '-' :: rest => (.minus, rest)
  | text => (.none, text)

/-- A point and the digits after it. -/
def scanFraction (radix : Radix) : List Char → List Char × List Char
  | '.' :: rest => (rest.takeWhile radix.isDigit, rest.dropWhile radix.isDigit)
  | text => ([], text)

/-- The exponent, zero if the text does not begin with a whole one. -/
def scanExponent (letters : List Char) (text : List Char) : Int × List Char :=
  match text with
  | [] => (0, text)
  | letter :: rest =>
    if letter ∈ letters then
      let (sign, rest) := scanSign rest
      let digits := rest.takeWhile Char.isDigit
      if digits = [] then (0, text)
      else (sign.factor * decimal.natOf digits, rest.dropWhile Char.isDigit)
    else (0, text)

/-- A number without sign: digits with or without a point, at least one of them, and an
exponent. -/
def scan (radix : Radix) (text : List Char) : Option (ℚ × List Char) :=
  let whole := text.takeWhile radix.isDigit
  let (fraction, rest) := scanFraction radix (text.dropWhile radix.isDigit)
  if whole ++ fraction = [] then none
  else
    let (exponent, rest) := scanExponent radix.letters rest
    some ((radix.natOf (whole ++ fraction) : ℚ) / radix.base ^ fraction.length *
      (radix.power : ℚ) ^ exponent, rest)

/-- The rest of a text that begins with a word, in any case. -/
def scanWord (word text : List Char) : Option (List Char) :=
  if (text.take word.length).map Char.toLower = word then some (text.drop word.length) else none

/-- The rest after the letters in brackets that a not-a-number may carry. -/
def afterPayload : List Char → List Char
  | '(' :: rest =>
    match rest.dropWhile fun c => c.isAlphanum || c = '_' with
    | ')' :: after => after
    | _ => '(' :: rest
  | text => text

/-- Read an infinity or a NaN, the longest word of them. -/
def scanSpecial (negative : Bool) (text : List Char) : Option (Double × List Char) :=
  match scanWord ['i', 'n', 'f', 'i', 'n', 'i', 't', 'y'] text with
  | some rest => some (.infinite negative, rest)
  | none =>
    match scanWord ['i', 'n', 'f'] text with
    | some rest => some (.infinite negative, rest)
    | none => (scanWord ['n', 'a', 'n'] text).map fun rest => (.nan, afterPayload rest)

/-- Read a hexadecimal number behind its `0x`. -/
def scanHexadecimal : List Char → Option (ℚ × List Char)
  | '0' :: x :: rest => if x = 'x' ∨ x = 'X' then scan hexadecimal rest else none
  | _ => none

/-- The characters `isspace` accepts. -/
def isSpace (c : Char) : Bool := c = ' ' || (9 ≤ c.toNat && c.toNat ≤ 13)

/-- Read the longest number at the start of a text, and return what is left; none if there is no
number. -/
def strtod (text : List Char) : Option (Double × List Char) :=
  let (sign, rest) := scanSign (text.dropWhile isSpace)
  match scanSpecial sign.negative rest with
  | some read => some read
  | none =>
    ((scanHexadecimal rest).or (scan decimal rest)).map fun read =>
      (.finite (sign.factor * read.1), read.2)

/-- The value of a text that is a decimal number in its entirety. -/
def decimal? (text : List Char) : Option ℚ :=
  let (sign, rest) := scanSign text
  match scan decimal rest with
  | some (value, []) => some (sign.factor * value)
  | _ => none

/-! ### Decimal numbers as they are written -/

/-- The exponent of a decimal number, with its letter and at least one digit. -/
structure Exponent where
  letter : Char
  sign : Sign
  digits : List Char
  marked : letter ∈ ['e', 'E']
  nonempty : digits ≠ []
  isDigits : ∀ c ∈ digits, c.isDigit = true

namespace Exponent

/-- How an exponent is written. -/
def text (exponent : Exponent) : List Char :=
  exponent.letter :: (exponent.sign.text ++ exponent.digits)

/-- The number an exponent stands for. -/
def value (exponent : Exponent) : Int := exponent.sign.factor * decimal.natOf exponent.digits

end Exponent

/-- The text of a part that may be missing. -/
def textOf {Part : Type} (text : Part → List Char) : Option Part → List Char
  | some part => text part
  | none => []

/-- Digits with or without a point, at least one of them, and an exponent. -/
structure Unsigned where
  whole : List Char
  fraction : Option (List Char)
  exponent : Option Exponent
  isDigits : ∀ c ∈ whole ++ fraction.getD [], c.isDigit = true
  nonempty : whole ++ fraction.getD [] ≠ []

namespace Unsigned

/-- How a number without a sign is written. -/
def text (number : Unsigned) : List Char :=
  number.whole ++ (textOf ('.' :: ·) number.fraction ++ textOf Exponent.text number.exponent)

/-- What a number without a sign is worth. -/
def value (number : Unsigned) : ℚ :=
  (decimal.natOf (number.whole ++ number.fraction.getD []) : ℚ) /
    (10 : Nat) ^ (number.fraction.getD []).length *
      ((10 : Nat) : ℚ) ^ (number.exponent.map Exponent.value).getD 0

end Unsigned

/-- A decimal number with its sign, as a document writes it. -/
structure Numeral where
  sign : Sign
  number : Unsigned

namespace Numeral

/-- How a numeral is written. -/
def text (numeral : Numeral) : List Char := numeral.sign.text ++ numeral.number.text

/-- What a numeral is worth. -/
def value (numeral : Numeral) : ℚ := numeral.sign.factor * numeral.number.value

end Numeral

/-! ### What the scanner accepts -/

theorem text_of_scanSign {text rest : List Char} {sign : Sign}
    (scanned : scanSign text = (sign, rest)) : text = sign.text ++ rest := by
  unfold scanSign at scanned
  split at scanned
  all_goals
    obtain ⟨rfl, rfl⟩ := Prod.mk.inj scanned
    rfl

/-- What is scanned as a fraction was written as one. -/
theorem text_of_scanFraction {text digits rest : List Char}
    (scanned : scanFraction decimal text = (digits, rest)) :
    ∃ fraction : Option (List Char), fraction.getD [] = digits ∧
      (∀ c ∈ digits, c.isDigit = true) ∧ text = textOf ('.' :: ·) fraction ++ rest := by
  unfold scanFraction at scanned
  split at scanned
  · rename_i more
    obtain ⟨rfl, rfl⟩ := Prod.mk.inj scanned
    refine ⟨some (more.takeWhile Char.isDigit), rfl, fun c => List.mem_takeWhile_imp, ?_⟩
    exact congrArg _ List.takeWhile_append_dropWhile.symm
  · obtain ⟨rfl, rfl⟩ := Prod.mk.inj scanned
    exact ⟨none, rfl, fun _ member => absurd member List.not_mem_nil, rfl⟩

/-- What is scanned as an exponent was written as one, or nothing was scanned. -/
theorem text_of_scanExponent {text rest : List Char} {value : Int}
    (scanned : scanExponent ['e', 'E'] text = (value, rest)) :
    ∃ exponent : Option Exponent, (exponent.map Exponent.value).getD 0 = value ∧
      text = textOf Exponent.text exponent ++ rest := by
  unfold scanExponent at scanned
  split at scanned
  · obtain ⟨rfl, rfl⟩ := Prod.mk.inj scanned
    exact ⟨none, rfl, rfl⟩
  · rename_i letter more
    split at scanned
    · rename_i marked
      cases signed : scanSign more with
      | mk sign after =>
        rw [signed] at scanned
        dsimp only at scanned
        split at scanned
        · obtain ⟨rfl, rfl⟩ := Prod.mk.inj scanned
          exact ⟨none, rfl, rfl⟩
        · rename_i nonempty
          obtain ⟨rfl, rfl⟩ := Prod.mk.inj scanned
          refine ⟨some ⟨letter, sign, after.takeWhile Char.isDigit, marked, nonempty,
            fun c => List.mem_takeWhile_imp⟩, rfl, ?_⟩
          rw [text_of_scanSign signed]
          simp only [textOf, Exponent.text, List.cons_append, List.append_assoc,
            List.takeWhile_append_dropWhile]
    · obtain ⟨rfl, rfl⟩ := Prod.mk.inj scanned
      exact ⟨none, rfl, rfl⟩

theorem text_of_scan {text rest : List Char} {value : ℚ}
    (scanned : scan decimal text = some (value, rest)) :
    ∃ number : Unsigned, number.value = value ∧ text = number.text ++ rest := by
  unfold scan at scanned
  cases fractioned : scanFraction decimal (text.dropWhile decimal.isDigit) with
  | mk digits after =>
    rw [fractioned] at scanned
    dsimp only at scanned
    split at scanned
    · cases scanned
    · rename_i nonempty
      obtain ⟨fraction, rfl, fractionDigits, written⟩ := text_of_scanFraction fractioned
      cases powered : scanExponent decimal.letters after with
      | mk power last =>
        rw [powered] at scanned
        obtain ⟨rfl, rfl⟩ := Prod.mk.inj (Option.some.inj scanned)
        obtain ⟨exponent, rfl, ending⟩ := text_of_scanExponent powered
        refine ⟨⟨text.takeWhile Char.isDigit, fraction, exponent, ?_, nonempty⟩, rfl, ?_⟩
        · intro c member
          rcases List.mem_append.mp member with inWhole | inFraction
          · exact List.mem_takeWhile_imp inWhole
          · exact fractionDigits c inFraction
        · rw [ending] at written
          rw [Unsigned.text, List.append_assoc, List.append_assoc, ← written]
          exact List.takeWhile_append_dropWhile.symm

theorem numeral_of_decimal? {text : List Char} {value : ℚ} (read : decimal? text = some value) :
    ∃ numeral : Numeral, numeral.text = text ∧ numeral.value = value := by
  unfold decimal? at read
  cases signed : scanSign text with
  | mk sign rest =>
    rw [signed] at read
    dsimp only at read
    split at read
    · rename_i unsigned scanned
      obtain ⟨number, rfl, written⟩ := text_of_scan scanned
      refine ⟨⟨sign, number⟩, ?_, Option.some.inj read⟩
      rw [text_of_scanSign signed, written, List.append_nil]
      rfl
    · cases read

/-! ### What the scanner reads -/

theorem takeWhile_of_head {p : Char → Bool} {digits rest : List Char}
    (all : ∀ c ∈ digits, p c = true) (stops : ∀ c ∈ rest.head?, p c = false) :
    (digits ++ rest).takeWhile p = digits ∧ (digits ++ rest).dropWhile p = rest := by
  rw [List.takeWhile_append_of_pos all, List.dropWhile_append_of_pos all]
  cases rest with
  | nil => exact ⟨List.append_nil _, rfl⟩
  | cons c more =>
    have stop := stops c rfl
    rw [List.takeWhile_cons_of_neg (by rw [stop]; decide),
      List.dropWhile_cons_of_neg (by rw [stop]; decide), List.append_nil]
    exact ⟨rfl, rfl⟩

theorem scanSign_text (sign : Sign) {rest : List Char}
    (stops : ∀ c ∈ rest.head?, c ≠ '+' ∧ c ≠ '-') :
    scanSign (sign.text ++ rest) = (sign, rest) := by
  cases sign with
  | plus => rfl
  | minus => rfl
  | none =>
    show scanSign rest = _
    unfold scanSign
    split
    · exact absurd rfl (stops '+' rfl).1
    · exact absurd rfl (stops '-' rfl).2
    · rfl

theorem ends_of_letter {letter : Char} (marked : letter ∈ ['e', 'E']) :
    letter.isDigit = false ∧ letter ≠ '.' := by
  simp only [List.mem_cons, List.not_mem_nil, or_false] at marked
  rcases marked with rfl | rfl
  · exact ⟨rfl, by decide⟩
  · exact ⟨rfl, by decide⟩

/-- A digit or a point is no sign, no white space and does not begin a word. -/
theorem head_plain {c : Char} (starts : c.isDigit = true ∨ c = '.') :
    c ≠ '+' ∧ c ≠ '-' ∧ isSpace c = false ∧ c.toLower ≠ 'i' ∧ c.toLower ≠ 'n' := by
  rcases starts with digit | rfl
  · have range : 48 ≤ c.toNat ∧ c.toNat ≤ 57 := by
      simp only [Char.isDigit, Bool.and_eq_true, decide_eq_true_eq] at digit
      exact digit
    have same : c.toLower = c := by
      unfold Char.toLower
      refine dif_neg fun upper => ?_
      have large : 65 ≤ c.toNat := upper.1
      omega
    have other : ∀ d : Char, d.toNat < 48 ∨ 57 < d.toNat → c ≠ d := by
      rintro d out rfl
      omega
    rw [same]
    refine ⟨other _ (by decide), other _ (by decide), ?_, other _ (by decide), other _ (by decide)⟩
    simp only [isSpace, other ' ' (by decide), decide_false, Bool.false_or, Bool.and_eq_false_iff,
      decide_eq_false_iff_not]
    omega
  · decide

theorem scanExponent_text (exponent : Option Exponent) :
    scanExponent ['e', 'E'] (textOf Exponent.text exponent) =
      ((exponent.map Exponent.value).getD 0, []) := by
  cases exponent with
  | none => rfl
  | some exponent =>
    obtain ⟨letter, sign, digits, marked, nonempty, isDigits⟩ := exponent
    have signed : scanSign (sign.text ++ digits) = (sign, digits) := by
      refine scanSign_text sign fun c first => ?_
      have plain := head_plain (Or.inl (isDigits c (List.mem_of_mem_head? first)))
      exact ⟨plain.1, plain.2.1⟩
    have all := @takeWhile_of_head Char.isDigit digits [] isDigits (fun c first => nomatch first)
    rw [List.append_nil] at all
    show scanExponent ['e', 'E'] (letter :: (sign.text ++ digits)) = _
    unfold scanExponent
    dsimp only
    rw [if_pos marked, signed]
    rw [all.1, all.2, if_neg nonempty]
    rfl

/-- A fraction that is written is scanned as what it is, if what follows cannot belong to it. -/
theorem scanFraction_text {fraction : Option (List Char)} {rest : List Char}
    (isDigits : ∀ c ∈ fraction.getD [], c.isDigit = true)
    (stops : ∀ c ∈ rest.head?, c.isDigit = false ∧ c ≠ '.') :
    scanFraction decimal (textOf ('.' :: ·) fraction ++ rest) = (fraction.getD [], rest) := by
  cases fraction with
  | none =>
    show scanFraction decimal rest = ([], rest)
    unfold scanFraction
    split
    · exact absurd rfl (stops '.' rfl).2
    · rfl
  | some digits =>
    obtain ⟨taken, left⟩ := takeWhile_of_head isDigits fun c first => (stops c first).1
    exact congrArg₂ Prod.mk taken left

theorem scan_text (number : Unsigned) : scan decimal number.text = some (number.value, []) := by
  obtain ⟨whole, fraction, exponent, isDigits, nonempty⟩ := number
  have last : ∀ c ∈ (textOf Exponent.text exponent).head?, c.isDigit = false ∧ c ≠ '.' := by
    intro c first
    cases exponent with
    | none => cases first
    | some exponent =>
      obtain rfl := Option.some.inj first
      exact ends_of_letter exponent.marked
  have point : ∀ c ∈ (textOf ('.' :: ·) fraction ++ textOf Exponent.text exponent).head?,
      c.isDigit = false := by
    intro c first
    cases fraction with
    | none => exact (last c first).1
    | some digits =>
      obtain rfl := Option.some.inj first
      decide
  have fractioned := scanFraction_text
    (fun c member => isDigits c (List.mem_append_right _ member)) last
  obtain ⟨taken, left⟩ := takeWhile_of_head
    (fun c member => isDigits c (List.mem_append_left _ member)) point
  show scan decimal (whole ++ (textOf ('.' :: ·) fraction ++ textOf Exponent.text exponent)) = _
  unfold scan
  dsimp only
  rw [show decimal.isDigit = Char.isDigit from rfl, taken, left, fractioned]
  rw [if_neg nonempty]
  dsimp only [decimal]
  rw [scanExponent_text]
  rfl

theorem mem_sign {sign : Sign} {c : Char} (member : c ∈ sign.text) : c = '+' ∨ c = '-' := by
  cases sign with
  | none => cases member
  | plus => exact Or.inl (List.mem_singleton.mp member)
  | minus => exact Or.inr (List.mem_singleton.mp member)

theorem mem_text {number : Unsigned} {c : Char} (member : c ∈ number.text) :
    c.isDigit = true ∨ c ∈ ['.', 'e', 'E', '+', '-'] := by
  obtain ⟨whole, fraction, exponent, isDigits, nonempty⟩ := number
  rcases List.mem_append.mp member with inWhole | inRest
  · exact Or.inl (isDigits c (List.mem_append_left _ inWhole))
  · rcases List.mem_append.mp inRest with inFraction | inExponent
    · cases fraction with
      | none => cases inFraction
      | some digits =>
        rcases List.mem_cons.mp inFraction with rfl | inDigits
        · exact Or.inr (by decide)
        · exact Or.inl (isDigits c (List.mem_append_right _ inDigits))
    · cases exponent with
      | none => cases inExponent
      | some exponent =>
        rcases List.mem_cons.mp inExponent with rfl | inPower
        · exact Or.inr (List.mem_cons_of_mem _ (List.mem_append_left ['+', '-'] exponent.marked))
        · rcases List.mem_append.mp inPower with inSign | inDigits
          · rcases mem_sign inSign with rfl | rfl
            · exact Or.inr (by decide)
            · exact Or.inr (by decide)
          · exact Or.inl (exponent.isDigits c inDigits)

/-- A number begins with a digit or a point. -/
theorem head_text (number : Unsigned) :
    ∃ c rest, number.text = c :: rest ∧ (c.isDigit = true ∨ c = '.') := by
  obtain ⟨whole, fraction, exponent, isDigits, nonempty⟩ := number
  cases whole with
  | cons c rest => exact ⟨c, _, rfl, Or.inl (isDigits c List.mem_cons_self)⟩
  | nil =>
    cases fraction with
    | none => exact absurd rfl nonempty
    | some digits => exact ⟨'.', _, rfl, Or.inr rfl⟩

theorem scanSign_numeral (numeral : Numeral) :
    scanSign numeral.text = (numeral.sign, numeral.number.text) := by
  refine scanSign_text numeral.sign fun c first => ?_
  obtain ⟨c, rest, starts, plain⟩ := head_text numeral.number
  rw [starts] at first
  obtain rfl := Option.some.inj first
  exact ⟨(head_plain plain).1, (head_plain plain).2.1⟩

/-- The scanner accepts the texts of the grammar, with their values, and no others. -/
theorem decimal?_iff {text : List Char} {value : ℚ} :
    decimal? text = some value ↔
      ∃ numeral : Numeral, numeral.text = text ∧ numeral.value = value := by
  refine ⟨numeral_of_decimal?, ?_⟩
  rintro ⟨numeral, rfl, rfl⟩
  unfold decimal?
  rw [scanSign_numeral]
  dsimp only
  rw [scan_text]
  rfl

theorem scanWord_eq_none {first c : Char} {word rest : List Char} (other : c.toLower ≠ first) :
    scanWord (first :: word) (c :: rest) = none := by
  refine if_neg fun same => other ?_
  exact (List.cons.inj same).1

theorem scanSpecial_text (negative : Bool) (number : Unsigned) :
    scanSpecial negative number.text = none := by
  obtain ⟨c, rest, starts, plain⟩ := head_text number
  obtain ⟨-, -, -, notI, notN⟩ := head_plain plain
  unfold scanSpecial
  rw [starts, scanWord_eq_none notI, scanWord_eq_none notI, scanWord_eq_none notN]
  rfl

theorem scanHexadecimal_text (number : Unsigned) : scanHexadecimal number.text = none := by
  have plain := fun c => @mem_text number c
  unfold scanHexadecimal
  split
  · rename_i x rest starts
    refine if_neg fun hexadecimal => ?_
    have member : x ∈ number.text := by
      rw [starts]
      exact List.mem_cons_of_mem _ List.mem_cons_self
    rcases hexadecimal with rfl | rfl
    · exact absurd (plain _ member) (by decide)
    · exact absurd (plain _ member) (by decide)
  · rfl

theorem dropWhile_numeral (numeral : Numeral) : numeral.text.dropWhile isSpace = numeral.text := by
  obtain ⟨sign, number⟩ := numeral
  obtain ⟨c, rest, starts, plain⟩ := head_text number
  show (sign.text ++ number.text).dropWhile isSpace = sign.text ++ number.text
  rw [starts]
  cases sign with
  | none =>
    refine List.dropWhile_cons_of_neg ?_
    rw [(head_plain plain).2.2.1]
    decide
  | plus => exact List.dropWhile_cons_of_neg (by decide)
  | minus => exact List.dropWhile_cons_of_neg (by decide)

/-- A text that is a decimal number in its entirety is read to its end. -/
theorem strtod_of_decimal? {text : List Char} {value : ℚ} (read : decimal? text = some value) :
    strtod text = some (.finite value, []) := by
  obtain ⟨numeral, rfl, rfl⟩ := decimal?_iff.mp read
  unfold strtod
  rw [dropWhile_numeral, scanSign_numeral]
  dsimp only
  rw [scanSpecial_text, scanHexadecimal_text, scan_text]
  rfl

end Strtod

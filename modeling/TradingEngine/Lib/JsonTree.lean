/-
This file is a JSON library that behaves as documented: its documents are trees, an object
is a list of keys with values, and a number converts to an integer type when it is whole
and in range. Where a real library does something else with a number that does not fit,
this one has no value.

It shows that the assumptions about the library parameter can be met together, and it is
what concrete configurations are loaded with. Nothing that is said about every library
looks into it.
-/

import TradingEngine.Lib.JsonLibrary

/-- A document as a tree, its numbers exact. -/
inductive JsonTree where
  | null
  | boolean (flag : Bool)
  | integer (n : Int)
  | float (x : ℚ)
  | string (text : String)
  | array (items : List JsonTree)
  | object (fields : List (String × JsonTree))

namespace JsonTree

/-- The value of a key of an object. -/
def find? (document : JsonTree) (key : String) : Option JsonTree :=
  match document with
  | .object fields => (fields.find? fun field => field.1 = key).map Prod.snd
  | _ => none

/-- The value is an object. -/
def isObject : JsonTree → Bool
  | .object _ => true
  | _ => false

/-- An integer that fits 32 bits. -/
def toInt32 (n : Int) : Option Int := if -2 ^ 31 ≤ n ∧ n < 2 ^ 31 then some n else none

/-- An integer that fits 64 bits without a sign. -/
def toUint64 (n : Int) : Option Nat := if 0 ≤ n ∧ n < 2 ^ 64 then some n.toNat else none

/-- A value, converted to a type. -/
def get : (type : JsonType) → JsonTree → Option type.Carrier
  | .string, .string text => some text
  | .boolean, .boolean flag => some flag
  | .int32, .integer n => toInt32 n
  | .size, .integer n | .uint64, .integer n => toUint64 n
  | .double, .integer n => some n
  | .double, .float x => some x
  | _, _ => none

/-- The converted value of a key of an object, or the default. -/
def value (type : JsonType) (document : JsonTree) (key : String) (default : type.Carrier) :
    Option type.Carrier :=
  if document.isObject then
    match document.find? key with
    | some found => found.get type
    | none => some default
  else none

/-- A value of the program as a tree. -/
def of : (type : JsonType) → type.Carrier → JsonTree
  | .string, text => .string text
  | .boolean, flag => .boolean flag
  | .int32, n => .integer n
  | .size, n | .uint64, n => .integer (n : Nat)
  | .double, x => .float x

/-- The operations on such trees as one library. -/
def library : JsonLibrary where
  Value := JsonTree
  isObject := isObject
  contains document key := (document.find? key).isSome
  index document key := (document.find? key).getD .null
  get type document := document.get type
  value type document key default := document.value type key default
  of := of
  object := object

/-- A tree with keys is an object. -/
theorem isObject_of_find? {document : JsonTree} {key : String}
    (found : (document.find? key).isSome = true) : document.isObject = true := by
  cases document with
  | object fields => rfl
  | _ => cases found

theorem isNone_find? {document : JsonTree} {key : String}
    (absent : (document.find? key).isSome = false) : document.find? key = none :=
  Option.not_isSome_iff_eq_none.mp (Bool.eq_false_iff.mp absent)

section Value

variable {type : JsonType} {document : JsonTree} {key : String} {default : type.Carrier}

theorem value_other (other : document.isObject = false) :
    value type document key default = none := by
  rw [value, other]
  rfl

theorem value_absent (object : document.isObject = true)
    (absent : (document.find? key).isSome = false) :
    value type document key default = some default := by
  rw [value, object, isNone_find? absent]
  rfl

theorem value_present (present : (document.find? key).isSome = true) :
    value type document key default = get type ((document.find? key).getD .null) := by
  obtain ⟨found, there⟩ := Option.isSome_iff_exists.mp present
  rw [value, isObject_of_find? present, there]
  rfl

end Value

theorem library_documented : library.Documented where
  value_other := value_other
  value_absent := value_absent
  value_present := value_present

theorem find?_isSome_iff {fields : List (String × JsonTree)} {key : String} :
    ((object fields).find? key).isSome = true ↔ key ∈ fields.map Prod.fst := by
  unfold find?
  rw [Option.isSome_map, List.find?_isSome, List.mem_map]
  simp only [decide_eq_true_eq]

theorem find?_of_mem {fields : List (String × JsonTree)} {key : String} {found : JsonTree}
    (distinct : (fields.map Prod.fst).Nodup) (there : (key, found) ∈ fields) :
    (object fields).find? key = some found := by
  show (fields.find? fun field => field.1 = key).map Prod.snd = some found
  induction fields with
  | nil => cases there
  | cons first rest inductionHypothesis =>
    obtain ⟨other, later⟩ := List.nodup_cons.mp distinct
    rw [List.find?_cons]
    rcases List.mem_cons.mp there with rfl | inRest
    · rw [decide_eq_true rfl]
      rfl
    · have differs : first.1 ≠ key := by
        rintro rfl
        exact other (List.mem_map.mpr ⟨_, inRest, rfl⟩)
      rw [decide_eq_false differs]
      exact inductionHypothesis later inRest

theorem toUint64_natCast {n : Nat} (fits : n < 2 ^ 64) : toUint64 n = some n := by
  unfold toUint64
  rw [if_pos (by omega), Int.toNat_natCast]

theorem get_of {type : JsonType} {written : type.Carrier} (inRange : type.InRange written) :
    (of type written).get type = some written := by
  cases type with
  | string | boolean | double => rfl
  | int32 => exact if_pos inRange
  | size => exact toUint64_natCast (lt_trans inRange (by norm_num))
  | uint64 => exact toUint64_natCast inRange

theorem library_writes : library.Writes where
  isObject_object _ := rfl
  contains_object := find?_isSome_iff
  index_object distinct there := by
    show Option.getD (find? (object _) _) .null = _
    rw [find?_of_mem distinct there]
    rfl
  get_of := get_of

end JsonTree

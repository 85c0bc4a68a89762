/-
This file is about settings that a program looks up in a parsed JSON document with the help of a
library. The library is a parameter: its documents and its operations are unknown, and what its
documentation promises of them is a structure of named assumptions.

A setting has a key, at the top of the document or in a section of it, a type and a default. The
file says what it means that a document supplies a value for a setting, without saying how the
value is looked up. A documented library looks it up as said, and a document that was written
from the values of some settings supplies these values.
-/

import Mathlib.Data.Rat.Floor

/-- The types a program asks for. -/
inductive JsonType where
  | string
  | boolean
  | int32
  | size
  | uint64
  | double
deriving DecidableEq, Repr

namespace JsonType

/-- The values of a type. -/
abbrev Carrier : JsonType → Type
  | .string => String
  | .boolean => Bool
  | .int32 => Int
  | .size => Nat
  | .uint64 => Nat
  | .double => ℚ

/-- The values a variable of a type can hold; of a size no more is asked than every machine has
room for. -/
def InRange : (type : JsonType) → type.Carrier → Prop
  | .int32, n => -2 ^ 31 ≤ n ∧ n < 2 ^ 31
  | .size, n => n < 2 ^ 16
  | .uint64, n => n < 2 ^ 64
  | .string, _ | .boolean, _ | .double, _ => True

end JsonType

/-- What a program uses of a JSON library. An operation that throws has no value. -/
structure JsonLibrary where
  Value : Type
  isObject : Value → Bool
  /-- whether a value is an object that has a key -/
  contains : Value → String → Bool
  /-- the value of a key that is there -/
  index : Value → String → Value
  /-- a value, converted -/
  get : (type : JsonType) → Value → Option type.Carrier
  /-- the value of a key, converted, or a default -/
  value : (type : JsonType) → Value → String → type.Carrier → Option type.Carrier
  /-- a value made from one of the program's -/
  of : (type : JsonType) → type.Carrier → Value
  object : List (String × Value) → Value

namespace JsonLibrary

/-- What is documented of lookups. Nothing is said of which values convert to which types. -/
structure Documented (lib : JsonLibrary) : Prop where
  /-- a value that is no object has no lookup with a default -/
  value_other : ∀ {type document key default}, lib.isObject document = false →
    lib.value type document key default = none
  /-- the default stands in for an absent key -/
  value_absent : ∀ {type document key default}, lib.isObject document = true →
    lib.contains document key = false → lib.value type document key default = some default
  /-- a key that is present is converted, and the conversion may throw -/
  value_present : ∀ {type document key default}, lib.contains document key = true →
    lib.value type document key default = lib.get type (lib.index document key)

/-- What is documented of values made from the program's own. -/
structure Writes (lib : JsonLibrary) : Prop where
  isObject_object : ∀ fields, lib.isObject (lib.object fields) = true
  contains_object : ∀ {fields key}, lib.contains (lib.object fields) key = true ↔
    key ∈ fields.map Prod.fst
  index_object : ∀ {fields key found}, (fields.map Prod.fst).Nodup → (key, found) ∈ fields →
    lib.index (lib.object fields) key = found
  /-- what was written is read back -/
  get_of : ∀ {type : JsonType} {written : type.Carrier}, type.InRange written →
    lib.get type (lib.of type written) = some written

end JsonLibrary

/-- A setting of a program: the section that holds its key, if it is not at the top, the type and
default of the key, and the setting's value in a configuration. -/
structure JsonSetting (Config : Type) where
  within : Option String
  key : String
  type : JsonType
  default : type.Carrier
  field : Config → type.Carrier

namespace JsonSetting

variable {Config : Type} (lib : JsonLibrary) (setting : JsonSetting Config)

/-- The value a setting's key is looked up in; there is none if its section is absent. -/
def holder (document : lib.Value) : Option lib.Value :=
  match setting.within with
  | none => some document
  | some name => if lib.contains document name then some (lib.index document name) else none

/-- A document supplies a value for a setting: the holder of the key is an object that has it under
the key, or has no such key and the value is the default, or is absent, which makes it the default
as well. -/
def Supplied (document : lib.Value) (value : setting.type.Carrier) : Prop :=
  match setting.holder lib document with
  | none => value = setting.default
  | some holder => lib.isObject holder = true ∧
      if lib.contains holder setting.key = true then
        lib.get setting.type (lib.index holder setting.key) = some value
      else value = setting.default

/-- A setting can be read: the holder of the key is an object or absent, and what is under the key
converts to its type. -/
def Readable (document : lib.Value) : Prop :=
  ∀ holder ∈ setting.holder lib document, lib.isObject holder = true ∧
    (lib.contains holder setting.key = true →
      (lib.get setting.type (lib.index holder setting.key)).isSome = true)

/-- The lookup of a setting. -/
def lookup (document : lib.Value) : Option setting.type.Carrier :=
  match setting.holder lib document with
  | none => some setting.default
  | some holder => lib.value setting.type holder setting.key setting.default

variable {lib setting}

/-- A documented library finds exactly what the document supplies. -/
theorem lookup_eq_some_iff (documented : lib.Documented) {document : lib.Value}
    {value : setting.type.Carrier} :
    setting.lookup lib document = some value ↔ setting.Supplied lib document value := by
  unfold lookup Supplied
  cases setting.holder lib document with
  | none => exact ⟨fun same => (Option.some.inj same).symm, fun same => congrArg some same.symm⟩
  | some holder =>
    dsimp only
    cases object : lib.isObject holder with
    | false => simp [documented.value_other object]
    | true =>
      by_cases present : lib.contains holder setting.key = true
      · simp [documented.value_present present, present]
      · rw [documented.value_absent object (Bool.eq_false_iff.mpr present), if_neg present]
        simp [eq_comm]

theorem readable_iff {document : lib.Value} :
    setting.Readable lib document ↔ ∃ value, setting.Supplied lib document value := by
  unfold Readable Supplied
  cases setting.holder lib document with
  | none => simp
  | some holder =>
    simp only [Option.mem_def, Option.some.injEq, forall_eq']
    by_cases present : lib.contains holder setting.key = true
    · simp [present, Option.isSome_iff_exists]
    · simp [present]

/-- Nothing is found exactly if the setting cannot be read. -/
theorem lookup_eq_none_iff (documented : lib.Documented) {document : lib.Value} :
    setting.lookup lib document = none ↔ ¬setting.Readable lib document := by
  rw [readable_iff, Option.eq_none_iff_forall_not_mem]
  simp only [Option.mem_def, lookup_eq_some_iff documented, not_exists]

/-! ### Writing settings down -/

section Write

variable (lib) (settings : List (JsonSetting Config)) (config : Config)

/-- The keys at the top or of a section, with the values of a configuration. -/
def entries (name : Option String) : List (String × lib.Value) :=
  (settings.filter fun setting => setting.within = name).map fun setting =>
    (setting.key, lib.of setting.type (setting.field config))

/-- The document of a configuration: the keys at the top, and the sections. -/
def write (names : List String) : lib.Value :=
  lib.object (entries lib settings config none ++
    names.map fun name => (name, lib.object (entries lib settings config (some name))))

/-- The keys of a section. -/
def keys (name : Option String) : List String :=
  (settings.filter fun setting => setting.within = name).map key

/-- No key and no section is there twice, and the sections are all named. -/
structure Distinct (names : List String) : Prop where
  top : (keys settings none ++ names).Nodup
  sections : ∀ name ∈ names, (keys settings (some name)).Nodup
  named : ∀ setting ∈ settings, ∀ name ∈ setting.within, name ∈ names

variable {lib settings config}

theorem map_fst_entries (name : Option String) :
    (entries lib settings config name).map Prod.fst = keys settings name :=
  List.map_map

theorem mem_entries {setting : JsonSetting Config} (listed : setting ∈ settings) :
    (setting.key, lib.of setting.type (setting.field config)) ∈
      entries lib settings config setting.within :=
  List.mem_map.mpr ⟨setting, List.mem_filter.mpr ⟨listed, decide_eq_true rfl⟩, rfl⟩

/-- An object supplies what was written under its keys. -/
theorem supplied_of_holder (writes : lib.Writes) {document : lib.Value}
    {fields : List (String × lib.Value)} {value : setting.type.Carrier}
    (held : setting.holder lib document = some (lib.object fields))
    (distinct : (fields.map Prod.fst).Nodup)
    (there : (setting.key, lib.of setting.type value) ∈ fields)
    (inRange : setting.type.InRange value) : setting.Supplied lib document value := by
  unfold Supplied
  rw [held]
  have present : lib.contains (lib.object fields) setting.key = true :=
    writes.contains_object.mpr (List.mem_map.mpr ⟨_, there, rfl⟩)
  refine ⟨writes.isObject_object fields, ?_⟩
  rw [if_pos present, writes.index_object distinct there, writes.get_of inRange]

/-- A written document supplies the values it was written from. -/
theorem supplied_write (writes : lib.Writes) {names : List String}
    (distinct : Distinct settings names) {setting : JsonSetting Config}
    (listed : setting ∈ settings) (inRange : setting.type.InRange (setting.field config)) :
    setting.Supplied lib (write lib settings config names) (setting.field config) := by
  have top : ((entries lib settings config none ++ names.map fun name =>
      (name, lib.object (entries lib settings config (some name)))).map Prod.fst).Nodup := by
    rw [List.map_append, map_fst_entries, List.map_map]
    simpa [Function.comp_def] using distinct.top
  have entry : (setting.key, lib.of setting.type (setting.field config)) ∈
      entries lib settings config setting.within := mem_entries listed
  cases place : setting.within with
  | none =>
    rw [place] at entry
    refine supplied_of_holder writes ?_ top (List.mem_append_left _ entry) inRange
    rw [holder, place]
    rfl
  | some name =>
    rw [place] at entry
    have named := distinct.named setting listed name place
    have there := List.mem_append_right (entries lib settings config none)
      (List.mem_map.mpr ⟨name, named, rfl⟩ : (name, _) ∈ names.map fun name =>
        (name, lib.object (entries lib settings config (some name))))
    refine supplied_of_holder writes ?_ ?_ entry inRange
    · have present : lib.contains (write lib settings config names) name = true :=
        writes.contains_object.mpr (List.mem_map.mpr ⟨_, there, rfl⟩)
      rw [holder, place]
      dsimp only
      rw [if_pos present, write, writes.index_object top there]
    · rw [map_fst_entries]
      exact distinct.sections name named

end Write

end JsonSetting

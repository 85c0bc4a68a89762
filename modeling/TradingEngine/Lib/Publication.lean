/-
This file is about a record that one thread publishes field by field while another one
reads it field by field. The fields a reader sees can belong to different records. But
what it sees in a field is always that of a record which was in place at some time of its
reading. So a property of single fields that all these records have is one of what it
sees, and if the records agree on the fields it reads, it has read one record.

The board holds the fields as they are stored, the record that is being published and the
fields of it that are still to be stored; the records a reader may have seen something of
are those published since it began.
-/

import Mathlib.Data.List.Basic
import Mathlib.Logic.Function.Basic

namespace Publication

variable {Field Value : Type}

/-- The fields as they stand, the record they are turned into, the one before it, and the fields
still to be stored. -/
structure Board (Field Value : Type) where
  cells : Field → Value
  target : Field → Value
  previous : Field → Value
  pending : List Field

namespace Board

/-- A board on which a record is published and read, with nothing left to store. -/
def settled (record : Field → Value) : Board Field Value := ⟨record, record, record, []⟩

/-- Begin to publish a record. -/
def publish (board : Board Field Value) (target : Field → Value) (pending : List Field) :
    Board Field Value :=
  ⟨board.cells, target, board.target, pending⟩

/-- Store one field. -/
def store [DecidableEq Field] (board : Board Field Value) (field : Field) (rest : List Field) :
    Board Field Value :=
  { board with
    cells := Function.update board.cells field (board.target field)
    pending := rest }

/-- The records whose fields may stand in the cells. -/
def records (board : Board Field Value) : List (Field → Value) :=
  if board.pending = [] then [board.target] else [board.previous, board.target]

/-- The cells come from the records, and what is not pending is stored. -/
structure Sound (board : Board Field Value) : Prop where
  stored : ∀ field, field ∉ board.pending → board.cells field = board.target field
  mixed : ∀ field, board.cells field = board.previous field ∨
    board.cells field = board.target field

/-- Every record in place is in the window. -/
def Covers (window : List (Field → Value)) (board : Board Field Value) : Prop :=
  ∀ record ∈ board.records, record ∈ window

variable {board : Board Field Value} {window : List (Field → Value)}

theorem sound_settled (record : Field → Value) : (settled record).Sound :=
  ⟨fun _ _ => rfl, fun _ => Or.inl rfl⟩

theorem Sound.publish (sound : board.Sound) (idle : board.pending = []) {target : Field → Value}
    {pending : List Field} (kept : ∀ field, field ∉ pending → target field = board.target field) :
    (board.publish target pending).Sound := by
  have settled : ∀ field, board.cells field = board.target field := fun field =>
    sound.stored field (idle ▸ List.not_mem_nil)
  exact ⟨fun field absent => (settled field).trans (kept field absent).symm,
    fun field => Or.inl (settled field)⟩

theorem Sound.store [DecidableEq Field] (sound : board.Sound) {field : Field} {rest : List Field}
    (first : board.pending = field :: rest) : (board.store field rest).Sound := by
  constructor
  · intro other absent
    show Function.update board.cells field (board.target field) other = board.target other
    by_cases same : other = field
    · rw [same, Function.update_self]
    · rw [Function.update_of_ne same]
      refine sound.stored other fun member => ?_
      rw [first] at member
      exact (List.mem_cons.mp member).elim same absent
  · intro other
    show Function.update board.cells field (board.target field) other = board.previous other ∨ _
    by_cases same : other = field
    · rw [same]
      exact Or.inr (Function.update_self ..)
    · have kept := sound.mixed other
      rw [← Function.update_of_ne same (board.target field) board.cells] at kept
      exact kept

/-- What is loaded is the field of a record in place. -/
theorem Sound.load (sound : board.Sound) (field : Field) :
    ∃ record ∈ board.records, board.cells field = record field := by
  unfold records
  split
  · rename_i idle
    exact ⟨board.target, List.mem_singleton_self _, sound.stored field (idle ▸ List.not_mem_nil)⟩
  · rcases sound.mixed field with previous | target
    · exact ⟨board.previous, List.mem_cons_self, previous⟩
    · exact ⟨board.target, List.mem_cons_of_mem _ (List.mem_singleton_self _), target⟩

theorem target_mem_records (board : Board Field Value) : board.target ∈ board.records := by
  unfold records
  split
  · exact List.mem_singleton_self _
  · exact List.mem_cons_of_mem _ (List.mem_singleton_self _)

theorem covers_records (board : Board Field Value) : Covers board.records board :=
  fun _ member => member

theorem Covers.publish (covers : Covers window board) (target : Field → Value)
    (pending : List Field) : Covers (window ++ [target]) (board.publish target pending) := by
  have before := covers board.target board.target_mem_records
  intro record member
  unfold records at member
  split at member
  · exact List.mem_append_right _ member
  · rcases List.mem_cons.mp member with rfl | last
    · exact List.mem_append_left _ before
    · exact List.mem_append_right _ last

theorem Covers.store [DecidableEq Field] (covers : Covers window board) {field : Field}
    {rest : List Field} (first : board.pending = field :: rest) :
    Covers window (board.store field rest) := by
  have both : board.records = [board.previous, board.target] := by
    unfold records
    rw [first, if_neg (List.cons_ne_nil _ _)]
  intro record member
  refine covers record (both ▸ ?_)
  unfold records at member
  split at member
  · exact List.mem_cons_of_mem _ member
  · exact member

/-- Store some fields, one after another. -/
def storeAll [DecidableEq Field] (board : Board Field Value) (fields rest : List Field) :
    Board Field Value :=
  { board with
    cells := fun field => if field ∈ fields then board.target field else board.cells field
    pending := rest }

theorem storeAll_nil [DecidableEq Field] (board : Board Field Value) :
    board.storeAll [] board.pending = board := by
  unfold storeAll
  simp

/-- Several fields are stored one after another. -/
theorem storeAll_cons [DecidableEq Field] (board : Board Field Value) (field : Field)
    (fields rest : List Field) :
    board.storeAll (field :: fields) rest =
      (board.store field (fields ++ rest)).storeAll fields rest := by
  unfold storeAll store
  congr 1
  funext other
  by_cases same : other = field
  · subst same
    simp
  · simp [same]

/-- The field of one of the records. -/
def Seen (window : List (Field → Value)) (field : Field) (value : Value) : Prop :=
  ∃ record ∈ window, value = record field

theorem Seen.mono {more : List (Field → Value)} (grown : window ⊆ more) {field : Field}
    {value : Value} (seen : Seen window field value) : Seen more field value := by
  obtain ⟨record, member, same⟩ := seen
  exact ⟨record, grown member, same⟩

theorem Sound.seen (sound : board.Sound) (covers : Covers window board) (field : Field) :
    Seen window field (board.cells field) := by
  obtain ⟨record, member, same⟩ := sound.load field
  exact ⟨record, covers record member, same⟩

/-- If the records agree on a field, what is seen of it is theirs. -/
theorem Seen.eq_of_agree {field : Field} {value common : Value} (seen : Seen window field value)
    (agree : ∀ record ∈ window, record field = common) : value = common := by
  obtain ⟨record, member, same⟩ := seen
  rw [same, agree record member]

end Board

end Publication

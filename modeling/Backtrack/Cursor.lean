import Backtrack.Error

/-!
A cursor: a text held whole, and the place reached in it.

Positions count characters. A cursor moves forward one character at a time, and back by returning
to a checkpoint. Its unread part is `Cursor.rest`, the view that the lemmas speak of: looking,
advancing and the number of characters left are all facts about that list.

A checkpoint is a bare position. Returning to one that was taken on a longer text puts the cursor
past its end; nothing is left to read there, and `Cursor.remainder?` answers `none`.
-/

namespace Backtrack

/-- A place that was seen on a cursor and can be returned to. It is the number of characters before
it, and tells nothing of the text. -/
structure Checkpoint where
  position : Nat
deriving DecidableEq, Repr

instance : Ord Checkpoint where
  compare a b := compare a.position b.position

/-- A text and the place reached in it, with so many of its characters behind. -/
structure Cursor where
  data : Array Char
  position : Nat
deriving DecidableEq, Repr

namespace Cursor

/-- A cursor at the start of a text. -/
def ofString (text : String) : Cursor :=
  ⟨text.toList.toArray, 0⟩

/-- The number of characters of the whole text. -/
def length (c : Cursor) : Nat :=
  c.data.size

/-- Whether the whole text is empty. -/
def isEmpty (c : Cursor) : Bool :=
  c.data.isEmpty

/-- Whether a character is left to read. -/
def hasNext (c : Cursor) : Bool :=
  c.position < c.length

/-- The number of characters left to read. -/
def remaining (c : Cursor) : Nat :=
  c.length - c.position

/-- The characters left to read; none when the cursor is at or past the end. -/
def rest (c : Cursor) : List Char :=
  c.data.toList.drop c.position

/-- The next character, if one is left. -/
def peek? (c : Cursor) : Option Char :=
  c.data[c.position]?

/-- The next character, or the fault of reading where none is left. -/
def peek (c : Cursor) : Except Error Char :=
  match c.peek? with
  | some x => .ok x
  | none => .error (.readAtEnd c.position)

/-- One character further, if one is left; otherwise the cursor stays. -/
def advance (c : Cursor) : Cursor :=
  if c.hasNext then { c with position := c.position + 1 } else c

/-- Any place of the text, its end included. -/
def seek (c : Cursor) (position : Nat) : Except Error Cursor :=
  if position ≤ c.length then .ok { c with position }
  else .error (.seekOutOfBounds position c.length)

/-- The place reached. -/
def checkpoint (c : Cursor) : Checkpoint :=
  ⟨c.position⟩

/-- Back to a place seen before. -/
def rewind (c : Cursor) (start : Checkpoint) : Cursor :=
  { c with position := start.position }

/-- The unread text; past the end there is none, not even an empty one. -/
def remainder? (c : Cursor) : Option String :=
  if c.position ≤ c.length then some (String.ofList c.rest) else none

/-! ### The unread characters -/

theorem rest_ofString (text : String) : (ofString text).rest = text.toList := rfl

theorem length_ofString (text : String) : (ofString text).length = text.toList.length := rfl

theorem length_rest (c : Cursor) : c.rest.length = c.remaining := by
  simp [rest, remaining, length]

/-- The next character is the first unread one. -/
theorem peek?_eq_head? (c : Cursor) : c.peek? = c.rest.head? := by
  simp [peek?, rest, List.head?_drop]

theorem hasNext_iff (c : Cursor) : c.hasNext = true ↔ c.position < c.length := by
  simp [hasNext]

theorem hasNext_eq_false_iff (c : Cursor) : c.hasNext = false ↔ c.length ≤ c.position := by
  simp [hasNext]

theorem peek?_eq_none_iff (c : Cursor) : c.peek? = none ↔ c.length ≤ c.position := by
  simp [peek?, length]

theorem rest_advance (c : Cursor) : c.advance.rest = c.rest.tail := by
  unfold advance
  split
  · simp [rest, List.tail_drop]
  · next h =>
    have h : c.length ≤ c.position := by simpa [hasNext_iff] using h
    simp [rest, List.drop_eq_nil_of_le (show c.data.toList.length ≤ c.position from h)]

/-- Past the end of the text there is not even an empty rest. -/
theorem remainder?_eq_none_iff (c : Cursor) : c.remainder? = none ↔ c.length < c.position := by
  unfold remainder?
  split
  · next inside => exact iff_of_false nofun (Nat.not_lt.mpr inside)
  · next past => exact iff_of_true rfl (Nat.lt_of_not_le past)

/-! ### What moving keeps -/

@[simp] theorem data_advance (c : Cursor) : c.advance.data = c.data := by
  unfold advance
  split <;> rfl

@[simp] theorem data_rewind (c : Cursor) (start : Checkpoint) : (c.rewind start).data = c.data :=
  rfl

@[simp] theorem position_rewind (c : Cursor) (start : Checkpoint) :
    (c.rewind start).position = start.position := rfl

/-- Returning to where one is changes nothing. -/
@[simp] theorem rewind_checkpoint (c : Cursor) : c.rewind c.checkpoint = c := rfl

theorem position_advance (c : Cursor) (h : c.hasNext = true) :
    c.advance.position = c.position + 1 := by
  simp [advance, h]

end Cursor

end Backtrack

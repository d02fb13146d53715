import Backtrack.Cursor

/-!
The text that lies between two places of a cursor.

`c.Passes text d` says that `d` is `c` moved forward over `text`. Passages join, and the text of
one is determined by its ends, so the bounds on a position all follow from the passage to it.
-/

namespace Backtrack.Cursor

variable {c d e : Cursor} {s t : List Char}

/-- From `c` to `d` the cursor has moved over `text`. -/
structure Passes (c : Cursor) (text : List Char) (d : Cursor) : Prop where
  data : d.data = c.data
  rest : c.rest = text ++ d.rest
  position : d.position = c.position + text.length

theorem length_eq_of_data (same : d.data = c.data) : d.length = c.length := by
  rw [length, same, length]

/-- A cursor is its text and its place. -/
theorem eq_of_data_of_position (data : d.data = c.data) (position : d.position = c.position) :
    d = c := by
  cases c
  cases d
  cases data
  cases position
  rfl

/-- Back at a place of the same text the cursor is the one it was. -/
theorem rewind_checkpoint_of_data (same : d.data = c.data) : d.rewind c.checkpoint = c :=
  eq_of_data_of_position same rfl

theorem hasNext_iff_remaining : c.hasNext = true ↔ 0 < c.remaining := by
  rw [hasNext_iff, remaining, Nat.sub_pos_iff_lt]

/-- Nothing is unread exactly where no character is left. -/
theorem rest_eq_nil_iff : c.rest = [] ↔ c.hasNext = false := by
  rw [hasNext_eq_false_iff, rest, List.drop_eq_nil_iff, Array.length_toList, length]

theorem hasNext_of_peek? {x : Char} (read : c.peek? = some x) : c.hasNext = true := by
  rw [hasNext_iff, ← Nat.not_le, ← peek?_eq_none_iff]
  simp [read]

namespace Passes

@[simp] theorem refl (c : Cursor) : c.Passes [] c :=
  ⟨rfl, rfl, rfl⟩

/-- One passage behind another. -/
theorem trans (first : c.Passes s d) (second : d.Passes t e) : c.Passes (s ++ t) e where
  data := second.data.trans first.data
  rest := by rw [first.rest, second.rest, List.append_assoc]
  position := by rw [second.position, first.position, List.length_append, Nat.add_assoc]

/-- A character that is read is passed by advancing. -/
theorem advance {x : Char} (read : c.peek? = some x) : c.Passes [x] c.advance where
  data := data_advance c
  rest := by
    rw [peek?_eq_head?] at read
    obtain ⟨unread, split⟩ := List.head?_eq_some_iff.mp read
    rw [rest_advance, split, List.tail_cons, List.singleton_append]
  position := by
    exact position_advance c (hasNext_of_peek? read)

theorem length_add_remaining (passes : c.Passes s d) : c.remaining = s.length + d.remaining := by
  rw [← length_rest, ← length_rest, passes.rest, List.length_append]

/-- A passage leads forward. -/
theorem position_le (passes : c.Passes s d) : c.position ≤ d.position := by
  rw [passes.position]
  exact Nat.le_add_right _ _

/-- A cursor inside its text stays inside; one past the end stays where it is. -/
theorem position_le_max (passes : c.Passes s d) : d.position ≤ max c.position c.length := by
  have moved := passes.position
  have left := passes.length_add_remaining
  rw [remaining] at left
  omega

/-- Where no character is left there is no text to move over. -/
theorem eq_of_exhausted (passes : c.Passes s d) (exhausted : c.hasNext = false) : d = c := by
  have bounded := passes.position_le_max
  have forward := passes.position_le
  rw [hasNext_eq_false_iff] at exhausted
  exact eq_of_data_of_position passes.data (by omega)

/-- A passage leaves no more than there was. -/
theorem remaining_le (passes : c.Passes s d) : d.remaining ≤ c.remaining := by
  have left := passes.length_add_remaining
  omega

/-- What was passed from the start of a text, and what is left, have its length together. -/
theorem position_add_length_rest {text : String} (passes : (ofString text).Passes s d) :
    d.position + d.rest.length = text.length := by
  have start : (ofString text).position = 0 := rfl
  rw [passes.position, start, Nat.zero_add, ← List.length_append, ← passes.rest, rest_ofString,
    String.length_toList]

/-- Passing a text that is not empty leaves less to read. -/
theorem remaining_lt (passes : c.Passes s d) (moved : d.position ≠ c.position) :
    d.remaining < c.remaining := by
  have left := passes.length_add_remaining
  have position := passes.position
  omega

/-- The text passed is what the two positions enclose. -/
theorem eq_extract (passes : c.Passes s d) :
    s = (c.data.extract c.position d.position).toList := by
  have enclosed : (c.data.extract c.position d.position).toList = c.rest.take s.length := by
    rw [Array.toList_extract, List.extract_eq_take_drop, passes.position, Nat.add_sub_cancel_left]
    rfl
  rw [enclosed, passes.rest, List.take_left]

end Passes

end Backtrack.Cursor

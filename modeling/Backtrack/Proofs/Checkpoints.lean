import Backtrack.Proofs.Sessions

/-!
Where a stored place leads.

A place is stored as a bare position, with no trace of the text it was seen on. Going back to it
leads to that position of whatever text is live by then, and nothing checks that the text is long
enough. So a place leads inside just if the live text reaches as far, as it does if it is no
shorter than the one on which the place was seen; between a text and a shorter one there is always
a place that leads out.
-/

namespace Backtrack.Session

variable {κ : Type} {g : Grammar κ} {depth : Nat} {s : Session} {name : String}

/-- Only storing a place under a name changes what is stored under it. -/
theorem lookup_checkpoints_step {command : Command κ} (other : command ≠ .checkpoint name) :
    (s.step g depth command).2.checkpoints.lookup name = s.checkpoints.lookup name := by
  rw [checkpoints_step]
  cases command with
  | checkpoint here =>
      have differs : (name == here) = false := by
        rw [beq_eq_false_iff_ne]
        exact fun same => other (congrArg Command.checkpoint same.symm)
      exact List.lookup_cons.trans (by rw [differs])
  | _ => rfl

/-- A place stays stored as long as no other is stored under its name. -/
theorem lookup_checkpoints_run {commands : List (Command κ)}
    (kept : .checkpoint name ∉ commands) :
    (s.run g depth commands).checkpoints.lookup name = s.checkpoints.lookup name := by
  induction commands generalizing s with
  | nil => rfl
  | cons command commands ih =>
      obtain ⟨other, kept⟩ := not_or.mp (List.mem_cons.not.mp kept)
      exact (ih kept).trans (lookup_checkpoints_step (Ne.symm other))

/-- Going back leads to the stored position of the live text. -/
theorem step_rewind {start : Checkpoint} (stored : s.checkpoints.lookup name = some start) :
    (s.step g depth (.rewind name)).2 = { s with cursor := s.cursor.rewind start } := by
  rw [step, stored]

/-- A place seen at some moment of a session leads back to its position at any later one. -/
theorem rewind_of_seen {commands : List (Command κ)} (kept : .checkpoint name ∉ commands) :
    (((s.step g depth (.checkpoint name)).2.run g depth commands).step g depth
        (.rewind name)).2.cursor =
      ((s.step g depth (.checkpoint name)).2.run g depth commands).cursor.rewind
        s.cursor.checkpoint := by
  have stored : (s.step g depth (.checkpoint name)).2.checkpoints.lookup name =
      some s.cursor.checkpoint := List.lookup_cons_self
  rw [step_rewind ((lookup_checkpoints_run kept).trans stored)]

/-- A jump on a text leads to the position, or nowhere if the text does not have it. -/
theorem position_seek (g : Grammar κ) (depth : Nat) (text : String) (position : Nat) :
    ((ofString text).step g depth (.seek position)).2.cursor.position =
      if position ≤ text.toList.length then position else 0 := by
  by_cases within : position ≤ text.toList.length
  · have reached : (ofString text).cursor.seek position = .ok ⟨text.toList.toArray, position⟩ :=
      if_pos within
    rw [step, reached, if_pos within]
  · have refused : (ofString text).cursor.seek position =
        .error (.seekOutOfBounds position text.toList.length) := if_neg within
    rw [step, refused, if_neg within]
    rfl

/-- Any position of one text can be carried to another. -/
theorem cursor_carried (g : Grammar κ) (depth : Nat) (one other : String) (position : Nat) :
    ((ofString one).run g depth
      [.seek position, .checkpoint "here", .load other, .rewind "here"]).cursor =
        ⟨other.toList.toArray, if position ≤ one.toList.length then position else 0⟩ := by
  have kept : (.checkpoint "here" : Command κ) ∉ [.load other] := by simp
  rw [← position_seek g depth one position]
  exact rewind_of_seen kept

/-- **A place leads inside just if the live text reaches as far.** A place that was seen at any
moment leads at any later one to its position of the live text. That is inside the text, and the
unread text is there to be read, just if the text is long enough, as it is if it is no shorter than
the one on which the place was seen, by a cursor inside it. And all places of one text lead inside
another just if the other is no shorter. -/
theorem rewinds_inside_iff (g : Grammar κ) (depth : Nat) :
    (∀ (s : Session) (name : String) (commands : List (Command κ)), .checkpoint name ∉ commands →
      let later := (s.step g depth (.checkpoint name)).2.run g depth commands
      let back := (later.step g depth (.rewind name)).2
      back.cursor.data = later.cursor.data ∧ back.cursor.position = s.cursor.position ∧
        (back.cursor.position ≤ back.cursor.length ↔ s.cursor.position ≤ later.cursor.length) ∧
        ((back.step g depth .remainder).1 = .broken ↔
          later.cursor.length < s.cursor.position) ∧
        (s.cursor.position ≤ s.cursor.length → s.cursor.length ≤ later.cursor.length →
          back.cursor.position ≤ back.cursor.length)) ∧
    ∀ one other : String,
      (∀ position,
        let s := (ofString one).run g depth
          [.seek position, .checkpoint "here", .load other, .rewind "here"]
        s.cursor.position ≤ s.cursor.length) ↔
      one.toList.length ≤ other.toList.length := by
  constructor
  · intro s name commands kept later back
    have rewound : back.cursor = later.cursor.rewind s.cursor.checkpoint := rewind_of_seen kept
    have position : back.cursor.position = s.cursor.position := by rw [rewound]; rfl
    have data : back.cursor.data = later.cursor.data := by rw [rewound]; rfl
    have length := Cursor.length_eq_of_data data
    refine ⟨data, position, ?_, ?_, ?_⟩
    · rw [position, length]
    · rw [remainder_breaks_iff, Cursor.not_inside_iff, position, length]
    · intro inside longer
      rw [position, length]
      exact Nat.le_trans inside longer
  · intro one other
    simp only [cursor_carried]
    constructor
    · intro inside
      have last := inside one.toList.length
      rw [if_pos (Nat.le_refl _)] at last
      exact last
    · intro longer position
      split
      · next within => exact Nat.le_trans within longer
      · exact Nat.zero_le _

theorem end_leads_into_longer_text :
    let s : Session := ⟨⟨#['a'], 1⟩, [], []⟩
    let later := (s.step .chainFree 0 (.checkpoint "end")).2.run .chainFree 0
      [.load "bc", .advance, .advance]
    let back := (later.step .chainFree 0 (.rewind "end")).2
    (.checkpoint "end" : Command Empty) ∉ [.load "bc", .advance, .advance] ∧
      s.cursor.position ≤ s.cursor.length ∧ s.cursor.length ≤ later.cursor.length ∧
      back.cursor.position = 1 ∧ back.cursor.position ≤ back.cursor.length := by
  intro s later back
  have kept : (.checkpoint "end" : Command Empty) ∉ [.load "bc", .advance, .advance] := by simp
  have inside : s.cursor.position ≤ s.cursor.length := by decide
  have longer : s.cursor.length ≤ later.cursor.length := by decide +kernel
  obtain ⟨-, position, -, -, leads⟩ :=
    (rewinds_inside_iff .chainFree 0).1 s "end" _ kept
  exact ⟨kept, inside, longer, position, leads inside longer⟩

/-- Not every stored place leads inside: the end of a text does not lead into the empty one. -/
theorem end_leads_out_of_empty_text :
    ¬ ∀ (text : String) (commands : List (Command Empty)) (name : String) (start : Checkpoint),
      ((ofString text).run .chainFree 0 commands).checkpoints.lookup name = some start →
      let back := (((ofString text).run .chainFree 0 commands).step .chainFree 0 (.rewind name)).2
      back.cursor.position ≤ back.cursor.length ∧
        (back.step .chainFree 0 .remainder).1 ≠ .broken := by
  intro leads
  have stored : ((ofString "a").run .chainFree 0
      [.advance, .checkpoint "end", .load ""]).checkpoints.lookup "end" = some ⟨1⟩ := by
    decide +kernel
  exact absurd (leads _ _ _ _ stored).1 (by decide +kernel)

end Backtrack.Session

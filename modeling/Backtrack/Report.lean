import Backtrack.Cursor
import Backtrack.Log

/-!
The report of one call of a parser: how it ended, where it left the cursor, and its log.

Finding nothing is an answer. Two more endings are none: a continuation that gives no parser
aborts the call, and a call that would go deeper than it may is left unfinished. Both end every
call around them at once, with the cursor where it was.
-/

namespace Backtrack

/-- How a call of a parser ended: with the fragments of a match, with none, because a continuation
gave no parser, or because continuations were nested deeper than allowed. -/
inductive Ending where
  | matched (fragments : List String)
  | noMatch
  | aborted
  | unfinished
deriving DecidableEq, Repr

/-- What one call of a parser did: how it ended, where it left the cursor, and what it logged. -/
structure Report (κ : Type) where
  ending : Ending
  cursor : Cursor
  log : Log κ

/-- What a parser does from a place in a text. -/
abbrev Matcher (κ : Type) :=
  Cursor → Report κ

namespace Report

variable {κ : Type}

/-- The report of a call that changes nothing. -/
def still (ending : Ending) : Matcher κ :=
  fun c => ⟨ending, c, ∅⟩

/-- A report with what was logged before it. -/
def after (r : Report κ) (log : Log κ) : Report κ :=
  { r with log := log ++ r.log }

/-- The fragments of a match changed by `f`. -/
def mapFragments (r : Report κ) (f : List String → List String) : Report κ :=
  match r.ending with
  | .matched fragments => { r with ending := .matched (f fragments) }
  | _ => r

/-- After a match the call goes on with `next`; any other ending stands. -/
def andThen (r : Report κ) (next : List String → Matcher κ) : Report κ :=
  match r.ending with
  | .matched fragments => (next fragments r.cursor).after r.log
  | _ => r

/-- Where nothing matched the call goes on with `next`; any other ending stands. -/
def orElse (r : Report κ) (next : Matcher κ) : Report κ :=
  match r.ending with
  | .noMatch => (next r.cursor).after r.log
  | _ => r

/-- Where nothing matched the cursor goes back to `start`, and `note` tells of the place it left. -/
def rewoundTo (r : Report κ) (start : Checkpoint) (note : Nat → Log κ) : Report κ :=
  match r.ending with
  | .noMatch => ⟨.noMatch, r.cursor.rewind start, r.log ++ note r.cursor.position⟩
  | _ => r

/-! ### What each operation does, ending by ending -/

variable {r : Report κ} {fragments : List String}

@[simp] theorem ending_still (ending : Ending) (c : Cursor) :
    (still ending c : Report κ).ending = ending := rfl

@[simp] theorem cursor_still (ending : Ending) (c : Cursor) :
    (still ending c : Report κ).cursor = c := rfl

@[simp] theorem log_still (ending : Ending) (c : Cursor) :
    (still ending c : Report κ).log = ∅ := rfl

@[simp] theorem ending_after (r : Report κ) (log : Log κ) : (r.after log).ending = r.ending := rfl

@[simp] theorem cursor_after (r : Report κ) (log : Log κ) : (r.after log).cursor = r.cursor := rfl

@[simp] theorem log_after (r : Report κ) (log : Log κ) : (r.after log).log = log ++ r.log := rfl

@[simp] theorem cursor_mapFragments (r : Report κ) (f : List String → List String) :
    (r.mapFragments f).cursor = r.cursor := by
  unfold mapFragments
  split
  · rfl
  · rfl

@[simp] theorem log_mapFragments (r : Report κ) (f : List String → List String) :
    (r.mapFragments f).log = r.log := by
  unfold mapFragments
  split
  · rfl
  · rfl

theorem matched_or_not (r : Report κ) :
    (∃ fragments, r.ending = .matched fragments) ∨ ∀ fragments, r.ending ≠ .matched fragments := by
  cases ended : r.ending with
  | matched fragments => exact Or.inl ⟨fragments, rfl⟩
  | noMatch => exact Or.inr nofun
  | aborted => exact Or.inr nofun
  | unfinished => exact Or.inr nofun

theorem not_matched_of_noMatch (noMatch : r.ending = .noMatch) (fragments : List String) :
    r.ending ≠ .matched fragments := by
  simp [noMatch]

theorem mapFragments_of_matched (h : r.ending = .matched fragments)
    (f : List String → List String) : (r.mapFragments f).ending = .matched (f fragments) := by
  rw [mapFragments, h]

theorem mapFragments_of_not_matched (h : ∀ fragments, r.ending ≠ .matched fragments)
    (f : List String → List String) : r.mapFragments f = r := by
  unfold mapFragments
  split
  · next fragments matched => exact absurd matched (h fragments)
  · rfl

/-- Changing fragments touches no ending but a match. -/
theorem ending_mapFragments_iff (ending : Ending) (other : ∀ fragments, ending ≠ .matched fragments)
    {f : List String → List String} :
    (r.mapFragments f).ending = ending ↔ r.ending = ending := by
  rcases r.matched_or_not with ⟨fragments, matched⟩ | unmatched
  · rw [mapFragments_of_matched matched, matched]
    exact iff_of_false (other _).symm (other _).symm
  · rw [mapFragments_of_not_matched unmatched]

theorem matched_mapFragments {f : List String → List String}
    (matched : (r.mapFragments f).ending = .matched fragments) :
    ∃ found, r.ending = .matched found ∧ fragments = f found := by
  rcases r.matched_or_not with ⟨found, here⟩ | unmatched
  · rw [mapFragments_of_matched here] at matched
    exact ⟨found, here, (Ending.matched.inj matched).symm⟩
  · rw [mapFragments_of_not_matched unmatched] at matched
    exact absurd matched (unmatched fragments)

theorem mapFragments_of_unfinished (h : r.ending = .unfinished) (f : List String → List String) :
    (r.mapFragments f).ending = .unfinished := by
  simp only [mapFragments, h]

theorem andThen_of_matched (h : r.ending = .matched fragments)
    (next : List String → Matcher κ) :
    r.andThen next = (next fragments r.cursor).after r.log := by
  rw [andThen, h]

theorem andThen_of_not_matched (h : ∀ fragments, r.ending ≠ .matched fragments)
    (next : List String → Matcher κ) : r.andThen next = r := by
  unfold andThen
  split
  · next fragments matched => exact absurd matched (h fragments)
  · rfl

theorem orElse_of_noMatch (h : r.ending = .noMatch) (next : Matcher κ) :
    r.orElse next = (next r.cursor).after r.log := by
  rw [orElse, h]

theorem orElse_of_ne_noMatch (h : r.ending ≠ .noMatch) (next : Matcher κ) :
    r.orElse next = r := by
  unfold orElse
  split
  · next noMatch => exact absurd noMatch h
  · rfl

theorem rewoundTo_of_noMatch (h : r.ending = .noMatch) (start : Checkpoint)
    (note : Nat → Log κ) :
    r.rewoundTo start note =
      ⟨.noMatch, r.cursor.rewind start, r.log ++ note r.cursor.position⟩ := by
  rw [rewoundTo, h]

theorem rewoundTo_of_ne_noMatch (h : r.ending ≠ .noMatch) (start : Checkpoint)
    (note : Nat → Log κ) : r.rewoundTo start note = r := by
  unfold rewoundTo
  split
  · next noMatch => exact absurd noMatch h
  · rfl

/-- Going back to the start does not change how a call ended. -/
@[simp] theorem ending_rewoundTo (r : Report κ) (start : Checkpoint) (note : Nat → Log κ) :
    (r.rewoundTo start note).ending = r.ending := by
  unfold rewoundTo
  split
  · next noMatch => exact noMatch.symm
  · rfl

/-- A match is not touched by going back. -/
theorem rewoundTo_of_matched (h : r.ending = .matched fragments) (start : Checkpoint)
    (note : Nat → Log κ) : r.rewoundTo start note = r :=
  rewoundTo_of_ne_noMatch (by simp [h]) start note

/-- What was logged before a call may be put before it also after going back. -/
theorem rewoundTo_after (r : Report κ) (start : Checkpoint) (note : Nat → Log κ) (log : Log κ) :
    (r.rewoundTo start note).after log = (r.after log).rewoundTo start note := by
  by_cases noMatch : r.ending = .noMatch
  · rw [rewoundTo_of_noMatch noMatch, rewoundTo_of_noMatch (r := r.after log) noMatch]
    simp [after, Log.append_assoc]
  · rw [rewoundTo_of_ne_noMatch noMatch, rewoundTo_of_ne_noMatch (r := r.after log) noMatch]

/-- The fragments of a match are not touched by going back. -/
theorem rewoundTo_mapFragments (r : Report κ) (start : Checkpoint) (note : Nat → Log κ)
    (f : List String → List String) :
    (r.rewoundTo start note).mapFragments f = (r.mapFragments f).rewoundTo start note := by
  cases r with
  | mk ending cursor log => cases ending <;> rfl

@[simp] theorem mapFragments_mapFragments (r : Report κ) (f f' : List String → List String) :
    (r.mapFragments f).mapFragments f' = r.mapFragments (f' ∘ f) := by
  cases r with
  | mk ending cursor log => cases ending <;> rfl

@[simp] theorem mapFragments_id (r : Report κ) : r.mapFragments id = r := by
  cases r with
  | mk ending cursor log => cases ending <;> rfl

/-- Going back keeps the text. -/
@[simp] theorem data_rewoundTo (r : Report κ) (start : Checkpoint) (note : Nat → Log κ) :
    (r.rewoundTo start note).cursor.data = r.cursor.data := by
  unfold rewoundTo
  split
  · exact Cursor.data_rewind r.cursor start
  · rfl

end Report

end Backtrack

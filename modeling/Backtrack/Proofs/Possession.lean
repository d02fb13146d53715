import Backtrack.Proofs.Counting
import Backtrack.Proofs.Substance

/-!
What an open repetition leaves behind.

An open repetition goes on as long as its part matches and advances. Where it stops, the part finds
nothing or matches without advancing, and either makes a repetition that begins there find nothing.
So a second repetition of the same part has nothing to do: around the first it goes one round, and
behind the first it fails.
-/

namespace Backtrack

variable {κ : Type}

namespace Matcher

open Report

variable {m : Matcher κ} {c : Cursor} {fragments : List String}

/-- Where an open repetition stops, its part does not go on. -/
theorem halts_behind_oneOrMore (lawful : Lawful m) (forward : Forward m)
    (matched : (oneOrMore m c).ending = .matched fragments) : Halts m (oneOrMore m c).cursor := by
  obtain ⟨k, -, row, agrees, -⟩ := exists_row_of_matched lawful forward matched
  obtain ⟨-, -, reached, -⟩ := times_of_advances row.advances
  rw [agrees.cursor, reached]
  exact row.halts

theorem oneOrMore_fails_behind (lawful : Lawful m) (forward : Forward m)
    (matched : (oneOrMore m c).ending = .matched fragments) :
    (oneOrMore m (oneOrMore m c).cursor).ending = .noMatch :=
  (oneOrMore_noMatch_iff lawful forward).mpr (halts_behind_oneOrMore lawful forward matched)

theorem forward_oneOrMore (lawful : Lawful m) (forward : Forward m) : Forward (oneOrMore m) := by
  rw [← spells_anything_iff] at forward ⊢
  exact spells_oneOrMore anything_spelling lawful forward

/-- A repetition ends with its first round if that does not answer. -/
theorem oneOrMore_of_unanswered (unanswered : (m c).ending.answer? = none) :
    (oneOrMore m c).Agrees (m c) := by
  rw [oneOrMore, rounds]
  rcases Ending.answer?_eq_none_iff.mp unanswered with ended | ended
  · simp only [ended]
    exact ⟨ended.symm, rfl⟩
  · simp only [ended]
    exact ⟨ended.symm, rfl⟩

/-- A repetition of a repetition is that repetition. -/
theorem oneOrMore_oneOrMore_agrees (lawful : Lawful m) (forward : Forward m) (c : Cursor) :
    (oneOrMore (oneOrMore m) c).Agrees (oneOrMore m c) := by
  have lawful' := lawful_oneOrMore lawful
  have forward' := forward_oneOrMore lawful forward
  cases ended : (oneOrMore m c).ending with
  | matched fragments =>
      -- The first round takes all there is, and the second finds nothing.
      have row : Row (oneOrMore m) c 1 := by
        constructor
        · intro i less
          cases Nat.lt_one_iff.mp less
          exact ⟨⟨fragments, ended⟩, oneOrMore_advances lawful forward ended⟩
        · exact Or.inl (oneOrMore_fails_behind lawful forward ended)
      obtain ⟨agrees, -⟩ := (row.oneOrMore lawful' forward').2.1 Nat.one_ne_zero
      exact agrees.trans (times_one_agrees lawful' c)
  | noMatch =>
      have noMatch : (oneOrMore (oneOrMore m) c).ending = .noMatch :=
        (oneOrMore_noMatch_iff lawful' forward').mpr (Or.inl ended)
      refine ⟨noMatch.trans ended.symm, ?_⟩
      rw [lawful'.restores c ended, (lawful_oneOrMore lawful').restores c noMatch]
  | aborted | unfinished => exact oneOrMore_of_unanswered (by rw [ended]; rfl)

/-- Behind a repetition there is no second one. -/
theorem pair_oneOrMore_not_matched (lawful : Lawful m) (forward : Forward m) (c : Cursor)
    (fragments : List String) :
    (sequence [oneOrMore m, oneOrMore m] c).ending ≠ .matched fragments := by
  intro matched
  obtain ⟨-, same⟩ := matched_sequence matched
  rw [same] at matched
  obtain ⟨found, more, here, there, -⟩ := matched_inOrder_cons matched
  have behind := oneOrMore_fails_behind lawful forward here
  rw [(inOrder_single ..).ending, behind] at there
  cases there

end Matcher

namespace Parser

open Matcher

/-- **Open repetitions take all there is.** Where one has matched, running it again finds nothing
and does not move. Hence a repetition of a repetition does what the inner one does, and two of them
in a row never match. -/
theorem oneOrMore_takes_all (g : Grammar κ) (depth : Nat) (p : Parser κ) (c : Cursor) :
    let many := (oneOrMore p).parse g depth
    (∀ fragments, (many c).ending = .matched fragments →
      (many (many c).cursor).ending = .noMatch ∧
        (many (many c).cursor).cursor = (many c).cursor) ∧
    ((oneOrMore (oneOrMore p)).parse g depth c).Agrees (many c) ∧
    ∀ fragments,
      (((oneOrMore p).andThen (oneOrMore p)).parse g depth c).ending ≠ .matched fragments := by
  intro many
  have lawful : Lawful (p.parse g depth) := parse_lawful g depth p
  have forward : Forward (p.parse g depth) := parse_forward g depth p
  refine ⟨fun fragments matched => ?_, oneOrMore_oneOrMore_agrees lawful forward c,
    fun fragments => ?_⟩
  · have noMatch := oneOrMore_fails_behind lawful forward matched
    exact ⟨noMatch, (lawful_oneOrMore lawful).restores _ noMatch⟩
  · rw [parse_andThen]
    exact pair_oneOrMore_not_matched lawful forward c fragments

/-- Letters up to a place where their parser matches without advancing. -/
theorem letters_taken_up_to_empty_match :
    let letters : Parser Empty := either (literal 'x') (merge (times (literal 'y') 0))
    let many := (oneOrMore letters).parse .chainFree 0
    (many (.ofString "xxz")).ending = .matched ["x", "x"] ∧
    (letters.parse .chainFree 0 (many (.ofString "xxz")).cursor).ending = .matched [""] ∧
    (many (many (.ofString "xxz")).cursor).ending = .noMatch ∧
    ((oneOrMore (oneOrMore letters)).parse .chainFree 0 (.ofString "xxz")).ending =
      .matched ["x", "x"] := by
  intro letters many
  have matched : (many (.ofString "xxz")).ending = .matched ["x", "x"] := by decide +kernel
  obtain ⟨again, nested, -⟩ := oneOrMore_takes_all .chainFree 0 letters (.ofString "xxz")
  exact ⟨matched, by decide +kernel, (again _ matched).1, nested.ending.trans matched⟩

end Parser

end Backtrack

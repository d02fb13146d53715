import Backtrack.Languages
import Backtrack.Proofs.Spelling

/-!
Where a call leaves the cursor, and what that means for a run.

A call that answers has passed some text, and none if nothing matched. So the cursor never leaves
the text it started in, and the remainder of a run is always there to be read.
-/

namespace Backtrack

variable {κ : Type}

/-- What a caller gets: the fragments of a match or none, and nothing at all from a call that did
not come to its end. -/
def Ending.answer? : Ending → Option (Option (List String))
  | .matched fragments => some (some fragments)
  | .noMatch => some none
  | .aborted | .unfinished => none

theorem Ending.answer?_eq_some_iff {ending : Ending} {answer : Option (List String)} :
    ending.answer? = some answer ↔
      ending = .noMatch ∧ answer = none ∨
        ∃ fragments, ending = .matched fragments ∧ answer = some fragments := by
  cases ending <;> simp [answer?, eq_comm]

theorem Ending.answer?_eq_none_iff {ending : Ending} :
    ending.answer? = none ↔ ending = .aborted ∨ ending = .unfinished := by
  cases ending <;> simp [answer?]

namespace Parser

open Languages

variable {g : Grammar κ} {depth : Nat} {p : Parser κ} {c : Cursor} {text : String}
  {answer : Option (List String)}

/-- A call that answers has passed some text; without a match it has not moved. -/
theorem parse_answered (answered : (p.parse g depth c).ending.answer? = some answer) :
    ∃ passed, c.Passes passed (p.parse g depth c).cursor ∧
      (answer = none → (p.parse g depth c).cursor = c) := by
  rcases Ending.answer?_eq_some_iff.mp answered with ⟨noMatch, rfl⟩ | ⟨fragments, matched, rfl⟩
  · have restored := (parse_lawful g depth p).restores c noMatch
    exact ⟨[], restored.symm ▸ .refl c, fun _ => restored⟩
  · obtain ⟨passed, passes⟩ := parse_forward g depth p c _ matched
    exact ⟨passed, passes, nofun⟩

/-- From the start of a text the cursor does not get past its end. -/
theorem position_le_length
    (answered : (p.parse g depth (.ofString text)).ending.answer? = some answer) :
    (p.parse g depth (.ofString text)).cursor.position ≤ text.toList.length := by
  obtain ⟨passed, passes, -⟩ := parse_answered answered
  have bounded := passes.position_le_max
  rw [Cursor.length_ofString] at bounded
  exact Nat.le_trans bounded (Nat.max_le.mpr ⟨Nat.zero_le _, Nat.le_refl _⟩)

theorem remainder?_parse
    (answered : (p.parse g depth (.ofString text)).ending.answer? = some answer) :
    (p.parse g depth (.ofString text)).cursor.remainder? =
      some (String.ofList (p.parse g depth (.ofString text)).cursor.rest) := by
  obtain ⟨passed, passes, -⟩ := parse_answered answered
  refine if_pos ?_
  rw [Cursor.length_eq_of_data passes.data, Cursor.length_ofString]
  exact position_le_length answered

/-- A run finishes whenever the parse answers, and its remainder is what the parse left unread. -/
theorem run_of_answer
    (answered : (p.parse g depth (.ofString text)).ending.answer? = some answer) :
    (p.run g depth text).completion =
      .finished ⟨answer, String.ofList (p.parse g depth (.ofString text)).cursor.rest⟩ := by
  have readable := remainder?_parse answered
  rcases Ending.answer?_eq_some_iff.mp answered with ⟨noMatch, rfl⟩ | ⟨fragments, matched, rfl⟩
  · simp only [run, noMatch, finish, readable]
  · simp only [run, matched, finish, readable]

/-- A run has the answer of its parse, and no outcome if there is none. -/
theorem fragments?_run (g : Grammar κ) (depth : Nat) (p : Parser κ) (text : String) :
    (p.run g depth text).outcome?.map Outcome.fragments? =
      (p.parse g depth (.ofString text)).ending.answer? := by
  cases answered : (p.parse g depth (.ofString text)).ending.answer? with
  | some answer => simp only [Run.outcome?, run_of_answer answered, Option.map_some]
  | none =>
      rcases Ending.answer?_eq_none_iff.mp answered with aborted | unfinished
      · simp only [Run.outcome?, run, aborted, Option.map_none]
      · simp only [Run.outcome?, run, unfinished, Option.map_none]

/-- A run that finished had an answer from its parse. -/
theorem answered_of_finished {outcome : Outcome}
    (finished : (p.run g depth text).completion = .finished outcome) :
    (p.parse g depth (.ofString text)).ending.answer? = some outcome.fragments? := by
  rw [← fragments?_run, Run.outcome?, finished, Option.map_some]

/-- The remainder of a run that finished is what its parse left unread. -/
theorem remainder_of_finished {outcome : Outcome}
    (finished : (p.run g depth text).completion = .finished outcome) :
    outcome.remainder = String.ofList (p.parse g depth (.ofString text)).cursor.rest :=
  congrArg Outcome.remainder
    (Completion.finished.inj (finished.symm.trans (run_of_answer (answered_of_finished finished))))

/-- **The law of failure and the bounds on the position.** Wherever a parse begins, the text stays
the same; without a match the cursor is where it was, and after one it has not gone back, nor past
the end of the text unless it was there before. Hence a run whose parse answers always has a
remainder: the end of the text, and all of it without a match. -/
theorem parse_law (g : Grammar κ) (depth : Nat) (p : Parser κ) :
    (∀ c : Cursor,
      (p.parse g depth c).cursor.data = c.data ∧
      ((p.parse g depth c).ending = .noMatch →
        (p.parse g depth c).cursor.position = c.position) ∧
      ∀ fragments, (p.parse g depth c).ending = .matched fragments →
        c.position ≤ (p.parse g depth c).cursor.position ∧
        (p.parse g depth c).cursor.position ≤ max c.position c.length) ∧
    ∀ text answer, (p.parse g depth (.ofString text)).ending.answer? = some answer →
      (p.parse g depth (.ofString text)).cursor.position ≤ text.toList.length ∧
      ∃ remainder, (p.run g depth text).completion = .finished ⟨answer, remainder⟩ ∧
        remainder.toList <:+ text.toList ∧ (answer = none → remainder = text) := by
  constructor
  · intro c
    have law := parse_lawful g depth p
    refine ⟨law.data c, fun noMatch => by rw [law.restores c noMatch], ?_⟩
    intro fragments matched
    obtain ⟨passed, passes⟩ := parse_forward g depth p c _ matched
    exact ⟨passes.position_le, passes.position_le_max⟩
  · intro text answer answered
    obtain ⟨passed, passes, restored⟩ := parse_answered answered
    refine ⟨position_le_length answered, _, run_of_answer answered, ?_, ?_⟩
    · rw [String.toList_ofList, ← Cursor.rest_ofString text, passes.rest]
      exact List.suffix_append passed _
    · intro nothing
      rw [restored nothing, Cursor.rest_ofString, String.ofList_toList]

theorem quoted_law :
    (quoted.parse quotes 1 ⟨#['x', '\'', 'a', '\''], 1⟩).ending = .matched ["a", "'"] ∧
      1 ≤ (quoted.parse quotes 1 ⟨#['x', '\'', 'a', '\''], 1⟩).cursor.position ∧
      (quoted.parse quotes 1 ⟨#['x', '\'', 'a', '\''], 1⟩).cursor.position ≤ 4 ∧
      (quoted.parse quotes 1 ⟨#['x', '\'', 'a'], 1⟩).ending = .noMatch ∧
      (quoted.parse quotes 1 ⟨#['x', '\'', 'a'], 1⟩).cursor.position = 1 ∧
      (quoted.parse quotes 1 (.ofString "'a")).ending.answer? = some none ∧
      (quoted.run quotes 1 "'a").completion = .finished ⟨none, "'a"⟩ := by
  obtain ⟨law, ran⟩ := parse_law quotes 1 quoted
  have matched : (quoted.parse quotes 1 ⟨#['x', '\'', 'a', '\''], 1⟩).ending =
      .matched ["a", "'"] := by decide +kernel
  have noMatch : (quoted.parse quotes 1 ⟨#['x', '\'', 'a'], 1⟩).ending = .noMatch := by
    decide +kernel
  have answered : (quoted.parse quotes 1 (.ofString "'a")).ending.answer? = some none := by
    decide +kernel
  obtain ⟨-, remainder, finished, -, whole⟩ := ran "'a" none answered
  rw [whole rfl] at finished
  exact ⟨matched, ((law _).2.2 _ matched).1, ((law _).2.2 _ matched).2, noMatch,
    (law _).2.1 noMatch, answered, finished⟩

end Parser

end Backtrack

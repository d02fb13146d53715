import Backtrack.Proofs.Agreement
import Backtrack.Proofs.Termination
import Mathlib.Algebra.BigOperators.Group.Finset.Basic

/-!
How often an open repetition repeats.

From any place a parser can be run as often as it matches and advances, and no more often than
there are characters left: after that it finds nothing, or matches without advancing. That number
of matches makes a `Row`. An open repetition takes the row at its place, as a counted repetition of
just that many would, and runs its part once more to learn that the row is over. If its part never
matches without advancing, the row is also the longest counted repetition that matches.

Both loops run through a row in the same way (`exists_trail`). They differ in what they do behind
it.
-/

namespace Backtrack

open Finset

variable {κ : Type}

namespace Matcher

/-! ### Calls in a row -/

/-- The cursor after so many calls, each of them from where the one before left the cursor. -/
def reach (m : Matcher κ) (c : Cursor) (n : Nat) : Cursor :=
  (fun d => (m d).cursor)^[n] c

/-- The attempts that a repetition logs over so many calls of its part: one for each call, and
those of the repetitions inside the part. -/
def effort (m : Matcher κ) (c : Cursor) (n : Nat) : Nat :=
  ∑ i ∈ range n, ((m (reach m c i)).log.attempts + 1)

/-- The call matches and moves the cursor. -/
def Advances (m : Matcher κ) (c : Cursor) : Prop :=
  (∃ found, (m c).ending = .matched found) ∧ (m c).cursor.position ≠ c.position

/-- The call finds nothing, or matches without moving the cursor. -/
def Halts (m : Matcher κ) (c : Cursor) : Prop :=
  (m c).ending = .noMatch ∨
    (∃ found, (m c).ending = .matched found) ∧ (m c).cursor.position = c.position

/-- So many calls in a row match and advance, and the next does not. -/
structure Row (m : Matcher κ) (c : Cursor) (k : Nat) : Prop where
  advances : ∀ i < k, Advances m (reach m c i)
  halts : Halts m (reach m c k)

variable {m : Matcher κ} {c : Cursor} {k n : Nat}

theorem reach_zero (m : Matcher κ) (c : Cursor) : reach m c 0 = c := rfl

theorem reach_succ (m : Matcher κ) (c : Cursor) (n : Nat) :
    reach m c (n + 1) = reach m (m c).cursor n := rfl

/-- The effort of one call more, counted from the front. -/
theorem effort_succ (m : Matcher κ) (c : Cursor) (n : Nat) :
    effort m c (n + 1) = (m c).log.attempts + 1 + effort m (m c).cursor n := by
  simp only [effort, sum_range_succ', reach_succ, reach_zero]
  omega

/-- The effort of one call more, counted from the back. -/
theorem effort_succ_last (m : Matcher κ) (c : Cursor) (n : Nat) :
    effort m c (n + 1) = effort m c n + ((m (reach m c n)).log.attempts + 1) :=
  sum_range_succ ..

/-- A call that halts does not advance. -/
theorem Halts.not_advances (halts : Halts m c) : ¬ Advances m c := by
  rintro ⟨⟨found, matched⟩, moved⟩
  rcases halts with noMatch | ⟨-, still⟩
  · cases matched.symm.trans noMatch
  · exact moved still

/-- A call that answers advances or halts. -/
theorem advances_or_halts (answered : ∃ answer, (m c).ending.answer? = some answer) :
    Advances m c ∨ Halts m c := by
  rcases matched_or_noMatch answered with matched | noMatch
  · by_cases still : (m c).cursor.position = c.position
    · exact Or.inr (Or.inr ⟨matched, still⟩)
    · exact Or.inl ⟨matched, still⟩
  · exact Or.inr (Or.inl noMatch)

/-- Calls in a row that advance are one that does and as many as remain behind it. -/
theorem forall_lt_succ_advances :
    (∀ i < k + 1, Advances m (reach m c i)) ↔
      Advances m c ∧ ∀ i < k, Advances m (reach m (m c).cursor i) :=
  Nat.forall_lt_succ_left

/-- Calls that advance use up the text. -/
theorem reach_remaining (forward : Forward m) (advances : ∀ i < k, Advances m (reach m c i)) :
    (reach m c k).remaining + k ≤ c.remaining := by
  induction k generalizing c with
  | zero => exact Nat.le_refl _
  | succ k ih =>
      obtain ⟨⟨⟨found, matched⟩, moved⟩, onward⟩ := forall_lt_succ_advances.mp advances
      obtain ⟨text, passes⟩ := forward c found matched
      have less := passes.remaining_lt moved
      have fewer := ih onward
      rw [reach_succ]
      omega

namespace Row

/-- Every call of a row takes a character at least, so a row is no longer than what is unread. -/
theorem le_remaining (row : Row m c k) (forward : Forward m) : k ≤ c.remaining :=
  Nat.le_trans (Nat.le_add_left ..) (reach_remaining forward row.advances)

/-- There is only one row from a place: where one halts the other would advance. -/
theorem unique (row : Row m c k) (other : Row m c n) : n = k := by
  rcases Nat.lt_trichotomy n k with less | same | less
  · exact absurd (row.advances n less) other.halts.not_advances
  · exact same
  · exact absurd (other.advances k less) row.halts.not_advances

/-- A row of no calls is one that halts at once. -/
theorem zero_iff : Row m c 0 ↔ Halts m c :=
  ⟨Row.halts, fun halts => ⟨nofun, halts⟩⟩

end Row

/-- A row comes to its end if all of its calls answer. -/
theorem exists_row (forward : Forward m)
    (answers : ∀ i, (∀ j < i, Advances m (reach m c j)) →
      ∃ answer, (m (reach m c i)).ending.answer? = some answer) : ∃ k, Row m c k := by
  -- Without an end every call would advance, which is once too often for the text.
  by_contra endless
  have advances : ∀ i, ∀ j < i, Advances m (reach m c j) := by
    intro i
    induction i with
    | zero => exact nofun
    | succ i ih =>
        intro j less
        rcases Nat.lt_succ_iff_lt_or_eq.mp less with less | rfl
        · exact ih j less
        · exact (advances_or_halts (answers j ih)).resolve_right fun halts => endless ⟨j, ih, halts⟩
  have bound := reach_remaining forward (advances (c.remaining + 1))
  omega

/-! ### Loops over a row -/

theorem append_append_toArray (found : Array String) (here more : List String) :
    found ++ here ++ more = found ++ (here ++ more) :=
  Array.toList_inj.mp (by simp)

/-- Calls that advance add the same fragments and the same log to either loop. -/
theorem exists_trail (advances : ∀ i < k, Advances m (reach m c i)) :
    ∃ (more : List String) (trail : Log κ), trail.attempts = effort m c k ∧
      (∀ budget matched found log, rounds m (budget + k) matched found log c =
        rounds m budget (matched + k) (found ++ more) (log ++ trail) (reach m c k)) ∧
      ∀ count start left found log, attempts m count start (left + k) found log c =
        attempts m count start left (found ++ more) (log ++ trail) (reach m c k) := by
  induction k generalizing c with
  | zero =>
      refine ⟨[], ∅, rfl, ?_, ?_⟩
      · intro budget matched found log
        simp [reach_zero]
      · intro count start left found log
        simp [reach_zero]
  | succ k ih =>
      obtain ⟨⟨⟨here, matchedHere⟩, moved⟩, onward⟩ := forall_lt_succ_advances.mp advances
      obtain ⟨more, trail, effort, inRounds, inAttempts⟩ := ih onward
      -- Only the open loop asks whether the cursor moved; that the calls advance lets it go on.
      have advanced : (m c).cursor.checkpoint ≠ c.checkpoint :=
        fun same => moved (congrArg Checkpoint.position same)
      refine ⟨here ++ more, .oneAttempt ++ (m c).log ++ trail, ?_, ?_, ?_⟩
      · rw [effort_succ, ← effort, Log.attempts_append, Log.attempts_append,
          Log.attempts_oneAttempt, Nat.add_comm 1]
      · intro budget matched found log
        rw [← Nat.add_assoc, rounds]
        simp only [matchedHere, advanced, if_false]
        rw [inRounds, reach_succ, append_append_toArray, Nat.add_right_comm, ← Nat.add_assoc]
        simp only [Log.append_assoc]
      · intro count start left found log
        rw [← Nat.add_assoc, attempts]
        simp only [matchedHere]
        rw [inAttempts, reach_succ, append_append_toArray]
        simp only [Log.append_assoc]

/-- A counted repetition takes as many calls that advance. -/
theorem times_of_advances (advances : ∀ i < n, Advances m (reach m c i)) :
    ∃ found, (times m n c).ending = .matched found ∧ (times m n c).cursor = reach m c n ∧
      (times m n c).log.attempts = effort m c n := by
  obtain ⟨more, trail, effort, -, inAttempts⟩ := exists_trail advances
  have same := inAttempts n c.checkpoint 0 #[] ∅
  rw [Nat.zero_add] at same
  rw [times, same, attempts, ← effort, Log.empty_append]
  exact ⟨_, rfl, rfl, rfl⟩

/-- It finds nothing if it would need one more, where the part finds nothing. -/
theorem times_of_noMatch (advances : ∀ i < k, Advances m (reach m c i))
    (noMatch : (m (reach m c k)).ending = .noMatch) (less : k < n) :
    (times m n c).ending = .noMatch ∧ (times m n c).log.attempts = effort m c (k + 1) := by
  obtain ⟨more, trail, effort, -, inAttempts⟩ := exists_trail advances
  obtain ⟨left, rfl⟩ : ∃ left, n = left + 1 + k := ⟨n - (k + 1), by omega⟩
  rw [times, inAttempts, attempts]
  simp only [noMatch, Log.attempts_append, Log.attempts_empty, Log.attempts_oneAttempt,
    Log.attempts_ofEvent, effort_succ_last, effort, true_and]
  omega

/-- The last round of an open repetition drops what it matched, and leaves the cursor. -/
theorem rounds_of_halts (lawful : Lawful m) (halts : Halts m c) (budget matched : Nat)
    (found : Array String) (log : Log κ) :
    (rounds m budget matched found log c).ending = closing matched found ∧
      (rounds m budget matched found log c).cursor = c ∧
      (rounds m budget matched found log c).log.attempts =
        log.attempts + ((m c).log.attempts + 1) := by
  rw [rounds]
  rcases halts with noMatch | ⟨⟨more, ended⟩, still⟩
  · simp only [noMatch, lawful.restores c noMatch, Log.attempts_append, Log.attempts_oneAttempt,
      true_and]
    omega
  · have back : (m c).cursor = c := Cursor.eq_of_data_of_position (lawful.data c) still
    simp only [ended, if_true, back, Log.attempts_append, Log.attempts_oneAttempt,
      Log.attempts_ofEvent, true_and]
    omega

/-- A round that gives no answer ends all rounds. -/
theorem rounds_of_unanswered (unanswered : (m c).ending.answer? = none) (budget matched : Nat)
    (found : Array String) (log : Log κ) :
    (rounds m budget matched found log c).ending.answer? = none := by
  rw [rounds]
  rcases Ending.answer?_eq_none_iff.mp unanswered with ended | ended
  · simp only [ended, Ending.answer?]
  · simp only [ended, Ending.answer?]

/-- An open repetition comes to the end of a row as a counted one does. -/
theorem oneOrMore_eq_rounds (forward : Forward m) (advances : ∀ i < k, Advances m (reach m c i)) :
    ∃ budget found log, log.attempts = effort m c k ∧
      (times m k c).ending = .matched found.toList ∧ (times m k c).cursor = reach m c k ∧
      oneOrMore m c = rounds m budget k found log (reach m c k) := by
  obtain ⟨more, trail, effort, inRounds, inAttempts⟩ := exists_trail advances
  have bound := reach_remaining forward advances
  have taken := inAttempts k c.checkpoint 0 #[] ∅
  have rest := inRounds (c.remaining - k) 0 #[] ∅
  rw [Nat.sub_add_cancel (by omega), Nat.zero_add, Log.empty_append] at rest
  rw [Nat.zero_add] at taken
  refine ⟨_, _, trail, effort, ?_, ?_, rest⟩
  · rw [times, taken, attempts]
  · rw [times, taken, attempts]

/-- Behind its row an open repetition has found what a counted one finds there, unless the row is
empty. It has made one attempt more. -/
theorem Row.oneOrMore (row : Row m c k) (lawful : Lawful m) (forward : Forward m) :
    (k = 0 → (oneOrMore m c).ending = .noMatch) ∧
      (k ≠ 0 → (oneOrMore m c).Agrees (times m k c) ∧
        ∃ found, (oneOrMore m c).ending = .matched found) ∧
      (oneOrMore m c).log.attempts = effort m c (k + 1) := by
  obtain ⟨budget, found, log, effort, matched, reached, same⟩ :=
    oneOrMore_eq_rounds forward row.advances
  obtain ⟨ended, stays, attempts⟩ := rounds_of_halts lawful row.halts budget k found log
  rw [same, ended, attempts, effort, effort_succ_last]
  refine ⟨fun none => if_pos none, fun some => ?_, rfl⟩
  have closed : closing k found = .matched found.toList := if_neg some
  exact ⟨⟨by rw [ended, matched, closed], by rw [stays, reached]⟩, _, closed⟩

/-- An open repetition answers exactly if each of the calls it comes to does. -/
theorem answers_oneOrMore_iff (lawful : Lawful m) (forward : Forward m) :
    (∃ answer, (oneOrMore m c).ending.answer? = some answer) ↔
      ∀ i, (∀ j < i, Advances m (reach m c j)) →
        ∃ answer, (m (reach m c i)).ending.answer? = some answer := by
  constructor
  · rintro ⟨answer, answered⟩ i advances
    apply Option.ne_none_iff_exists'.mp
    intro unanswered
    obtain ⟨budget, found, log, -, -, -, same⟩ := oneOrMore_eq_rounds forward advances
    rw [same, rounds_of_unanswered unanswered] at answered
    cases answered
  · intro answers
    obtain ⟨k, row⟩ := exists_row forward answers
    obtain ⟨none, some, -⟩ := row.oneOrMore lawful forward
    by_cases zero : k = 0
    · exact answered_of_noMatch (none zero)
    · obtain ⟨-, found, matched⟩ := some zero
      exact answered_of_matched matched

/-- An open repetition that answers has come to the end of a row. -/
theorem exists_row_of_answered (lawful : Lawful m) (forward : Forward m)
    (answered : ∃ answer, (oneOrMore m c).ending.answer? = some answer) : ∃ k, Row m c k :=
  exists_row forward ((answers_oneOrMore_iff lawful forward).mp answered)

/-- An open repetition that matches has come to the end of a row that is not empty. -/
theorem exists_row_of_matched (lawful : Lawful m) (forward : Forward m) {fragments : List String}
    (matched : (oneOrMore m c).ending = .matched fragments) :
    ∃ k, 1 ≤ k ∧ Row m c k ∧ (oneOrMore m c).Agrees (times m k c) ∧
      (oneOrMore m c).log.attempts = effort m c (k + 1) := by
  obtain ⟨k, row⟩ := exists_row_of_answered lawful forward (answered_of_matched matched)
  obtain ⟨none, some, attempts⟩ := row.oneOrMore lawful forward
  have several : k ≠ 0 := by
    intro zero
    cases matched.symm.trans (none zero)
  exact ⟨k, Nat.pos_of_ne_zero several, row, (some several).1, attempts⟩

/-- Where a row ends because the part finds nothing, a counted repetition matches if it asks for no
more than the row has. -/
theorem Row.times (row : Row m c k) (noMatch : (m (reach m c k)).ending = .noMatch) (n : Nat) :
    ((∃ fragments, (times m n c).ending = .matched fragments) ↔ n ≤ k) ∧
      (times m n c).log.attempts = effort m c (min n (k + 1)) := by
  rcases Nat.lt_or_ge k n with less | le
  · obtain ⟨ended, attempts⟩ := times_of_noMatch row.advances noMatch less
    rw [Nat.min_eq_right less]
    refine ⟨iff_of_false ?_ (Nat.not_le.mpr less), attempts⟩
    rintro ⟨fragments, matched⟩
    cases matched.symm.trans ended
  · obtain ⟨found, matched, -, attempts⟩ :=
      times_of_advances fun i before => row.advances i (Nat.lt_of_lt_of_le before le)
    rw [Nat.min_eq_left (Nat.le_succ_of_le le)]
    exact ⟨iff_of_true ⟨found, matched⟩ le, attempts⟩

/-- An open repetition finds nothing exactly if its part halts at once. -/
theorem oneOrMore_noMatch_iff (lawful : Lawful m) (forward : Forward m) :
    (oneOrMore m c).ending = .noMatch ↔ Halts m c := by
  constructor
  · intro noMatch
    obtain ⟨k, row⟩ := exists_row_of_answered lawful forward (answered_of_noMatch noMatch)
    by_cases zero : k = 0
    · exact Row.zero_iff.mp (zero ▸ row)
    · obtain ⟨-, found, matched⟩ := (row.oneOrMore lawful forward).2.1 zero
      cases noMatch.symm.trans matched
  · exact fun halts => ((Row.zero_iff.mpr halts).oneOrMore lawful forward).1 rfl

end Matcher

namespace Parser

open Matcher

/-- **An open repetition is the longest row of matches.** It answers exactly if each run of its part
does that it comes to. It finds nothing, and leaves the cursor, exactly if the part finds nothing or
does not advance. Where it matches there is exactly one number of matches in a row behind which the
part finds nothing or does not advance; so many times the part is the same match, and one run more
was made. If the part never matches without advancing, a counted repetition matches exactly if it
asks for no more than the row has, and makes at most one attempt more. -/
theorem oneOrMore_takes_longest_row (g : Grammar κ) (depth : Nat) (p : Parser κ) (c : Cursor) :
    let one := p.parse g depth
    let many := (oneOrMore p).parse g depth c
    ((∃ answer, many.ending.answer? = some answer) ↔
      ∀ i, (∀ j < i, Advances one (reach one c j)) →
        ∃ answer, (one (reach one c i)).ending.answer? = some answer) ∧
    (many.ending = .noMatch ↔ Halts one c) ∧
    (many.ending = .noMatch → many.cursor = c) ∧
    (∀ fragments, many.ending = .matched fragments →
      ∃ k, (1 ≤ k ∧ k ≤ c.length - c.position ∧ Row one c k ∧ ∀ n, Row one c n → n = k) ∧
        many.Agrees ((times p k).parse g depth c) ∧
        many.log.attempts = ∑ i ∈ range (k + 1), ((one (reach one c i)).log.attempts + 1)) ∧
    ((∀ d found, (one d).ending = .matched found → (one d).cursor.position ≠ d.position) →
      ∀ k, Row one c k → k ≤ c.length - c.position ∧ ∀ n,
        ((∃ fragments, ((times p n).parse g depth c).ending = .matched fragments) ↔ n ≤ k) ∧
        ((times p n).parse g depth c).log.attempts =
          ∑ i ∈ range (min n (k + 1)), ((one (reach one c i)).log.attempts + 1)) := by
  intro one many
  have lawful : Lawful one := parse_lawful g depth p
  have forward : Forward one := parse_forward g depth p
  refine ⟨answers_oneOrMore_iff lawful forward, oneOrMore_noMatch_iff lawful forward,
    (parse_lawful g depth (oneOrMore p)).restores c, fun fragments matched => ?_,
    fun advances k row => ?_⟩
  · obtain ⟨k, some, row, agrees, attempts⟩ := exists_row_of_matched lawful forward matched
    exact ⟨k, ⟨some, row.le_remaining forward, row, fun n => row.unique⟩, agrees, attempts⟩
  · have noMatch : (one (reach one c k)).ending = .noMatch :=
      row.halts.resolve_right fun ⟨⟨found, matched⟩, still⟩ => advances _ found matched still
    exact ⟨row.le_remaining forward, row.times noMatch⟩

/-- Two letters in a row, and another one behind them. -/
theorem letters_repeat_twice :
    Row ((literal 'a').parse .chainFree 0) (.ofString "aab") 2 ∧
      ((oneOrMore (literal 'a')).parse .chainFree 0 (.ofString "aab")).ending =
        .matched ["a", "a"] ∧
      ((oneOrMore (literal 'a')).parse .chainFree 0 (.ofString "aab")).Agrees
        ((times (literal 'a') 2).parse .chainFree 0 (.ofString "aab")) ∧
      ¬ ∃ fragments, ((times (literal 'a') 3).parse .chainFree 0 (.ofString "aab")).ending =
        .matched fragments := by
  obtain ⟨-, -, -, longest, counted⟩ :=
    oneOrMore_takes_longest_row .chainFree 0 (literal 'a') (.ofString "aab")
  have matched : ((oneOrMore (literal 'a')).parse .chainFree 0 (.ofString "aab")).ending =
      .matched ["a", "a"] := by decide +kernel
  have first : ((literal 'a').parse .chainFree 0 (.ofString "aab")).ending = .matched ["a"] := by
    decide +kernel
  have second : ((literal 'a').parse .chainFree 0 ⟨#['a', 'a', 'b'], 1⟩).ending =
      .matched ["a"] := by decide +kernel
  have row : Row ((literal 'a').parse .chainFree 0) (.ofString "aab") 2 := by
    constructor
    · intro i less
      match i, less with
      | 0, _ => exact ⟨⟨_, first⟩, satisfying_advances first⟩
      | 1, _ => exact ⟨⟨_, second⟩, satisfying_advances second⟩
    · exact Or.inl (by decide +kernel)
  obtain ⟨k, ⟨-, -, -, unique⟩, agrees, -⟩ := longest _ matched
  obtain ⟨-, counts⟩ := counted (fun _ _ => satisfying_advances) 2 row
  refine ⟨row, matched, ?_, fun three => absurd ((counts 3).1.mp three) (by decide)⟩
  rwa [← unique 2 row] at agrees

end Parser

end Backtrack

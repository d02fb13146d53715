import Backtrack.Proofs.Possession
import Backtrack.Proofs.Reading

/-!
Scanning a text: a parser again and again, and any character where it finds nothing.

A scan steps over every place where its parser finds nothing, so a failure cannot end it before the
end of the text. What can is a match without text: it keeps the catch-all from being tried, and the
repetition stops at it. So a scan whose parser never idles takes all of every text but the empty
one.
-/

namespace Backtrack

variable {κ : Type}

namespace Matcher

variable {m : Matcher κ} {c : Cursor}

/-- The matcher, or any character where it finds nothing. -/
def orAny (m : Matcher κ) : Matcher κ :=
  either m (satisfying fun _ => true)

/-- The call matches and leaves the cursor where it is. -/
def Idles (m : Matcher κ) (c : Cursor) : Prop :=
  (∃ found, (m c).ending = .matched found) ∧ (m c).cursor = c

/-- The matcher answers wherever a scan with it comes to: at its start, and behind each step that
advances. -/
def AnswersAlong (m : Matcher κ) (c : Cursor) : Prop :=
  ∀ i, (∀ j < i, Advances (orAny m) (reach (orAny m) c j)) →
    ∃ answer, (m (reach (orAny m) c i)).ending.answer? = some answer

/-! ### One step of a scan -/

/-- Where any character is asked for, nothing is found only at the end of the text. -/
theorem exhausted_of_halts_any (halts : Halts (satisfying (fun _ => true) : Matcher κ) c) :
    c.hasNext = false := by
  rw [← Cursor.rest_eq_nil_iff]
  refine Classical.byContradiction fun some => ?_
  obtain ⟨x, rest, unread⟩ := List.exists_cons_of_ne_nil some
  have taken : Takes (satisfying (fun _ => true) : Matcher κ) (x :: rest) [String.singleton x]
      rest := takes_satisfying rfl rest
  obtain ⟨matched, -⟩ := taken c unread
  exact halts.not_advances ⟨⟨_, matched⟩, satisfying_advances matched⟩

/-- A step of a scan halts only where the matcher idles, or at the end of the text. -/
theorem idles_or_exhausted_of_halts (lawful : Lawful m) (halts : Halts (orAny m) c) :
    Idles m c ∨ c.hasNext = false := by
  by_cases noMatch : (m c).ending = .noMatch
  · have caught : orAny m c = (satisfying (fun _ => true) c).after (m c).log := by
      rw [orAny, either_of_noMatch noMatch, lawful.restores c noMatch]
    rw [Halts, caught] at halts
    exact Or.inr (exhausted_of_halts_any halts)
  · have same : orAny m c = m c := either_of_ne_noMatch noMatch
    rw [Halts, same] at halts
    obtain ⟨matched, still⟩ := halts.resolve_left noMatch
    exact Or.inl ⟨matched, Cursor.eq_of_data_of_position (lawful.data c) still⟩

/-- A step of the scan answers where the parser does, since a single character always answers. -/
theorem answers_orAny_iff :
    (∃ answer, (orAny m c).ending.answer? = some answer) ↔
      ∃ answer, (m c).ending.answer? = some answer := by
  by_cases noMatch : (m c).ending = .noMatch
  · refine iff_of_true ?_ (answered_of_noMatch noMatch)
    rw [orAny, either_of_noMatch noMatch, Report.ending_after]
    exact answers_satisfying _ _ (Nat.le_refl _)
  · rw [orAny, either_of_ne_noMatch noMatch]

/-! ### Where a scan stops -/

/-- An open repetition that answers stops where its part halts, be it at once. -/
theorem halts_where_oneOrMore_stops (lawful : Lawful m) (forward : Forward m)
    (answered : ∃ answer, (oneOrMore m c).ending.answer? = some answer) :
    Halts m (oneOrMore m c).cursor := by
  rcases matched_or_noMatch answered with ⟨fragments, matched⟩ | noMatch
  · exact halts_behind_oneOrMore lawful forward matched
  · rw [(lawful_oneOrMore lawful).restores c noMatch]
    exact (oneOrMore_noMatch_iff lawful forward).mp noMatch

/-- A matcher that answers wherever so much text is left answers along every scan of it. -/
theorem answersAlong_of_answers (forward : Forward (orAny m)) (answers : Answers c.remaining m) :
    AnswersAlong m c := by
  intro i advances
  have fewer := reach_remaining forward advances
  exact answers _ (by omega)

end Matcher

namespace Parser

open Languages Matcher

variable {g : Grammar κ} {depth : Nat} {q : Parser κ} {text : String}

/-- The parser again and again, and any character where it finds nothing. -/
def scanner (q : Parser κ) : Parser κ :=
  .oneOrMore (.either q .any)

/-- A scan is an open repetition of such steps. -/
theorem parse_scanner (g : Grammar κ) (depth : Nat) (q : Parser κ) :
    (scanner q).parse g depth = Matcher.oneOrMore (orAny (q.parse g depth)) := rfl

theorem lawful_orAny (g : Grammar κ) (depth : Nat) (q : Parser κ) :
    Lawful (orAny (q.parse g depth)) :=
  parse_lawful g depth (.either q .any)

theorem forward_orAny (g : Grammar κ) (depth : Nat) (q : Parser κ) :
    Forward (orAny (q.parse g depth)) :=
  parse_forward g depth (.either q .any)

/-- A scan comes to an outcome exactly where the parser answers at all places that it comes to. -/
theorem scanner_finishes_iff :
    (∃ outcome, ((scanner q).run g depth text).completion = .finished outcome) ↔
      AnswersAlong (q.parse g depth) (.ofString text) := by
  have answers := answers_oneOrMore_iff (c := .ofString text) (lawful_orAny g depth q)
    (forward_orAny g depth q)
  simp only [answers_orAny_iff] at answers
  rw [AnswersAlong, ← answers, ← parse_scanner]
  constructor
  · rintro ⟨outcome, finished⟩
    exact ⟨_, answered_of_finished finished⟩
  · rintro ⟨answer, answered⟩
    exact ⟨_, run_of_answer answered⟩

/-- A scan of a text with this outcome stopped before its end, at a place where the matcher idles;
it has matched unless this is the start. -/
structure StoppedIdle (m : Matcher κ) (text : String) (outcome : Outcome) (stop : Cursor) :
    Prop where
  reached : ∃ passed, (Cursor.ofString text).Passes passed stop
  left : stop.hasNext = true
  idles : Idles m stop
  remainder : outcome.remainder = String.ofList stop.rest
  success_iff : outcome.isSuccess = true ↔ stop.position ≠ 0

/-- A scan matches exactly if it gets anywhere. -/
theorem scanner_success_iff {outcome : Outcome}
    (finished : ((scanner q).run g depth text).completion = .finished outcome) :
    outcome.isSuccess = true ↔
      ((scanner q).parse g depth (.ofString text)).cursor.position ≠ 0 := by
  have answered := answered_of_finished finished
  obtain ⟨-, -, restored⟩ := parse_answered answered
  rw [Outcome.isSuccess, Option.isSome_iff_exists]
  constructor
  · rintro ⟨fragments, found⟩
    rcases Ending.answer?_eq_some_iff.mp answered with ⟨-, none⟩ | ⟨_, matched, -⟩
    · cases found.symm.trans none
    · exact oneOrMore_advances (lawful_orAny g depth q) (forward_orAny g depth q) matched
  · intro moved
    refine Option.ne_none_iff_exists'.mp fun none => moved ?_
    rw [restored none]
    rfl

/-- A scan that finishes has matched all of a text, or has stopped where its parser idles. -/
theorem scanner_stops (nonempty : text ≠ "") {outcome : Outcome}
    (finished : ((scanner q).run g depth text).completion = .finished outcome) :
    outcome.isSuccess = true ∧ outcome.remainder = "" ∨
      ∃ stop, StoppedIdle (q.parse g depth) text outcome stop := by
  have answered := answered_of_finished finished
  obtain ⟨passed, passes, -⟩ := parse_answered answered
  have success := scanner_success_iff finished
  have remainder := remainder_of_finished finished
  have halts := halts_where_oneOrMore_stops (lawful_orAny g depth q) (forward_orAny g depth q)
    ⟨_, answered⟩
  have halted := idles_or_exhausted_of_halts (parse_lawful g depth q) halts
  rw [← parse_scanner] at halted
  cases left : ((scanner q).parse g depth (.ofString text)).cursor.hasNext with
  | true =>
      have idles := halted.resolve_right (by simp [left])
      exact Or.inr ⟨_, ⟨passed, passes⟩, left, idles, remainder, success⟩
  | false =>
      have nothing := Cursor.rest_eq_nil_iff.mpr left
      refine Or.inl ⟨success.mpr fun start => nonempty ?_, by rw [remainder, nothing]⟩
      -- The scan got to the end, which is not its start as there is text in between.
      have length := passes.position_add_length_rest
      rw [start, nothing, List.length_nil] at length
      exact String.length_eq_zero_iff.mp length.symm

/-- **A scanner with a catch-all stops only where its parser idles.** The run finishes exactly if
the parser answers wherever the scan comes to. Then it has matched and left nothing, or it has
stopped before the end of the text where the parser matches without advancing: with a match, unless
this is at the start. So a parser that never idles, and answers, makes a scanner that takes all of
every text that is not empty. -/
theorem scanner_stops_only_at_idle_match (g : Grammar κ) (depth : Nat) (q : Parser κ)
    (nonempty : text ≠ "") :
    let completion := ((scanner q).run g depth text).completion
    let along := AnswersAlong (q.parse g depth) (.ofString text)
    ((∃ outcome, completion = .finished outcome) ↔ along) ∧
    (∀ outcome, completion = .finished outcome →
      outcome.isSuccess = true ∧ outcome.remainder = "" ∨
        ∃ stop, StoppedIdle (q.parse g depth) text outcome stop) ∧
    ((∀ d, ¬ Idles (q.parse g depth) d) → along →
      ∃ fragments, completion = .finished ⟨some fragments, ""⟩) := by
  intro completion along
  refine ⟨scanner_finishes_iff, fun _ => scanner_stops nonempty, fun busy answers => ?_⟩
  obtain ⟨⟨fragments?, remainder⟩, finished⟩ := scanner_finishes_iff.mpr answers
  rcases scanner_stops nonempty finished with ⟨success, rfl⟩ | ⟨stop, stopped⟩
  · obtain ⟨fragments, rfl⟩ := Option.isSome_iff_exists.mp success
    exact ⟨fragments, finished⟩
  · exact absurd stopped.idles (busy stop)

/-- A bracket that begins no group is stepped over, and the scan takes all. Attempts that need not
be made stop it before a letter that it could have stepped over. -/
theorem open_bracket_is_stepped_over :
    let letter : Parser Empty := either (literal 'x') (times any 0)
    ("(()" ≠ "" ∧ (∀ d, ¬ Idles (group.parse groups 3) d) ∧
      AnswersAlong (group.parse groups 3) (.ofString "(()") ∧
      ∃ fragments, ((scanner group).run groups 3 "(()").completion =
        .finished ⟨some fragments, ""⟩) ∧
    ((scanner letter).run .chainFree 0 "xz").completion = .finished ⟨some ["x"], "z"⟩ ∧
      ∃ stop, StoppedIdle (letter.parse .chainFree 0) "xz" ⟨some ["x"], "z"⟩ stop := by
  intro letter
  have busy : ∀ d, ¬ Idles (group.parse groups 3) d := by
    rintro d ⟨⟨found, matched⟩, still⟩
    have moves := (parse_substantial group_neverIdle 3).moves matched
    rw [still] at moves
    exact Nat.lt_irrefl _ moves
  have answers : AnswersAlong (group.parse groups 3) (.ofString "(()") :=
    answersAlong_of_answers (forward_orAny groups 3 group) (parse_answers group_productive 3)
  have finished : ((scanner letter).run .chainFree 0 "xz").completion =
      .finished ⟨some ["x"], "z"⟩ := by decide +kernel
  obtain ⟨-, -, all⟩ := scanner_stops_only_at_idle_match groups 3 group
    (by decide : "(()" ≠ "")
  obtain ⟨-, stops, -⟩ := scanner_stops_only_at_idle_match .chainFree 0 letter
    (by decide : "xz" ≠ "")
  refine ⟨⟨by decide, busy, answers, all busy answers⟩, finished, ?_⟩
  exact (stops _ finished).resolve_left fun whole => absurd whole.2 (by decide)

end Parser

end Backtrack

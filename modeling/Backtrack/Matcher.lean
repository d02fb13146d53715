import Backtrack.Report

/-!
What each way of putting parsers together does to a cursor.

A matcher that finds nothing leaves the cursor where it found it. Single characters and choice
need no care for that; sequence, grouping and chain go back to where they began. Going back is
noted in the log, except by grouping, which only repeats what its part has already done.
-/

namespace Backtrack.Matcher

variable {κ : Type}

/-- One character that passes the test, as a fragment of its own. -/
def satisfying (accepts : Char → Bool) : Matcher κ := fun c =>
  match c.peek? with
  | none => Report.still .noMatch c
  | some x =>
    if accepts x then ⟨.matched [String.singleton x], c.advance, .oneTaken⟩
    else Report.still .noMatch c

/-- The first matcher, or the second where the first finds nothing. -/
def either (first second : Matcher κ) : Matcher κ := fun c =>
  (first c).orElse second

/-- The matchers in order, without any care for the cursor where one of them finds nothing. -/
def inOrder : List (Matcher κ) → Matcher κ
  | [] => Report.still (.matched [])
  | part :: parts => fun c =>
    (part c).andThen fun fragments here => (inOrder parts here).mapFragments (fragments ++ ·)

/-- The matchers in order. None of them is tried when no character is left. -/
def sequence (parts : List (Matcher κ)) : Matcher κ := fun c =>
  if c.hasNext then
    (inOrder parts c).rewoundTo c.checkpoint fun reached =>
      .ofEvent (.sequenceRewound reached c.position)
  else Report.still .noMatch c

/-- The whole match as one fragment. -/
def merge (whole : Matcher κ) : Matcher κ := fun c =>
  ((whole c).mapFragments fun fragments => [String.join fragments]).rewoundTo c.checkpoint fun _ =>
    ∅

/-- A match of `first`, and then of the parser that `next` makes of its fragments, run by `call`.
The fragments are those of the second match. -/
def chain (first : Matcher κ) (next : List String → Option (Parser κ))
    (call : Parser κ → Matcher κ) : Matcher κ := fun c =>
  (first c).andThen fun fragments here =>
    match next fragments with
    | none => Report.still .aborted here
    | some continuation =>
      (call continuation here).rewoundTo c.checkpoint fun reached =>
        .ofEvent (.chainRewound reached c.position continuation)

/-! ### What they do, by how their parts end -/

section Cases

variable {first second part : Matcher κ} {parts : List (Matcher κ)} {c : Cursor}
  {fragments : List String}

theorem either_of_noMatch (noMatch : (first c).ending = .noMatch) :
    either first second c = (second (first c).cursor).after (first c).log :=
  Report.orElse_of_noMatch noMatch second

theorem either_of_ne_noMatch (other : (first c).ending ≠ .noMatch) :
    either first second c = first c :=
  Report.orElse_of_ne_noMatch other second

theorem inOrder_cons_of_matched (matched : (part c).ending = .matched fragments) :
    inOrder (part :: parts) c =
      ((inOrder parts (part c).cursor).mapFragments (fragments ++ ·)).after (part c).log := by
  rw [inOrder]
  exact Report.andThen_of_matched matched _

theorem inOrder_cons_of_not_matched (other : ∀ fragments, (part c).ending ≠ .matched fragments) :
    inOrder (part :: parts) c = part c := by
  rw [inOrder]
  exact Report.andThen_of_not_matched other _

theorem sequence_of_hasNext (left : c.hasNext = true) :
    sequence parts c = (inOrder parts c).rewoundTo c.checkpoint fun reached =>
      .ofEvent (.sequenceRewound reached c.position) :=
  if_pos left

/-- At the end of the text a sequence finds nothing before it begins, and tells of no return. -/
theorem sequence_of_exhausted (exhausted : c.hasNext = false) :
    sequence parts c = Report.still .noMatch c :=
  if_neg (Bool.eq_false_iff.mp exhausted)

variable {next : List String → Option (Parser κ)} {call : Parser κ → Matcher κ}

theorem chain_of_not_matched (other : ∀ fragments, (first c).ending ≠ .matched fragments) :
    chain first next call c = first c :=
  Report.andThen_of_not_matched other _

/-- A chain that gets no parser is broken off where its first half ended. -/
theorem chain_of_none (matched : (first c).ending = .matched fragments)
    (none : next fragments = none) :
    chain first next call c =
      (Report.still .aborted (first c).cursor).after (first c).log := by
  rw [chain, Report.andThen_of_matched matched, none]

theorem chain_of_some {continuation : Parser κ} (matched : (first c).ending = .matched fragments)
    (some : next fragments = some continuation) :
    chain first next call c =
      ((call continuation (first c).cursor).rewoundTo c.checkpoint fun reached =>
        .ofEvent (.chainRewound reached c.position continuation)).after (first c).log := by
  rw [chain, Report.andThen_of_matched matched, some]

/-! ### What a match is made of -/

theorem either_cases (first second : Matcher κ) (c : Cursor) :
    either first second c = first c ∨
      (first c).ending = .noMatch ∧
        either first second c = (second (first c).cursor).after (first c).log := by
  by_cases noMatch : (first c).ending = .noMatch
  · exact Or.inr ⟨noMatch, either_of_noMatch noMatch⟩
  · exact Or.inl (either_of_ne_noMatch noMatch)

/-- Parts in a row match where each does, and the fragments are put in a row. -/
theorem matched_inOrder_cons (matched : (inOrder (part :: parts) c).ending = .matched fragments) :
    ∃ found more, (part c).ending = .matched found ∧
      (inOrder parts (part c).cursor).ending = .matched more ∧ fragments = found ++ more ∧
      (inOrder (part :: parts) c).cursor = (inOrder parts (part c).cursor).cursor := by
  rcases (part c).matched_or_not with ⟨found, here⟩ | other
  · rw [inOrder_cons_of_matched here, Report.ending_after] at matched
    obtain ⟨more, there, rfl⟩ := Report.matched_mapFragments matched
    refine ⟨found, more, here, there, rfl, ?_⟩
    rw [inOrder_cons_of_matched here, Report.cursor_after, Report.cursor_mapFragments]
  · rw [inOrder_cons_of_not_matched other] at matched
    exact absurd matched (other fragments)

/-- A sequence that matches has not gone back. -/
theorem matched_sequence (matched : (sequence parts c).ending = .matched fragments) :
    c.hasNext = true ∧ sequence parts c = inOrder parts c := by
  cases left : c.hasNext with
  | true =>
      rw [sequence_of_hasNext left, Report.ending_rewoundTo] at matched
      exact ⟨rfl, (sequence_of_hasNext left).trans (Report.rewoundTo_of_matched matched _ _)⟩
  | false =>
      rw [sequence_of_exhausted left] at matched
      cases matched

theorem matched_merge {whole : Matcher κ} (matched : (merge whole c).ending = .matched fragments) :
    ∃ found, (whole c).ending = .matched found ∧ fragments = [String.join found] ∧
      (merge whole c).cursor = (whole c).cursor := by
  rw [merge, Report.ending_rewoundTo] at matched
  obtain ⟨found, here, joined⟩ := Report.matched_mapFragments matched
  refine ⟨found, here, joined, ?_⟩
  rw [merge, Report.rewoundTo_of_matched matched, Report.cursor_mapFragments]

/-- The fragments of a chain are those of its second half. -/
theorem matched_chain (matched : (chain first next call c).ending = .matched fragments) :
    ∃ found continuation, (first c).ending = .matched found ∧ next found = some continuation ∧
      (call continuation (first c).cursor).ending = .matched fragments ∧
      (chain first next call c).cursor = (call continuation (first c).cursor).cursor := by
  rcases (first c).matched_or_not with ⟨found, here⟩ | other
  · cases onward : next found with
    | none =>
        rw [chain_of_none here onward] at matched
        cases matched
    | some continuation =>
        rw [chain_of_some here onward, Report.ending_after, Report.ending_rewoundTo] at matched
        refine ⟨found, continuation, here, onward, matched, ?_⟩
        rw [chain_of_some here onward, Report.cursor_after, Report.rewoundTo_of_matched matched]
  · rw [chain_of_not_matched other] at matched
    exact absurd matched (other fragments)

end Cases

end Backtrack.Matcher

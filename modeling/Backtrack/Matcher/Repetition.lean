import Backtrack.Matcher

/-!
Repetition: a fixed number of times, or as often as possible.

Both loops carry along what they found, so a long repetition needs no deep stack. The open one
ends because each round but the last advances: the characters left are a bound on its rounds.
-/

namespace Backtrack.Matcher

variable {κ : Type}

/-- The attempts that are `left` of `count`, after `found` was matched since `start`. -/
def attempts (part : Matcher κ) (count : Nat) (start : Checkpoint) :
    Nat → Array String → Log κ → Matcher κ
  | 0, found, log, c => ⟨.matched found.toList, c, log⟩
  | left + 1, found, log, c =>
    let r := part c
    let log := log ++ .oneAttempt ++ r.log
    match r.ending with
    | .matched fragments => attempts part count start left (found ++ fragments) log r.cursor
    | .noMatch =>
      ⟨.noMatch, r.cursor.rewind start,
        log ++ .ofEvent
          (.timesRewound (count - (left + 1)) count r.cursor.position start.position)⟩
    | .aborted => ⟨.aborted, r.cursor, log⟩
    | .unfinished => ⟨.unfinished, r.cursor, log⟩

/-- The matcher `count` times in a row. -/
def times (part : Matcher κ) (count : Nat) : Matcher κ := fun c =>
  attempts part count c.checkpoint count #[] ∅ c

/-- How an open repetition ends after so many matches: it needs one at least. -/
def closing (matched : Nat) (found : Array String) : Ending :=
  if matched = 0 then .noMatch else .matched found.toList

/-- The rounds of an open repetition, after `matched` of them. A round that finds nothing is the
last one; so is a round that matches without advancing, and its fragments are dropped. There is
`budget` for further rounds, which suffices when it is the number of characters left. -/
def rounds (part : Matcher κ) (budget matched : Nat) (found : Array String) (log : Log κ) :
    Matcher κ := fun c =>
  let r := part c
  let log := log ++ .oneAttempt ++ r.log
  match r.ending with
  | .matched fragments =>
    if r.cursor.checkpoint = c.checkpoint then
      ⟨closing matched found, r.cursor,
        log ++ .ofEvent (.repetitionStopped c.position matched)⟩
    else
      match budget with
      | 0 => ⟨.unfinished, r.cursor, log⟩
      | budget + 1 => rounds part budget (matched + 1) (found ++ fragments) log r.cursor
  | .noMatch => ⟨closing matched found, r.cursor, log⟩
  | .aborted => ⟨.aborted, r.cursor, log⟩
  | .unfinished => ⟨.unfinished, r.cursor, log⟩

/-- The matcher as often as it matches and advances, at least once. -/
def oneOrMore (part : Matcher κ) : Matcher κ := fun c =>
  rounds part c.remaining 0 #[] ∅ c

end Backtrack.Matcher

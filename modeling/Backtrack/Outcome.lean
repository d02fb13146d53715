import Backtrack.Parser.Parse

/-!
Running a parser on a whole text.

An outcome holds the fragments, if the text matched, and the text left over. An empty list of
fragments is a match; only `none` is a failure.
-/

namespace Backtrack

/-- What running a parser on a text gave: the fragments of a match in order, and the text behind it,
or the whole text where nothing matched. -/
structure Outcome where
  fragments? : Option (List String)
  remainder : String
deriving DecidableEq, Repr

/-- Whether the parser matched. -/
def Outcome.isSuccess (o : Outcome) : Bool :=
  o.fragments?.isSome

/-- How a run ended. It is aborted where a continuation gives no parser or the cursor is left past
the end, and left unfinished where continuations are nested deeper than allowed. -/
inductive Completion where
  | finished (outcome : Outcome)
  | aborted
  | unfinished
deriving DecidableEq, Repr

/-- A run of a parser on a text, with its log. -/
structure Run (κ : Type) where
  completion : Completion
  log : Log κ

/-- The outcome of a run that came to one. -/
def Run.outcome? {κ : Type} (r : Run κ) : Option Outcome :=
  match r.completion with
  | .finished outcome => some outcome
  | _ => none

namespace Parser

variable {κ : Type}

/-- The end of a run that matched or found nothing. -/
def finish (p : Parser κ) (fragments? : Option (List String)) (c : Cursor) (log : Log κ) : Run κ :=
  { completion :=
      match c.remainder? with
      | some remainder => .finished ⟨fragments?, remainder⟩
      | none => .aborted
    log := log ++ .ofEvent (.runFinished p c.length fragments?.isSome c.position) }

/-- A parser run on a whole text, with continuations nested at most `depth` deep. The end of the
run is the last event, unless the run comes to no outcome. -/
def run (g : Grammar κ) (depth : Nat) (p : Parser κ) (text : String) : Run κ :=
  let r := p.parse g depth (.ofString text)
  match r.ending with
  | .matched fragments => p.finish (some fragments) r.cursor r.log
  | .noMatch => p.finish none r.cursor r.log
  | .aborted => ⟨.aborted, r.log⟩
  | .unfinished => ⟨.unfinished, r.log⟩

/-- What a parser without chains makes of a text. Such a parser always comes to an outcome, so the
other ending, here that of a failure, is never taken. -/
def outcome (p : Parser Empty) (text : String) : Outcome :=
  (p.run .chainFree 0 text).outcome?.getD ⟨none, text⟩

/-- What happens while a parser without chains runs over a text. -/
def events (p : Parser Empty) (text : String) : List (Event Empty) :=
  (p.run .chainFree 0 text).log.events.toList

end Parser

end Backtrack

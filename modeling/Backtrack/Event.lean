import Backtrack.Parser.Printer

/-!
The events of a parse: each return to an earlier place, each repetition that stops because it no
longer advances, and the end of the whole run.

`Event.level`, `Event.message` and `Event.fields` give the record under which an event is shown.
-/

namespace Backtrack

/-- How much attention an event asks for, the least first. A parse stays at the lower two: steps
to be followed one by one, and results to be looked into. -/
inductive Level where
  | trace
  | debug
  | info
  | warn
deriving DecidableEq, Repr, Ord

instance : LE Level := leOfOrd

/-- The name of a level. -/
def Level.name : Level → String
  | .trace => "TRACE"
  | .debug => "DEBUG"
  | .info => "INFO"
  | .warn => "WARN"

/-- Something that happened during a parse: a sequence, a counted repetition or a chain went back
to its start because one of its parts found nothing, a repetition stopped where it no longer
advanced, or the whole run came to its end. Attempts are numbered from 0. -/
inductive Event (κ : Type) where
  | sequenceRewound (reached start : Nat)
  | timesRewound (attempt count reached start : Nat)
  | chainRewound (reached start : Nat) (continuation : Parser κ)
  | repetitionStopped (position matched : Nat)
  | runFinished (parser : Parser κ) (length : Nat) (success : Bool) (consumed : Nat)

namespace Event

/-- The value of a field. -/
inductive Value where
  | number (n : Nat)
  | flag (b : Bool)
  | text (s : String)
deriving DecidableEq, Repr

variable {κ : Type}

/-- The level of an event. -/
def level : Event κ → Level
  | sequenceRewound .. | timesRewound .. | chainRewound .. => .trace
  | repetitionStopped .. | runFinished .. => .debug

/-- What an event says, without its particulars. -/
def message : Event κ → String
  | sequenceRewound .. => "and: rewinding after failed step"
  | timesRewound .. => "repeat: rewinding after short run"
  | chainRewound .. => "chain: rewinding after failed continuation"
  | repetitionStopped .. => "repeat_while_successful: stopping on zero-width match"
  | runFinished .. => "parser run finished"

/-- The particulars of an event, by name. -/
def fields : Event κ → List (String × Value)
  | sequenceRewound reached start => [("from", .number reached), ("to", .number start)]
  | timesRewound attempt count reached start =>
    [("attempt", .number attempt), ("count", .number count), ("from", .number reached),
      ("to", .number start)]
  | chainRewound reached start continuation =>
    [("from", .number reached), ("to", .number start), ("continuation", .text continuation.render)]
  | repetitionStopped position matched =>
    [("position", .number position), ("matches", .number matched)]
  | runFinished parser length success consumed =>
    [("parser", .text parser.render), ("input_len", .number length), ("success", .flag success),
      ("consumed", .number consumed)]

/-- Nothing that happens during a parse calls for a warning. -/
theorem not_warn_le_level (e : Event κ) : ¬ Level.warn ≤ e.level := by
  have low : e.level = .trace ∨ e.level = .debug := by
    cases e with
    | sequenceRewound | timesRewound | chainRewound => exact Or.inl rfl
    | repetitionStopped | runFinished => exact Or.inr rfl
  rcases low with traced | debugged
  · rw [traced]
    decide
  · rw [debugged]
    decide

end Event

end Backtrack

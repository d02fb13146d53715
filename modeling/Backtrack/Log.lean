import Backtrack.Event

/-!
The log of a parse: its events in order, and two counts that measure the work done.

Text matched by an attempt that is later undone is counted as well, so the counts speak of effort
and not of the result. Logs are joined by `++`, with the empty log as unit.
-/

namespace Backtrack

/-- What happened while a parser ran: its events in order, how many characters it took, and how many
attempts its repetitions made, the failed ones included. -/
structure Log (κ : Type) where
  events : Array (Event κ)
  taken : Nat
  attempts : Nat

namespace Log

variable {κ : Type}

instance : EmptyCollection (Log κ) where
  emptyCollection := ⟨#[], 0, 0⟩

instance : Append (Log κ) where
  append a b := ⟨a.events ++ b.events, a.taken + b.taken, a.attempts + b.attempts⟩

/-- The log of one character matched. -/
def oneTaken : Log κ :=
  ⟨#[], 1, 0⟩

/-- The log of one attempt begun. -/
def oneAttempt : Log κ :=
  ⟨#[], 0, 1⟩

/-- The log of one event. -/
def ofEvent (e : Event κ) : Log κ :=
  ⟨#[e], 0, 0⟩

/-! ### Counting attempts -/

@[simp] theorem attempts_oneAttempt : (oneAttempt : Log κ).attempts = 1 := rfl

@[simp] theorem attempts_ofEvent (e : Event κ) : (ofEvent e).attempts = 0 := rfl

/-! ### Joining logs -/

@[ext] theorem ext {a b : Log κ} (events : a.events = b.events) (taken : a.taken = b.taken)
    (attempts : a.attempts = b.attempts) : a = b := by
  cases a
  cases b
  cases events
  cases taken
  cases attempts
  rfl

@[simp] theorem events_empty : (∅ : Log κ).events = #[] := rfl

@[simp] theorem taken_empty : (∅ : Log κ).taken = 0 := rfl

@[simp] theorem attempts_empty : (∅ : Log κ).attempts = 0 := rfl

@[simp] theorem events_append (a b : Log κ) : (a ++ b).events = a.events ++ b.events := rfl

@[simp] theorem taken_append (a b : Log κ) : (a ++ b).taken = a.taken + b.taken := rfl

@[simp] theorem attempts_append (a b : Log κ) : (a ++ b).attempts = a.attempts + b.attempts := rfl

@[simp] theorem append_empty (a : Log κ) : a ++ ∅ = a :=
  ext (Array.append_empty ..) rfl rfl

@[simp] theorem empty_append (a : Log κ) : ∅ ++ a = a :=
  ext (Array.empty_append ..) (Nat.zero_add _) (Nat.zero_add _)

theorem append_assoc (a b c : Log κ) : a ++ b ++ c = a ++ (b ++ c) :=
  ext (Array.append_assoc ..) (Nat.add_assoc ..) (Nat.add_assoc ..)

end Log

end Backtrack

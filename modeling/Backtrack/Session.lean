import Backtrack.Outcome

/-!
Sessions: one cursor worked on by hand, step by step.

Besides the live cursor a session keeps what was stored under a name: checkpoints, which are bare
positions, and whole cursors. Loading a new text leaves both as they are, so a checkpoint may lie
behind the end of the text it is used on; `Cursor` says what that means for later steps.
-/

namespace Backtrack

/-- One step of a session. Places and cursors are stored under names, so that later steps can go
back to a place, compare two of them, or take up a cursor again. -/
inductive Command (κ : Type) where
  | peek
  | hasNext
  | isEmpty
  | length
  | advance
  | remainder
  | seek (position : Nat)
  | checkpoint (name : String)
  | rewind (name : String)
  | compare (first second : String)
  | load (text : String)
  | save (name : String)
  | restore (name : String)
  | parse (parser : Parser κ)
  | parseMerged (parser : Parser κ)

/-- What a step answers. It may have nothing to say (`done`), be refused with a fault, or break off
because no text is left past the end or a continuation gave no parser. -/
inductive Reply where
  | done
  | character (c : Char)
  | flag (b : Bool)
  | number (n : Nat)
  | text (s : String)
  | order (o : Ordering)
  | fragments (found : List String)
  | merged (found : String)
  | fault (error : Error)
  | broken
  | unfinished
  | unknown (name : String)
deriving DecidableEq, Repr

/-- The live cursor and what was stored; the latest entry of a name counts. -/
structure Session where
  cursor : Cursor
  checkpoints : List (String × Checkpoint)
  saved : List (String × Cursor)
deriving DecidableEq, Repr

namespace Session

variable {κ : Type}

/-- A session at the start of a text, with nothing stored. -/
def ofString (text : String) : Session :=
  ⟨.ofString text, [], []⟩

/-- The answer to a parse, where `reply` says what a match answers. -/
def replyTo (ending : Ending) (reply : List String → Reply) : Reply :=
  match ending with
  | .matched fragments => reply fragments
  | .noMatch => .fault .noMatch
  | .aborted => .broken
  | .unfinished => .unfinished

/-- One step: its answer, and the session after it. -/
def step (g : Grammar κ) (depth : Nat) (s : Session) : Command κ → Reply × Session
  | .peek =>
    match s.cursor.peek with
    | .ok c => (.character c, s)
    | .error error => (.fault error, s)
  | .hasNext => (.flag s.cursor.hasNext, s)
  | .isEmpty => (.flag s.cursor.isEmpty, s)
  | .length => (.number s.cursor.length, s)
  | .advance => (.done, { s with cursor := s.cursor.advance })
  | .remainder =>
    match s.cursor.remainder? with
    | some text => (.text text, s)
    | none => (.broken, s)
  | .seek position =>
    match s.cursor.seek position with
    | .ok cursor => (.done, { s with cursor })
    | .error error => (.fault error, s)
  | .checkpoint name =>
    (.number s.cursor.checkpoint.position,
      { s with checkpoints := (name, s.cursor.checkpoint) :: s.checkpoints })
  | .rewind name =>
    match s.checkpoints.lookup name with
    | some start => (.done, { s with cursor := s.cursor.rewind start })
    | none => (.unknown name, s)
  | .compare first second =>
    match s.checkpoints.lookup first, s.checkpoints.lookup second with
    | some a, some b => (.order (Ord.compare a b), s)
    | none, _ => (.unknown first, s)
    | some _, none => (.unknown second, s)
  | .load text => (.done, { s with cursor := .ofString text })
  | .save name => (.done, { s with saved := (name, s.cursor) :: s.saved })
  | .restore name =>
    match s.saved.lookup name with
    | some cursor => (.done, { s with cursor })
    | none => (.unknown name, s)
  | .parse parser =>
    let r := parser.parse g depth s.cursor
    (replyTo r.ending .fragments, { s with cursor := r.cursor })
  | .parseMerged parser =>
    let r := parser.parseMerged g depth s.cursor
    (replyTo r.ending fun fragments => .merged (String.join fragments),
      { s with cursor := r.cursor })

/-- The session after several steps. -/
def run (g : Grammar κ) (depth : Nat) (s : Session) (commands : List (Command κ)) : Session :=
  commands.foldl (fun s command => (s.step g depth command).2) s

end Session

end Backtrack

import Backtrack.Markup

/-!
The commands: which text to read, what to do with it, and what a call shows of that.

A command is a `Handler`: it logs, prints and complains, and may end in an error. What it did up to
there stays done, and the order of all it did is kept. Reading can fail; printing is taken to
succeed. Some things are not decided here. `answer` takes an argument parser, which makes of the
arguments a command with its path, and `Surroundings`, which say what the sources hold, which
notices the environment lets pass, and how a notice reads as a line.
-/

namespace Backtrack.CommandLine

/-! ### Sources -/

/-- Where a text comes from. -/
inductive Source where
  | standardInput
  | file (path : String)
deriving DecidableEq, Repr

/-- The source that a path names; a single hyphen, or no path, is standard input. -/
def Source.ofPath? : Option String → Source
  | none | some "-" => standardInput
  | some path => file path

/-- Why a text could not be read. What was read need not be UTF-8, and then it is no text. -/
inductive ReadFailure where
  | notFound
  | isDirectory
  | notText
  | other (reason : String)
deriving DecidableEq, Repr

/-- The text shown for a failure of reading. -/
def ReadFailure.message : ReadFailure → String
  | .notFound => "No such file or directory (os error 2)"
  | .isDirectory => "Is a directory (os error 21)"
  | .notText => "stream did not contain valid UTF-8"
  | .other reason => reason

/-- The text of what was read. -/
def decode (bytes : ByteArray) : Except ReadFailure String :=
  match String.fromUTF8? bytes with
  | some text => .ok text
  | none => .error .notText

/-! ### Effects -/

/-- What a command notes in the log: all that happens during a parse, the file it is about to read,
and how many bytes of a text are left where it could not be split to its end. -/
inductive Notice where
  | parsing (event : Event Empty)
  | reading (path : String)
  | notFullySplit (remaining : Nat)

namespace Notice

/-- The level of a notice. -/
def level : Notice → Level
  | parsing event => event.level
  | reading _ => .info
  | notFullySplit _ => .warn

/-- What a notice says, without its particulars. -/
def message : Notice → String
  | parsing event => event.message
  | reading path => "Reading input from " ++ path
  | notFullySplit _ => "input was not fully split"

/-- The particulars of a notice, by name. -/
def fields : Notice → List (String × Event.Value)
  | parsing event => event.fields
  | reading _ => []
  | notFullySplit remaining => [("remaining", .number remaining)]

end Notice

/-- What a command does that can be seen from outside: it notes something in the log, prints to
standard output, or complains on standard error. -/
inductive Effect where
  | logged (notice : Notice)
  | printed (text : String)
  | complained (text : String)

/-- What an effect puts on standard output. -/
def Effect.stdout : Effect → String
  | printed text => text
  | _ => ""

/-! ### Commands -/

/-- A command at work. An error ends it; what it did before stays done. -/
abbrev Handler :=
  ExceptT Error (StateM (List Effect))

namespace Handler

/-- What a command comes to, and all that has been done by then. -/
def perform {α : Type} (action : Handler α) (before : List Effect) :
    Except Error α × List Effect :=
  (ExceptT.run action).run before

/-- Does all of this. -/
def emit (effects : List Effect) : Handler Unit :=
  modify (· ++ effects)

/-- Notes all of this in the log. -/
def log (notices : List Notice) : Handler Unit :=
  emit (notices.map .logged)

/-- Prints these texts, one behind the other. -/
def print (texts : List String) : Handler Unit :=
  emit (texts.map .printed)

/-- The text at a source. -/
def load (read : Source → Except ReadFailure ByteArray) (source : Source) : Handler String :=
  match read source >>= decode with
  | .ok text => pure text
  | .error failure => throw (.io failure.message)

/-- The text to work on. That a file is going to be read is noted before. -/
def readInput (read : Source → Except ReadFailure ByteArray) (path? : Option String) :
    Handler String := do
  match Source.ofPath? path? with
  | .standardInput => load read .standardInput
  | .file path =>
    log [.reading path]
    load read (.file path)

/-- Prints a text as HTML. -/
def html (read : Source → Except ReadFailure ByteArray) (path? : Option String) :
    Handler Unit := do
  let input ← readInput read path?
  log ((Markup.document.events input).map .parsing)
  print [(Markup.Page.mk input).html]

/-- Prints the runs of a text, one per line, and complains of what is left behind them. -/
def split (read : Source → Except ReadFailure ByteArray) (path? : Option String) :
    Handler Unit := do
  let input ← readInput read path?
  log ((Markup.segment.events input).map .parsing)
  let outcome := Markup.split input
  print ((outcome.fragments?.getD []).map (· ++ "\n"))
  if outcome.remainder ≠ "" then
    log [.notFullySplit outcome.remainder.utf8ByteSize]
    emit [.complained ("unparsed: " ++ outcome.remainder ++ "\n")]

/-- The exit code of a command, and all that was done until then. An error is complained of, and
makes the call a failure. -/
def conclude (action : Handler Unit) : Nat × List Effect :=
  match action.perform [] with
  | (.ok _, effects) => (0, effects)
  | (.error fault, effects) =>
    (1, effects ++ [.complained ("Error: " ++ fault.message ++ "\n")])

end Handler

/-! ### Calls -/

/-- What the arguments of a call ask for: a command, and the path behind it, if there is one. -/
structure Matches where
  command : String
  path? : Option String
deriving DecidableEq, Repr

/-- What a call of the program answers. -/
structure Response where
  code : Nat
  stdout : String
  stderr : String
deriving DecidableEq, Repr

/-- What is made of the arguments of a call. Where they ask for help, say, or cannot be understood,
the argument parser answers itself, and the call is over. -/
abbrev ArgumentParser :=
  List String → Except Response (Option Matches)

/-- Which notices are shown. -/
abbrev Filter :=
  Notice → Bool

/-- The filter that shows notices of a level and of those above. -/
def Filter.atLeast (least : Level) : Filter :=
  fun notice => least ≤ notice.level

/-- What a call meets outside of the program: the filter that the environment names, if it does
name one, how a notice reads as a line, and what there is to be read. -/
structure Surroundings where
  filter? : Option Filter
  line : Notice → String
  read : Source → Except ReadFailure ByteArray

namespace Surroundings

/-- The filter of a call. Unless the environment names another, only warnings are shown. -/
def filter (around : Surroundings) : Filter :=
  around.filter?.getD (.atLeast .warn)

/-- What an effect puts on standard error. -/
def stderr (around : Surroundings) : Effect → String
  | .logged notice => if around.filter notice then around.line notice else ""
  | .printed _ => ""
  | .complained text => text

/-- What is seen of a call that ends with this exit code, having done all of this. -/
def response (around : Surroundings) (code : Nat) (effects : List Effect) : Response :=
  ⟨code, String.join (effects.map Effect.stdout), String.join (effects.map around.stderr)⟩

end Surroundings

/-- Carries out the command that was asked for. There are two; to ask for none is no error. -/
def dispatch (read : Source → Except ReadFailure ByteArray) : Option Matches → Handler Unit
  | some ⟨"html", path?⟩ => .html read path?
  | some ⟨"split", path?⟩ => .split read path?
  | _ => pure ()

/-- The answer to a call of the program with these arguments. -/
def answer (parse : ArgumentParser) (around : Surroundings) (arguments : List String) :
    Response :=
  match parse arguments with
  | .error response => response
  | .ok found? =>
    let (code, effects) := (dispatch around.read found?).conclude
    around.response code effects

end Backtrack.CommandLine

import Backtrack.CommandLine.Handler

/-!
The command line of the program: one way to take the arguments apart, and what the program answers
where the environment names no filter.

The commands themselves do not depend on how that is done; see `answer`.
-/

namespace Backtrack.CommandLine

namespace Arguments

/-- What is shown to those who ask for help, and to those who cannot be understood: a line for each
command. -/
def usage : String :=
  "textcomb html [PATH]   Convert *bold* markers to <strong> tags\n" ++
    "textcomb split [PATH]  Split text into plain and *delimited* runs\n"

/-- Arguments that cannot be understood. -/
def misuse : Response :=
  ⟨2, "", usage⟩

/-- An argument that is an option: a hyphen and something behind it. -/
def isOption (argument : String) : Bool :=
  match argument.toList with
  | '-' :: _ :: _ => true
  | _ => false

/-- The answer to an option that asks for help. Of several letters in one argument the first
decides. -/
def help? (argument : String) : Option Response :=
  if argument = "--help" || ['-', 'h'].isPrefixOf argument.toList then some ⟨0, usage, ""⟩
  else none

/-- The arguments behind a command, `path?` being the path among those before them. At most one
path may be given, and `--` makes all arguments behind it paths. -/
def parseOperands (command : String) (path? : Option String) :
    List String → Except Response (Option Matches)
  | [] => .ok (some ⟨command, path?⟩)
  | argument :: rest =>
    if argument = "--" then
      match path?, rest with
      | _, [] => .ok (some ⟨command, path?⟩)
      | none, [path] => .ok (some ⟨command, some path⟩)
      | _, _ => .error misuse
    else if isOption argument then .error ((help? argument).getD misuse)
    else
      match path? with
      | none => parseOperands command (some argument) rest
      | some _ => .error misuse

/-- The arguments of the program. -/
def parse : ArgumentParser
  | [] => .error misuse
  | argument :: rest =>
    if argument = "--version" || ['-', 'V'].isPrefixOf argument.toList then
      .error ⟨0, "textcomb 0.1.0\n", ""⟩
    else if argument = "html" || argument = "split" then parseOperands argument none rest
    else if argument = "help" then
      match rest with
      | [] | ["help"] | ["html"] | ["split"] => .error ⟨0, usage, ""⟩
      | _ => .error misuse
    else .error ((help? argument).getD misuse)

end Arguments

/-- A notice as a line: its level, what it says, and its particulars. -/
def Notice.line (notice : Notice) : String :=
  notice.level.name ++ " " ++ notice.message ++ String.join (notice.fields.map field) ++ "\n"
where
  field : String × Event.Value → String
    | (name, .number n) => " " ++ name ++ "=" ++ toString n
    | (name, .flag b) => " " ++ name ++ "=" ++ toString b
    | (name, .text s) => " " ++ name ++ "=" ++ s

/-- The answer to a call of the program, where `read` gives the bytes of a source. -/
def respond (read : Source → Except ReadFailure ByteArray) (arguments : List String) : Response :=
  answer Arguments.parse ⟨none, Notice.line, read⟩ arguments

end Backtrack.CommandLine

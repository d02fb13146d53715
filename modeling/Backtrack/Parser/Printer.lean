import Backtrack.Parser
import Backtrack.Text.Quoted

/-!
The written form of a parser.

Every node is written as a call: a name, and its arguments in parentheses, separated by a comma
and a blank. The argument of a character is the quoted character, the argument of a count its
decimal digits. Labels are not written; each chain shows the same placeholder for what follows.
-/

namespace Backtrack.Parser

variable {κ : Type}

/-- A name and its arguments. -/
def writtenCall (name : String) (arguments : List (List Char)) : List Char :=
  name.toList ++ '(' :: [',', ' '].intercalate arguments ++ [')']

/-- The placeholder for what a chain goes on with. -/
def continuationText : List Char :=
  "<fn>".toList

mutual

/-- The written form, character by character. -/
def written : Parser κ → List Char
  | literal expected => writtenCall "literal" [(Text.quoted expected).toList]
  | any => writtenCall "any" []
  | anyExcept excluded => writtenCall "any_except" [(Text.quoted excluded).toList]
  | either first second => writtenCall "or" [written first, written second]
  | sequence parts => writtenCall "and" (writtenEach parts)
  | merge whole => writtenCall "merge" [written whole]
  | times part count => writtenCall "repeat" [written part, Nat.toDigits 10 count]
  | oneOrMore part => writtenCall "repeat_while_successful" [written part]
  | chain first _ => writtenCall "chain" [written first, continuationText]
  | fail => writtenCall "fail" []

/-- The written forms of several parsers. -/
def writtenEach : List (Parser κ) → List (List Char)
  | [] => []
  | part :: parts => written part :: writtenEach parts

end

theorem writtenEach_eq_map (parts : List (Parser κ)) : writtenEach parts = parts.map written := by
  induction parts with
  | nil => rfl
  | cons part parts ih => rw [writtenEach, ih, List.map_cons]

/-- The written form of a parser. -/
def render (p : Parser κ) : String :=
  String.ofList p.written

/-- The written form of a parser, marked as being one. -/
def renderTagged (p : Parser κ) : String :=
  String.ofList (writtenCall "Parser" [p.written])

theorem toList_render (p : Parser κ) : p.render.toList = p.written :=
  String.toList_ofList

end Backtrack.Parser

import Backtrack.Matcher.Repetition
import Backtrack.Parser

/-!
What a parser does to a cursor.

`Parser.matcher` follows the tree, and leaves the parsers that chains go on with to its argument
`call`. `Parser.parse` closes that circle: continuations may be nested as deep as its first number
says, and a call that needs more is left unfinished. A parser without chains needs no depth at
all.
-/

namespace Backtrack.Parser

variable {κ : Type}

mutual

/-- What a tree does when `call` runs the parsers that its chains go on with. -/
def matcher (g : Grammar κ) (call : Parser κ → Matcher κ) : Parser κ → Matcher κ
  | literal expected => Matcher.satisfying (· == expected)
  | any => Matcher.satisfying fun _ => true
  | anyExcept excluded => Matcher.satisfying (· != excluded)
  | either first second => Matcher.either (matcher g call first) (matcher g call second)
  | sequence parts => Matcher.sequence (matchers g call parts)
  | merge whole => Matcher.merge (matcher g call whole)
  | times part count => Matcher.times (matcher g call part) count
  | oneOrMore part => Matcher.oneOrMore (matcher g call part)
  | chain first label => Matcher.chain (matcher g call first) (g label) call
  | fail => Report.still .noMatch

/-- What each of several trees does. -/
def matchers (g : Grammar κ) (call : Parser κ → Matcher κ) : List (Parser κ) → List (Matcher κ)
  | [] => []
  | part :: parts => matcher g call part :: matchers g call parts

end

theorem matchers_eq_map (g : Grammar κ) (call : Parser κ → Matcher κ) (parts : List (Parser κ)) :
    matchers g call parts = parts.map (matcher g call) := by
  induction parts with
  | nil => rfl
  | cons part parts ih => rw [matchers, ih, List.map_cons]

/-- What runs the parsers that chains go on with, nested at most `depth` deep. -/
def onward (g : Grammar κ) : (depth : Nat) → Parser κ → Matcher κ
  | 0 => fun _ => Report.still .unfinished
  | depth + 1 => matcher g (onward g depth)

/-- What a parser does, with continuations nested at most `depth` deep. -/
def parse (g : Grammar κ) (depth : Nat) : Parser κ → Matcher κ :=
  matcher g (onward g depth)

/-- As `parse`, with the fragments joined into one text. -/
def parseMerged (g : Grammar κ) (depth : Nat) (p : Parser κ) : Matcher κ := fun c =>
  (parse g depth p c).mapFragments fun fragments => [String.join fragments]

/-! ### One equation for each way of putting parsers together -/

section Equations

variable (g : Grammar κ) (depth : Nat)

/-- A continuation is parsed like any parser, one level less deep. -/
theorem onward_succ : onward g (depth + 1) = parse g depth := rfl

theorem parse_literal (expected : Char) :
    parse g depth (literal expected) = Matcher.satisfying (· == expected) := rfl

theorem parse_any : parse g depth any = Matcher.satisfying fun _ => true := rfl

theorem parse_anyExcept (excluded : Char) :
    parse g depth (anyExcept excluded) = Matcher.satisfying (· != excluded) := rfl

theorem parse_either (first second : Parser κ) :
    parse g depth (either first second) =
      Matcher.either (parse g depth first) (parse g depth second) := rfl

theorem parse_sequence (parts : List (Parser κ)) :
    parse g depth (sequence parts) = Matcher.sequence (parts.map (parse g depth)) := by
  rw [parse, matcher, matchers_eq_map]

theorem parse_andThen (first second : Parser κ) :
    parse g depth (first.andThen second) =
      Matcher.sequence [parse g depth first, parse g depth second] :=
  parse_sequence g depth [first, second]

theorem parse_merge (whole : Parser κ) :
    parse g depth (merge whole) = Matcher.merge (parse g depth whole) := rfl

theorem parse_times (part : Parser κ) (count : Nat) :
    parse g depth (times part count) = Matcher.times (parse g depth part) count := rfl

theorem parse_oneOrMore (part : Parser κ) :
    parse g depth (oneOrMore part) = Matcher.oneOrMore (parse g depth part) := rfl

theorem parse_chain (first : Parser κ) (label : κ) :
    parse g depth (chain first label) =
      Matcher.chain (parse g depth first) (g label) (onward g depth) := rfl

theorem parse_fail : parse g depth (fail : Parser κ) = Report.still .noMatch := rfl

end Equations

end Backtrack.Parser
